import AgentOs.VmManager.System

/-!
# The manager and the VMMs agree

The manager's table repeats what the VMMs' lifecycle words say, as long as the guests wait for
BOOT, no teardown fails and no restart fails halfway.  A DESTROY whose teardown fails leaves the
slot RUNNING while the VMM is DESTROYING; a guest that its VMM starts at once runs in a slot that
is FREE.
-/

open Function (update update_idem update_self update_of_ne update_eq_self)

namespace AgentOs.VmManager

open Library Prog Ipc GuestVmm List Option

/-! ## Agreement -/

/-- The VMM that a slot is dedicated to. -/
def dedicatedAt (build : ManagerBuild) (slotId : Nat) : Option VmmPd :=
  if build.hasPrimary then
    if slotId = 0 then some .primary
    else if slotId = 1 /\ build.hasSecondary = true then some .secondary else none
  else if slotId = 0 /\ build.hasSecondary = true then some .secondary else none

def VmSlot.inUse (slot : VmSlot) : Bool := slot.state != .free

def slotsInUse (m : Manager) : Nat := (range vmMaxSlots).countP fun i => (m.slots i).inUse

structure Agrees (build : ManagerBuild) (s : System) : Prop where
  running : ∀ i pd, dedicatedAt build i = some pd -> (s.manager.slots i).guestBound = true ->
    (s.manager.slots i).state = .running -> (s.vmm pd).state = .running
  suspended : ∀ i pd, dedicatedAt build i = some pd -> (s.manager.slots i).guestBound = true ->
    (s.manager.slots i).state = .suspended -> (s.vmm pd).state = .suspended
  free : ∀ i pd, dedicatedAt build i = some pd -> (s.manager.slots i).state = .free ->
    ((s.vmm pd).state = .ready \/ (s.vmm pd).state = .dead) /\ (s.vmm pd).started = false
  count : s.manager.slotCount = slotsInUse s.manager

/-! ## The table -/

theorem slotsInUse_eq (m : Manager) : slotsInUse m = (m.slots 0).inUse.toNat +
    (m.slots 1).inUse.toNat + (m.slots 2).inUse.toNat + (m.slots 3).inUse.toNat := by
  have hbit (b : Bool) : (if b = true then 1 else 0) = b.toNat := by cases b <;> rfl
  have hrange : range vmMaxSlots = [0, 1, 2, 3] := rfl
  unfold slotsInUse
  simp only [hrange, countP_cons, countP_nil, hbit]
  omega

/-- Where a slot is dedicated to a VMM, and what each of them says. -/
inductive SlotOk (slot : VmSlot) (pd : VmmPd) (v : Vmm) : Prop where
  | free : slot.state = .free -> slot.vmmEp = none -> v.state = .ready \/ v.state = .dead ->
      SlotOk slot pd v
  | running : slot.state = .running -> slot.vmmEp = some pd -> v.state = .running -> SlotOk slot pd v
  | suspended : slot.state = .suspended -> slot.vmmEp = some pd -> v.state = .suspended ->
      SlotOk slot pd v

variable {pd : VmmPd} {v v' : Vmm}

theorem SlotOk.same {slot slot' : VmSlot} (hslot : SlotOk slot pd v)
    (hstate : slot'.state = slot.state) (hvmmEp : slot'.vmmEp = slot.vmmEp)
    (hword : v'.state = v.state) : SlotOk slot' pd v' := by
  cases hslot with
  | free h1 h2 h3 => exact .free (hstate.trans h1) (hvmmEp.trans h2) (by rw [hword]; exact h3)
  | running h1 h2 h3 => exact .running (hstate.trans h1) (hvmmEp.trans h2) (hword.trans h3)
  | suspended h1 h2 h3 => exact .suspended (hstate.trans h1) (hvmmEp.trans h2) (hword.trans h3)

structure SystemInv (build : ManagerBuild) (env : Environment) (m : Manager)
    (vmms : VmmPd -> Vmm) : Prop where
  vmm : ∀ pd, VmmInv (env.runtime pd) (vmms pd)
  dedicated : ∀ i pd, dedicatedAt build i = some pd -> SlotOk (m.slots i) pd (vmms pd)
  other : ∀ i, dedicatedAt build i = none -> (m.slots i).state = .free /\ (m.slots i).vmmEp = none
  count : m.slotCount = slotsInUse m

abbrev KeepsInv (build : ManagerBuild) (env : Environment) {α : Type}
    (program : ManagerM (α × Manager)) (vmms : VmmPd -> Vmm) : Prop :=
  Establishes (CallExec env) (fun r vmms' => SystemInv build env r.2 vmms') program vmms

variable {s : System} {build : ManagerBuild}

theorem SystemInv.agrees {env : Environment} (hinv : SystemInv build env s.manager s.vmm) :
    Agrees build s := by
  constructor
  · intro i pd hpd _ hstate
    cases hinv.dedicated i pd hpd with
    | running _ _ h => exact h
    | free h => rw [hstate] at h; cases h
    | suspended h => rw [hstate] at h; cases h
  · intro i pd hpd _ hstate
    cases hinv.dedicated i pd hpd with
    | suspended _ _ h => exact h
    | free h => rw [hstate] at h; cases h
    | running h => rw [hstate] at h; cases h
  · intro i pd hpd hstate
    cases hinv.dedicated i pd hpd with
    | free _ _ h => exact ⟨h, (hinv.vmm pd).words.stopped h⟩
    | running h => rw [hstate] at h; cases h
    | suspended h => rw [hstate] at h; cases h
  · exact hinv.count

variable {i : Nat}

theorem dedicatedAt_lt (hpd : dedicatedAt build i = some pd) : i < vmMaxSlots := by
  unfold dedicatedAt at hpd
  have hsmall : i = 0 \/ i = 1 := by
    by_contra h
    rw [not_or] at h
    simp [h.1, h.2] at hpd
  rcases hsmall with rfl | rfl <;> decide

theorem dedicatedAt_inj {j : Nat} (hi : dedicatedAt build i = some pd)
    (hj : dedicatedAt build j = some pd) : i = j := by
  unfold dedicatedAt at hi hj
  split at hi <;> split at hj <;> (try contradiction) <;> grind

/-- CREATE goes to the slot of the VMM it is for. -/
theorem dedicatedAt_create {vmType : UInt32} {ep : VmmPd}
    (hep : vmEndpointForType build vmType = some ep) (htype : isProfile vmType = true) :
    dedicatedAt build (dedicatedSlotForType build vmType) = some ep := by
  unfold vmEndpointForType at hep
  unfold dedicatedAt dedicatedSlotForType
  have hcase : vmType = 0 \/ vmType = 1 := by simpa [isProfile] using htype
  obtain ⟨hasPrimary, hasSecondary, _, _, _⟩ := build
  rcases hcase with rfl | rfl <;> cases hasPrimary <;> cases hasSecondary <;> simp_all

/-! ## The manager's calls -/

/-- What agreement is about stays as it is. -/
structure SameTable (m m' : Manager) : Prop where
  state : ∀ i, (m'.slots i).state = (m.slots i).state
  vmmEp : ∀ i, (m'.slots i).vmmEp = (m.slots i).vmmEp
  slotCount : m'.slotCount = m.slotCount

theorem SameTable.refl (m : Manager) : SameTable m m := ⟨fun _ => rfl, fun _ => rfl, rfl⟩

variable {m' : Manager} {m : Manager}

theorem SameTable.slotsInUse_eq (hsame : SameTable m m') : slotsInUse m' = slotsInUse m := by
  unfold slotsInUse VmSlot.inUse
  simp only [hsame.state]

theorem SameTable.trans {m1 m2 : Manager} (h1 : SameTable m m1) (h2 : SameTable m1 m2) :
    SameTable m m2 :=
  ⟨fun i => (h2.state i).trans (h1.state i), fun i => (h2.vmmEp i).trans (h1.vmmEp i),
    h2.slotCount.trans h1.slotCount⟩

theorem SameTable.setSlot {slot : VmSlot} (hstate : slot.state = (m.slots i).state)
    (hvmmEp : slot.vmmEp = (m.slots i).vmmEp) :
    SameTable m (m.setSlot i slot) := by
  have hslot (j : Nat) : ((m.setSlot i slot).slots j).state = (m.slots j).state /\
      ((m.setSlot i slot).slots j).vmmEp = (m.slots j).vmmEp := by
    by_cases hj : j = i
    · subst hj
      rw [setSlot_slots_self]
      exact ⟨hstate, hvmmEp⟩
    · rw [setSlot_slots_of_ne m hj]
      exact ⟨rfl, rfl⟩
  exact ⟨fun j => (hslot j).1, fun j => (hslot j).2, rfl⟩

/-- The other slots stay as they are. -/
def SameBut (i : Nat) (m m' : Manager) : Prop :=
  ∀ j, j ≠ i -> (m'.slots j).state = (m.slots j).state /\ (m'.slots j).vmmEp = (m.slots j).vmmEp

theorem SameTable.sameBut (hsame : SameTable m m') (i : Nat) : SameBut i m m' :=
  fun j _ => ⟨hsame.state j, hsame.vmmEp j⟩

theorem SameBut.trans {m1 m2 : Manager} (h1 : SameBut i m m1) (h2 : SameBut i m1 m2) :
    SameBut i m m2 :=
  fun j hj => ⟨(h2 j hj).1.trans (h1 j hj).1, (h2 j hj).2.trans (h1 j hj).2⟩

theorem sameBut_setSlot (m : Manager) (i : Nat) (slot : VmSlot) :
    SameBut i m (m.setSlot i slot) := by
  intro j hj
  rw [setSlot_slots_of_ne m hj]
  exact ⟨rfl, rfl⟩

theorem sameBut_reserveSlot (m : Manager) (i : Nat) (vmType flags : UInt32) (ep : VmmPd) :
    SameBut i m (reserveSlot m i vmType flags ep) :=
  sameBut_setSlot m i _

theorem sameBut_releaseSlot (m : Manager) (i : Nat) : SameBut i m (releaseSlot m i) :=
  sameBut_setSlot m i _

theorem bindGuest_same (m : Manager) (i : Nat) (rep : Sel4Msg) :
    SameTable m (bindGuest m i rep).2 := by
  unfold bindGuest
  split
  · exact .refl m
  · exact .setSlot rfl rfl

section Calls

variable {build : ManagerBuild} {env : Environment} {m : Manager} {vmms : VmmPd -> Vmm}

/-- One VMM moved, and keeps its own invariant. -/
def Moved (env : Environment) (vmms : VmmPd -> Vmm) (pd : VmmPd) (P : GuestState -> Prop)
    (vmms' : VmmPd -> Vmm) : Prop :=
  ∃ v', vmms' = update vmms pd v' /\ VmmInv (env.runtime pd) v' /\ P v'.state

theorem Moved.refl {P : GuestState -> Prop} (hvmm : VmmInv (env.runtime pd) (vmms pd))
    (hP : P (vmms pd).state) : Moved env vmms pd P vmms :=
  ⟨vmms pd, (update_eq_self pd vmms).symm, hvmm, hP⟩

variable {op : LifecycleOp}

theorem vmmServe_outcome {answers : Answers} (hanswers : NoTeardownFails answers)
    {runtime : GuestVmmRuntime} (hinv : VmmInv runtime v) {req : Sel4Msg}
    (hop : req.opcode = lifecycleOpcode op) :
    Answering answers runtime (fun rep v' => Outcome runtime op v rep v')
      (vmmServe runtime req) v := by
  refine (lifecycleRpc_outcome hanswers hinv hop emptyMsg).bind ?_
  rintro reply v' ⟨rep', rfl, houtcome⟩
  exact houtcome

theorem dedicatedGuestRpc_spec (hanswers : NoTeardownFails env.onRequest)
    (hvmms : ∀ pd, VmmInv (env.runtime pd) (vmms pd)) (hep : (m.slots i).vmmEp = some pd)
    (op : LifecycleOp) (payload : Payload) (length : UInt32) :
    Establishes (CallExec env) (fun r vmms' => SameTable m r.2 /\ Moved env vmms pd
      (fun state => r.1 = true /\ state = op.target \/
        r.1 = false /\ (state = (vmms pd).state \/ op = .create /\ state = .ready)) vmms')
      (dedicatedGuestRpc m i (lifecycleOpcode op) payload length) vmms := by
  unfold dedicatedGuestRpc
  rw [hep]
  dsimp only
  split
  · exact ⟨.refl m, .refl (hvmms pd) (.inr ⟨rfl, .inl rfl⟩)⟩
  split
  case h_1 => exact ⟨.refl m, .refl (hvmms pd) (.inr ⟨rfl, .inl rfl⟩)⟩
  case h_2 req hreq =>
    have hop : req.opcode = lifecycleOpcode op := by
      unfold guestRequest at hreq
      split at hreq
      · cases hreq
        rfl
      · split at hreq
        · cases hreq
        · cases hreq
          rfl
    rintro rep vmms' ⟨hserve⟩
    obtain ⟨hinv', ⟨hok, htarget⟩ | ⟨hfail, hsame⟩⟩ :=
      (vmmServe_outcome hanswers (hvmms pd) hop).executes hserve
    · show Establishes _ _ (if rep.opcode != guestOk then pure (false, m) else if _ then
        pure (bindGuest m i rep) else pure (true, m)) _
      rw [if_neg (by simpa using hok)]
      split
      case isTrue hcreate =>
        have hop' : op = .create := by cases op <;> first | rfl | cases hcreate
        subst hop'
        refine ⟨bindGuest_same m i rep, _, rfl, hinv', ?_⟩
        cases hbound : (bindGuest m i rep).1 with
        | true => exact .inl ⟨rfl, htarget⟩
        | false => exact .inr ⟨rfl, .inr ⟨rfl, htarget⟩⟩
      case isFalse => exact ⟨.refl m, _, rfl, hinv', .inl ⟨rfl, htarget⟩⟩
    · show Establishes _ _ (if rep.opcode != guestOk then pure (false, m) else if _ then
        pure (bindGuest m i rep) else pure (true, m)) _
      rw [if_pos (by simpa using hfail)]
      exact ⟨.refl m, _, rfl, hinv', .inr ⟨rfl, .inl hsame⟩⟩

/-- A request that is not CREATE; the slot takes the next state when it succeeds. -/
theorem dedicatedGuestCall_spec (hanswers : NoTeardownFails env.onRequest)
    (hvmms : ∀ pd, VmmInv (env.runtime pd) (vmms pd)) (hep : (m.slots i).vmmEp = some pd)
    (hop : op ≠ .create) (next : VmSlotState) :
    Establishes (CallExec env) (fun r vmms' => Moved env vmms pd (fun state =>
      (r.1 = true /\ (∃ m1, SameTable m m1 /\
          r.2 = m1.setSlot i { m1.slots i with state := next }) /\ state = op.target) \/
        r.1 = false /\ SameTable m r.2 /\ state = (vmms pd).state) vmms')
      (dedicatedGuestCall m i (lifecycleOpcode op) next) vmms := by
  unfold dedicatedGuestCall
  refine (dedicatedGuestRpc_spec hanswers hvmms hep op _ _).bind ?_
  rintro ⟨ok, m1⟩ vmms' ⟨hsame, v', rfl, hinv', hcases⟩
  rcases hcases with ⟨rfl, htarget⟩ | ⟨rfl, hstate⟩
  · exact ⟨v', rfl, hinv', .inl ⟨rfl, ⟨m1, hsame, rfl⟩, htarget⟩⟩
  · exact ⟨v', rfl, hinv', .inr ⟨rfl, hsame, hstate.resolve_right fun h => hop h.1⟩⟩

/-! ## What keeps the invariant -/

theorem vmmInv_update (hvmms : ∀ pd, VmmInv (env.runtime pd) (vmms pd))
    (hvmm : VmmInv (env.runtime pd) v') : ∀ j, VmmInv (env.runtime j) (update vmms pd v' j) :=
  (Function.forall_update_iff vmms fun j => VmmInv (env.runtime j)).mpr ⟨hvmm, fun j _ => hvmms j⟩

/-- Two tables that agree but for one slot. -/
theorem slotsInUse_replace {m : Manager} (hi : i < vmMaxSlots) (hsame : SameBut i m m') :
    slotsInUse m' + (m.slots i).inUse.toNat = slotsInUse m + (m'.slots i).inUse.toNat := by
  have hother (j : Nat) (hj : j ≠ i) : (m'.slots j).inUse = (m.slots j).inUse := by
    unfold VmSlot.inUse
    rw [(hsame j hj).1]
  have hcases : i = 0 \/ i = 1 \/ i = 2 \/ i = 3 := by
    have : i < 4 := hi
    omega
  rw [slotsInUse_eq, slotsInUse_eq]
  rcases hcases with rfl | rfl | rfl | rfl
  · rw [hother 1 (by decide), hother 2 (by decide), hother 3 (by decide)]
    omega
  · rw [hother 0 (by decide), hother 2 (by decide), hother 3 (by decide)]
    omega
  · rw [hother 0 (by decide), hother 1 (by decide), hother 3 (by decide)]
    omega
  · rw [hother 0 (by decide), hother 1 (by decide), hother 2 (by decide)]
    omega

section

variable (hinv : SystemInv build env m vmms)

include hinv

/-- One slot and its VMM change together. -/
theorem SystemInv.replace (hpd : dedicatedAt build i = some pd) (hsame : SameBut i m m')
    (hvmm : VmmInv (env.runtime pd) v') (hslot : SlotOk (m'.slots i) pd v')
    (hcount : m'.slotCount + (m.slots i).inUse.toNat = m.slotCount + (m'.slots i).inUse.toNat) :
    SystemInv build env m' (update vmms pd v') := by
  constructor
  · exact vmmInv_update hinv.vmm hvmm
  · intro j pd' hpd'
    by_cases hj : j = i
    · subst hj
      obtain rfl : pd' = pd := some.inj (hpd'.symm.trans hpd)
      rw [update_self]
      exact hslot
    · have hne : pd' ≠ pd := by
        rintro rfl
        exact hj (dedicatedAt_inj hpd' hpd)
      rw [update_of_ne hne]
      exact (hinv.dedicated j pd' hpd').same (hsame j hj).1 (hsame j hj).2 rfl
  · intro j hnone
    have hj : j ≠ i := by
      rintro rfl
      rw [hpd] at hnone
      cases hnone
    rw [(hsame j hj).1, (hsame j hj).2]
    exact hinv.other j hnone
  · have hinUse := slotsInUse_replace (dedicatedAt_lt hpd) hsame
    have hold := hinv.count
    omega

theorem SystemInv.same (hsame : SameTable m m') : SystemInv build env m' vmms := by
  constructor
  · exact hinv.vmm
  · intro i pd hpd
    exact (hinv.dedicated i pd hpd).same (hsame.state i) (hsame.vmmEp i) rfl
  · intro i hnone
    rw [hsame.state, hsame.vmmEp]
    exact hinv.other i hnone
  · rw [hsame.slotCount, hsame.slotsInUse_eq]
    exact hinv.count

/-- A slot with an endpoint runs or is suspended, and so does its VMM. -/
theorem SystemInv.bound (hep : (m.slots i).vmmEp = some pd) : dedicatedAt build i = some pd /\
      ((m.slots i).state = .running /\ (vmms pd).state = .running \/
        (m.slots i).state = .suspended /\ (vmms pd).state = .suspended) := by
  cases hpd : dedicatedAt build i with
  | none =>
    have hnone := (hinv.other i hpd).2
    rw [hep] at hnone
    cases hnone
  | some pd' =>
    rcases hinv.dedicated i pd' hpd with ⟨h1, h2, h3⟩ | ⟨h1, h2, h3⟩ | ⟨h1, h2, h3⟩
    · rw [hep] at h2
      cases h2
    · obtain rfl : pd' = pd := some.inj (h2.symm.trans hep)
      exact ⟨rfl, .inl ⟨h1, h3⟩⟩
    · obtain rfl : pd' = pd := some.inj (h2.symm.trans hep)
      exact ⟨rfl, .inr ⟨h1, h3⟩⟩

theorem SystemInv.inUse (hep : (m.slots i).vmmEp = some pd) : (m.slots i).inUse = true := by
  unfold VmSlot.inUse
  rcases (hinv.bound hep).2 with ⟨h, -⟩ | ⟨h, -⟩ <;> rw [h] <;> rfl

theorem SystemInv.unmoved (hpd : dedicatedAt build i = some pd) (hsame : SameTable m m')
    (hvmm : VmmInv (env.runtime pd) v') (hstate : v'.state = (vmms pd).state) :
    SystemInv build env m' (update vmms pd v') := by
  refine hinv.replace hpd (hsame.sameBut i) hvmm
    ((hinv.dedicated i pd hpd).same (hsame.state i) (hsame.vmmEp i) hstate) ?_
  unfold VmSlot.inUse
  rw [hsame.slotCount, hsame.state]

end

theorem countMessage_same (m : Manager) : SameTable m (countMessage m) := by
  unfold countMessage vmSchedTick
  dsimp only
  split
  · split
    case isTrue => split <;> exact ⟨fun _ => rfl, fun _ => rfl, rfl⟩
    split
    · exact ⟨fun _ => rfl, fun _ => rfl, rfl⟩
    · split <;> exact ⟨fun _ => rfl, fun _ => rfl, rfl⟩
  · exact ⟨fun _ => rfl, fun _ => rfl, rfl⟩

/-! ## The handlers -/

/-- The request after which a slot is in this state. -/
inductive Relays : LifecycleOp -> VmSlotState -> Prop where
  | suspend : Relays .suspend .suspended
  | resume : Relays .resume .running

variable {next : VmSlotState}

theorem dedicatedGuestCall_inv (hanswers : NoTeardownFails env.onRequest)
    (hinv : SystemInv build env m vmms) (hep : (m.slots i).vmmEp = some pd)
    (hrelays : Relays op next) :
    KeepsInv build env (dedicatedGuestCall m i (lifecycleOpcode op) next) vmms := by
  have hpd := (hinv.bound hep).1
  have hop : op ≠ .create := by cases hrelays <;> exact nofun
  refine (dedicatedGuestCall_spec hanswers hinv.vmm hep hop next).mono ?_
  rintro ⟨ok, m'⟩ vmms' ⟨v', rfl, hvmm, hcases⟩
  rcases hcases with ⟨-, ⟨m1, hsame, rfl⟩, htarget⟩ | ⟨-, hsame, hstate⟩
  · have hslot : SlotOk { m1.slots i with state := next } pd v' := by
      cases hrelays with
      | suspend => exact .suspended rfl ((hsame.vmmEp i).trans hep) htarget
      | resume => exact .running rfl ((hsame.vmmEp i).trans hep) htarget
    have hinUse : ({ m1.slots i with state := next } : VmSlot).inUse = true := by
      cases hrelays <;> rfl
    refine hinv.replace hpd ((hsame.sameBut i).trans (sameBut_setSlot m1 i _)) hvmm ?_ ?_
    · rw [setSlot_slots_self]
      exact hslot
    · rw [setSlot_slots_self, hinUse, hinv.inUse hep]
      exact congrArg (· + _) hsame.slotCount
  · exact hinv.unmoved hpd hsame hvmm hstate

theorem slotCount_pos (hinv : SystemInv build env m vmms) (hi : i < vmMaxSlots)
    (hinUse : (m.slots i).inUse = true) : 0 < m.slotCount := by
  rw [hinv.count]
  exact countP_pos_iff.mpr ⟨i, mem_range.mpr hi, hinUse⟩

theorem dedicatedDestroy_inv (hanswers : NoTeardownFails env.onRequest)
    (hinv : SystemInv build env m vmms) (hep : (m.slots i).vmmEp = some pd) :
    KeepsInv build env (dedicatedDestroy m i) vmms := by
  have hpd := (hinv.bound hep).1
  have hpos := slotCount_pos hinv (dedicatedAt_lt hpd) (hinv.inUse hep)
  have hop : LifecycleOp.destroy ≠ .create := nofun
  unfold dedicatedDestroy
  refine (dedicatedGuestCall_spec hanswers hinv.vmm hep hop .halted).bind ?_
  rintro ⟨ok, m'⟩ vmms' ⟨v', rfl, hvmm, hcases⟩
  rcases hcases with ⟨rfl, ⟨m1, hsame, rfl⟩, hdead⟩ | ⟨rfl, hsame, hstate⟩
  · refine hinv.replace hpd (((hsame.sameBut i).trans (sameBut_setSlot m1 i _)).trans
      (sameBut_releaseSlot _ i)) hvmm ?_ ?_
    · dsimp only
      rw [releaseSlot_slots_self]
      exact .free rfl rfl (.inr hdead)
    · have hcount : m1.slotCount = m.slotCount := hsame.slotCount
      dsimp only
      rw [releaseSlot_slots_self, hinv.inUse hep]
      show m1.slotCount - 1 + 1 = m.slotCount + 0
      omega
  · exact hinv.unmoved hpd hsame hvmm hstate

theorem Moved.trans {P : GuestState -> Prop} {vmms' : VmmPd -> Vmm}
    (hmoved : Moved env (update vmms pd v) pd P vmms') : Moved env vmms pd P vmms' := by
  obtain ⟨v', rfl, hvmm, hP⟩ := hmoved
  exact ⟨v', by rw [update_idem], hvmm, hP⟩

theorem prepareGuest_same (ep : VmmPd) :
    Establishes (CallExec env) (fun _ vmms' => vmms' = vmms) (prepareGuest build ep) vmms := by
  unfold prepareGuest
  split
  · exact rfl
  rintro (ok : Bool) _ ⟨⟩
  cases ok with
  | false => exact rfl
  | true =>
    rintro _ _ ⟨⟩
    exact rfl

/-- A guest that does not run. -/
def Idle (state : GuestState) : Prop := state = .ready \/ state = .dead

/-- CREATE and BOOT leave the guest running, or not started. -/
theorem createAndBoot_spec (hanswers : NoTeardownFails env.onRequest)
    (hvmms : ∀ pd, VmmInv (env.runtime pd) (vmms pd)) {ep : VmmPd}
    (hep : (m.slots i).vmmEp = some ep) (hrunning : (m.slots i).state = .running)
    (hidle : Idle (vmms ep).state) (vmType : UInt32) :
    Establishes (CallExec env) (fun r vmms' => SameTable m r.2 /\ Moved env vmms ep
      (fun state => r.1 = true /\ state = .running \/ r.1 = false /\ Idle state) vmms')
      (createAndBoot build m i vmType ep) vmms := by
  unfold createAndBoot
  refine (dedicatedGuestRpc_spec hanswers hvmms hep .create _ 4).bind ?_
  rintro ⟨created, m1⟩ vmms1 ⟨hsame1, v1, rfl, hvmm1, ⟨rfl, hready⟩ | ⟨rfl, hstate⟩⟩
  · refine (prepareGuest_same ep).bind ?_
    rintro prepared _ rfl
    cases prepared with
    | false => exact ⟨hsame1, v1, rfl, hvmm1, .inr ⟨rfl, .inl hready⟩⟩
    | true =>
      have hop : LifecycleOp.boot ≠ .create := nofun
      have hep1 := (hsame1.vmmEp i).trans hep
      have hvmms1 := vmmInv_update hvmms hvmm1
      refine (dedicatedGuestCall_spec hanswers hvmms1 hep1 hop .running).mono ?_
      rintro ⟨booted, m2⟩ vmms2 hmoved
      obtain ⟨v2, rfl, hvmm2, hcases⟩ := hmoved.trans
      rcases hcases with ⟨rfl, ⟨m1', hsame1', rfl⟩, htarget⟩ | ⟨rfl, hsame2, hstate2⟩
      · have hsame := hsame1.trans hsame1'
        refine ⟨hsame.trans (.setSlot ?_ rfl), v2, rfl, hvmm2, .inl ⟨rfl, htarget⟩⟩
        exact ((hsame.state i).trans hrunning).symm
      · rw [update_self] at hstate2
        exact ⟨hsame1.trans hsame2, v2, rfl, hvmm2, .inr ⟨rfl, .inl (hstate2.trans hready)⟩⟩
  · refine ⟨hsame1, v1, rfl, hvmm1, .inr ⟨rfl, ?_⟩⟩
    rcases hstate with h | ⟨-, h⟩
    · rw [h]
      exact hidle
    · exact .inl h

theorem dedicatedCreate_inv (hanswers : NoTeardownFails env.onRequest)
    (hinv : SystemInv build env m vmms) {vmType : UInt32} (htype : isProfile vmType = true)
    (ramMb flags : UInt32) :
    KeepsInv build env (dedicatedCreate build m vmType ramMb flags) vmms := by
  unfold dedicatedCreate
  split
  case h_1 => exact hinv
  case h_2 ep hep =>
    split
    · exact hinv
    split
    · exact hinv
    rename_i hbusy
    have hpd := dedicatedAt_create hep htype
    generalize dedicatedSlotForType build vmType = i at hbusy hpd
    have hfree : (m.slots i).state = .free := by simpa using hbusy
    have hidle : Idle (vmms ep).state := by
      cases hinv.dedicated i ep hpd with
      | free _ _ h => exact h
      | running h => rw [hfree] at h; cases h
      | suspended h => rw [hfree] at h; cases h
    have hinUse : (m.slots i).inUse = false := by
      unfold VmSlot.inUse
      rw [hfree]
      rfl
    have hslot := reserveSlot_slots_self m i vmType flags ep
    refine (createAndBoot_spec hanswers hinv.vmm (by rw [hslot]) (by rw [hslot]) hidle
      vmType).bind ?_
    rintro ⟨ok, m'⟩ _ ⟨hsame, v', rfl, hvmm, hcases⟩
    have hbut := (sameBut_reserveSlot m i vmType flags ep).trans (hsame.sameBut i)
    have hcount : m'.slotCount = m.slotCount + 1 := hsame.slotCount
    have hstate : (m'.slots i).state = .running := by rw [hsame.state, hslot]
    have hvmmEp : (m'.slots i).vmmEp = some ep := by rw [hsame.vmmEp, hslot]
    rcases hcases with ⟨rfl, hrunning⟩ | ⟨rfl, hidle'⟩
    · refine hinv.replace hpd hbut hvmm (.running hstate hvmmEp hrunning) ?_
      have hinUse' : (m'.slots i).inUse = true := by
        unfold VmSlot.inUse
        rw [hstate]
        rfl
      dsimp only
      rw [hinUse, hinUse', hcount]
      rfl
    · refine hinv.replace hpd (hbut.trans (sameBut_releaseSlot m' i)) hvmm ?_ ?_
      · dsimp only
        rw [releaseSlot_slots_self]
        exact .free rfl rfl hidle'
      · dsimp only
        rw [releaseSlot_slots_self, hinUse]
        show m'.slotCount - 1 + 0 = m.slotCount + 0
        omega

theorem vmCreateVmType_isProfile (req : Sel4Msg) : isProfile (vmCreateVmType req) = true := by
  unfold vmCreateVmType
  split
  case isTrue h => exact h
  case isFalse => rfl

section Handlers

variable (hanswers : NoTeardownFails env.onRequest) (hinv : SystemInv build env m vmms)

include hanswers hinv

variable (req rep : Sel4Msg)

theorem hCreate_inv : KeepsInv build env (hCreate build m req rep) vmms := by
  unfold hCreate
  dsimp only
  split
  · exact hinv
  refine (dedicatedCreate_inv hanswers hinv (vmCreateVmType_isProfile req) _ _).bind ?_
  exact fun _ _ h => h

theorem hDestroy_inv : KeepsInv build env (hDestroy m req rep) vmms := by
  unfold hDestroy
  split
  case isTrue hdedicated =>
    obtain ⟨pd, hep⟩ := isSome_iff_exists.mp (Bool.and_eq_true_iff.mp hdedicated).2
    exact (dedicatedDestroy_inv hanswers hinv hep).bind fun _ _ h => h
  case isFalse => exact hinv

/-- A relayed request to a slot with an endpoint; otherwise nothing is done. -/
theorem relay_inv (hrelays : Relays op next) (hep : (m.slots i).vmmEp.isSome = true)
    (reply : Bool × Manager -> Sel4Msg) :
    KeepsInv build env (dedicatedGuestCall m i (lifecycleOpcode op) next >>= fun r =>
      pure (reply r, r.2)) vmms := by
  obtain ⟨pd, hep⟩ := isSome_iff_exists.mp hep
  exact (dedicatedGuestCall_inv hanswers hinv hep hrelays).bind fun _ _ h => h

theorem hRelay_inv (hrelays : Relays op next) (req rep : Sel4Msg) :
    KeepsInv build env (hRelay (lifecycleOpcode op) next m req rep) vmms := by
  unfold hRelay
  split
  case isTrue hdedicated =>
    exact relay_inv hanswers hinv hrelays (Bool.and_eq_true_iff.mp hdedicated).2
      fun r => statusReply rep r.1
  case isFalse => exact hinv

theorem hStart_inv : KeepsInv build env (hStart m req rep) vmms := by
  unfold hStart
  split
  · split
    case isTrue hep => exact relay_inv hanswers hinv .resume hep fun r => statusReply rep r.1
    case isFalse => exact hinv
  · exact hinv

theorem hStop_inv : KeepsInv build env (hStop m req rep) vmms := by
  unfold hStop
  split
  · split
    case isTrue hep => exact relay_inv hanswers hinv .suspend hep fun r => statusReply rep r.1
    case isFalse => exact hinv
  · exact hinv

theorem serveMessage_inv : KeepsInv build env (serveMessage build m req) vmms := by
  have hcounted := hinv.same (countMessage_same m)
  unfold serveMessage dispatch
  repeat' split
  · exact hCreate_inv hanswers hcounted req emptyMsg
  · exact hDestroy_inv hanswers hcounted req emptyMsg
  · exact hStart_inv hanswers hcounted req emptyMsg
  · exact hStop_inv hanswers hcounted req emptyMsg
  · exact hRelay_inv hanswers hcounted .suspend req emptyMsg
  · exact hRelay_inv hanswers hcounted .resume req emptyMsg
  · exact hcounted

end Handlers

/-! ## Whole runs -/

theorem SystemInv.stray (hinv : SystemInv build env m vmms)
    (hstray : ∀ i, dedicatedAt build i ≠ some pd) (hvmm : VmmInv (env.runtime pd) v') :
    SystemInv build env m (update vmms pd v') := by
  refine ⟨vmmInv_update hinv.vmm hvmm, fun i pd' hpd' => ?_, hinv.other, hinv.count⟩
  have hne : pd' ≠ pd := by
    rintro rfl
    exact hstray i hpd'
  rw [update_of_ne hne]
  exact hinv.dedicated i pd' hpd'

end Calls

theorem SystemInv.init (build : ManagerBuild) (env : Environment) :
    SystemInv build env .init (fun _ => .init .waiting) :=
  ⟨fun pd => .init (env.runtime pd) (by decide), fun _ _ _ => .free rfl rfl (.inl rfl),
    fun _ _ => ⟨rfl, rfl⟩, rfl⟩

/-- The guests wait for BOOT, no teardown fails and no restart fails halfway. -/
def Environment.obliging (runtime : VmmPd -> GuestVmmRuntime) : Environment :=
  ⟨runtime, fun _ => .waiting, teardownSucceeds, restartSucceeds⟩

section Runs

variable {build : ManagerBuild} {runtime : VmmPd -> GuestVmmRuntime}

theorem systemStep_inv {s' : System}
    (hinv : SystemInv build (.obliging runtime) s.manager s.vmm)
    (hstep : SystemStep build (.obliging runtime) s s') :
    SystemInv build (.obliging runtime) s'.manager s'.vmm := by
  cases hstep with
  | message hserve => exact (serveMessage_inv (fun _ _ h => h) hinv _).executes hserve
  | @restart m vmms pd v' result hstate hrestart =>
    have hvmm : VmmInv (runtime pd) v' :=
      (establishes_answering (restartStep_inv (hinv.vmm pd))).executes hrestart
    by_cases hslot : ∃ i, dedicatedAt build i = some pd
    · obtain ⟨i, hpd⟩ := hslot
      have hrunning : (vmms pd).state = .running := by
        cases hinv.dedicated i pd hpd with
        | free _ _ h => rcases h with h | h <;> rw [h] at hstate <;> simp at hstate
        | running _ _ h => exact h
        | suspended _ _ h => rw [h] at hstate; simp at hstate
      have hrunning' : v'.state = .running :=
        (restartStep_obliging (hinv.vmm pd) hrunning).executes hrestart
      exact hinv.unmoved hpd (.refl m) hvmm (hrunning'.trans hrunning.symm)
    · exact hinv.stray (not_exists.mp hslot) hvmm

theorem systemReach_inv (hreach : SystemReach build (.obliging runtime) s) :
    SystemInv build (.obliging runtime) s.manager s.vmm := by
  induction hreach with
  | init => exact .init build _
  | step _ hstep ih => exact systemStep_inv ih hstep

end Runs

/-- As long as the guests wait for BOOT, no teardown fails and no restart fails halfway, the
table and the VMMs agree. -/
theorem manager_agrees (build : ManagerBuild) (runtime : VmmPd -> GuestVmmRuntime) (s : System)
    (hreach : SystemReach build (.obliging runtime) s) : Agrees build s :=
  (systemReach_inv hreach).agrees

/-! ## A build with one VMM -/

def soloBuild : ManagerBuild := ⟨true, false, 512, 512, false⟩

def createMsg : Sel4Msg := ⟨opVmCreate, 12, fun _ => 0⟩

def destroyMsg : Sel4Msg := ⟨opVmDestroy, 4, fun _ => 0⟩

def bootedVmm : Vmm :=
  ⟨.running, true, .zero, [⟨.ready, false, .start true⟩, ⟨.ready, true, .setState .running⟩]⟩

/-- A slot that is bound to a running guest. -/
def boundSlot : VmSlot := ⟨.running, 0, 0, some .primary, 0, true⟩

/-- A guest that could not be torn down. -/
def stuckVmm : Vmm :=
  ⟨.destroying, true, .zero, bootedVmm.log ++ [⟨.running, true, .suspend true⟩,
    ⟨.running, true, .setState .destroying⟩,
    ⟨.destroying, true, .teardown [⟨.controlTransition, false⟩] false⟩]⟩

section Solo

variable {onRequest onRestart : Answers}

theorem create_served
    (hanswers : ∀ request answer, teardownSucceeds request answer -> onRequest request answer) :
    Executes (AnsweringExec onRequest firmwareRuntime)
      (vmmServe firmwareRuntime ⟨msgGuestCreate, 4, wr32 (fun _ => 0) 0 1⟩) (.init .waiting)
      (createReply firmwareRuntime emptyMsg) (.init .waiting) :=
  .op ⟨.state _, hanswers _ _ trivial⟩ (.op ⟨.state _, hanswers _ _ trivial⟩
    (.op ⟨.started _, hanswers _ _ trivial⟩ (.ret _ _)))

theorem boot_served
    (hanswers : ∀ request answer, teardownSucceeds request answer -> onRequest request answer) :
    Executes (AnsweringExec onRequest firmwareRuntime)
      (vmmServe firmwareRuntime ⟨msgGuestBoot, 4, wr32 (fun _ => 0) 0 0⟩) (.init .waiting)
      (withStatus emptyMsg guestOk) bootedVmm :=
  .op ⟨.state _, hanswers _ _ trivial⟩ (.op ⟨.started _, hanswers _ _ trivial⟩
    (.op ⟨.start _ true .ready (.inl rfl), hanswers _ _ trivial⟩
      (.op ⟨.setState _ _, hanswers _ _ trivial⟩ (.ret _ _))))

theorem destroy_served : Executes (AnsweringExec anyAnswers firmwareRuntime)
      (vmmServe firmwareRuntime ⟨msgGuestDestroy, 8, wr32 (fun _ => 0) 0 0⟩) bootedVmm
      (withStatus emptyMsg guestErrNotReady) stuckVmm := by
  have hteardown : Run (runTeardown firmwareRuntime .control .zero) [⟨.controlTransition, false⟩]
      (false, .zero) := .op (.ret _)
  exact .op ⟨.state _, trivial⟩ (.op ⟨.suspend _ true, trivial⟩ (.op ⟨.setState _ _, trivial⟩
    (.op ⟨.teardown _ hteardown, trivial⟩ (.ret _ _))))

end Solo

theorem manager_agrees_created :
    ∃ s, SystemReach soloBuild (.obliging fun _ => firmwareRuntime) s /\
      s.manager.slots 0 = boundSlot /\ Agrees soloBuild s := by
  have hserve : ∃ r : Sel4Msg × Manager,
      Executes (CallExec (.obliging fun _ => firmwareRuntime))
        (serveMessage soloBuild .init createMsg) (fun _ => .init .waiting) r
        (update (update (fun _ => .init .waiting) .primary (.init .waiting)) .primary bootedVmm) /\
      r.2.slots 0 = boundSlot :=
    ⟨_, .op (.call (create_served fun _ _ h => h)) (.op (.call (boot_served fun _ _ h => h))
      (.ret _ _)), rfl⟩
  obtain ⟨⟨rep, m⟩, hrun, hslot⟩ := hserve
  have hreach : SystemReach soloBuild (.obliging fun _ => firmwareRuntime) ⟨m, _⟩ :=
    .step .init (.message hrun)
  exact ⟨_, hreach, hslot, manager_agrees soloBuild (fun _ => firmwareRuntime) _ hreach⟩

/-- The guests wait for BOOT; a teardown or a restart may fail. -/
def failingEnv : Environment :=
  ⟨fun _ => firmwareRuntime, fun _ => .waiting, anyAnswers, anyAnswers⟩

/-- CREATE, then a DESTROY whose teardown fails.  A guest that its VMM starts at once runs before
any message, whatever the callbacks answer later. -/
theorem manager_diverges :
    (∃ s, SystemReach soloBuild failingEnv s /\
      s.manager.slots 0 = boundSlot /\ (s.vmm .primary).state = .destroying /\
      ¬ Agrees soloBuild s) /\
    ∀ runtime, ∃ s,
      SystemReach soloBuild ⟨runtime, fun _ => .booted, teardownSucceeds, restartSucceeds⟩ s /\
      (s.manager.slots 0).state = .free /\ (s.vmm .primary).state = .running /\
      (s.vmm .primary).started = true /\ ¬ Agrees soloBuild s := by
  constructor
  · have hserve : ∃ r1 r2 : Sel4Msg × Manager, ∃ vmms1 vmms2,
        Executes (CallExec failingEnv)
          (serveMessage soloBuild .init createMsg) (fun _ => .init .waiting) r1 vmms1 /\
        Executes (CallExec failingEnv)
          (serveMessage soloBuild r1.2 destroyMsg) vmms1 r2 vmms2 /\
        r2.2.slots 0 = boundSlot /\ (vmms2 .primary).state = .destroying :=
      ⟨_, _, _, _, .op (.call (create_served fun _ _ _ => trivial))
          (.op (.call (boot_served fun _ _ _ => trivial)) (.ret _ _)),
        .op (.call destroy_served) (.ret _ _), rfl, rfl⟩
    obtain ⟨⟨_, m1⟩, ⟨_, m2⟩, vmms1, vmms2, hcreate, hdestroy, hslot, hstate⟩ := hserve
    refine ⟨⟨m2, vmms2⟩, .step (.step .init (.message hcreate)) (.message hdestroy), hslot, hstate,
      fun hagrees => ?_⟩
    have hrunning := hagrees.running 0 .primary rfl (congrArg VmSlot.guestBound hslot)
      (congrArg VmSlot.state hslot)
    rw [hstate] at hrunning
    cases hrunning
  · exact fun _ =>
      ⟨_, .init, rfl, rfl, rfl, fun hagrees => nomatch (hagrees.free 0 .primary rfl rfl).2⟩

end AgentOs.VmManager
