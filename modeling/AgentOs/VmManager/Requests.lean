import AgentOs.VmManager.Manager

/-!
# Requests that name a slot

The requests of `vm_manager.c` that carry a slot id.  The id is a 32-bit word, but the handlers
keep its low byte, so a word beyond the slots may act on a slot it does not name.  A percentage
is narrowed in the same way, or computed in 32 bits.
-/

namespace AgentOs.VmManager

open Library Ipc GuestVmm Prog

/-! ## The other tables -/

/-- The manager with the tables that the requests below read or write. -/
structure VmState where
  manager : Manager
  affinity : Nat -> UInt32
  ramSize : Nat -> UInt64

@[simp]
def vmNotImpl : UInt32 := 0xFE

@[simp]
def sel4ErrNotFound : UInt32 := 2

def VmState.lift (v : VmState) (program : ManagerM (Sel4Msg × Manager)) :
    ManagerM (Sel4Msg × VmState) := do
  let (rep, manager) <- program
  pure (rep, { v with manager := manager })

/-- A slot with a dedicated VMM becomes the active one; the stub switches to none. -/
def hConsole (v : VmState) (req rep : Sel4Msg) : ManagerM (Sel4Msg × VmState) :=
  if v.manager.dedicated (slotArg req) then
    pure (statusReply rep true, { v with manager := { v.manager with activeSlot := slotArg req } })
  else pure (statusReply rep false, v)

/-- `vm_set_quota`. -/
def vmSetQuota (v : VmState) (slotId : Nat) (cpuPct : UInt8) : Bool × VmState :=
  if vmMaxSlots <= slotId then (false, v)
  else
    let pct := if cpuPct > 100 then 100 else cpuPct.toNat
    let quota := v.manager.quotas slotId
    let quota := { quota with maxCpuPct := pct, credits := pct * schedCreditsPerPct }
    (true, { v with manager := v.manager.setQuota slotId quota })

/-- The percentage that CONFIGURE computes. -/
def budgetPct (cpuBudgetUs cpuPeriodUs : UInt32) : UInt32 :=
  if cpuBudgetUs >= cpuPeriodUs then 100 else cpuBudgetUs * 100 / cpuPeriodUs

def hConfigure (v : VmState) (req rep : Sel4Msg) : ManagerM (Sel4Msg × VmState) :=
  let slotId := slotArg req
  let newRamMb := vmArgU32 req 1
  let cpuBudgetUs := vmArgU32 req 2
  let cpuPeriodUs := vmArgU32 req 3
  if vmMaxSlots <= slotId \/ (v.manager.slots slotId).state = .free then
    pure (resultReply rep sel4ErrNotFound vmErr, v)
  else if newRamMb ≠ 0 /\ newRamMb ≠ (v.ramSize slotId >>> 20).toUInt32 then
    pure (resultReply rep sel4ErrOk vmNotImpl, v)
  else if cpuBudgetUs ≠ 0 /\ cpuPeriodUs ≠ 0 then
    pure (statusReply rep true, (vmSetQuota v slotId (budgetPct cpuBudgetUs cpuPeriodUs).toUInt8).2)
  else pure (statusReply rep true, v)

def hSetQuota (v : VmState) (req rep : Sel4Msg) : ManagerM (Sel4Msg × VmState) :=
  let (ok, v) := vmSetQuota v (slotArg req) (vmArgU32 req 1).toUInt8
  pure (statusReply rep ok, v)

/-- `vmm_set_affinity`. -/
def vmmSetAffinity (v : VmState) (slotId : Nat) (cpuMask : UInt32) : Bool × VmState :=
  if vmMaxSlots <= slotId then (false, v)
  else (true, { v with affinity := Function.update v.affinity slotId cpuMask })

def hSetAffinity (v : VmState) (req rep : Sel4Msg) : ManagerM (Sel4Msg × VmState) :=
  let (ok, v) := vmmSetAffinity v (slotArg req) (vmArgU32 req 1)
  pure (statusReply rep ok, v)

inductive SlotOp where
  | destroy | start | stop | pause | resume | console | configure | setQuota | setAffinity
  deriving DecidableEq

def SlotOp.handle (v : VmState) (req rep : Sel4Msg) : SlotOp -> ManagerM (Sel4Msg × VmState)
  | .destroy => v.lift (hDestroy v.manager req rep)
  | .start => v.lift (hStart v.manager req rep)
  | .stop => v.lift (hStop v.manager req rep)
  | .pause => v.lift (hPause v.manager req rep)
  | .resume => v.lift (hResume v.manager req rep)
  | .console => hConsole v req rep
  | .configure => hConfigure v req rep
  | .setQuota => hSetQuota v req rep
  | .setAffinity => hSetAffinity v req rep

/-! ## The law -/

/-- How many words a request carries. -/
def SlotOp.args : SlotOp -> Nat
  | .configure => 4
  | .setQuota => 2
  | .setAffinity => 2
  | _ => 1

def WellFormed (op : SlotOp) (req : Sel4Msg) : Prop :=
  op.args * 4 <= req.length.toNat /\ req.length <= sel4MsgDataBytes

/-- The slot that a message names. -/
def namedSlot (req : Sel4Msg) : Nat := (rd32 req.data 0).toNat

/-- The percentage that a message asks for, over the integers. -/
def requestedPct (req : Sel4Msg) : SlotOp -> Option Nat
  | .setQuota => some (rd32 req.data 4).toNat
  | .configure =>
    if rd32 req.data 8 = 0 \/ rd32 req.data 12 = 0 then none
    else some (100 * (rd32 req.data 8).toNat / (rd32 req.data 12).toNat)
  | _ => none

structure OnlySlot (i : Nat) (v v' : VmState) : Prop where
  slots : ∀ j, j ≠ i -> v'.manager.slots j = v.manager.slots j
  quotas : ∀ j, j ≠ i -> v'.manager.quotas j = v.manager.quotas j
  affinity : ∀ j, j ≠ i -> v'.affinity j = v.affinity j

/-- A request changes no slot but the one it names, is refused without effect when there is no
such slot, and installs the percentage it asks for, up to 100. -/
structure SlotLaw (op : SlotOp) (req : Sel4Msg) (v : VmState) (rep : Sel4Msg) (v' : VmState) :
    Prop where
  only : OnlySlot (namedSlot req) v v'
  refused : vmMaxSlots <= namedSlot req -> replyStatus rep ≠ vmOk /\ v' = v
  installed : namedSlot req < vmMaxSlots -> replyStatus rep = vmOk ->
    ∀ pct, requestedPct req op = some pct ->
      (v'.manager.quotas (namedSlot req)).maxCpuPct = min 100 pct

/-- The narrowing loses nothing: the slot id keeps its meaning, and so does the percentage. -/
structure Narrows (op : SlotOp) (req : Sel4Msg) : Prop where
  slot : namedSlot req < vmMaxSlots \/ vmMaxSlots <= namedSlot req % 256
  quota : namedSlot req < vmMaxSlots -> op = .setQuota ->
    (rd32 req.data 4).toNat < 256 \/ 100 <= (rd32 req.data 4).toNat % 256
  budget : namedSlot req < vmMaxSlots -> op = .configure -> rd32 req.data 8 ≠ 0 ->
    rd32 req.data 12 ≠ 0 -> rd32 req.data 12 <= rd32 req.data 8 \/
      100 * (rd32 req.data 8).toNat < 2 ^ 32

/-! ## What the handlers do -/

section Handlers

variable {v : VmState} {req rep : Sel4Msg}

/-- The percentage that a handler installs. -/
def installedPct (req : Sel4Msg) : SlotOp -> Option Nat
  | .setQuota => some (min 100 (vmArgU32 req 1).toUInt8.toNat)
  | .configure =>
    if vmArgU32 req 2 = 0 \/ vmArgU32 req 3 = 0 then none
    else some (min 100 (budgetPct (vmArgU32 req 2) (vmArgU32 req 3)).toUInt8.toNat)
  | _ => none

/-- The law for the byte that the handlers keep. -/
structure ByteLaw (op : SlotOp) (req : Sel4Msg) (v : VmState)
    (result : Sel4Msg × VmState) : Prop where
  only : OnlySlot (slotArg req) v result.2
  refused : vmMaxSlots <= slotArg req -> replyStatus result.1 = vmErr /\ result.2 = v
  installed : slotArg req < vmMaxSlots -> replyStatus result.1 = vmOk ->
    ∀ pct, installedPct req op = some pct -> (result.2.manager.quotas (slotArg req)).maxCpuPct = pct

theorem OnlySlot.refl (i : Nat) (v : VmState) : OnlySlot i v v :=
  ⟨fun _ _ => rfl, fun _ _ => rfl, fun _ _ => rfl⟩

theorem replyStatus_resultReply (rep : Sel4Msg) (err status : UInt32) :
    replyStatus (resultReply rep err status) = status := rd32_wr32 rep.data 0 status

variable {op : SlotOp}

theorem byteLaw_same {result : Sel4Msg} (hnone : installedPct req op = none)
    (hstatus : vmMaxSlots <= slotArg req -> replyStatus result = vmErr) :
    ByteLaw op req v (result, v) where
  only := .refl _ v
  refused hslot := ⟨hstatus hslot, rfl⟩
  installed _ _ pct hpct := absurd (hnone.symm.trans hpct) (by simp)

/-- What a lifecycle request may do to the manager. -/
def Touches (i : Nat) (m m' : Manager) : Prop :=
  (∀ j, j ≠ i -> m'.slots j = m.slots j) /\ m'.quotas = m.quotas

theorem byteLaw_touches {result : Sel4Msg} {m' : Manager} (hnone : installedPct req op = none)
    (hslot : slotArg req < vmMaxSlots) (htouches : Touches (slotArg req) v.manager m') :
    ByteLaw op req v (result, { v with manager := m' }) where
  only := ⟨htouches.1, fun j _ => congrFun htouches.2 j, fun _ _ => rfl⟩
  refused hbeyond := absurd hslot (Nat.not_lt.mpr hbeyond)
  installed _ _ pct hpct := absurd (hnone.symm.trans hpct) (by simp)

theorem touches_setSlot (m : Manager) (i : Nat) (slot : VmSlot) : Touches i m (m.setSlot i slot) :=
  ⟨fun _ hj => setSlot_slots_of_ne m hj slot, rfl⟩

variable {i : Nat} {m : Manager}

theorem Touches.trans {m1 m2 : Manager} (h1 : Touches i m m1) (h2 : Touches i m1 m2) :
    Touches i m m2 :=
  ⟨fun j hj => (h2.1 j hj).trans (h1.1 j hj), h2.2.trans h1.2⟩

variable {opcode : UInt32}

theorem dedicatedGuestRpc_ensures {length : UInt32} {payload : Payload}
    (hop : opcode ≠ msgGuestCreate) :
    Ensures anyAnswer (fun _ => True) (fun result => result.2 = m)
      (dedicatedGuestRpc m i opcode payload length) := by
  unfold dedicatedGuestRpc
  split
  case h_1 => rfl
  case h_2 =>
    split
    · rfl
    split
    case h_1 => rfl
    case h_2 =>
      refine ⟨trivial, fun answer _ => ?_⟩
      show Ensures _ _ _ (if _ then _ else _)
      split
      · rfl
      · rfl

theorem dedicatedGuestCall_ensures {nextState : VmSlotState} (hop : opcode ≠ msgGuestCreate) :
    Ensures anyAnswer (fun _ => True) (fun result => Touches i m result.2)
      (dedicatedGuestCall m i opcode nextState) := by
  refine (dedicatedGuestRpc_ensures hop).bind ?_
  rintro ⟨ok, m'⟩ rfl
  cases ok with
  | false => exact ⟨fun _ _ => rfl, rfl⟩
  | true => exact touches_setSlot m' i _

theorem dedicatedDestroy_ensures :
    Ensures anyAnswer (fun _ => True) (fun result => Touches i m result.2)
      (dedicatedDestroy m i) := by
  refine (dedicatedGuestCall_ensures (by decide)).bind ?_
  rintro ⟨ok, m'⟩ htouches
  cases ok with
  | false => exact htouches
  | true => exact htouches.trans ⟨fun j hj => setSlot_slots_of_ne m' hj freeSlot, rfl⟩

theorem dedicated_lt (hdedicated : m.dedicated i = true) : i < vmMaxSlots :=
  of_decide_eq_true (Bool.and_eq_true_iff.mp hdedicated).1

/-- A request that is relayed to the VMM of the slot, or refused. -/
theorem lift_ensures {program : ManagerM (Bool × Manager)} (hnone : installedPct req op = none)
    (hslot : slotArg req < vmMaxSlots)
    (hprogram : Ensures anyAnswer (fun _ => True)
      (fun result => Touches (slotArg req) v.manager result.2) program) :
    Ensures anyAnswer (fun _ => True) (ByteLaw op req v) (v.lift (program >>= fun result =>
      pure (statusReply rep result.1, result.2))) := by
  unfold VmState.lift
  rw [bind_assoc]
  refine hprogram.bind ?_
  rintro ⟨ok, m'⟩ htouches
  exact byteLaw_touches hnone hslot htouches

theorem refused_ensures {ok : Bool} (hnone : installedPct req op = none)
    (hok : vmMaxSlots <= slotArg req -> ok = false) :
    Ensures anyAnswer (fun _ => True) (ByteLaw op req v)
      (v.lift (pure (statusReply rep ok, v.manager))) := by
  refine byteLaw_same hnone fun hslot => ?_
  rw [hok hslot]
  exact replyStatus_resultReply rep _ _

theorem hDestroy_ensures : Ensures anyAnswer (fun _ => True) (ByteLaw .destroy req v)
    (v.lift (hDestroy v.manager req rep)) := by
  unfold hDestroy
  split
  case isTrue hdedicated => exact lift_ensures rfl (dedicated_lt hdedicated) dedicatedDestroy_ensures
  case isFalse => exact refused_ensures rfl fun _ => rfl

theorem hRelay_ensures {nextState : VmSlotState} (hnone : installedPct req op = none)
    (hop : opcode ≠ msgGuestCreate) :
    Ensures anyAnswer (fun _ => True) (ByteLaw op req v)
      (v.lift (hRelay opcode nextState v.manager req rep)) := by
  unfold hRelay
  split
  case isTrue hdedicated =>
    exact lift_ensures hnone (dedicated_lt hdedicated) (dedicatedGuestCall_ensures hop)
  case isFalse => exact refused_ensures hnone fun _ => rfl

theorem inUse_lt (huse : (decide (i < vmMaxSlots) && (m.slots i).state != .free) = true) :
    i < vmMaxSlots :=
  of_decide_eq_true (Bool.and_eq_true_iff.mp huse).1

theorem hStart_ensures : Ensures anyAnswer (fun _ => True) (ByteLaw .start req v)
    (v.lift (hStart v.manager req rep)) := by
  unfold hStart
  split
  case isTrue huse =>
    split
    · exact lift_ensures rfl (inUse_lt huse) (dedicatedGuestCall_ensures (by decide))
    · exact refused_ensures rfl fun hslot => absurd (inUse_lt huse) (Nat.not_lt.mpr hslot)
  case isFalse => exact refused_ensures rfl fun _ => rfl

theorem hStop_ensures : Ensures anyAnswer (fun _ => True) (ByteLaw .stop req v)
    (v.lift (hStop v.manager req rep)) := by
  unfold hStop
  split
  case isTrue huse =>
    split
    · exact lift_ensures rfl (inUse_lt huse) (dedicatedGuestCall_ensures (by decide))
    · exact refused_ensures rfl fun _ => rfl
  case isFalse => exact refused_ensures rfl fun _ => rfl

theorem hConsole_ensures : Ensures anyAnswer (fun _ => True) (ByteLaw .console req v)
    (hConsole v req rep) := by
  unfold hConsole
  split
  case isTrue hdedicated =>
    exact byteLaw_touches rfl (dedicated_lt hdedicated) ⟨fun _ _ => rfl, rfl⟩
  case isFalse => exact byteLaw_same rfl fun _ => replyStatus_resultReply rep _ _

/-! ## Quota and affinity -/

theorem vmSetQuota_beyond (hslot : vmMaxSlots <= i) (pct : UInt8) :
    vmSetQuota v i pct = (false, v) := if_pos hslot

theorem vmSetQuota_only (v : VmState) (i : Nat) (pct : UInt8) :
    OnlySlot i v (vmSetQuota v i pct).2 := by
  unfold vmSetQuota
  split
  · exact .refl i v
  refine ⟨fun _ _ => rfl, fun j hj => ?_, fun _ _ => rfl⟩
  exact Function.update_of_ne hj _ _

theorem vmSetQuota_installed (hslot : i < vmMaxSlots) (pct : UInt8) :
    ((vmSetQuota v i pct).2.manager.quotas i).maxCpuPct = min 100 pct.toNat := by
  unfold vmSetQuota
  rw [if_neg (Nat.not_le.mpr hslot)]
  show (Function.update v.manager.quotas i _ i).maxCpuPct = _
  rw [Function.update_self]
  show (if pct > 100 then 100 else pct.toNat) = min 100 pct.toNat
  split
  case isTrue hlarge =>
    have hnat : 100 < pct.toNat := hlarge
    omega
  case isFalse hsmall =>
    have hnat : ¬ 100 < pct.toNat := hsmall
    omega

theorem hSetQuota_ensures : Ensures anyAnswer (fun _ => True) (ByteLaw .setQuota req v)
    (hSetQuota v req rep) where
  only := vmSetQuota_only v _ _
  refused hslot := by
    show replyStatus (statusReply rep (vmSetQuota v _ _).1) = vmErr /\ (vmSetQuota v _ _).2 = v
    rw [vmSetQuota_beyond hslot]
    exact ⟨replyStatus_resultReply rep _ _, rfl⟩
  installed hslot _ pct hpct := by
    cases hpct
    exact vmSetQuota_installed hslot _

theorem vmmSetAffinity_beyond (hslot : vmMaxSlots <= i) (mask : UInt32) :
    vmmSetAffinity v i mask = (false, v) := if_pos hslot

theorem vmmSetAffinity_only (v : VmState) (i : Nat) (mask : UInt32) :
    OnlySlot i v (vmmSetAffinity v i mask).2 := by
  unfold vmmSetAffinity
  split
  · exact .refl i v
  · exact ⟨fun _ _ => rfl, fun _ _ => rfl, fun j hj => Function.update_of_ne hj _ _⟩

theorem hSetAffinity_ensures : Ensures anyAnswer (fun _ => True) (ByteLaw .setAffinity req v)
    (hSetAffinity v req rep) where
  only := vmmSetAffinity_only v _ _
  refused hslot := by
    show replyStatus (statusReply rep (vmmSetAffinity v _ _).1) = vmErr /\
      (vmmSetAffinity v _ _).2 = v
    rw [vmmSetAffinity_beyond hslot]
    exact ⟨replyStatus_resultReply rep _ _, rfl⟩
  installed _ _ _ hpct := nomatch hpct

theorem hConfigure_ensures : Ensures anyAnswer (fun _ => True) (ByteLaw .configure req v)
    (hConfigure v req rep) := by
  unfold hConfigure
  dsimp only
  split
  · refine ⟨.refl _ v, fun _ => ⟨replyStatus_resultReply rep _ _, rfl⟩, fun _ hok => ?_⟩
    cases (replyStatus_resultReply rep _ _).symm.trans hok
  case isFalse hslot =>
    have hlt : slotArg req < vmMaxSlots := Nat.not_le.mp fun hle => hslot (.inl hle)
    split
    · refine ⟨.refl _ v, fun hbeyond => absurd hlt (Nat.not_lt.mpr hbeyond), fun _ hok => ?_⟩
      cases (replyStatus_resultReply rep _ _).symm.trans hok
    · split
      case isTrue hnonzero =>
        refine ⟨vmSetQuota_only v _ _, fun hbeyond => absurd hlt (Nat.not_lt.mpr hbeyond),
          fun _ _ pct hpct => ?_⟩
        have hsome : installedPct req .configure = _ :=
          if_neg fun hzero => hzero.elim hnonzero.1 hnonzero.2
        obtain rfl := Option.some.inj (hsome.symm.trans hpct)
        exact vmSetQuota_installed hlt _
      case isFalse hzero =>
        refine ⟨.refl _ v, fun hbeyond => absurd hlt (Nat.not_lt.mpr hbeyond), fun _ _ pct hpct => ?_⟩
        have hnone : installedPct req .configure = none :=
          if_pos (by by_contra hne; exact hzero (not_or.mp hne))
        exact absurd (hnone.symm.trans hpct) (by simp)

theorem handle_ensures (op : SlotOp) : Ensures anyAnswer (fun _ => True) (ByteLaw op req v)
    (op.handle v req rep) := by
  cases op with
  | destroy => exact hDestroy_ensures
  | start => exact hStart_ensures
  | stop => exact hStop_ensures
  | pause => exact hRelay_ensures rfl (by decide)
  | resume => exact hRelay_ensures rfl (by decide)
  | console => exact hConsole_ensures
  | configure => exact hConfigure_ensures
  | setQuota => exact hSetQuota_ensures
  | setAffinity => exact hSetAffinity_ensures

end Handlers

/-! ## What the narrowing keeps -/

section Narrowing

variable {op : SlotOp} {req : Sel4Msg}

theorem SlotOp.args_pos (op : SlotOp) : 0 < op.args := by
  cases op <;> decide

theorem vmArgU32_eq (hwell : WellFormed op req) {k : Nat} (hk : k < op.args) :
    vmArgU32 req k = rd32 req.data (k * 4) := by
  refine if_pos ?_
  have hlength := hwell.1
  have hwords : (k + 1) * 4 <= op.args * 4 := Nat.mul_le_mul_right 4 hk
  omega

theorem slotArg_eq (hwell : WellFormed op req) : slotArg req = namedSlot req % 256 := by
  unfold slotArg namedSlot
  rw [vmArgU32_eq hwell op.args_pos]
  exact UInt32.toNat_toUInt8 _

/-- Without overflow, the division is that of the integers. -/
theorem budgetPct_exact {budget period : UInt32} (hperiod : period ≠ 0)
    (hexact : period <= budget \/ 100 * budget.toNat < 2 ^ 32) :
    min 100 (budgetPct budget period).toUInt8.toNat = min 100 (100 * budget.toNat / period.toNat) :=
      by
  have hpos : 0 < period.toNat := Nat.pos_of_ne_zero fun hzero => hperiod (UInt32.toNat_inj.mp hzero)
  unfold budgetPct
  split
  case isTrue hge =>
    have hle : period.toNat <= budget.toNat := hge
    have hquotient : 100 <= 100 * budget.toNat / period.toNat :=
      (Nat.le_div_iff_mul_le hpos).mpr (Nat.mul_le_mul_left 100 hle)
    rw [Nat.min_eq_left hquotient]
    rfl
  case isFalse hlt =>
    have hless : budget.toNat < period.toNat := Nat.not_le.mp hlt
    have hproduct : 100 * budget.toNat < 2 ^ 32 := hexact.resolve_left hlt
    have hquotient : 100 * budget.toNat / period.toNat < 100 :=
      (Nat.div_lt_iff_lt_mul hpos).mpr (Nat.mul_lt_mul_of_pos_left hless (by decide))
    have htoNat : (budget * 100 / period).toNat = 100 * budget.toNat / period.toNat := by
      rw [UInt32.toNat_div, UInt32.toNat_mul, Nat.mul_comm]
      exact congrArg (· / period.toNat) (Nat.mod_eq_of_lt hproduct)
    rw [UInt32.toNat_toUInt8, htoNat, Nat.mod_eq_of_lt (by omega)]

/-- With overflow, a multiple of the period is lost. -/
theorem budgetPct_lost {budget period : UInt32} (hless : budget < period)
    (hoverflow : 2 ^ 32 <= 100 * budget.toNat) :
    min 100 (budgetPct budget period).toUInt8.toNat ≠
      min 100 (100 * budget.toNat / period.toNat) := by
  have hnat : budget.toNat < period.toNat := hless
  have hpos : 0 < period.toNat := Nat.zero_lt_of_lt hnat
  have hperiod := UInt32.toNat_lt period
  have hquotient : 100 * budget.toNat / period.toNat < 100 :=
    (Nat.div_lt_iff_lt_mul hpos).mpr (Nat.mul_lt_mul_of_pos_left hnat (by decide))
  have hstep : 100 * budget.toNat % 2 ^ 32 / period.toNat + 1 <= 100 * budget.toNat / period.toNat := by
    rw [<- Nat.add_div_right _ hpos]
    exact Nat.div_le_div_right (by omega)
  have htoNat : (budget * 100 / period).toNat = 100 * budget.toNat % 2 ^ 32 / period.toNat := by
    rw [UInt32.toNat_div, UInt32.toNat_mul, Nat.mul_comm]
    rfl
  unfold budgetPct
  rw [if_neg (UInt32.not_le.mpr hless), UInt32.toNat_toUInt8, htoNat, Nat.mod_eq_of_lt (by omega)]
  omega

theorem Narrows.installed (hwell : WellFormed op req) (hnarrows : Narrows op req)
    (hslot : namedSlot req < vmMaxSlots) {pct : Nat} (hpct : requestedPct req op = some pct) :
    installedPct req op = some (min 100 pct) := by
  cases op with
  | setQuota =>
    cases hpct
    have hexact := hnarrows.quota hslot rfl
    show some (min 100 (vmArgU32 req 1).toUInt8.toNat) = _
    rw [vmArgU32_eq hwell (by decide), UInt32.toNat_toUInt8]
    congr 1
    show min 100 ((rd32 req.data 4).toNat % 256) = min 100 (rd32 req.data 4).toNat
    omega
  | configure =>
    have hwordBudget : vmArgU32 req 2 = rd32 req.data 8 := vmArgU32_eq hwell (by decide)
    have hwordPeriod : vmArgU32 req 3 = rd32 req.data 12 := vmArgU32_eq hwell (by decide)
    unfold requestedPct at hpct
    unfold installedPct
    rw [hwordBudget, hwordPeriod]
    dsimp only at hpct ⊢
    split at hpct
    · cases hpct
    case isFalse hnonzero =>
      cases hpct
      obtain ⟨hbudget, hperiod⟩ := not_or.mp hnonzero
      rw [if_neg hnonzero, budgetPct_exact hperiod (hnarrows.budget hslot rfl hbudget hperiod)]
  | destroy => cases hpct
  | start => cases hpct
  | stop => cases hpct
  | pause => cases hpct
  | resume => cases hpct
  | console => cases hpct
  | setAffinity => cases hpct

theorem ByteLaw.law {v : VmState} {result : Sel4Msg × VmState} (hlaw : ByteLaw op req v result)
    (hwell : WellFormed op req) (hnarrows : Narrows op req) :
    SlotLaw op req v result.1 result.2 := by
  have hbyte := slotArg_eq hwell
  by_cases hslot : namedSlot req < vmMaxSlots
  · have hsame : slotArg req = namedSlot req := by
      rw [hbyte]
      exact Nat.mod_eq_of_lt (Nat.lt_trans hslot (by decide))
    refine ⟨hsame ▸ hlaw.only, fun hbeyond => absurd hslot (Nat.not_lt.mpr hbeyond), ?_⟩
    intro _ hok pct hpct
    rw [<- hsame]
    exact hlaw.installed (hsame ▸ hslot) hok _ (hnarrows.installed hwell hslot hpct)
  · have hbeyond : vmMaxSlots <= slotArg req := hbyte ▸ hnarrows.slot.resolve_left hslot
    obtain ⟨hstatus, hsame⟩ := hlaw.refused hbeyond
    refine ⟨?_, fun _ => ⟨?_, hsame⟩, fun h => absurd h hslot⟩
    · rw [hsame]
      exact .refl _ v
    · rw [hstatus]
      decide

/-! ## States that accept a request -/

/-- Every slot has a guest, and RAM of the size that CONFIGURE asks for. -/
def openState (req : Sel4Msg) : VmState where
  manager := { Manager.init with slots := fun _ => ⟨.running, 0, 0, some .primary, 0, true⟩ }
  affinity _ := 0
  ramSize _ := (vmArgU32 req 1).toUInt64 <<< 20

/-- The VMMs agree to everything. -/
def agreeing : (request : ManagerOp) -> ManagerAns request
  | .call _ _ => ⟨guestOk, 4, fun _ => 0⟩
  | .gicPrepare _ => true
  | .schedulingConfigure _ => true

theorem resolve_guestCall {opcode : UInt32} {nextState : VmSlotState} {i : Nat}
    (hslot : i < vmMaxSlots) (hop : opcode ≠ msgGuestCreate) :
    (resolve (I := ManagerIo) agreeing
      (dedicatedGuestCall (openState req).manager i opcode nextState)).1 = true := by
  have hlength : ¬ callLength opcode > sel4MsgDataBytes /\ ¬ callLength opcode < 4 := by
    unfold callLength
    split <;> decide
  have hcheck : (decide (vmMaxSlots <= i) || decide (callLength opcode > sel4MsgDataBytes)) = false := by
    rw [decide_eq_false (Nat.not_le.mpr hslot), decide_eq_false hlength.1]
    rfl
  have hrpc : (resolve (I := ManagerIo) agreeing (dedicatedGuestRpc (openState req).manager i opcode
      (fun _ => 0) (callLength opcode))).1 = true := by
    have hep : ((openState req).manager.slots i).vmmEp = some .primary := rfl
    have hrequest : guestRequest ((openState req).manager.slots i) opcode (fun _ => 0)
        (callLength opcode) = some ⟨opcode, callLength opcode, wr32 (fun _ => 0) 0 0⟩ := by
      unfold guestRequest
      rw [if_neg hop, if_neg]
      · rfl
      · simpa [openState] using UInt32.not_lt.mp hlength.2
    unfold dedicatedGuestRpc
    rw [hep]
    dsimp only
    rw [hcheck, if_neg Bool.false_ne_true, hrequest]
    show (resolve (I := ManagerIo) agreeing (if (guestOk != guestOk) = true then
      pure (false, (openState req).manager) else if opcode = msgGuestCreate then
        pure (bindGuest (openState req).manager i _)
      else pure (true, (openState req).manager))).1 = true
    rw [if_neg (by decide), if_neg hop]
    rfl
  unfold dedicatedGuestCall
  rw [resolve_bind]
  generalize resolve (I := ManagerIo) agreeing (dedicatedGuestRpc (openState req).manager i
    opcode (fun _ => 0) (callLength opcode)) = outcome at hrpc ⊢
  obtain ⟨ok, m⟩ := outcome
  obtain rfl : ok = true := hrpc
  rfl

theorem ramSize_eq (word : UInt32) : (word.toUInt64 <<< 20 >>> 20).toUInt32 = word := by
  apply UInt32.toNat_inj.mp
  have hword := UInt32.toNat_lt word
  have hshift : (20 : UInt64).toNat % 64 = 20 := rfl
  rw [UInt64.toNat_toUInt32, UInt64.toNat_shiftRight, UInt64.toNat_shiftLeft, hshift,
    UInt32.toNat_toUInt64, Nat.shiftLeft_eq, Nat.shiftRight_eq_div_pow]
  omega

theorem accepted (op : SlotOp) (hslot : slotArg req < vmMaxSlots) :
    replyStatus (resolve (I := ManagerIo) agreeing (op.handle (openState req) req emptyMsg)).1 =
      vmOk := by
  have hok : replyStatus (statusReply emptyMsg true) = vmOk := replyStatus_resultReply _ _ _
  have hdedicated : (openState req).manager.dedicated (slotArg req) = true := by
    show (decide (slotArg req < vmMaxSlots) && true) = true
    rw [decide_eq_true hslot]
    rfl
  have huse : (decide (slotArg req < vmMaxSlots) &&
      ((openState req).manager.slots (slotArg req)).state != .free) = true := hdedicated
  have hrelay : ∀ {opcode : UInt32} {nextState : VmSlotState}, opcode ≠ msgGuestCreate ->
      replyStatus (resolve (I := ManagerIo) agreeing ((openState req).lift
        (dedicatedGuestCall (openState req).manager (slotArg req) opcode nextState >>= fun result =>
          pure (statusReply emptyMsg result.1, result.2)))).1 = vmOk := by
    intro opcode nextState hop
    unfold VmState.lift
    rw [bind_assoc, resolve_bind]
    show replyStatus (statusReply emptyMsg (resolve (I := ManagerIo) agreeing
      (dedicatedGuestCall _ _ _ _)).1) = vmOk
    rw [resolve_guestCall hslot hop]
    exact hok
  cases op with
  | destroy =>
    have hcall : (resolve (I := ManagerIo) agreeing (dedicatedGuestCall (openState req).manager
        (slotArg req) msgGuestDestroy .halted)).1 = true :=
      resolve_guestCall hslot (by decide)
    unfold SlotOp.handle hDestroy
    dsimp only
    rw [if_pos hdedicated]
    unfold VmState.lift dedicatedDestroy
    rw [bind_assoc, bind_assoc, resolve_bind]
    generalize resolve (I := ManagerIo) agreeing
      (dedicatedGuestCall (openState req).manager (slotArg req) msgGuestDestroy .halted) = outcome
      at hcall ⊢
    obtain ⟨ok, m⟩ := outcome
    obtain rfl : ok = true := hcall
    exact hok
  | start =>
    unfold SlotOp.handle hStart
    dsimp only
    rw [if_pos huse]
    exact hrelay (by decide)
  | stop =>
    unfold SlotOp.handle hStop
    dsimp only
    rw [if_pos huse]
    exact hrelay (by decide)
  | pause =>
    unfold SlotOp.handle hPause hRelay
    dsimp only
    rw [if_pos hdedicated]
    exact hrelay (by decide)
  | resume =>
    unfold SlotOp.handle hResume hRelay
    dsimp only
    rw [if_pos hdedicated]
    exact hrelay (by decide)
  | console =>
    unfold SlotOp.handle hConsole
    dsimp only
    rw [if_pos hdedicated]
    exact hok
  | configure =>
    have hram : ¬ (vmArgU32 req 1 ≠ 0 /\
        vmArgU32 req 1 ≠ ((openState req).ramSize (slotArg req) >>> 20).toUInt32) :=
      fun h => h.2 (ramSize_eq _).symm
    have hfree : ¬ (vmMaxSlots <= slotArg req \/
        ((openState req).manager.slots (slotArg req)).state = .free) := by
      rintro (hbeyond | hstate)
      · exact absurd hslot (Nat.not_lt.mpr hbeyond)
      · cases hstate
    unfold SlotOp.handle hConfigure
    dsimp only
    rw [if_neg hfree, if_neg hram]
    split
    · exact hok
    · exact hok
  | setQuota =>
    show replyStatus (statusReply emptyMsg (vmSetQuota _ _ _).1) = vmOk
    unfold vmSetQuota
    rw [if_neg (Nat.not_le.mpr hslot)]
    exact hok
  | setAffinity =>
    show replyStatus (statusReply emptyMsg (vmmSetAffinity _ _ _).1) = vmOk
    unfold vmmSetAffinity
    rw [if_neg (Nat.not_le.mpr hslot)]
    exact hok

/-- The manager keeps the law for a request exactly when the narrowing loses nothing of it. -/
theorem slot_law_iff (op : SlotOp) (req : Sel4Msg) (hwell : WellFormed op req) :
    (∀ v rep trace rep' v', Run (op.handle v req rep) trace (rep', v') ->
      SlotLaw op req v rep' v') ↔ Narrows op req := by
  constructor
  · intro hlaw
    have hbyte := slotArg_eq hwell
    -- a state in which the slot of the low byte accepts the request
    have hopen : slotArg req < vmMaxSlots -> ∃ rep' v', replyStatus rep' = vmOk /\
        SlotLaw op req (openState req) rep' v' /\ ByteLaw op req (openState req) (rep', v') := by
      intro hslot
      obtain ⟨trace, hrun, -⟩ :=
        run_resolve (I := ManagerIo) agreeing (op.handle (openState req) req emptyMsg)
      exact ⟨_, _, accepted op hslot, hlaw _ _ _ _ _ hrun, (handle_ensures op).result hrun⟩
    refine ⟨?_, ?_, ?_⟩
    · by_contra hlost
      obtain ⟨hbeyond, hlow⟩ := not_or.mp hlost
      obtain ⟨rep', v', hok, hslotLaw, -⟩ := hopen (hbyte ▸ Nat.not_le.mp hlow)
      exact (hslotLaw.refused (Nat.not_lt.mp hbeyond)).1 hok
    · rintro hslot rfl
      have hsame : slotArg req = namedSlot req := by
        rw [hbyte]
        exact Nat.mod_eq_of_lt (Nat.lt_trans hslot (by decide))
      obtain ⟨rep', v', hok, hslotLaw, hbyteLaw⟩ := hopen (hsame ▸ hslot)
      have hasked := hslotLaw.installed hslot hok _ rfl
      have hgot := hbyteLaw.installed (hsame ▸ hslot) hok _ rfl
      have hword : vmArgU32 req 1 = rd32 req.data 4 := vmArgU32_eq hwell (by decide)
      rw [hsame, hword, UInt32.toNat_toUInt8] at hgot
      have heq := hgot.symm.trans hasked
      omega
    · rintro hslot rfl hbudget hperiod
      have hsame : slotArg req = namedSlot req := by
        rw [hbyte]
        exact Nat.mod_eq_of_lt (Nat.lt_trans hslot (by decide))
      have hwordBudget : vmArgU32 req 2 = rd32 req.data 8 := vmArgU32_eq hwell (by decide)
      have hwordPeriod : vmArgU32 req 3 = rd32 req.data 12 := vmArgU32_eq hwell (by decide)
      have hnonzero : ¬ (rd32 req.data 8 = 0 \/ rd32 req.data 12 = 0) := not_or.mpr ⟨hbudget, hperiod⟩
      have hinstalled : installedPct req .configure =
          some (min 100 (budgetPct (rd32 req.data 8) (rd32 req.data 12)).toUInt8.toNat) := by
        unfold installedPct
        rw [hwordBudget, hwordPeriod]
        exact if_neg hnonzero
      obtain ⟨rep', v', hok, hslotLaw, hbyteLaw⟩ := hopen (hsame ▸ hslot)
      have hasked := hslotLaw.installed hslot hok _ (if_neg hnonzero)
      have hgot := hbyteLaw.installed (hsame ▸ hslot) hok _ hinstalled
      rw [hsame] at hgot
      by_contra hlost
      obtain ⟨hless, hoverflow⟩ := not_or.mp hlost
      exact budgetPct_lost (UInt32.not_le.mp hless) (Nat.not_lt.mp hoverflow)
        (hgot.symm.trans hasked)
  · intro hnarrows v rep trace rep' v' hrun
    exact ((handle_ensures op).result hrun).law hwell hnarrows

end Narrowing

/-- SET_QUOTA of 50 percent for slot 1. -/
def quotaMsg : Sel4Msg := ⟨0, 8, wr32 (wr32 (fun _ => 0) 0 1) 4 50⟩

theorem slot_law_quota : WellFormed .setQuota quotaMsg /\
    ∀ v rep trace rep' v', Run (SlotOp.setQuota.handle v quotaMsg rep) trace (rep', v') ->
      SlotLaw .setQuota quotaMsg v rep' v' :=
  ⟨⟨by decide, by decide⟩, (slot_law_iff .setQuota quotaMsg ⟨by decide, by decide⟩).mpr
    ⟨.inl (by decide), fun _ _ => .inl (by decide), fun _ h => nomatch h⟩⟩

/-- DESTROY of slot 256. -/
def destroyBeyond : Sel4Msg := ⟨opVmDestroy, 4, wr32 (fun _ => 0) 0 256⟩

/-- A word beyond the slots destroys the guest of slot 0. -/
theorem wrong_slot :
    ∃ v v' rep' trace, WellFormed .destroy destroyBeyond /\ namedSlot destroyBeyond = 256 /\
      Run (SlotOp.destroy.handle v destroyBeyond emptyMsg) trace (rep', v') /\
      (v.manager.slots 0).state = .running /\ (v'.manager.slots 0).state = .free := by
  obtain ⟨trace, hrun, -⟩ := run_resolve (I := ManagerIo) agreeing
    (SlotOp.destroy.handle (openState destroyBeyond) destroyBeyond emptyMsg)
  exact ⟨openState destroyBeyond, _, _, trace, ⟨by decide, by decide⟩, by decide, hrun, rfl, by decide⟩

end AgentOs.VmManager
