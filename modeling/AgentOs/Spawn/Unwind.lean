import AgentOs.Spawn.ChildSpawn

/-!
# All or nothing

What a call of `aos_child_spawn` leaves behind, read off the trace of its kernel calls.
-/

namespace AgentOs.Spawn

open Library Staged Sel4 List

abbrev SpawnTrace := List (Prog.Event SpawnIo)

/-! ## What a trace did -/

/-- What the calls that succeeded did. -/
def succeeded {β : Type} (pick : KernelCall -> Option β) (trace : SpawnTrace) : List β :=
  trace.filterMap fun
    | ⟨.kernel call, err⟩ => if err = Sel4Error.noError then pick call else none
    | ⟨.faultInstall _ _ _, _⟩ => none

/-- What was asked for, whether or not the kernel did it. -/
def issued {β : Type} (pick : KernelCall -> Option β) (trace : SpawnTrace) : List β :=
  trace.filterMap fun
    | ⟨.kernel call, _⟩ => pick call
    | ⟨.faultInstall _ _ _, _⟩ => none

@[simp]
def KernelCall.retypedInto : KernelCall -> Option (UInt64 × UInt64)
  | .untypedRetype _ _ _ root slot => some (root, slot)
  | _ => none

@[simp]
def KernelCall.deletes : KernelCall -> Option (UInt64 × UInt64)
  | .cnodeDelete root index _ => some (root, index)
  | _ => none

@[simp]
def KernelCall.revokes : KernelCall -> Option (UInt64 × UInt64)
  | .cnodeRevoke root index _ => some (root, index)
  | _ => none

@[simp]
def KernelCall.maps : KernelCall -> Option UInt64
  | .pageMap frame _ _ => some frame
  | _ => none

@[simp]
def KernelCall.unmaps : KernelCall -> Option UInt64
  | .pageUnmap frame => some frame
  | _ => none

@[simp]
def KernelCall.mints : KernelCall -> Option KernelCall
  | .cnodeMint destRoot destIndex destDepth srcRoot srcIndex srcDepth rights badge =>
    some (.cnodeMint destRoot destIndex destDepth srcRoot srcIndex srcDepth rights badge)
  | _ => none

@[simp]
def KernelCall.resumes : KernelCall -> Option UInt64
  | .tcbWriteRegisters tcb true _ => some tcb
  | _ => none

/-- The slots objects were retyped into, as CNode and index. -/
def retyped : SpawnTrace -> List (UInt64 × UInt64) := succeeded KernelCall.retypedInto

/-- The slots given to `seL4_CNode_Delete`, whose result the code ignores. -/
def deleted : SpawnTrace -> List (UInt64 × UInt64) := issued KernelCall.deletes

def revoked : SpawnTrace -> List (UInt64 × UInt64) := issued KernelCall.revokes

def mapped : SpawnTrace -> List UInt64 := succeeded KernelCall.maps

/-- The frames given to `seL4_ARM_Page_Unmap`, whose result the code ignores. -/
def unmapped : SpawnTrace -> List UInt64 := issued KernelCall.unmaps

def minted : SpawnTrace -> List KernelCall := succeeded KernelCall.mints

def resumed : SpawnTrace -> List UInt64 := succeeded KernelCall.resumes

section Picks

variable {β : Type} (pick : KernelCall -> Option β)

@[simp]
theorem succeeded_append (t t' : SpawnTrace) :
    succeeded pick (t ++ t') = succeeded pick t ++ succeeded pick t' :=
  filterMap_append

@[simp]
theorem issued_append (t t' : SpawnTrace) :
    issued pick (t ++ t') = issued pick t ++ issued pick t' :=
  filterMap_append

theorem succeeded_kernel (call : KernelCall) (err : Sel4Error) :
    succeeded pick [⟨.kernel call, err⟩] = if err = .noError then (pick call).toList else [] := by
  by_cases herr : err = .noError <;> cases hpick : pick call <;>
    simp [succeeded, herr, hpick]

theorem issued_kernel (call : KernelCall) (err : Sel4Error) :
    issued pick [⟨.kernel call, err⟩] = (pick call).toList := by
  cases hpick : pick call <;> simp [issued, hpick]

end Picks

/-! ## The property -/

namespace ChildSpawnReq

variable (req : ChildSpawnReq)

/-- The frames of the caller that the child is to have, in the order they are mapped. -/
def callerFrames : List UInt64 :=
  req.contentFrame :: (range req.extraMapCount.toNat).map fun i => (req.maps i).frame

/-- The entries that a ledger gets for the endowment. -/
def ledgerEntries : List LedgerEntry :=
  req.endowed.map fun entry =>
    ledgerEntry req.childIndex req.childName entry.2.kind entry.2.rights req.endowBadge

end ChildSpawnReq

/-- A failed call has left nothing.  The frames that were mapped are the first ones of the
caller's and, when these are through, ones that the call retyped itself; the caller's are
unmapped, and no others. -/
structure Undone (req : ChildSpawnReq) (ledger : Option EndowLedger) (trace : SpawnTrace)
    (ret : SpawnReturn) : Prop where
  neverResumed : resumed trace = []
  slotsDeleted : ∀ slot ∈ retyped trace, (deleted trace).count slot = 1
  nothingStaged : ∀ out, ret.out = some out -> out.scratchNext = out.scratchBase
  callerMapped : (mapped trace).take req.callerFrames.length <+: req.callerFrames
  ownMapped : ∀ frame ∈ (mapped trace).drop req.callerFrames.length,
    (req.selfCnode, frame) ∈ retyped trace
  framesUnmapped : unmapped trace = ((mapped trace).take req.callerFrames.length).reverse
  originalsKept : ∀ entry ∈ req.endowed,
    (req.selfCnode, req.cptrs entry.1.val) ∉ deleted trace /\
      (req.selfCnode, req.cptrs entry.1.val) ∉ revoked trace
  ledgerRestored : ret.ledger = ledger

/-- The child was resumed once, as the last call, with its endowment minted and recorded. -/
structure Started (req : ChildSpawnReq) (ledger : Option EndowLedger) (trace : SpawnTrace)
    (ret : SpawnReturn) : Prop where
  resumedLast : ∃ out before, ret.out = some out /\
    trace = before ++ [⟨.kernel (.tcbWriteRegisters out.tcb true req.regs), .noError⟩] /\
    resumed before = [] /\ minted before = req.endowed.map (req.mint out.cnode)
  ledgerGains : ∀ led, ledger = some led ->
    ∃ led', ret.ledger = some led' /\ led.Gains req.ledgerEntries led'
  noLedger : ledger = none -> ret.ledger = none

/-- The child was built but could not be resumed: the reported range is what is staged. -/
structure LeftStaged (req : ChildSpawnReq) (ledger : Option EndowLedger) (trace : SpawnTrace)
    (ret : SpawnReturn) : Prop where
  ledgerRestored : ret.ledger = ledger
  range : ∃ out, ret.out = some out /\ ∀ slot : UInt64,
    ((req.selfCnode, slot) ∈ retyped trace /\ (req.selfCnode, slot) ∉ deleted trace) ↔
      out.scratchBase <= slot /\ slot < out.scratchNext

structure AllOrNothing (req : ChildSpawnReq) (ledger : Option EndowLedger) (trace : SpawnTrace)
    (ret : SpawnReturn) : Prop where
  failed : ret.status ≠ .ok -> ret.status ≠ .errStart -> Undone req ledger trace ret
  ok : ret.status = .ok -> Started req ledger trace ret
  start : ret.status = .errStart -> LeftStaged req ledger trace ret

/-! ## The scratch range -/

/-- The slots from `first` up to `stop` of a CNode. -/
def slots (root first stop : UInt64) : List (UInt64 × UInt64) :=
  (range (stop.toNat - first.toNat)).map fun k => (root, first + UInt64.ofNat k)

theorem slots_self (root first : UInt64) : slots root first first = [] := by
  simp [slots]

theorem toNat_add_one_of_lt {a b : UInt64}
    (h : a.toNat < b.toNat) : (a + 1).toNat = a.toNat + 1 := by
  have := b.toNat_lt
  rw [UInt64.toNat_add, UInt64.toNat_one]
  omega

theorem add_ofNat_sub {a b : UInt64} (h : a.toNat <= b.toNat) :
    a + UInt64.ofNat (b.toNat - a.toNat) = b := by
  have := b.toNat_lt
  apply UInt64.toNat_inj.mp
  rw [UInt64.toNat_add, UInt64.toNat_ofNat']
  omega

theorem slots_succ {root first stop : UInt64} (hle : first.toNat <= stop.toNat)
    (hsucc : (stop + 1).toNat = stop.toNat + 1) :
    slots root first (stop + 1) = slots root first stop ++ [(root, stop)] := by
  rw [slots, hsucc, Nat.sub_add_comm hle, range_succ, map_append, map_singleton,
    add_ofNat_sub hle]
  rfl

theorem mem_slots_iff {root first stop slot : UInt64} :
    (root, slot) ∈ slots root first stop ↔ first <= slot /\ slot < stop := by
  have hstop := stop.toNat_lt
  rw [slots, mem_map, UInt64.le_iff_toNat_le, UInt64.lt_iff_toNat_lt]
  constructor
  · rintro ⟨k, hk, hslot⟩
    rw [mem_range] at hk
    have hsame := congrArg UInt64.toNat (Prod.mk.inj hslot).2
    rw [UInt64.toNat_add, UInt64.toNat_ofNat'] at hsame
    omega
  · rintro ⟨hfirst, hlt⟩
    refine ⟨slot.toNat - first.toNat, mem_range.mpr (by omega), ?_⟩
    rw [add_ofNat_sub hfirst]

theorem nodup_slots (root first stop : UInt64) : (slots root first stop).Nodup := by
  have hstop := stop.toNat_lt
  refine List.Nodup.map_on ?_ nodup_range
  intro i hi j hj hsame
  rw [mem_range] at hi hj
  have hnat := congrArg UInt64.toNat (Prod.mk.inj hsame).2
  rw [UInt64.toNat_add, UInt64.toNat_add, UInt64.toNat_ofNat', UInt64.toNat_ofNat'] at hnat
  omega

/-! ## What has been done so far -/

/-- All lists that a trace is read for. -/
@[ext]
structure Deeds where
  retyped : List (UInt64 × UInt64)
  mapped : List UInt64
  minted : List KernelCall
  deleted : List (UInt64 × UInt64)
  revoked : List (UInt64 × UInt64)
  unmapped : List UInt64
  resumed : List UInt64

def deeds (trace : SpawnTrace) : Deeds :=
  ⟨retyped trace, mapped trace, minted trace, deleted trace, revoked trace, unmapped trace,
    resumed trace⟩

def Deeds.none : Deeds := ⟨[], [], [], [], [], [], []⟩

def Deeds.append (d e : Deeds) : Deeds :=
  ⟨d.retyped ++ e.retyped, d.mapped ++ e.mapped, d.minted ++ e.minted, d.deleted ++ e.deleted,
    d.revoked ++ e.revoked, d.unmapped ++ e.unmapped, d.resumed ++ e.resumed⟩

theorem Deeds.append_none (d : Deeds) : d.append .none = d := by
  simp [Deeds.append, Deeds.none]

theorem deeds_append (t t' : SpawnTrace) : deeds (t ++ t') = (deeds t).append (deeds t') := by
  simp only [deeds, Deeds.append, retyped, mapped, minted, deleted, revoked, unmapped, resumed,
    succeeded_append, issued_append]

theorem deeds_kernel (call : KernelCall) (err : Sel4Error) : deeds [⟨.kernel call, err⟩] =
      { retyped := if err = .noError then call.retypedInto.toList else []
        mapped := if err = .noError then call.maps.toList else []
        minted := if err = .noError then call.mints.toList else []
        deleted := call.deletes.toList
        revoked := call.revokes.toList
        unmapped := call.unmaps.toList
        resumed := if err = .noError then call.resumes.toList else [] } := by
  simp only [deeds, retyped, mapped, minted, deleted, revoked, unmapped, resumed,
    succeeded_kernel, issued_kernel]

theorem deeds_faultInstall (ep label tcb answer : UInt64) :
    deeds [⟨.faultInstall ep label tcb, answer⟩] = .none := rfl

/-- The scratch range describes the trace: exactly its claimed slots, at most `budget` of
them, were retyped into, and nothing was undone or resumed. -/
structure Log (sc0 : PtScratch) (budget : Nat) (frames : List UInt64) (mints : List KernelCall)
    (sc : PtScratch) (trace : SpawnTrace) : Prop where
  scratch : sc = { sc0 with nextSlot := sc.nextSlot }
  low : sc0.baseSlot.toNat <= sc.nextSlot.toNat
  high : sc.nextSlot.toNat <= sc0.limitSlot.toNat
  spent : sc.nextSlot.toNat <= sc0.baseSlot.toNat + budget
  deeds : deeds trace =
    { Deeds.none with
      retyped := slots sc0.selfCnode sc0.baseSlot sc.nextSlot
      mapped := frames
      minted := mints }

section Log

variable {sc0 sc : PtScratch} {budget : Nat} {frames : List UInt64} {mints : List KernelCall}
  {trace : SpawnTrace}

section

variable (h : Log sc0 budget frames mints sc trace)

include h

theorem Log.mem_retyped {slot : UInt64} :
    (sc0.selfCnode, slot) ∈ retyped trace ↔ sc0.baseSlot <= slot /\ slot < sc.nextSlot := by
  have hretyped : retyped trace = _ := congrArg Deeds.retyped h.deeds
  rw [hretyped]
  exact mem_slots_iff

theorem Log.mono {more : Nat} (hle : budget <= more) : Log sc0 more frames mints sc trace :=
  { h with spent := h.spent.trans (Nat.add_le_add_left hle _) }

theorem Log.quiet {more : SpawnTrace}
    (hmore : Spawn.deeds more = .none) : Log sc0 budget frames mints sc (trace ++ more) :=
  { h with deeds := by rw [deeds_append, hmore, Deeds.append_none, h.deeds] }

theorem Log.map (frame vspace va : UInt64) : Log sc0 budget (frames ++ [frame]) mints sc
      (trace ++ [⟨.kernel (.pageMap frame vspace va), .noError⟩]) :=
  { h with
    deeds := by
      rw [deeds_append, h.deeds, deeds_kernel]
      simp [Deeds.append, Deeds.none] }

theorem Log.mint (req : ChildSpawnReq)
    (childCnode : UInt64) (entry : Fin aosEndowmentMaxCaps × EndowCap) :
    Log sc0 budget frames (mints ++ [req.mint childCnode entry]) sc
      (trace ++ [⟨.kernel (req.mint childCnode entry), .noError⟩]) :=
  { h with
    deeds := by
      rw [deeds_append, h.deeds, deeds_kernel]
      simp [Deeds.append, Deeds.none, ChildSpawnReq.mint] }

theorem Log.retype (type : ObjectType) (sizeBits : UInt64) (hlt : sc.nextSlot < sc.limitSlot) :
    Log sc0 (budget + 1) frames mints { sc with nextSlot := sc.nextSlot + 1 }
      (trace ++ [⟨.kernel (.untypedRetype sc.poolUt type sizeBits sc.selfCnode sc.nextSlot),
        .noError⟩]) := by
  obtain ⟨hscratch, hlow, hhigh, hspent, hdeeds⟩ := h
  have hroot : sc.selfCnode = sc0.selfCnode := by rw [hscratch]
  have hlimit : sc.limitSlot = sc0.limitSlot := by rw [hscratch]
  rw [hlimit, UInt64.lt_iff_toNat_lt] at hlt
  have hsucc := toNat_add_one_of_lt hlt
  constructor
  · rw [hscratch]
  · exact hlow.trans (hsucc ▸ Nat.le_succ _)
  · exact hsucc ▸ hlt
  · simp only [hsucc]
    omega
  · rw [deeds_append, hdeeds, deeds_kernel, slots_succ hlow hsucc]
    simp [Deeds.append, Deeds.none, hroot]

end

theorem deeds_of_failed {call : KernelCall} {err : Sel4Error} (herr : err ≠ .noError)
    (hdeletes : call.deletes = none) (hrevokes : call.revokes = none)
    (hunmaps : call.unmaps = none) : deeds [⟨.kernel call, err⟩] = .none := by
  rw [deeds_kernel, hdeletes, hrevokes, hunmaps]
  simp [herr, Deeds.none]

/-- A retype adds its slot, or leaves the range as it was. -/
theorem meets_retypeOne (hbase : sc0.baseSlot ≠ 0) (h : Log sc0 budget frames mints sc trace)
    (type : ObjectType) (sizeBits : UInt64) :
    Meets (fun outcome sc' trace' => Log sc0 (budget + 1) frames mints sc' trace' /\
        ∀ slot, outcome = .ok slot -> (sc0.selfCnode, slot) ∈ retyped trace')
      (retypeOne type sizeBits) sc trace := by
  apply meets_read_bind
  unfold ptScratchClaim
  by_cases hfull : sc.nextSlot >= sc.limitSlot
  · simp only [if_pos hfull]
    apply meets_change_bind
    apply meets_fail
    exact ⟨h.mono (Nat.le_succ budget), fun slot hok => by cases hok⟩
  · simp only [if_neg hfull]
    have hlt : sc.nextSlot < sc.limitSlot := UInt64.not_le.mp hfull
    have hnull : sc.nextSlot ≠ sel4CapNull := by
      intro hnull
      have hlow := h.low
      rw [hnull] at hlow
      exact hbase (UInt64.toNat_inj.mp (Nat.le_zero.mp hlow))
    apply meets_change_bind
    rw [if_neg hnull]
    apply meets_ask_bind
    intro err
    by_cases herr : err = Sel4Error.noError
    · subst herr
      rw [if_neg (not_not.mpr rfl)]
      apply meets_pure
      have hlog := h.retype type sizeBits hlt
      refine ⟨hlog, fun slot hok => ?_⟩
      cases hok
      have hsucc := toNat_add_one_of_lt (UInt64.lt_iff_toNat_lt.mp hlt)
      rw [hlog.mem_retyped, UInt64.le_iff_toNat_le, UInt64.lt_iff_toNat_lt]
      exact ⟨h.low, hsucc ▸ Nat.lt_succ_self _⟩
    · rw [if_pos herr]
      apply meets_change_bind
      apply meets_fail
      refine ⟨?_, fun slot hok => by cases hok⟩
      have hback : sc.nextSlot + 1 - 1 = sc.nextSlot := UInt64.add_sub_cancel _ _
      rw [hback]
      exact (h.mono (Nat.le_succ budget)).quiet (deeds_of_failed herr rfl rfl rfl)

/-- The frame is mapped exactly when the outcome says so; the page tables made for it stay. -/
theorem meets_mapAttempts (hbase : sc0.baseSlot ≠ 0) (frame vspace va : UInt64) (left : Nat)
    (h : Log sc0 budget frames mints sc trace) :
    Meets (fun outcome sc' trace' =>
        Log sc0 (budget + (left - 1)) (frames ++ if outcome = .ok () then [frame] else []) mints
          sc' trace')
      (mapAttempts frame vspace va left) sc trace := by
  induction left generalizing budget sc trace with
  | zero =>
    apply meets_fail
    simpa using h
  | succ left ih =>
    apply meets_ask_bind
    intro err
    by_cases herr : err = Sel4Error.noError
    · subst herr
      rw [if_pos rfl]
      apply meets_pure
      exact (h.map frame vspace va).mono (Nat.le_add_right budget left)
    · have hquiet : Log sc0 budget frames mints sc
          (trace ++ [⟨.kernel (.pageMap frame vspace va), err⟩]) :=
        h.quiet (deeds_of_failed herr rfl rfl rfl)
      rw [if_neg herr]
      split
      case isTrue hstop =>
        apply meets_fail
        simpa using hquiet.mono (Nat.le_add_right budget left)
      case isFalse hgo =>
        rw [not_or, not_not] at hgo
        refine (meets_retypeOne hbase hquiet .pageTable 0).bind ?_ ?_
        · rintro pt sc' trace' ⟨hlog, _⟩
          apply meets_ask_bind
          intro mt
          have hmapped : Log sc0 (budget + 1) frames mints sc'
              (trace' ++ [⟨.kernel (.pageTableMap pt vspace va), mt⟩]) := by
            apply hlog.quiet
            rw [deeds_kernel]
            simp [Deeds.none]
          split
          · apply meets_fail
            simpa using hmapped.mono (by omega)
          · refine (ih hmapped).mono fun outcome sc'' trace'' hpost => ?_
            exact hpost.mono (by omega)
        · rintro err sc' trace' ⟨hlog, _⟩
          simpa using hlog.mono (by omega)

theorem meets_mapRetrying (hbase : sc0.baseSlot ≠ 0) (frame vspace va : UInt64)
    (h : Log sc0 budget frames mints sc trace) :
    Meets (fun outcome sc' trace' =>
        Log sc0 (budget + 3) (frames ++ if outcome = .ok () then [frame] else []) mints sc' trace')
      (aosPtMapRetrying frame vspace va) sc trace :=
  meets_mapAttempts hbase frame vspace va aosChildSpawnMaxPtLevels h

end Log

/-! ## The steps of a spawn -/

def ChildSpawnReq.scratch (req : ChildSpawnReq) : PtScratch :=
  aosPtScratchInit req.poolUt req.selfCnode req.selfCnodeBits.toUInt64 req.scratchSlot
    req.scratchCount

/-- The local variables describe the trace: `k` of the caller's frames are mapped, and `n`
entries of the endowment are minted into the child's CNode and recorded. -/
structure Standing (req : ChildSpawnReq) (ledger : Option EndowLedger) (budget : Nat)
    (childCnode : UInt64) (k n : Nat) (st : Staging) (trace : SpawnTrace) : Prop where
  log : ∃ own, Log req.scratch budget (req.callerFrames.take k ++ own)
      ((req.endowed.take n).map (req.mint childCnode)) st.scratch trace /\
    (∀ frame ∈ own, (req.selfCnode, frame) ∈ retyped trace) /\
    (own = [] \/ req.callerFrames.length <= k)
  content : st.contentMapped = decide (0 < k)
  extra : st.extraMapped = k - 1
  frames : k <= req.callerFrames.length
  ledger : st.ledger = ledger.map fun led => led.recordAll (req.ledgerEntries.take n)

/-- The results that come with a teardown. -/
def SpawnStatus.tornDown : SpawnStatus -> Bool
  | .ok | .errStart => false
  | _ => true

/-- A step that fails leaves the local variables true of the trace. -/
def Keeps {α : Type} (req : ChildSpawnReq) (ledger : Option EndowLedger) (budget : Nat)
    (Q : α -> Staging -> SpawnTrace -> Prop) : Except Failure α -> Staging -> SpawnTrace -> Prop
  | .ok value => Q value
  | .error failure => fun st trace =>
    failure.error.tornDown = true /\
      ∃ childCnode k n, Standing req ledger budget childCnode k n st trace

theorem retyped_mono {t t' : SpawnTrace} (h : t <+: t') {slot : UInt64 × UInt64}
    (hmem : slot ∈ retyped t) : slot ∈ retyped t' := by
  obtain ⟨rest, rfl⟩ := h
  rw [retyped, succeeded_append]
  exact mem_append_left _ hmem

section Steps

variable {req : ChildSpawnReq} {ledger : Option EndowLedger} {budget budget' : Nat}
  {childCnode : UInt64} {k n : Nat} {st : Staging} {trace : SpawnTrace} {α β : Type}

theorem Standing.mono (h : Standing req ledger budget childCnode k n st trace)
    (hle : budget <= budget') : Standing req ledger budget' childCnode k n st trace := by
  obtain ⟨own, hlog, hown⟩ := h.log
  exact { h with log := ⟨own, hlog.mono hle, hown⟩ }

theorem Standing.quiet (h : Standing req ledger budget childCnode k n st trace)
    {more : SpawnTrace} (hmore : deeds more = .none) :
    Standing req ledger budget childCnode k n st (trace ++ more) := by
  obtain ⟨own, hlog, hown, hall⟩ := h.log
  have hmem := fun frame hframe => retyped_mono (prefix_append trace more) (hown frame hframe)
  exact { h with log := ⟨own, hlog.quiet hmore, hmem, hall⟩ }

theorem meets_keeps_bind {Q : α -> Staging -> SpawnTrace -> Prop}
    {R : β -> Staging -> SpawnTrace -> Prop} {m : SpawnM α} {f : α -> SpawnM β}
    (hfirst : Meets (Keeps req ledger budget Q) m st trace) (hle : budget <= budget')
    (hnext : ∀ value st' trace', Q value st' trace' ->
      Meets (Keeps req ledger budget' R) (f value) st' trace') :
    Meets (Keeps req ledger budget' R) (m >>= f) st trace := by
  refine hfirst.bind hnext ?_
  rintro failure st' trace' ⟨hstatus, c, i, j, hstanding⟩
  exact ⟨hstatus, c, i, j, hstanding.mono hle⟩

variable {error : SpawnStatus}

theorem meets_onScratch {Q : Except Failure α -> Staging -> SpawnTrace -> Prop}
    {R : Except Sel4Error α -> PtScratch -> SpawnTrace -> Prop} {m : ScratchM α} {step : SpawnStep}
    (h : Meets R m st.scratch trace)
    (hQ : ∀ outcome sc trace', R outcome sc trace' -> trace <+: trace' ->
      Q (outcome.mapError fun _ => ⟨error, step, 0⟩) { st with scratch := sc } trace') :
    Meets Q (onScratch error step m) st trace := by
  intro run outcome st' hrun
  obtain ⟨first, second, ⟨result, sc⟩, rfl, hm, hret⟩ := Prog.run_bind_iff.mp hrun
  obtain ⟨rfl, ⟨⟩⟩ := Prog.run_ret_iff.mp hret
  rw [append_nil]
  exact hQ result sc _ (h first result sc hm) (prefix_append trace first)

theorem meets_retype (hbase : req.scratchSlot ≠ 0)
    (h : Standing req ledger budget childCnode k n st trace) (herror : error.tornDown = true)
    (step : SpawnStep) (type : ObjectType) (sizeBits : UInt64) :
    Meets (Keeps req ledger (budget + 1) fun slot st' trace' =>
        Standing req ledger (budget + 1) childCnode k n st' trace' /\
          (req.selfCnode, slot) ∈ retyped trace')
      (onScratch error step (retypeOne type sizeBits)) st trace := by
  obtain ⟨own, hlog, hown, hall⟩ := h.log
  refine meets_onScratch (meets_retypeOne hbase hlog type sizeBits) ?_
  rintro outcome sc trace' ⟨hlog', hslot⟩ hgrows
  have hstanding : Standing req ledger (budget + 1) childCnode k n { st with scratch := sc }
      trace' :=
    { h with
      log := ⟨own, hlog', fun frame hframe => retyped_mono hgrows (hown frame hframe), hall⟩ }
  cases outcome with
  | ok slot => exact ⟨hstanding, hslot slot rfl⟩
  | error err => exact ⟨herror, childCnode, k, n, hstanding⟩

/-- A frame that the call retyped itself comes after all of the caller's. -/
theorem meets_mapOwn (hbase : req.scratchSlot ≠ 0)
    (h : Standing req ledger budget childCnode req.callerFrames.length n st trace)
    (step : SpawnStep) {frame : UInt64} (hframe : (req.selfCnode, frame) ∈ retyped trace)
    (vspace va : UInt64) :
    Meets (Keeps req ledger (budget + 3) fun _ =>
        Standing req ledger (budget + 3) childCnode req.callerFrames.length n)
      (onScratch .errMap step (aosPtMapRetrying frame vspace va)) st trace := by
  obtain ⟨own, hlog, hown, _⟩ := h.log
  refine meets_onScratch (meets_mapRetrying hbase frame vspace va hlog) ?_
  rintro outcome sc trace' hlog' hgrows
  rw [append_assoc] at hlog'
  have hmem : ∀ f ∈ own ++ (if outcome = .ok () then [frame] else []),
      (req.selfCnode, f) ∈ retyped trace' := by
    intro f hf
    rcases mem_append.mp hf with hf | hf
    · exact retyped_mono hgrows (hown f hf)
    · split at hf
      · rw [mem_singleton.mp hf]
        exact retyped_mono hgrows hframe
      · cases hf
  have hstanding : Standing req ledger (budget + 3) childCnode req.callerFrames.length n
      { st with scratch := sc } trace' :=
    { h with log := ⟨_, hlog', hmem, Or.inr le_rfl⟩ }
  cases outcome with
  | ok _ => exact hstanding
  | error err => exact ⟨rfl, childCnode, _, n, hstanding⟩

/-- The next frame of the caller; what is left to do is to note that it is mapped. -/
theorem meets_mapCaller (hbase : req.scratchSlot ≠ 0)
    (h : Standing req ledger budget childCnode k n st trace) (step : SpawnStep) {frame : UInt64}
    (hframe : req.callerFrames[k]? = some frame) (vspace va : UInt64) :
    Meets (Keeps req ledger (budget + 3) fun _ st' trace' =>
        st'.contentMapped = st.contentMapped /\ st'.extraMapped = st.extraMapped /\
        Standing req ledger (budget + 3) childCnode (k + 1) n
          { st' with contentMapped := true, extraMapped := k } trace')
      (onScratch .errMap step (aosPtMapRetrying frame vspace va)) st trace := by
  obtain ⟨own, hlog, hown, hall⟩ := h.log
  obtain ⟨hlt, hget⟩ := List.getElem?_eq_some_iff.mp hframe
  obtain rfl : own = [] := hall.resolve_right (Nat.not_le.mpr hlt)
  rw [append_nil] at hlog
  refine meets_onScratch (meets_mapRetrying hbase frame vspace va hlog) ?_
  rintro outcome sc trace' hlog' hgrows
  cases outcome with
  | ok _ =>
    rw [if_pos rfl, <- hget, take_concat_get' _ _ hlt] at hlog'
    refine ⟨rfl, rfl, ?_⟩
    constructor
    · refine ⟨[], ?_, nofun, Or.inl rfl⟩
      rw [append_nil]
      exact hlog'
    · simp
    · simp
    · exact hlt
    · exact h.ledger
  | error err =>
    refine ⟨rfl, childCnode, k, n, { h with log := ⟨[], hlog', ?_, Or.inl rfl⟩ }⟩
    exact nofun

theorem length_callerFrames : req.callerFrames.length = req.extraMapCount.toNat + 1 := by
  simp [ChildSpawnReq.callerFrames]

theorem callerFrames_succ {i : Nat} (hi : i < req.extraMapCount.toNat) :
    req.callerFrames[i + 1]? = some (req.maps i).frame := by
  simp [ChildSpawnReq.callerFrames, hi]

theorem meets_mapExtras (hbase : req.scratchSlot ≠ 0) (childVspace : UInt64) (m : Nat)
    (hm : k + m = req.extraMapCount.toNat)
    (h : Standing req ledger budget childCnode (k + 1) n st trace) :
    Meets (Keeps req ledger (budget + 3 * m) fun _ =>
        Standing req ledger (budget + 3 * m) childCnode req.callerFrames.length n)
      (mapExtras req childVspace (range' k m)) st trace := by
  induction m generalizing budget k st trace with
  | zero =>
    apply meets_pure
    rw [length_callerFrames, <- hm]
    exact h
  | succ m ih =>
    rw [range'_succ]
    refine meets_keeps_bind
      (meets_mapCaller hbase h .extraMap (callerFrames_succ (by omega)) childVspace _)
      (by omega) ?_
    rintro _ st' trace' ⟨hcontent, hextra, hstanding⟩
    apply meets_change_bind
    have hnoted : Standing req ledger (budget + 3) childCnode (k + 1 + 1) n
        { st' with extraMapped := st'.extraMapped + 1 } trace' := by
      have hmapped : st'.contentMapped = true := by simp [hcontent, h.content]
      have hcount : st'.extraMapped + 1 = k + 1 := by rw [hextra, h.extra, Nat.add_sub_cancel]
      rw [hcount]
      rw [<- hmapped] at hstanding
      exact hstanding
    have hrest := ih (by omega) hnoted
    rwa [show budget + 3 + 3 * m = budget + 3 * (m + 1) by omega] at hrest

theorem meets_expect (h : Standing req ledger budget childCnode k n st trace)
    (herror : error.tornDown = true) (step : SpawnStep) {call : KernelCall}
    (hcall : ∀ err, deeds [⟨.kernel call, err⟩] = .none) :
    Meets (Keeps req ledger budget fun _ => Standing req ledger budget childCnode k n)
      (expect error step call) st trace := by
  apply meets_ask_bind
  intro err
  have hquiet := h.quiet (hcall err)
  split
  · apply meets_fail
    exact ⟨herror, childCnode, k, n, hquiet⟩
  · apply meets_pure
    exact hquiet

/-- Before the first mint it does not matter which CNode is meant. -/
theorem Standing.cnode (h : Standing req ledger budget childCnode k 0 st trace) (c : UInt64) :
    Standing req ledger budget c k 0 st trace := by
  obtain ⟨own, hlog, hown⟩ := h.log
  exact { h with log := ⟨own, hlog, hown⟩ }

theorem standing_start (hlimit : req.scratchSlot.toNat + req.scratchCount.toNat < 2 ^ 64)
    (c : UInt64) : Standing req ledger 0 c 0 0 (req.staging ledger) [] := by
  constructor
  · refine ⟨[], ⟨rfl, le_rfl, ?_, le_rfl, ?_⟩, nofun, Or.inl rfl⟩
    · show req.scratchSlot.toNat <= (req.scratchSlot + req.scratchCount).toNat
      rw [UInt64.toNat_add]
      omega
    · have hnone : slots req.scratch.selfCnode req.scratch.baseSlot
          (req.staging ledger).scratch.nextSlot = [] := slots_self _ _
      rw [hnone]
      rfl
  · rfl
  · rfl
  · exact Nat.zero_le _
  · cases ledger <;> rfl

theorem meets_buildSpace (hbase : req.scratchSlot ≠ 0)
    (h : Standing req ledger 0 childCnode 0 0 st trace) :
    Meets (Keeps req ledger (5 + 3 * req.extraMapCount.toNat) fun space =>
        Standing req ledger (5 + 3 * req.extraMapCount.toNat) space.1 req.callerFrames.length 0)
      (buildSpace req) st trace := by
  refine meets_keeps_bind (meets_retype hbase h rfl .cnode _ _) (by omega) ?_
  rintro cnode st1 trace1 ⟨h1, _⟩
  refine meets_keeps_bind (meets_retype hbase h1 rfl .vspace _ _) (by omega) ?_
  rintro vspace st2 trace2 ⟨h2, _⟩
  refine meets_keeps_bind (meets_expect h2 rfl .asid fun err => ?_) (by omega) ?_
  · rw [deeds_kernel]
    simp [Deeds.none]
  rintro _ st3 trace3 h3
  refine meets_keeps_bind (meets_mapCaller hbase h3 .contentMap rfl vspace _) (by omega) ?_
  rintro _ st4 trace4 ⟨_, hextra, h4⟩
  apply meets_change_bind
  have hnoted : Standing req ledger 5 childCnode (0 + 1) 0
      { st4 with contentMapped := true } trace4 := by
    obtain ⟨scratch4, contentMapped4, extraMapped4, ledger4⟩ := st4
    obtain rfl : extraMapped4 = 0 := hextra.trans h3.extra
    exact h4
  rw [range_eq_range']
  refine meets_keeps_bind
    (meets_mapExtras hbase vspace req.extraMapCount.toNat (Nat.zero_add _) hnoted) le_rfl ?_
  rintro _ st5 trace5 h5
  apply meets_pure
  exact h5.cnode cnode

theorem meets_buildThread (hbase : req.scratchSlot ≠ 0) (childVspace : UInt64)
    (h : Standing req ledger budget childCnode req.callerFrames.length 0 st trace) :
    Meets (Keeps req ledger (budget + 9) fun _ =>
        Standing req ledger (budget + 9) childCnode req.callerFrames.length 0)
      (buildThread req childCnode childVspace) st trace := by
  refine meets_keeps_bind (meets_retype hbase h rfl .stackFrame _ _) (by omega) ?_
  rintro stackFrame st1 trace1 ⟨h1, hstack⟩
  refine meets_keeps_bind (meets_mapOwn hbase h1 .stackMap hstack childVspace _) (by omega) ?_
  rintro _ st2 trace2 h2
  refine meets_keeps_bind (meets_retype hbase h2 rfl .ipcFrame _ _) (by omega) ?_
  rintro ipcFrame st3 trace3 ⟨h3, hipc⟩
  refine meets_keeps_bind (meets_mapOwn hbase h3 .ipcMap hipc childVspace _) (by omega) ?_
  rintro _ st4 trace4 h4
  refine meets_keeps_bind (meets_retype hbase h4 rfl .tcb _ _) (by omega) ?_
  rintro tcb st5 trace5 ⟨h5, _⟩
  refine meets_keeps_bind (meets_expect h5 rfl .configure fun err => ?_) (by omega) ?_
  · rw [deeds_kernel]
    simp [Deeds.none]
  rintro _ st6 trace6 h6
  refine meets_keeps_bind (meets_expect h6 rfl .regs fun err => ?_) (by omega) ?_
  · rw [deeds_kernel]
    simp [Deeds.none]
  rintro _ st7 trace7 h7
  apply meets_pure
  exact h7.mono (by omega)

theorem meets_installFault (childTcb : UInt64)
    (h : Standing req ledger budget childCnode k n st trace) :
    Meets (Keeps req ledger budget fun _ => Standing req ledger budget childCnode k n)
      (installFault req childTcb) st trace := by
  unfold installFault
  split
  · apply meets_ask_bind
    intro label
    have hquiet := h.quiet (deeds_faultInstall req.faultInstallEp
      (req.faultInstallLabel &&& 0xfffffffffffff) childTcb label)
    split
    · apply meets_fail
      exact ⟨rfl, childCnode, k, n, hquiet⟩
    · apply meets_pure
      exact hquiet
  · apply meets_pure
    exact h

theorem meets_bindSched (hbase : req.scratchSlot ≠ 0) (childTcb : UInt64)
    (h : Standing req ledger budget childCnode k n st trace) :
    Meets (Keeps req ledger (budget + 1) fun _ => Standing req ledger (budget + 1) childCnode k n)
      (bindSched req childTcb) st trace := by
  refine meets_keeps_bind (meets_retype hbase h rfl .sc _ _) le_rfl ?_
  rintro sc st1 trace1 ⟨h1, _⟩
  refine meets_keeps_bind (meets_expect h1 rfl .scConfigure fun err => ?_) le_rfl ?_
  · rw [deeds_kernel]
    simp [Deeds.none]
  rintro _ st2 trace2 h2
  show Meets _ (ite _ _ _) st2 trace2
  split
  · refine meets_expect h2 rfl .schedParams fun err => ?_
    rw [deeds_kernel]
    simp [Deeds.none]
  · refine meets_expect h2 rfl .schedParams fun err => ?_
    rw [deeds_kernel]
    simp [Deeds.none]

theorem record_map (led : Option EndowLedger) (f : EndowLedger -> EndowLedger)
    (childIndex : UInt32) (childName : Option View) (kind rights : UInt32) (badge : UInt64) :
    (aosEndowLedgerRecord (led.map f) childIndex childName kind rights badge).1 =
      led.map fun led =>
        ((f led).record (ledgerEntry childIndex childName kind rights badge)).1 := by
  cases led <;> rfl

/-- One more mint that the kernel accepted, with its record. -/
theorem Standing.endow (h : Standing req ledger budget childCnode k n st trace)
    {entry : Fin aosEndowmentMaxCaps × EndowCap} (hentry : req.endowed[n]? = some entry) :
    Standing req ledger budget childCnode k (n + 1)
      { st with
        ledger := (aosEndowLedgerRecord st.ledger req.childIndex req.childName entry.2.kind
          entry.2.rights req.endowBadge).1 }
      (trace ++ [⟨.kernel (req.mint childCnode entry), .noError⟩]) := by
  obtain ⟨own, hlog, hown, hall⟩ := h.log
  obtain ⟨hlt, hget⟩ := List.getElem?_eq_some_iff.mp hentry
  constructor
  · refine ⟨own, ?_, fun f hf => ?_, hall⟩
    · rw [<- take_concat_get' _ _ hlt, map_append, map_singleton, hget]
      exact hlog.mint req childCnode entry
    · exact retyped_mono (prefix_append _ _) (hown f hf)
  · exact h.content
  · exact h.extra
  · exact h.frames
  · have hrecorded : req.ledgerEntries.take (n + 1) = req.ledgerEntries.take n ++
        [ledgerEntry req.childIndex req.childName entry.2.kind entry.2.rights req.endowBadge] := by
      rw [ChildSpawnReq.ledgerEntries, <- map_take, <- map_take,
        <- take_concat_get' _ _ hlt, map_append, map_singleton, hget]
    show (aosEndowLedgerRecord st.ledger _ _ _ _ _).1 = _
    rw [h.ledger, record_map]
    congr 1
    funext led
    rw [hrecorded, EndowLedger.recordAll_concat]

/-- The rest of the endowment, up to the first mint that fails. -/
theorem meets_endowAll (rest : List (Fin aosEndowmentMaxCaps × EndowCap))
    (hrest : req.endowed.drop n = rest)
    (h : Standing req ledger budget childCnode k n st trace) :
    Meets (Keeps req ledger budget fun _ =>
        Standing req ledger budget childCnode k req.endowed.length)
      (endowAll req childCnode rest) st trace := by
  induction rest generalizing n st trace with
  | nil =>
    apply meets_pure
    have hall : req.endowed.length <= n := drop_eq_nil_iff.mp hrest
    obtain ⟨own, hlog, hown⟩ := h.log
    have hledger := h.ledger
    rw [take_of_length_le hall] at hlog
    rw [ChildSpawnReq.ledgerEntries, <- map_take, take_of_length_le hall] at hledger
    refine { h with log := ⟨own, ?_, hown⟩, ledger := ?_ }
    · rw [take_length]
      exact hlog
    · rw [ChildSpawnReq.ledgerEntries, <- map_take, take_length]
      exact hledger
  | cons entry rest ih =>
    have hentry : req.endowed[n]? = some entry := by
      rw [<- head?_drop, hrest, head?_cons]
    apply meets_ask_bind
    intro mintErr
    by_cases herr : mintErr = Sel4Error.noError
    · subst herr
      rw [if_neg (not_not.mpr rfl)]
      apply meets_change_bind
      refine ih ?_ (h.endow hentry)
      rw [<- drop_drop, hrest, drop_one, tail_cons]
    · rw [if_pos herr]
      apply meets_fail
      exact ⟨rfl, childCnode, k, n, h.quiet (deeds_of_failed herr rfl rfl rfl)⟩

theorem meets_buildChild (hbase : req.scratchSlot ≠ 0)
    (h : Standing req ledger 0 childCnode 0 0 st trace) :
    Meets (Keeps req ledger (15 + 3 * req.extraMapCount.toNat) fun child =>
        Standing req ledger (15 + 3 * req.extraMapCount.toNat) child.cnode
          req.callerFrames.length 0)
      (buildChild req) st trace := by
  refine meets_keeps_bind (meets_buildSpace hbase h) (by omega) ?_
  rintro ⟨cnode, vspace⟩ st1 trace1 h1
  refine meets_keeps_bind (meets_buildThread hbase vspace h1) (by omega) ?_
  rintro tcb st2 trace2 h2
  refine meets_keeps_bind (meets_installFault tcb h2) (by omega) ?_
  rintro _ st3 trace3 h3
  refine meets_keeps_bind (meets_bindSched hbase tcb h3) (by omega) ?_
  rintro _ st4 trace4 h4
  apply meets_pure
  exact h4.mono (by omega)

/-- Every outcome of the steps, from the start of the call. -/
theorem meets_spawnSteps (hbase : req.scratchSlot ≠ 0)
    (hlimit : req.scratchSlot.toNat + req.scratchCount.toNat < 2 ^ 64) :
    Meets (Keeps req ledger (15 + 3 * req.extraMapCount.toNat) fun child =>
        Standing req ledger (15 + 3 * req.extraMapCount.toNat) child.cnode
          req.callerFrames.length req.endowed.length)
      (spawnSteps req) (req.staging ledger) [] := by
  refine meets_keeps_bind (meets_buildChild hbase (standing_start hlimit 0)) le_rfl ?_
  rintro child st1 trace1 h1
  refine meets_keeps_bind (meets_endowAll req.endowed rfl h1) le_rfl ?_
  rintro _ st2 trace2 h2
  apply meets_pure
  exact h2

end Steps

end AgentOs.Spawn
