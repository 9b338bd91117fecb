import AgentOs.Spawn.Reachable
import AgentOs.Spawn.Unwind

/-!
# When a spawn is all or nothing

The teardown undoes what the local variables say was done.  It needs the slots it deletes to be
its own, and a ledger that can be rolled back.
-/

namespace AgentOs.Spawn

open Library Prog Staged Sel4 List

/-! ## The teardown -/

variable {u : Unit} {trace : SpawnTrace}

theorem deeds_stagingTeardown {sc : PtScratch} {staged : Nat}
    (hrun : Run (stagingTeardown sc staged) trace u) :
    deeds trace =
      { Deeds.none with
        deleted := ((range staged).map fun k =>
          (sc.selfCnode, sc.baseSlot + UInt64.ofNat k)).reverse } := by
  induction staged generalizing trace with
  | zero =>
    obtain ⟨rfl, _⟩ := run_ret_iff.mp hrun
    rfl
  | succ staged ih =>
    obtain ⟨err, rest, rfl, hrest⟩ := run_op_iff.mp hrun
    rw [<- singleton_append, deeds_append, deeds_kernel, ih hrest, range_succ]
    simp [Deeds.append, Deeds.none]

variable {req : ChildSpawnReq}

theorem deeds_unmapExtras {count : Nat} (hrun : Run (unmapExtras req count) trace u) :
    deeds trace =
      { Deeds.none with
        unmapped := ((range count).map fun i => (req.maps i).frame).reverse } := by
  induction count generalizing trace with
  | zero =>
    obtain ⟨rfl, _⟩ := run_ret_iff.mp hrun
    rfl
  | succ count ih =>
    obtain ⟨err, rest, rfl, hrest⟩ := run_op_iff.mp hrun
    rw [<- singleton_append, deeds_append, deeds_kernel, ih hrest, range_succ]
    simp [Deeds.append, Deeds.none]

theorem deeds_unmapContent {contentMapped : Bool}
    (hrun : Run (unmapContent req contentMapped) trace u) :
    deeds trace =
      { Deeds.none with unmapped := if contentMapped then [req.contentFrame] else [] } := by
  cases contentMapped with
  | false =>
    obtain ⟨rfl, _⟩ := run_ret_iff.mp hrun
    rfl
  | true =>
    obtain ⟨err, rest, rfl, hrest⟩ := run_op_iff.mp hrun
    obtain ⟨rfl, _⟩ := run_ret_iff.mp hrest
    rw [deeds_kernel]
    simp [Deeds.none]

/-- The frames that the local variables say are mapped, and the claimed slots, both from
the last to the first. -/
theorem deeds_failTeardown {st : Staging} (hrun : Run (failTeardown req st) trace u) :
    deeds trace =
      { Deeds.none with
        deleted := (slots st.scratch.selfCnode st.scratch.baseSlot st.scratch.nextSlot).reverse
        unmapped := ((range st.extraMapped).map fun i => (req.maps i).frame).reverse ++
          if st.contentMapped then [req.contentFrame] else [] } := by
  obtain ⟨first, rest, _, rfl, hextras, hrest⟩ := run_bind_iff.mp hrun
  obtain ⟨second, third, _, rfl, hcontent, hslots⟩ := run_bind_iff.mp hrest
  rw [deeds_append, deeds_append, deeds_unmapExtras hextras, deeds_unmapContent hcontent,
    deeds_stagingTeardown hslots]
  simp [Deeds.append, Deeds.none, slots]

theorem run_failTeardown (req : ChildSpawnReq) (st : Staging) :
    ∃ trace, Run (failTeardown req st) trace () := by
  obtain ⟨trace, hrun, _⟩ := run_resolve (I := SpawnIo)
    (fun | .kernel _ => .noError | .faultInstall _ _ _ => (0 : UInt64)) (failTeardown req st)
  exact ⟨trace, hrun⟩

/-! ## The condition -/

namespace ChildSpawnReq

variable (req : ChildSpawnReq)

/-- The range does not begin at the null capability and ends inside the address space, so
that a first slot can be claimed. -/
def CanStage : Prop := req.scratchSlot ≠ 0 /\ req.scratchSlot.toNat + req.scratchCount.toNat < 2 ^ 64

/-- The slots a call can claim: as many as its objects and page tables need and the range
has.  A range that begins at slot 0 loses that one. -/
def MayClaim (slot : UInt64) : Prop :=
  (req.scratchSlot = 0 /\ slot = 0) \/
    (req.CanStage /\ req.scratchSlot <= slot /\
      slot.toNat < req.scratchSlot.toNat +
        min req.scratchCount.toNat (15 + 3 * req.extraMapCount.toNat))

/-- The capabilities to be minted are not in slots the call can claim, and the ledger, if
there is one, can take the whole endowment and go back. -/
structure Unwindable (ledger : Option EndowLedger) : Prop where
  apart : ∀ entry ∈ req.endowed, ¬req.MayClaim (req.cptrs entry.1.val)
  ledger : req.CanStage -> ∀ led, ledger = some led -> led.Takes req.endowed.length

theorem length_ledgerEntries : req.ledgerEntries.length = req.endowed.length := length_map _

end ChildSpawnReq

/-! ## Calls that meet it -/

section Forward

variable {req : ChildSpawnReq} {ledger : Option EndowLedger} {childCnode : UInt64} {k n : Nat}
  {st : Staging} {trace : SpawnTrace} {ret : SpawnReturn}

theorem undone_nil (hout : ∀ out, ret.out = some out -> out.scratchNext = out.scratchBase)
    (hledger : ret.ledger = ledger) : Undone req ledger [] ret where
  neverResumed := rfl
  slotsDeleted := nofun
  nothingStaged := hout
  callerMapped := nil_prefix
  ownMapped := nofun
  framesUnmapped := rfl
  originalsKept := fun _ _ => ⟨not_mem_nil, not_mem_nil⟩
  ledgerRestored := hledger

theorem callerFrames_take_succ {i : Nat} (hi : i <= req.extraMapCount.toNat) :
    req.callerFrames.take (i + 1) =
      req.contentFrame :: (range i).map fun j => (req.maps j).frame := by
  rw [ChildSpawnReq.callerFrames, take_succ_cons, <- map_take, take_range,
    min_eq_left hi]

theorem Standing.unmaps {budget : Nat} (h : Standing req ledger budget childCnode k n st trace) :
    (((range st.extraMapped).map fun i => (req.maps i).frame).reverse ++
        if st.contentMapped then [req.contentFrame] else []) =
      (req.callerFrames.take k).reverse := by
  rw [h.extra, h.content]
  cases k with
  | zero => rfl
  | succ i =>
    have hi : i <= req.extraMapCount.toNat := by
      have := h.frames
      rw [length_callerFrames] at this
      omega
    rw [callerFrames_take_succ hi]
    simp

theorem Standing.rollback {budget : Nat} (h : Standing req ledger budget childCnode k n st trace)
    (htakes : ∀ led, ledger = some led -> led.Takes req.endowed.length) :
    aosEndowLedgerRollback st.ledger (aosEndowLedgerMark ledger) = ledger := by
  rw [h.ledger]
  cases ledger with
  | none => rfl
  | some led =>
    have hlen : (req.ledgerEntries.take n).length <= req.endowed.length := by
      rw [<- req.length_ledgerEntries]
      exact length_take_le' _ _
    exact congrArg some ((htakes led rfl).mono hlen).rollback

/-- The caller's frames come first among those that were mapped. -/
theorem take_mapped {own : List UInt64} (hk : k <= req.callerFrames.length)
    (hall : own = [] \/ req.callerFrames.length <= k) :
    (req.callerFrames.take k ++ own).take req.callerFrames.length = req.callerFrames.take k /\
      (req.callerFrames.take k ++ own).drop req.callerFrames.length = own := by
  rcases hall with rfl | hle
  · rw [append_nil, take_take, min_eq_right hk]
    refine ⟨rfl, drop_eq_nil_of_le ?_⟩
    exact length_take_le' _ _
  · have hlen : (req.callerFrames.take k).length = req.callerFrames.length := by
      rw [length_take, min_eq_right hle]
    rw [<- hlen]
    exact ⟨take_left, drop_left⟩

variable {more : SpawnTrace}

/-- What a teardown leaves, from what was done before it. -/
theorem undone_of_deeds {done : List (UInt64 × UInt64)} {own : List UInt64}
    {mints : List KernelCall} {stop : UInt64}
    (hdeeds : deeds trace =
      { Deeds.none with
        retyped := done
        mapped := req.callerFrames.take k ++ own
        minted := mints
        deleted := (slots req.selfCnode req.scratchSlot stop).reverse
        unmapped := (req.callerFrames.take k).reverse })
    (hdone : done ⊆ slots req.selfCnode req.scratchSlot stop)
    (hown : ∀ frame ∈ own, (req.selfCnode, frame) ∈ done) (hk : k <= req.callerFrames.length)
    (hall : own = [] \/ req.callerFrames.length <= k)
    (hclaims : ∀ slot, req.scratchSlot <= slot -> slot < stop -> req.MayClaim slot)
    (hfits : req.Unwindable ledger)
    (hout : ∀ out, ret.out = some out -> out.scratchNext = out.scratchBase)
    (hledger : ret.ledger = ledger) : Undone req ledger trace ret := by
  obtain ⟨hretyped, hmapped, _, hdeleted, hrevoked, hunmapped, hresumed⟩ := Deeds.mk.inj hdeeds
  obtain ⟨htake, hdrop⟩ := take_mapped hk hall
  constructor
  · exact hresumed
  · intro slot hmem
    rw [hdeleted, count_reverse]
    rw [hretyped] at hmem
    exact count_eq_one_of_mem (nodup_slots _ _ _) (hdone hmem)
  · exact hout
  · rw [hmapped, htake]
    exact take_prefix k _
  · intro frame hframe
    rw [hmapped, hdrop] at hframe
    rw [hretyped]
    exact hown frame hframe
  · rw [hunmapped, hmapped, htake]
  · intro entry hentry
    rw [hdeleted, hrevoked]
    refine ⟨fun hmem => ?_, not_mem_nil⟩
    obtain ⟨hlow, hhigh⟩ := mem_slots_iff.mp (mem_reverse.mp hmem)
    exact hfits.apart entry hentry (hclaims _ hlow hhigh)
  · exact hledger

theorem Standing.undone
    (h : Standing req ledger (15 + 3 * req.extraMapCount.toNat) childCnode k n st trace)
    (hcan : req.CanStage) (hfits : req.Unwindable ledger)
    (hrun : Run (failTeardown req st) more u)
    (hout : ∀ out, ret.out = some out -> out.scratchNext = out.scratchBase)
    (hledger : ret.ledger = aosEndowLedgerRollback st.ledger (aosEndowLedgerMark ledger)) :
    Undone req ledger (trace ++ more) ret := by
  obtain ⟨own, hlog, hown, hall⟩ := h.log
  have hscratch : st.scratch.selfCnode = req.selfCnode /\ st.scratch.baseSlot = req.scratchSlot := by
    rw [hlog.scratch]
    exact ⟨rfl, rfl⟩
  have hretyped : retyped trace = _ := congrArg Deeds.retyped hlog.deeds
  rw [hretyped] at hown
  have hdeeds := deeds_append trace more
  rw [hlog.deeds, deeds_failTeardown hrun, h.unmaps, hscratch.1, hscratch.2] at hdeeds
  simp only [Deeds.append, Deeds.none, nil_append, append_nil] at hdeeds
  refine undone_of_deeds hdeeds (fun _ hslot => hslot) hown h.frames hall
    (fun slot hlow hhigh => Or.inr ⟨hcan, hlow, ?_⟩) hfits hout
    (hledger.trans (h.rollback (hfits.ledger hcan)))
  have hlimit : req.scratch.limitSlot.toNat = req.scratchSlot.toNat + req.scratchCount.toNat := by
    show (req.scratchSlot + req.scratchCount).toNat = _
    rw [UInt64.toNat_add, Nat.mod_eq_of_lt hcan.2]
  have hclaimed := hlog.high
  have hspent : _ <= req.scratchSlot.toNat + _ := hlog.spent
  rw [hlimit] at hclaimed
  rw [UInt64.lt_iff_toNat_lt] at hhigh
  omega

theorem Standing.startChild {child : Child}
    (h : Standing req ledger (15 + 3 * req.extraMapCount.toNat) child.cnode
      req.callerFrames.length req.endowed.length st trace)
    (htakes : ∀ led, ledger = some led -> led.Takes req.endowed.length)
    (hrun : Run (startChild req (aosEndowLedgerMark ledger) child st) more ret) :
    AllOrNothing req ledger (trace ++ more) ret := by
  obtain ⟨own, hlog, hown, hall⟩ := h.log
  obtain ⟨hretyped, hmapped, hminted, hdeleted, hrevoked, hunmapped, hresumed⟩ :=
    Deeds.mk.inj hlog.deeds
  obtain ⟨err, rest, rfl, hrest⟩ := run_op_iff.mp hrun
  obtain ⟨rfl, rfl⟩ := run_ret_iff.mp hrest
  have hscratch : st.scratch.baseSlot = req.scratchSlot := by
    rw [hlog.scratch]
    rfl
  by_cases herr : err = Sel4Error.noError
  · subst herr
    refine ⟨fun hok => absurd rfl hok, fun _ => ?_, (fun hstart => by cases hstart)⟩
    constructor
    · refine ⟨_, trace, rfl, rfl, hresumed, ?_⟩
      rw [hminted, take_length]
    · rintro led rfl
      refine ⟨led.recordAll req.ledgerEntries, ?_, ?_⟩
      · show st.ledger = _
        rw [h.ledger, <- req.length_ledgerEntries, take_length]
        rfl
      · apply EndowLedger.Takes.gains
        rw [req.length_ledgerEntries]
        exact htakes led rfl
    · rintro rfl
      exact h.ledger
  · have hdeeds := deeds_append trace [⟨.kernel (.tcbWriteRegisters child.tcb true req.regs), err⟩]
    rw [deeds_of_failed herr rfl rfl rfl, Deeds.append_none, hlog.deeds] at hdeeds
    obtain ⟨hretyped', _, _, hdeleted', _⟩ := Deeds.mk.inj hdeeds
    simp only [if_pos herr]
    refine ⟨fun _ hstart => absurd rfl hstart, (fun hok => by cases hok), fun _ => ?_⟩
    constructor
    · exact h.rollback htakes
    · refine ⟨_, rfl, fun slot => ?_⟩
      rw [hretyped', hdeleted', hscratch]
      exact (and_iff_left not_mem_nil).trans mem_slots_iff

theorem retypeOne_null {sc : PtScratch} {type : ObjectType} {sizeBits : UInt64}
    (hnull : (ptScratchClaim sc).1 = sel4CapNull) :
    retypeOne type sizeBits sc = .ret (.error .notEnoughMemory, (ptScratchClaim sc).2) := by
  show (ite ((ptScratchClaim sc).1 = sel4CapNull) _ _ : ScratchM UInt64) (ptScratchClaim sc).2 = _
  rw [if_pos hnull]
  rfl

/-- The local variables when the first claim fails. -/
def ChildSpawnReq.stuck (req : ChildSpawnReq) (ledger : Option EndowLedger) : Staging :=
  { req.staging ledger with
    scratch := { req.scratch with
      nextSlot := if req.scratchSlot = 0 then 1 else req.scratchSlot } }

/-- A range that cannot be used: the first claim fails. -/
theorem spawnSteps_stuck (ledger : Option EndowLedger) (hcan : ¬req.CanStage)
    (hcount : 0 < req.scratchCount.toNat) :
    spawnSteps req (req.staging ledger) =
      .ret (.error ⟨.errRetype, .cnode, 0⟩, req.stuck ledger) := by
  have hclaim : ptScratchClaim req.scratch =
      (sel4CapNull, { req.scratch with
        nextSlot := if req.scratchSlot = 0 then 1 else req.scratchSlot }) := by
    unfold ptScratchClaim
    by_cases hzero : req.scratchSlot = 0
    · have hfree : ¬req.scratch.nextSlot >= req.scratch.limitSlot := by
        show ¬req.scratchSlot >= req.scratchSlot + req.scratchCount
        rw [hzero, UInt64.zero_add, ge_iff_le, UInt64.le_iff_toNat_le, Nat.not_le]
        exact hcount
      rw [if_neg hfree, if_pos hzero]
      simp [ChildSpawnReq.scratch, aosPtScratchInit, hzero, sel4CapNull]
    · have hfull : req.scratch.nextSlot >= req.scratch.limitSlot := by
        show req.scratchSlot + req.scratchCount <= req.scratchSlot
        have hwraps : 2 ^ 64 <= req.scratchSlot.toNat + req.scratchCount.toNat :=
          Nat.not_lt.mp fun hlt => hcan ⟨hzero, hlt⟩
        have hslot := req.scratchSlot.toNat_lt
        have hcountlt := req.scratchCount.toNat_lt
        rw [UInt64.le_iff_toNat_le, UInt64.toNat_add]
        omega
      rw [if_pos hfull, if_neg hzero]
      rfl
  have hfirst : onScratch .errRetype .cnode (retypeOne .capTable req.cnodeSizeBits.toUInt64)
      (req.staging ledger) = .ret (.error ⟨.errRetype, .cnode, 0⟩, req.stuck ledger) := by
    show (retypeOne .capTable req.cnodeSizeBits.toUInt64 req.scratch >>= _) = _
    rw [retypeOne_null (congrArg Prod.fst hclaim), hclaim]
    rfl
  rw [spawnSteps, bind_apply, buildChild, bind_apply, buildSpace, bind_apply, hfirst]
  rfl

theorem run_doneFail_iff {mark : LedgerMark} {failure : Failure} :
    Run (doneFail req mark failure st) more ret ↔
      Run (failTeardown req st) more () /\ ret =
        { status := failure.error
          out := some
            { ChildSpawnResult.zero with
              error := failure.error
              failedStep := failure.failedStep
              failedEndowIndex := failure.failedEndowIndex
              scratchBase := st.scratch.baseSlot
              scratchNext := st.scratch.baseSlot }
          ledger := aosEndowLedgerRollback st.ledger mark } := by
  constructor
  · intro hrun
    obtain ⟨first, rest, _, rfl, hteardown, hrest⟩ := run_bind_iff.mp hrun
    obtain ⟨rfl, rfl⟩ := run_ret_iff.mp hrest
    rw [append_nil]
    exact ⟨hteardown, rfl⟩
  · rintro ⟨hteardown, rfl⟩
    exact run_bind_iff.mpr ⟨more, [], (), (append_nil more).symm, hteardown, .ret _⟩

theorem undone_stuck (hfits : req.Unwindable ledger)
    (hrun : Run (failTeardown req (req.stuck ledger)) more ())
    (hout : ∀ out, ret.out = some out -> out.scratchNext = out.scratchBase)
    (hledger : ret.ledger = aosEndowLedgerRollback ledger (aosEndowLedgerMark ledger)) :
    Undone req ledger more ret := by
  refine undone_of_deeds (k := 0) (deeds_failTeardown hrun) (nil_subset _) nofun
    (Nat.zero_le _) (Or.inl rfl) (fun slot hlow hhigh => ?_) hfits hout ?_
  · have hnext : slot < if req.scratchSlot = 0 then 1 else req.scratchSlot := hhigh
    by_cases hzero : req.scratchSlot = 0
    · rw [if_pos hzero, UInt64.lt_iff_toNat_lt] at hnext
      exact Or.inl ⟨hzero, UInt64.toNat_inj.mp (Nat.lt_one_iff.mp hnext)⟩
    · rw [if_neg hzero] at hnext
      exact absurd hlow (UInt64.not_le.mpr hnext)
  · rw [hledger]
    cases ledger with
    | none => rfl
    | some led => exact congrArg some led.rollback_mark

theorem refusal_cases {status : SpawnStatus} (h : req.refusal = some status) :
    status.tornDown = true := by
  unfold ChildSpawnReq.refusal at h
  split_ifs at h <;> cases h <;> rfl

theorem scratchCount_of_accepted (h : req.refusal = none) : 24 <= req.scratchCount.toNat := by
  unfold ChildSpawnReq.refusal at h
  split at h
  · cases h
  split at h
  · cases h
  split at h
  · cases h
  · rename_i hcount
    rw [UInt64.not_lt, UInt64.le_iff_toNat_le] at hcount
    exact hcount

theorem not_ok_of_tornDown {status : SpawnStatus} (h : status.tornDown = true) :
    status ≠ .ok /\ status ≠ .errStart := by
  constructor <;> rintro rfl <;> cases h

/-- A result with a teardown promises that everything is undone. -/
theorem allOrNothing_of_undone (hstatus : ret.status.tornDown = true)
    (hundone : Undone req ledger trace ret) : AllOrNothing req ledger trace ret := by
  obtain ⟨hok, hstart⟩ := not_ok_of_tornDown hstatus
  exact ⟨fun _ _ => hundone, fun h => absurd h hok, fun h => absurd h hstart⟩

/-- A call that is not refused is its steps and then one of the two exits. -/
theorem run_childSpawn_iff (haccepted : req.refusal = none) (out : ChildSpawnResult) :
    Run (aosChildSpawn (some req) (some out) ledger) trace ret ↔
      ∃ first second outcome st, trace = first ++ second /\
        Run (spawnSteps req (req.staging ledger)) first (outcome, st) /\
        Run (match outcome with
          | .error failure => doneFail req (aosEndowLedgerMark ledger) failure st
          | .ok child => startChild req (aosEndowLedgerMark ledger) child st) second ret := by
  unfold aosChildSpawn
  simp only [haccepted]
  rw [run_bind_iff]
  exact exists₂_congr fun _ _ => Prod.exists

theorem allOrNothing_of_unwindable (haccepted : req.refusal = none)
    (hfits : req.Unwindable ledger) (out : ChildSpawnResult)
    (hrun : Run (aosChildSpawn (some req) (some out) ledger) trace ret) :
    AllOrNothing req ledger trace ret := by
  have hcount := scratchCount_of_accepted haccepted
  obtain ⟨first, second, outcome, st, rfl, hsteps, hexit⟩ :=
    (run_childSpawn_iff haccepted out).mp hrun
  by_cases hcan : req.CanStage
  · have hkeeps := meets_spawnSteps hcan.1 hcan.2 first outcome st hsteps
    rw [nil_append] at hkeeps
    cases outcome with
    | error failure =>
      obtain ⟨hstatus, childCnode, k, n, hstanding⟩ := hkeeps
      obtain ⟨hteardown, rfl⟩ := run_doneFail_iff.mp hexit
      refine allOrNothing_of_undone hstatus (hstanding.undone hcan hfits hteardown ?_ rfl)
      rintro out ⟨⟩
      rfl
    | ok child => exact hkeeps.startChild (hfits.ledger hcan) hexit
  · rw [spawnSteps_stuck ledger hcan (by omega), run_ret_iff] at hsteps
    obtain ⟨rfl, ⟨⟩⟩ := hsteps
    obtain ⟨hteardown, rfl⟩ := run_doneFail_iff.mp hexit
    refine allOrNothing_of_undone rfl (undone_stuck hfits hteardown ?_ rfl)
    rintro out ⟨⟩
    rfl

theorem allOrNothing_of_refused {out : Option ChildSpawnResult}
    (hrefused : out = none \/ req.refusal ≠ none)
    (hrun : Run (aosChildSpawn (some req) out ledger) trace ret) :
    AllOrNothing req ledger trace ret := by
  cases out with
  | none =>
    obtain ⟨rfl, rfl⟩ := run_ret_iff.mp hrun
    refine allOrNothing_of_undone rfl (undone_nil ?_ rfl)
    rintro out ⟨⟩
  | some out =>
    have hrefusal := hrefused.resolve_left (Option.some_ne_none out)
    obtain ⟨status, hstatus⟩ := Option.ne_none_iff_exists'.mp hrefusal
    simp only [aosChildSpawn, hstatus] at hrun
    obtain ⟨rfl, rfl⟩ := run_ret_iff.mp hrun
    refine allOrNothing_of_undone (refusal_cases hstatus) (undone_nil ?_ rfl)
    rintro out ⟨⟩
    rfl

end Forward

/-! ## Calls that do not -/

section Backward

variable {req : ChildSpawnReq} {ledger : Option EndowLedger}

theorem staging_viable (ledger : Option EndowLedger) (hcan : req.CanStage) :
    (req.staging ledger).scratch.nextSlot ≠ 0 /\
      (req.staging ledger).scratch.limitSlot.toNat =
        (req.staging ledger).scratch.nextSlot.toNat + req.scratchCount.toNat := by
  refine ⟨hcan.1, ?_⟩
  show (req.scratchSlot + req.scratchCount).toNat = _
  rw [UInt64.toNat_add, Nat.mod_eq_of_lt hcan.2]
  rfl

/-- The kernel can let everything succeed up to the last call. -/
theorem reaches_endowed (ledger : Option EndowLedger) (hcan : req.CanStage)
    (hcount : 24 <= req.scratchCount.toNat) :
    Reaches (fun outcome st => (∃ child, outcome = .ok child) /\
        st.ledger = ledger.map fun led => led.recordAll req.ledgerEntries)
      (spawnSteps req) (req.staging ledger) := by
  obtain ⟨hnull, hlimit⟩ := staging_viable ledger hcan
  have hbuilt := (uses_buildChild req (Nat.zero_le 3) (req.staging ledger) hnull
    (by omega)).1 (by omega)
  refine hbuilt.bind ?_ ?_
  · rintro child st ⟨_, _, hledger⟩
    refine (reaches_endowAll child.cnode req.endowed st).bind ?_ ?_
    · rintro _ st' ⟨_, hledger'⟩
      refine reaches_pure ⟨⟨child, rfl⟩, ?_⟩
      rw [hledger', hledger]
      rfl
    · rintro failure st' ⟨hok, _⟩
      cases hok
  · rintro failure st ⟨⟨child, hok⟩, _⟩
    cases hok

/-- It can also fail when as many slots are claimed as can be. -/
theorem reaches_exhausted (ledger : Option EndowLedger) (hcan : req.CanStage) :
    Reaches (fun outcome st => (∃ failure, outcome = .error failure) /\
        st.scratch = req.scratch.claim
          (min (15 + 3 * req.extraMapCount.toNat) req.scratchCount.toNat))
      (spawnSteps req) (req.staging ledger) := by
  obtain ⟨hnull, hlimit⟩ := staging_viable ledger hcan
  have hfails := (buildChild_failsAfter req).bind
    (fun child => endowAll req child.cnode req.endowed >>= fun _ => pure child)
    (req.staging ledger) hnull (by omega)
  refine hfails.mono ?_
  rintro outcome st ⟨hfailure, hscratch⟩
  refine ⟨hfailure, hscratch.trans ?_⟩
  rw [hlimit, Nat.add_sub_cancel_left]
  rfl

section

variable (haccepted : req.refusal = none)

include haccepted

theorem run_started (hcan : req.CanStage) (out : ChildSpawnResult) (err : Sel4Error) :
    ∃ trace ret, Run (aosChildSpawn (some req) (some out) ledger) trace ret /\
      (err ≠ .noError -> ret.status = .errStart /\ ret.ledger = aosEndowLedgerRollback
        (ledger.map fun led => led.recordAll req.ledgerEntries) (aosEndowLedgerMark ledger)) /\
      (err = .noError -> ret.status = .ok /\
        ret.ledger = ledger.map fun led => led.recordAll req.ledgerEntries) := by
  have hcount := scratchCount_of_accepted haccepted
  obtain ⟨first, _, st, hsteps, ⟨child, rfl⟩, hledger⟩ := reaches_endowed ledger hcan hcount
  have hexit : Run (startChild req (aosEndowLedgerMark ledger) child st)
      [⟨.kernel (.tcbWriteRegisters child.tcb true req.regs), err⟩] _ := .op (.ret _)
  refine ⟨_, _, (run_childSpawn_iff haccepted out).mpr
    ⟨first, _, .ok child, st, rfl, hsteps, hexit⟩, fun herr => ?_, fun herr => ?_⟩
  · simp only [if_pos herr]
    exact ⟨trivial, congrArg (aosEndowLedgerRollback · _) hledger⟩
  · simp only [if_neg (not_not.mpr herr)]
    exact ⟨trivial, hledger⟩

theorem run_torn (out : ChildSpawnResult) {first : SpawnTrace} {failure : Failure} {st : Staging}
    (hsteps : Run (spawnSteps req (req.staging ledger)) first (.error failure, st)) :
    ∃ trace ret, Run (aosChildSpawn (some req) (some out) ledger) trace ret /\
      ret.status = failure.error /\ ∀ slot, st.scratch.baseSlot <= slot ->
        slot < st.scratch.nextSlot -> (st.scratch.selfCnode, slot) ∈ deleted trace := by
  obtain ⟨second, hteardown⟩ := run_failTeardown req st
  have hexit : Run (doneFail req (aosEndowLedgerMark ledger) failure st) second _ :=
    run_doneFail_iff.mpr ⟨hteardown, rfl⟩
  refine ⟨_, _, (run_childSpawn_iff haccepted out).mpr
    ⟨first, second, .error failure, st, rfl, hsteps, hexit⟩, rfl, fun slot hlow hhigh => ?_⟩
  have hdeleted : deleted second = _ := congrArg Deeds.deleted (deeds_failTeardown hteardown)
  rw [deleted, issued_append]
  refine mem_append_right _ ?_
  show _ ∈ deleted second
  rw [hdeleted, mem_reverse]
  exact mem_slots_iff.mpr ⟨hlow, hhigh⟩

theorem run_deletes (out : ChildSpawnResult) {slot : UInt64} (hslot : req.MayClaim slot) :
    ∃ trace ret, Run (aosChildSpawn (some req) (some out) ledger) trace ret /\
      ret.status.tornDown = true /\ (req.selfCnode, slot) ∈ deleted trace := by
  have hcount := scratchCount_of_accepted haccepted
  rcases hslot with ⟨hzero, rfl⟩ | ⟨hcan, hlow, hhigh⟩
  · have hsteps : Run (spawnSteps req (req.staging ledger)) []
        (.error ⟨.errRetype, .cnode, 0⟩, req.stuck ledger) := by
      rw [spawnSteps_stuck ledger (fun hcan => hcan.1 hzero) (by omega)]
      exact .ret _
    obtain ⟨trace, ret, hrun, hret, hdeleted⟩ := run_torn haccepted out hsteps
    refine ⟨trace, ret, hrun, hret ▸ rfl, hdeleted 0 ?_ ?_⟩
    · show req.scratchSlot <= 0
      rw [hzero]
      exact UInt64.le_refl 0
    · show 0 < if req.scratchSlot = 0 then 1 else req.scratchSlot
      rw [if_pos hzero]
      decide
  · obtain ⟨first, _, st, hsteps, ⟨failure, rfl⟩, hscratch⟩ := reaches_exhausted ledger hcan
    obtain ⟨hstatus, _⟩ := meets_spawnSteps hcan.1 hcan.2 first _ st hsteps
    obtain ⟨trace, ret, hrun, hret, hdeleted⟩ := run_torn haccepted out hsteps
    refine ⟨trace, ret, hrun, hret ▸ hstatus, ?_⟩
    rw [hscratch] at hdeleted
    apply hdeleted slot hlow
    obtain ⟨_, hlimit⟩ := staging_viable ledger hcan
    have hroom : req.scratch.nextSlot.toNat +
        min (15 + 3 * req.extraMapCount.toNat) req.scratchCount.toNat <=
          req.scratch.limitSlot.toNat := by
      have hscratch : (req.staging ledger).scratch = req.scratch := rfl
      rw [hscratch] at hlimit
      omega
    rw [UInt64.lt_iff_toNat_lt, PtScratch.claim_toNat hroom, min_comm]
    exact hhigh

/-- A request that is not refused endows the child with something. -/
theorem endowed_of_accepted :
    0 < req.endowed.length /\ req.endowed.length <= aosEndowmentMaxCaps := by
  have hvalid : aosEndowmentValidate req.endow req.parentHoldings = true := by
    unfold ChildSpawnReq.refusal at haccepted
    split at haccepted
    · cases haccepted
    · simpa using ‹¬(!aosEndowmentValidate req.endow req.parentHoldings) = true›
  unfold ChildSpawnReq.endowed
  cases hendow : req.endow with
  | none =>
    rw [hendow] at hvalid
    cases hvalid
  | some endow =>
    have hcount : endow.count ≠ 0 := by
      rintro hzero
      rw [hendow] at hvalid
      unfold aosEndowmentValidate at hvalid
      split at hvalid
      · simp_all
      · cases hvalid
    have hpos : 0 < endow.count.toNat :=
      Nat.pos_of_ne_zero fun hzero => hcount (UInt32.toNat_inj.mp hzero)
    simp only [Endowment.listed, length_map, length_take, length_finRange,
      aosEndowmentMaxCaps]
    omega

/-- The ledger has to be able to take the endowment. -/
theorem takes_of_allOrNothing (hcan : req.CanStage) {led : EndowLedger} {out : ChildSpawnResult}
    (hall : ∀ trace ret, Run (aosChildSpawn (some req) (some out) (some led)) trace ret ->
      AllOrNothing req (some led) trace ret) :
    led.Takes req.endowed.length := by
  obtain ⟨trace, ret, hrun, _, hok⟩ := run_started haccepted hcan out .noError
  obtain ⟨hstatus, hledger⟩ := hok rfl
  obtain ⟨led', hled', hgains⟩ := ((hall trace ret hrun).ok hstatus).ledgerGains led rfl
  rw [hledger, Option.map_some] at hled'
  cases hled'
  have hversion : led.version = aosEndowLedgerVersion := by
    by_contra hversion
    have hcount := hgains.count
    have hdropped := hgains.dropped
    rw [EndowLedger.recordAll_of_version hversion, req.length_ledgerEntries] at hcount hdropped
    have hsome := (endowed_of_accepted haccepted).1
    omega
  obtain ⟨trace, ret, hrun, hstart, _⟩ := run_started haccepted hcan out .illegalOperation
  obtain ⟨hstatus, hledger⟩ := hstart (by decide)
  have hback := ((hall trace ret hrun).start hstatus).ledgerRestored
  rw [hledger] at hback
  rw [<- req.length_ledgerEntries]
  refine EndowLedger.takes_of_rollback hversion ?_ (Option.some.inj hback)
  rw [req.length_ledgerEntries]
  exact (endowed_of_accepted haccepted).2.trans_lt (by decide)

end

end Backward

/-- A call unwinds whatever the kernel answers exactly when it does nothing at all, or its
endowment is apart from the slots it can claim and its ledger can take the endowment. -/
theorem childSpawn_allOrNothing_iff (req : ChildSpawnReq) (out : Option ChildSpawnResult)
    (ledger : Option EndowLedger) :
    (∀ trace ret, Prog.Run (aosChildSpawn (some req) out ledger) trace ret ->
        AllOrNothing req ledger trace ret) ↔
      out = none \/ req.refusal ≠ none \/ req.Unwindable ledger := by
  constructor
  · intro hall
    by_contra hnot
    rw [not_or, not_or, not_not] at hnot
    obtain ⟨hout, haccepted, hunwindable⟩ := hnot
    obtain ⟨out, rfl⟩ := Option.ne_none_iff_exists'.mp hout
    apply hunwindable
    constructor
    · intro entry hentry hslot
      obtain ⟨trace, ret, hrun, hstatus, hdeleted⟩ := run_deletes haccepted out hslot
      obtain ⟨hok, hstart⟩ := not_ok_of_tornDown hstatus
      exact (((hall trace ret hrun).failed hok hstart).originalsKept entry hentry).1 hdeleted
    · rintro hcan led rfl
      exact takes_of_allOrNothing haccepted hcan hall
  · rintro hcond trace ret hrun
    by_cases hrefused : out = none \/ req.refusal ≠ none
    · exact allOrNothing_of_refused hrefused hrun
    · rw [not_or, not_not] at hrefused
      obtain ⟨out, rfl⟩ := Option.ne_none_iff_exists'.mp hrefused.1
      have hunwindable : req.Unwindable ledger := by
        rcases hcond with hout | hrefusal | hunwindable
        · cases hout
        · exact absurd hrefused.2 hrefusal
        · exact hunwindable
      exact allOrNothing_of_unwindable hrefused.2 hunwindable out hrun

/-! ### A ledger whose counter wraps -/

/-- Two capabilities, both held by the parent, and a range of 24 slots away from them. -/
def twoCapReq : ChildSpawnReq where
  poolUt := 3
  selfCnode := 1
  selfCnodeBits := 10
  selfTcb := 2
  asidPool := 4
  schedControl := 5
  scratchSlot := 64
  scratchCount := 24
  contentFrame := 40
  contentVa := 0x400000
  extraMaps := none
  extraMapCount := 0
  faultEp := 0
  faultInstallEp := 0
  faultInstallLabel := 0
  entryPoint := 0x400000
  stackVaTop := 0x800000
  ipcBufVa := 0x900000
  arg0 := 0
  arg1 := 0
  cnodeSizeBits := 6
  priority := 100
  endow := some ⟨1, 2, fun i => if i.val = 0 then ⟨2, 1, 20⟩ else ⟨3, 1, 21⟩⟩
  parentHoldings := some ⟨1, 2, fun i => if i.val = 0 then ⟨2, 15, 20⟩ else ⟨3, 15, 21⟩⟩
  endowCptrs := some fun i => if i = 0 then 20 else 21
  endowChildBaseSlot := 1
  endowBadge := 7
  childIndex := 9
  childName := none

/-- No free entry, and as many dropped records as the counter can hold. -/
def wrappingLedger : EndowLedger :=
  { aosEndowLedgerInit with
    count := 16
    dropped := 0xffffffff
    entries := fun _ => ⟨1, fun _ => 0, 2, 1, 7⟩ }

theorem twoCapReq_accepted : twoCapReq.refusal = none := by
  decide +kernel

/-- The first mint wraps the counter.  When the child then cannot be resumed, the rollback sees
a counter below its mark and does nothing: the count of dropped records is lost. -/
theorem wrappingLedger_notRestored : ¬∀ trace ret,
      Prog.Run (aosChildSpawn (some twoCapReq) (some .zero) (some wrappingLedger)) trace ret ->
        AllOrNothing twoCapReq (some wrappingLedger) trace ret := by
  intro hall
  obtain ⟨trace, ret, hrun, hstart, _⟩ :=
    run_started twoCapReq_accepted ⟨by decide, by decide⟩ .zero .illegalOperation
  obtain ⟨hstatus, hledger⟩ := hstart (by decide)
  have hback := ((hall trace ret hrun).start hstatus).ledgerRestored
  rw [hledger] at hback
  exact absurd hback (by decide +kernel)

end AgentOs.Spawn
