import AgentOs.Spawn.ChildSpawn

/-!
# Runs that exist

The kernel can let every step succeed, with any number of page tables that the code makes
room for, until the scratch range is used up.  Steps are counted by the slots they claim.
-/

namespace AgentOs.Spawn

open Library Staged Sel4 List

/-- The scratch range with `n` more slots claimed. -/
def PtScratch.claim (sc : PtScratch) (n : Nat) : PtScratch :=
  { sc with nextSlot := sc.nextSlot + UInt64.ofNat n }

theorem PtScratch.claim_zero (sc : PtScratch) : sc.claim 0 = sc := by
  simp [PtScratch.claim]

theorem PtScratch.claim_claim (sc : PtScratch) (a b : Nat) :
    (sc.claim a).claim b = sc.claim (a + b) := by
  simp only [PtScratch.claim, UInt64.ofNat_add, UInt64.add_assoc]

variable {n : Nat}

theorem PtScratch.claim_toNat {sc : PtScratch} (h : sc.nextSlot.toNat + n <= sc.limitSlot.toNat) :
    (sc.claim n).nextSlot.toNat = sc.nextSlot.toNat + n := by
  have := sc.limitSlot.toNat_lt
  show (sc.nextSlot + UInt64.ofNat n).toNat = _
  rw [UInt64.toNat_add, UInt64.toNat_ofNat']
  omega

/-! ## Counting slots -/

section Uses

variable {σ τ ε α β : Type} {get : σ -> PtScratch} {aux : σ -> τ}

/-- From any range that is not used up there is a run that claims `n` slots and succeeds,
or, if there are not so many, one that fails when all are claimed. -/
def Uses (get : σ -> PtScratch) (aux : σ -> τ) (n : Nat) (m : Staged SpawnIo σ ε α) : Prop :=
  ∀ s : σ, (get s).nextSlot ≠ 0 -> (get s).nextSlot.toNat <= (get s).limitSlot.toNat ->
    ((get s).nextSlot.toNat + n <= (get s).limitSlot.toNat ->
      Reaches (fun outcome s' =>
        (∃ value, outcome = .ok value) /\ get s' = (get s).claim n /\ aux s' = aux s) m s) /\
    ((get s).limitSlot.toNat < (get s).nextSlot.toNat + n ->
      Reaches (fun outcome s' => (∃ failure, outcome = .error failure) /\
        get s' = (get s).claim ((get s).limitSlot.toNat - (get s).nextSlot.toNat)) m s)

theorem uses_pure (value : α) : Uses get aux 0 (pure value : Staged SpawnIo σ ε α) := by
  intro s hnull hlimit
  constructor
  · intro _
    exact reaches_pure ⟨⟨value, rfl⟩, (PtScratch.claim_zero _).symm, rfl⟩
  · intro hfull
    omega

variable {a : Nat}

/-- Where the first part went well, the second one starts on a range of the same kind. -/
theorem claim_viable {s s' : σ} (hnull : (get s).nextSlot ≠ 0) (hget : get s' = (get s).claim a)
    (hfits : (get s).nextSlot.toNat + a <= (get s).limitSlot.toNat) :
    (get s').nextSlot ≠ 0 /\ (get s').nextSlot.toNat = (get s).nextSlot.toNat + a /\
      (get s').limitSlot = (get s).limitSlot := by
  have hclaim := PtScratch.claim_toNat hfits
  rw [hget]
  refine ⟨fun hzero => hnull ?_, hclaim, rfl⟩
  rw [hzero, UInt64.toNat_zero] at hclaim
  apply UInt64.toNat_inj.mp
  rw [UInt64.toNat_zero]
  omega

variable {m : Staged SpawnIo σ ε α}

theorem Uses.bind {f : α -> Staged SpawnIo σ ε β} {b : Nat} (hfirst : Uses get aux a m)
    (hnext : ∀ value, Uses get aux b (f value)) :
    Uses get aux (a + b) (m >>= f) := by
  intro s hnull hlimit
  obtain ⟨hok, herror⟩ := hfirst s hnull hlimit
  constructor
  · intro hfits
    refine (hok (by omega)).bind ?_ ?_
    · rintro value s' ⟨_, hget, haux⟩
      obtain ⟨hnull', hclaim, hsame⟩ := claim_viable hnull hget (by omega)
      rw [<- hsame] at hfits hlimit
      refine ((hnext value s' hnull' (by omega)).1 (by omega)).mono ?_
      rintro outcome s'' ⟨hvalue, hget', haux'⟩
      refine ⟨hvalue, ?_, haux'.trans haux⟩
      rw [hget', hget, PtScratch.claim_claim]
    · rintro failure s' ⟨⟨value, hvalue⟩, _⟩
      cases hvalue
  · intro hfull
    by_cases hshort : (get s).limitSlot.toNat < (get s).nextSlot.toNat + a
    · refine (herror hshort).bind ?_ ?_
      · rintro value s' ⟨⟨failure, hfailure⟩, _⟩
        cases hfailure
      · rintro failure s' ⟨_, hget⟩
        exact ⟨⟨failure, rfl⟩, hget⟩
    · refine (hok (by omega)).bind ?_ ?_
      · rintro value s' ⟨_, hget, haux⟩
        obtain ⟨hnull', hclaim, hsame⟩ := claim_viable hnull hget (by omega)
        refine ((hnext value s' hnull' (by rw [hsame]; omega)).2 (by rw [hsame]; omega)).mono ?_
        rintro outcome s'' ⟨hfailure, hget'⟩
        refine ⟨hfailure, ?_⟩
        rw [hget', hsame, hclaim, hget, PtScratch.claim_claim]
        congr 1
        omega
      · rintro failure s' ⟨⟨value, hvalue⟩, _⟩
        cases hvalue

/-- There is a run that fails after claiming `n` slots, or all there are. -/
def FailsAfter (get : σ -> PtScratch) (n : Nat) (m : Staged SpawnIo σ ε α) : Prop :=
  ∀ s : σ, (get s).nextSlot ≠ 0 -> (get s).nextSlot.toNat <= (get s).limitSlot.toNat ->
    Reaches (fun outcome s' => (∃ failure, outcome = .error failure) /\
      get s' = (get s).claim (min n ((get s).limitSlot.toNat - (get s).nextSlot.toNat))) m s

theorem Uses.bind_fails {f : α -> Staged SpawnIo σ ε β} {b : Nat} (hfirst : Uses get aux a m)
    (hnext : ∀ value, FailsAfter get b (f value)) :
    FailsAfter get (a + b) (m >>= f) := by
  intro s hnull hlimit
  obtain ⟨hok, herror⟩ := hfirst s hnull hlimit
  by_cases hshort : (get s).limitSlot.toNat < (get s).nextSlot.toNat + a
  · refine (herror hshort).bind ?_ ?_
    · rintro value s' ⟨⟨failure, hfailure⟩, _⟩
      cases hfailure
    · rintro failure s' ⟨_, hget⟩
      refine ⟨⟨failure, rfl⟩, ?_⟩
      rw [hget, min_eq_right (by omega)]
  · refine (hok (by omega)).bind ?_ ?_
    · rintro value s' ⟨_, hget, _⟩
      obtain ⟨hnull', hclaim, hsame⟩ := claim_viable hnull hget (by omega)
      refine (hnext value s' hnull' (by rw [hsame]; omega)).mono ?_
      rintro outcome s'' ⟨hfailure, hget'⟩
      refine ⟨hfailure, ?_⟩
      rw [hget', hsame, hclaim, hget, PtScratch.claim_claim]
      congr 1
      omega
    · rintro failure s' ⟨⟨value, hvalue⟩, _⟩
      cases hvalue

theorem FailsAfter.bind (h : FailsAfter get n m) (f : α -> Staged SpawnIo σ ε β) :
    FailsAfter get n (m >>= f) := by
  intro s hnull hlimit
  refine (h s hnull hlimit).bind ?_ ?_
  · rintro value s' ⟨⟨failure, hfailure⟩, _⟩
    cases hfailure
  · rintro failure s' ⟨_, hget⟩
    exact ⟨⟨failure, rfl⟩, hget⟩

/-- An answer can be chosen. -/
theorem uses_ask_bind {request : SpawnOp} {f : SpawnAns request -> Staged SpawnIo σ ε α}
    (answer : SpawnAns request) (h : Uses get aux n (f answer)) :
    Uses get aux n (Staged.ask (I := SpawnIo) request >>= f) := by
  intro s hnull hlimit
  obtain ⟨hok, herror⟩ := h s hnull hlimit
  exact ⟨fun hfits => reaches_ask_bind answer (hok hfits),
    fun hfull => reaches_ask_bind answer (herror hfull)⟩

theorem uses_change_bind {g : σ -> σ} {f : Unit -> Staged SpawnIo σ ε α}
    (hget : ∀ s, get (g s) = get s) (haux : ∀ s, aux (g s) = aux s) (h : Uses get aux n (f ())) :
    Uses get aux n (Staged.change g >>= f) := by
  intro s hnull hlimit
  have hrest := h (g s)
  rw [hget, haux] at hrest
  exact hrest hnull hlimit

end Uses

/-! ## The steps on the scratch range -/

theorem uses_retypeOne (type : ObjectType) (sizeBits : UInt64) :
    Uses id (fun _ => ()) 1 (retypeOne type sizeBits) := by
  intro sc hnull hlimit
  constructor
  · intro hfits
    have hfree : ¬sc.nextSlot >= sc.limitSlot := by
      rw [ge_iff_le, UInt64.le_iff_toNat_le]
      exact Nat.not_le.mpr hfits
    apply reaches_read_bind
    unfold ptScratchClaim
    simp only [if_neg hfree]
    apply reaches_change_bind
    have hslot : sc.nextSlot ≠ sel4CapNull := hnull
    rw [if_neg hslot]
    apply reaches_ask_bind Sel4Error.noError
    rw [if_neg (not_not.mpr rfl)]
    exact reaches_pure ⟨⟨_, rfl⟩, rfl, trivial⟩
  · intro hshort
    have hfull : sc.nextSlot >= sc.limitSlot := by
      rw [ge_iff_le, UInt64.le_iff_toNat_le]
      exact Nat.lt_succ_iff.mp hshort
    apply reaches_read_bind
    unfold ptScratchClaim
    simp only [if_pos hfull]
    apply reaches_change_bind
    refine reaches_fail ⟨⟨_, rfl⟩, ?_⟩
    have hnone : sc.limitSlot.toNat - sc.nextSlot.toNat = 0 :=
      Nat.sub_eq_zero_of_le (UInt64.le_iff_toNat_le.mp hfull)
    show sc = sc.claim (sc.limitSlot.toNat - sc.nextSlot.toNat)
    rw [hnone, PtScratch.claim_zero]

variable {tables : Nat}

/-- A mapping can need any number of page tables up to the attempts that remain. -/
theorem uses_mapAttempts (frame vspace va : UInt64) {left : Nat} (hle : tables <= left) :
    Uses id (fun _ => ()) tables (mapAttempts frame vspace va (left + 1)) := by
  induction tables generalizing left with
  | zero =>
    apply uses_ask_bind Sel4Error.noError
    rw [if_pos rfl]
    exact uses_pure ()
  | succ tables ih =>
    obtain ⟨left, rfl⟩ : ∃ l, left = l + 1 := ⟨left - 1, by omega⟩
    apply uses_ask_bind Sel4Error.failedLookup
    rw [if_neg (by decide), if_neg (by simp), Nat.add_comm tables 1]
    refine (uses_retypeOne .pageTable 0).bind fun pt => ?_
    apply uses_ask_bind Sel4Error.noError
    rw [if_neg (not_not.mpr rfl)]
    exact ih (Nat.le_of_succ_le_succ hle)

theorem uses_onScratch {α : Type} {m : ScratchM α} (h : Uses id (fun _ => ()) n m)
    (error : SpawnStatus) (step : SpawnStep) :
    Uses Staging.scratch Staging.ledger n (onScratch error step m) := by
  intro st hnull hlimit
  obtain ⟨hok, herror⟩ := h st.scratch hnull hlimit
  constructor
  · intro hfits
    obtain ⟨trace, outcome, sc, hrun, ⟨value, rfl⟩, hget, _⟩ := hok hfits
    refine ⟨trace, .ok value, { st with scratch := sc }, ?_, ⟨value, rfl⟩, hget, rfl⟩
    exact Prog.run_bind_iff.mpr
      ⟨trace, [], (.ok value, sc), (append_nil trace).symm, hrun, .ret _⟩
  · intro hfull
    obtain ⟨trace, outcome, sc, hrun, ⟨failure, rfl⟩, hget⟩ := herror hfull
    refine ⟨trace, .error ⟨error, step, 0⟩, { st with scratch := sc }, ?_, ⟨_, rfl⟩, hget⟩
    exact Prog.run_bind_iff.mpr
      ⟨trace, [], (.error failure, sc), (append_nil trace).symm, hrun, .ret _⟩

/-! ## The steps of a spawn -/

section Steps

variable {req : ChildSpawnReq} (error : SpawnStatus) (step : SpawnStep)

theorem uses_retype (type : ObjectType) (sizeBits : UInt64) :
    Uses Staging.scratch Staging.ledger 1 (onScratch error step (retypeOne type sizeBits)) :=
  uses_onScratch (uses_retypeOne type sizeBits) error step

theorem uses_map (hle : tables <= 3) (step : SpawnStep) (frame vspace va : UInt64) :
    Uses Staging.scratch Staging.ledger tables
      (onScratch .errMap step (aosPtMapRetrying frame vspace va)) :=
  uses_onScratch (uses_mapAttempts frame vspace va hle) .errMap step

theorem uses_expect (call : KernelCall) :
    Uses Staging.scratch Staging.ledger 0 (expect error step call) := by
  apply uses_ask_bind Sel4Error.noError
  rw [if_neg (not_not.mpr rfl)]
  exact uses_pure ()

theorem expect_failsAfter (call : KernelCall) :
    FailsAfter Staging.scratch 0 (expect error step call) := by
  intro st _ _
  apply reaches_ask_bind Sel4Error.illegalOperation
  rw [if_pos (by decide)]
  refine reaches_fail ⟨⟨_, rfl⟩, ?_⟩
  rw [Nat.zero_min, PtScratch.claim_zero]

theorem uses_mapExtras (hle : tables <= 3) (childVspace : UInt64) (is : List Nat) :
    Uses Staging.scratch Staging.ledger (tables * is.length) (mapExtras req childVspace is) := by
  induction is with
  | nil => exact uses_pure ()
  | cons i rest ih =>
    rw [length_cons, Nat.mul_succ, Nat.add_comm]
    refine (uses_map hle .extraMap _ childVspace _).bind fun _ => ?_
    exact uses_change_bind (fun _ => rfl) (fun _ => rfl) ih

theorem uses_buildSpace (hle : tables <= 3) :
    Uses Staging.scratch Staging.ledger (2 + tables * (1 + req.extraMapCount.toNat))
      (buildSpace req) := by
  have hsum : 2 + tables * (1 + req.extraMapCount.toNat) =
      1 + (1 + (0 + (tables + (tables * req.extraMapCount.toNat + 0)))) := by
    rw [Nat.mul_add]
    omega
  rw [hsum]
  refine (uses_retype _ _ _ _).bind fun cnode => ?_
  refine (uses_retype _ _ _ _).bind fun vspace => ?_
  refine (uses_expect _ _ _).bind fun _ => ?_
  refine (uses_map hle _ _ _ _).bind fun _ => ?_
  refine uses_change_bind (fun _ => rfl) (fun _ => rfl) ?_
  refine Uses.bind ?_ fun _ => uses_pure _
  have hextras : Uses Staging.scratch Staging.ledger
      (tables * (range req.extraMapCount.toNat).length)
      (mapExtras req vspace (range req.extraMapCount.toNat)) :=
    uses_mapExtras hle vspace _
  rwa [length_range] at hextras

theorem uses_buildThread (hle : tables <= 3) (childCnode childVspace : UInt64) :
    Uses Staging.scratch Staging.ledger (3 + 2 * tables)
      (buildThread req childCnode childVspace) := by
  have hsum : 3 + 2 * tables = 1 + (tables + (1 + (tables + (1 + (0 + (0 + 0)))))) := by omega
  rw [hsum]
  refine (uses_retype _ _ _ _).bind fun stackFrame => ?_
  refine (uses_map hle _ _ _ _).bind fun _ => ?_
  refine (uses_retype _ _ _ _).bind fun ipcFrame => ?_
  refine (uses_map hle _ _ _ _).bind fun _ => ?_
  refine (uses_retype _ _ _ _).bind fun tcb => ?_
  refine (uses_expect _ _ _).bind fun _ => ?_
  exact (uses_expect _ _ _).bind fun _ => uses_pure _

theorem uses_installFault (childTcb : UInt64) :
    Uses Staging.scratch Staging.ledger 0 (installFault req childTcb) := by
  unfold installFault
  split
  · apply uses_ask_bind (0 : UInt64)
    rw [if_neg (not_not.mpr rfl)]
    exact uses_pure ()
  · exact uses_pure ()

theorem uses_bindSched (childTcb : UInt64) :
    Uses Staging.scratch Staging.ledger 1 (bindSched req childTcb) := by
  refine (uses_retype _ _ _ _).bind (b := 0) fun sc => ?_
  refine (uses_expect _ _ _).bind (b := 0) fun _ => ?_
  show Uses Staging.scratch Staging.ledger 0 (ite _ _ _)
  split
  · exact uses_expect _ _ _
  · exact uses_expect _ _ _

theorem uses_buildChild (req : ChildSpawnReq) (hle : tables <= 3) :
    Uses Staging.scratch Staging.ledger (6 + tables * (3 + req.extraMapCount.toNat))
      (buildChild req) := by
  have hsum : 6 + tables * (3 + req.extraMapCount.toNat) =
      2 + tables * (1 + req.extraMapCount.toNat) + (3 + 2 * tables + (0 + (1 + 0))) := by
    rw [Nat.mul_add, Nat.mul_add]
    omega
  rw [hsum]
  refine (uses_buildSpace hle).bind fun space => ?_
  refine (uses_buildThread hle space.1 space.2).bind fun tcb => ?_
  refine (uses_installFault tcb).bind fun _ => ?_
  exact (uses_bindSched tcb).bind fun _ => uses_pure _

/-- With three page tables for every mapping, up to a scheduling context that the kernel
does not configure. -/
theorem buildChild_failsAfter (req : ChildSpawnReq) :
    FailsAfter Staging.scratch (15 + 3 * req.extraMapCount.toNat) (buildChild req) := by
  have hsum : 15 + 3 * req.extraMapCount.toNat =
      2 + 3 * (1 + req.extraMapCount.toNat) + (3 + 2 * 3 + (0 + (1 + 0))) := by omega
  rw [hsum]
  refine (uses_buildSpace le_rfl).bind_fails fun space => ?_
  refine (uses_buildThread le_rfl space.1 space.2).bind_fails fun tcb => ?_
  refine (uses_installFault tcb).bind_fails fun _ => ?_
  refine FailsAfter.bind ?_ _
  refine (uses_retype _ _ _ _).bind_fails fun sc => ?_
  exact (expect_failsAfter _ _ _).bind _

theorem reaches_endowAll (childCnode : UInt64)
    (entries : List (Fin aosEndowmentMaxCaps × EndowCap)) (st : Staging) :
    Reaches (fun outcome st' => outcome = .ok () /\ st'.ledger = st.ledger.map fun led =>
        led.recordAll (entries.map fun entry =>
          ledgerEntry req.childIndex req.childName entry.2.kind entry.2.rights req.endowBadge))
      (endowAll req childCnode entries) st := by
  induction entries generalizing st with
  | nil =>
    refine reaches_pure ⟨rfl, ?_⟩
    cases st.ledger <;> rfl
  | cons entry rest ih =>
    apply reaches_ask_bind Sel4Error.noError
    rw [if_neg (not_not.mpr rfl)]
    apply reaches_change_bind
    refine (ih _).mono ?_
    rintro outcome st' ⟨hok, hledger⟩
    refine ⟨hok, hledger.trans ?_⟩
    cases st.ledger <;> rfl

end Steps

end AgentOs.Spawn
