import Mathlib.Data.Fintype.EquivFin
import AgentOs.Library.Slots
import AgentOs.Lending.Lend

/-!
# Loans and leases stay in lock-step

The records of `cap_lend.c` and the leases of `cap_lease.c` change at different points around
kernel calls that may fail.  `CallStep` says once what a call can do to them; the invariant, the
loans outstanding and the status of the next call follow from it.
-/

open Function (update update_idem update_self update_of_ne)

namespace AgentOs.Lending

open Library Prog List Option

/-! ## Loans -/

/-- What a lender has to know to end a loan. -/
structure Loan where
  original : UInt64
  srcRoot : UInt64
  srcDepth : UInt64

def CapLendRecord.loan (r : CapLendRecord) : Option Loan :=
  if r.inUse then some ⟨r.original, r.srcRoot, r.srcDepth⟩ else none

def LendArgs.loan (a : LendArgs) : Loan := ⟨a.original, a.srcRoot, a.srcDepth⟩

/-- The loans the records describe. -/
def LendState.loans (s : LendState) : List Loan :=
  Slots.roster (finRange aosLeaseMaxActive) CapLendRecord.loan s.records

/-- A call of the lender. -/
inductive LendCall where
  | lend (args : LendArgs)
  | revoke (original : UInt64)

def runCall : LendCall -> LendState -> LendM (LendStatus × LendState)
  | .lend args, s => aosCapLend args s
  | .revoke original, s => aosCapLendRevoke original s

/-- What a finished call means for the lender's loans. -/
def loanStep (loans : List Loan) : LendCall × LendStatus -> List Loan
  | (.lend args, .ok) => args.loan :: loans
  | (.revoke original, .ok) => loans.filter fun loan => loan.original != original
  | _ => loans

/-- The loans that a history of calls leaves outstanding. -/
def outstanding (history : List (LendCall × LendStatus)) : List Loan := history.foldl loanStep []

/-- The states after every possible history of calls, whatever the kernel answers. -/
inductive Reached : List (LendCall × LendStatus) -> LendState -> Prop where
  | start : Reached [] .zero
  | call {history : List (LendCall × LendStatus)} {s s' : LendState} {call : LendCall}
      {status : LendStatus} {trace : Trace LendIo} :
      Reached history s -> Run (runCall call s) trace (status, s') ->
      Reached (history ++ [(call, status)]) s'

/-! ## The invariant -/

/-- Records in use and active leases correspond through the lease identifier. -/
structure LockStep (s : LendState) : Prop where
  leased : ∀ i, (s.records i).inUse = true ->
    ∃! k, (s.leases k).state = .active /\ (s.leases k).leaseId = (s.records i).leaseId
  recorded : ∀ k, (s.leases k).state = .active ->
    ∃! i, (s.records i).inUse = true /\ (s.records i).leaseId = (s.leases k).leaseId
  originals : ∀ i j, (s.records i).inUse = true -> (s.records j).inUse = true ->
    (s.records i).original = (s.records j).original -> i = j

/-- The tables between two calls, once they are set up. -/
structure Ready (s : LendState) : Prop where
  initialized : s.initialized = true
  table : TableOk s.leases
  leased : ∀ i, (s.records i).inUse = true ->
    ∃ k, (s.leases k).state = .active /\ (s.leases k).leaseId = (s.records i).leaseId
  recorded : ∀ k, (s.leases k).state = .active ->
    ∃ i, (s.records i).inUse = true /\ (s.records i).leaseId = (s.leases k).leaseId
  ids : ∀ i j, (s.records i).inUse = true -> (s.records j).inUse = true ->
    (s.records i).leaseId = (s.records j).leaseId -> i = j
  originals : ∀ i j, (s.records i).inUse = true -> (s.records j).inUse = true ->
    (s.records i).original = (s.records j).original -> i = j

theorem lockStep_zero : LockStep .zero :=
  ⟨nofun, nofun, nofun⟩

theorem ready_init : Ready aosCapLendInit where
  initialized := rfl
  table := tableOk_init
  leased _ := nofun
  recorded := nofun
  ids _ _ := nofun
  originals _ _ := nofun

variable {s : LendState}

theorem Ready.lockStep (hs : Ready s) : LockStep s := by
  refine ⟨fun i huse => ?_, fun k hactive => ?_, hs.originals⟩
  · obtain ⟨k, hactive, hid⟩ := hs.leased i huse
    refine ⟨k, ⟨hactive, hid⟩, fun m hm => ?_⟩
    exact hs.table.unique (hm.2.trans hid.symm)
  · obtain ⟨i, huse, hid⟩ := hs.recorded k hactive
    exact ⟨i, ⟨huse, hid⟩, fun j hj => hs.ids j i hj.1 huse (hj.2.trans hid.symm)⟩

theorem Ready.ensureInit (hs : Ready s) : capLendEnsureInit s = s := if_pos hs.initialized

section Loans

variable {s : LendState}

theorem mem_loans {loan : Loan} : loan ∈ s.loans ↔ ∃ i, (s.records i).inUse = true /\
      loan = ⟨(s.records i).original, (s.records i).srcRoot, (s.records i).srcDepth⟩ := by
  simp only [LendState.loans, Slots.mem_roster, mem_finRange, true_and, CapLendRecord.loan]
  refine exists_congr fun i => ?_
  split
  · rename_i huse
    simp [huse, eq_comm]
  · rename_i huse
    simp [huse]

/-- An original is on loan exactly when the search finds its record. -/
theorem capLendFind_isSome_iff {original : UInt64} :
    (capLendFind s original).isSome = true ↔ ∃ loan ∈ s.loans, loan.original = original := by
  constructor
  · intro hsome
    obtain ⟨i, hfind⟩ := isSome_iff_exists.mp hsome
    obtain ⟨huse, horiginal⟩ := capLendFind_some hfind
    exact ⟨_, mem_loans.mpr ⟨i, huse, rfl⟩, horiginal⟩
  · rintro ⟨loan, hloan, horiginal⟩
    obtain ⟨i, huse, rfl⟩ := mem_loans.mp hloan
    cases hfind : capLendFind s original with
    | none => exact absurd horiginal (capLendFind_none hfind i huse)
    | some _ => rfl

theorem loans_full_iff : s.loans.length = aosLeaseMaxActive ↔ ∀ i, (s.records i).inUse = true := by
  have hfull := Slots.roster_full_iff (finRange aosLeaseMaxActive) CapLendRecord.loan s.records
  rw [length_finRange] at hfull
  refine hfull.trans ⟨fun h i => ?_, fun h i _ => ?_⟩
  · have hne := h i (mem_finRange i)
    unfold CapLendRecord.loan at hne
    split at hne
    · assumption
    · exact absurd rfl hne
  · simp [CapLendRecord.loan, h i]

/-- While a record is free, so is a lease. -/
theorem Ready.lease_available (hs : Ready s) {i : Fin aosLeaseMaxActive}
    (hfree : (s.records i).inUse = false) : ∃ k, (s.leases k).state ≠ .active := by
  by_contra hnone
  have hactive : ∀ k, (s.leases k).state = .active := by
    intro k
    by_contra hk
    exact hnone ⟨k, hk⟩
  -- every lease is active, so each has a record of its own, and none is left
  choose recordOf hrecord using fun k => hs.recorded k (hactive k)
  have hinj : Function.Injective recordOf := by
    intro a b hab
    refine hs.table.unique ?_
    rw [<- (hrecord a).2, <- (hrecord b).2, hab]
  obtain ⟨k, hk⟩ := Finite.injective_iff_surjective.mp hinj i
  have huse := (hrecord k).1
  rw [hk, hfree] at huse
  cases huse

end Loans

/-! ## What a call can do -/

/-- A call from a state whose tables are set up, when the kernel gives the answers in
`A`. -/
inductive CallStep (A : Bool -> Prop) (s : LendState) : LendCall -> LendStatus -> LendState -> Prop
    where
  | rights {a : LendArgs} : capLendRightsIsStrictSubset a.rights = false ->
      CallStep A s (.lend a) .errRights s
  | refused {a : LendArgs} : capLendRightsIsStrictSubset a.rights = true ->
      ((∃ loan ∈ s.loans, loan.original = a.original) \/ s.loans.length = aosLeaseMaxActive) ->
      CallStep A s (.lend a) .errLease s
  | mintFailed {a : LendArgs} {k : Fin aosLeaseMaxActive} {lease : AosLease} :
      capLendRightsIsStrictSubset a.rights = true -> A false ->
      (∀ loan ∈ s.loans, loan.original ≠ a.original) -> s.loans.length ≠ aosLeaseMaxActive ->
      (s.leases k).state ≠ .active -> leaseSlot lease.leaseId = some k -> lease.state = .revoked ->
      CallStep A s (.lend a) .errMint { s with leases := update s.leases k lease }
  | lent {a : LendArgs} {i k : Fin aosLeaseMaxActive} {lease : AosLease} :
      capLendRightsIsStrictSubset a.rights = true -> A true ->
      (∀ loan ∈ s.loans, loan.original ≠ a.original) -> s.loans.length ≠ aosLeaseMaxActive ->
      (s.records i).inUse = false -> (s.leases k).state ≠ .active ->
      leaseSlot lease.leaseId = some k -> lease.state = .active ->
      CallStep A s (.lend a) .ok { s with
        leases := update s.leases k lease
        records := update s.records i (a.record lease.leaseId) }
  | notFound {original : UInt64} : (∀ loan ∈ s.loans, loan.original ≠ original) ->
      CallStep A s (.revoke original) .errNotFound s
  | revokeFailed {original : UInt64} : A false -> CallStep A s (.revoke original) .errRevoke s
  | revoked {original : UInt64} {i k : Fin aosLeaseMaxActive} : A true ->
      (s.records i).inUse = true -> (s.records i).original = original ->
      (s.leases k).state = .active -> (s.leases k).leaseId = (s.records i).leaseId ->
      CallStep A s (.revoke original) .ok { s with
        leases := update s.leases k { s.leases k with state := .revoked }
        records := update s.records i .zero }

section Calls

variable {A : Bool -> Prop} {s : LendState}

theorem not_on_loan {original : UInt64} (hfind : ¬(capLendFind s original).isSome = true) :
    ∀ loan ∈ s.loans, loan.original ≠ original :=
  fun loan hloan horiginal => hfind (capLendFind_isSome_iff.mpr ⟨loan, hloan, horiginal⟩)

theorem aosCapLend_ensures (hs : Ready s) (a : LendArgs) :
    Ensures (fun _ => A) (fun _ => True) (fun r => CallStep A s (.lend a) r.1 r.2)
      (aosCapLend a s) := by
  unfold aosCapLend
  rw [hs.ensureInit]
  simp only
  split
  · rename_i hrights
    exact .rights (by simpa using hrights)
  · rename_i hrights
    have hstrict : capLendRightsIsStrictSubset a.rights = true := by simpa using hrights
    split
    · rename_i hfind
      exact .refused hstrict (.inl (capLendFind_isSome_iff.mp hfind))
    · rename_i hfind
      have hnew := not_on_loan hfind
      split
      · rename_i hfull
        exact .refused hstrict (.inr (loans_full_iff.mpr (capLendFindFree_none hfull)))
      · rename_i i hi
        have hfree := capLendFindFree_some hi
        have hroom : s.loans.length ≠ aosLeaseMaxActive := by
          intro hfull
          rw [loans_full_iff.mp hfull i] at hfree
          cases hfree
        split
        · rename_i hnone
          obtain ⟨k, hk⟩ := hs.lease_available hfree
          exact absurd (aosLeaseOpen_none (congrArg Prod.fst hnone) k) hk
        · rename_i leaseId leases hopen
          obtain ⟨k, hk, hslot, rfl⟩ := aosLeaseOpen_some hopen
          refine ⟨trivial, fun minted hanswer => ?_⟩
          cases minted with
          | false =>
            have hclose := aosLeaseClose_eq (update s.leases k
              ⟨leaseId, a.badge.toUInt32, capLendPackRights a.rights, .active⟩) hslot
              (by rw [update_self]) (by rw [update_self])
            show CallStep A s (.lend a) .errMint _
            rw [hclose]
            dsimp only
            rw [update_self, update_idem]
            exact .mintFailed hstrict hanswer hnew hroom hk hslot rfl
          | true => exact .lent hstrict hanswer hnew hroom hfree hk hslot rfl

theorem aosCapLendRevoke_ensures (hs : Ready s) (original : UInt64) :
    Ensures (fun _ => A) (fun _ => True) (fun r => CallStep A s (.revoke original) r.1 r.2)
      (aosCapLendRevoke original s) := by
  unfold aosCapLendRevoke
  rw [hs.ensureInit]
  simp only
  split
  · rename_i hfind
    exact .notFound (not_on_loan (by simp [hfind]))
  · rename_i i hfind
    obtain ⟨huse, horiginal⟩ := capLendFind_some hfind
    refine ⟨trivial, fun revoked hanswer => ?_⟩
    cases revoked with
    | false => exact .revokeFailed hanswer
    | true =>
      obtain ⟨k, hactive, hid⟩ := hs.leased i huse
      have hclose := aosLeaseClose_eq s.leases (hid ▸ hs.table k) hactive hid
      simp only [hclose]
      exact .revoked hanswer huse horiginal hactive hid

theorem runCall_ensures (hs : Ready s) (call : LendCall) :
    Ensures (fun _ => A) (fun _ => True) (fun r => CallStep A s call r.1 r.2) (runCall call s) := by
  cases call with
  | lend a => exact aosCapLend_ensures hs a
  | revoke original => exact aosCapLendRevoke_ensures hs original

end Calls

/-! ## Each call keeps the tables -/

section Kept

variable {A : Bool -> Prop} {s s' : LendState} {call : LendCall} {status : LendStatus}
  {k : Fin aosLeaseMaxActive}

/-- A lease that is not active may be replaced by another that is not. -/
theorem Ready.closeLease (hs : Ready s) {lease : AosLease} (hk : (s.leases k).state ≠ .active)
    (hslot : leaseSlot lease.leaseId = some k) (hclosed : lease.state ≠ .active) :
    Ready { s with leases := update s.leases k lease } where
  initialized := hs.initialized
  table := hs.table.update hslot
  leased i huse := by
    obtain ⟨m, hactive, hid⟩ := hs.leased i huse
    have hne : m ≠ k := fun hsame => hk (hsame ▸ hactive)
    exact ⟨m, by simpa [hne] using hactive, by simpa [hne] using hid⟩
  recorded m hactive := by
    by_cases hm : m = k
    · subst hm
      simp only [update_self] at hactive
      exact absurd hactive hclosed
    · simp only [update_of_ne hm] at hactive ⊢
      exact hs.recorded m hactive
  ids := hs.ids
  originals := hs.originals

theorem Ready.lend (hs : Ready s) {a : LendArgs} {i : Fin aosLeaseMaxActive} {lease : AosLease}
    (hnew : ∀ loan ∈ s.loans, loan.original ≠ a.original) (hfree : (s.records i).inUse = false)
    (hk : (s.leases k).state ≠ .active) (hslot : leaseSlot lease.leaseId = some k)
    (hopen : lease.state = .active) :
    Ready { s with
      leases := update s.leases k lease
      records := update s.records i (a.record lease.leaseId) } := by
  have hother : ∀ {j : Fin aosLeaseMaxActive}, (s.records j).inUse = true -> j ≠ i := by
    rintro j huse rfl
    rw [hfree] at huse
    cases huse
  -- a lease held by another record is in another slot
  have hids : ∀ j, (s.records j).inUse = true -> (s.records j).leaseId ≠ lease.leaseId := by
    intro j huse hsame
    obtain ⟨m, hactive, hid⟩ := hs.leased j huse
    have hm := hs.table m
    rw [hid, hsame, hslot] at hm
    exact hk (some.inj hm ▸ hactive)
  have horiginals : ∀ j, (s.records j).inUse = true -> (s.records j).original ≠ a.original :=
    fun j huse => hnew _ (mem_loans.mpr ⟨j, huse, rfl⟩)
  refine ⟨hs.initialized, hs.table.update hslot, fun j huse => ?_, fun m hactive => ?_,
    Slots.apart_update s.records (·.inUse) (·.leaseId = ·.leaseId) (fun _ _ => Eq.symm) hs.ids
      fun _ => hids,
    Slots.apart_update s.records (·.inUse) (·.original = ·.original) (fun _ _ => Eq.symm)
      hs.originals fun _ => horiginals⟩
  · by_cases hj : j = i
    · subst hj
      exact ⟨k, by simpa using hopen, by simp [LendArgs.record]⟩
    · simp only [update_of_ne hj] at huse ⊢
      obtain ⟨m, hactive, hid⟩ := hs.leased j huse
      have hne : m ≠ k := fun hsame => hk (hsame ▸ hactive)
      exact ⟨m, by simpa [hne] using hactive, by simpa [hne] using hid⟩
  · by_cases hm : m = k
    · subst hm
      exact ⟨i, by simp [LendArgs.record], by simp [LendArgs.record]⟩
    · simp only [update_of_ne hm] at hactive ⊢
      obtain ⟨j, huse, hid⟩ := hs.recorded m hactive
      have hj := hother huse
      exact ⟨j, by simpa [hj] using huse, by simpa [hj] using hid⟩

theorem Ready.revoke (hs : Ready s) {i : Fin aosLeaseMaxActive} (huse : (s.records i).inUse = true)
    (hid : (s.leases k).leaseId = (s.records i).leaseId) :
    Ready { s with
      leases := update s.leases k { s.leases k with state := .revoked }
      records := update s.records i .zero } := by
  -- whatever is still in use is another record, as it was
  have hkept : ∀ j, (update s.records i CapLendRecord.zero j).inUse = true ->
      j ≠ i /\ (s.records j).inUse = true := by
    intro j hj
    by_cases hsame : j = i
    · subst hsame
      rw [update_self] at hj
      cases hj
    · rw [update_of_ne hsame] at hj
      exact ⟨hsame, hj⟩
  refine ⟨hs.initialized, hs.table.update (hs.table k), fun j hj => ?_, fun m hactive => ?_,
    Slots.apart_update s.records (·.inUse) (·.leaseId = ·.leaseId) (fun _ _ => Eq.symm) hs.ids
      nofun,
    Slots.apart_update s.records (·.inUse) (·.original = ·.original) (fun _ _ => Eq.symm)
      hs.originals nofun⟩
  · obtain ⟨hne, hold⟩ := hkept j hj
    obtain ⟨m, hactive, hm⟩ := hs.leased j hold
    have hmk : m ≠ k := by
      rintro rfl
      exact hne (hs.ids j i hold huse (hm.symm.trans hid))
    refine ⟨m, ?_, ?_⟩ <;> simp only [update_of_ne hmk, update_of_ne hne]
    · exact hactive
    · exact hm
  · have hmk : m ≠ k := by
      rintro rfl
      simp only [update_self] at hactive
      cases hactive
    simp only [update_of_ne hmk] at hactive ⊢
    obtain ⟨j, hold, hm⟩ := hs.recorded m hactive
    have hne : j ≠ i := by
      rintro rfl
      exact hmk (hs.table.unique (hm.symm.trans hid.symm))
    exact ⟨j, by simpa [hne] using hold, by simpa [hne] using hm⟩

theorem CallStep.ready (hstep : CallStep A s call status s') (hs : Ready s) : Ready s' := by
  cases hstep with
  | rights _ => exact hs
  | refused _ _ => exact hs
  | mintFailed _ _ _ _ hk hslot hclosed => exact hs.closeLease hk hslot (by rw [hclosed]; decide)
  | lent _ _ hnew _ hfree hk hslot hopen => exact hs.lend hnew hfree hk hslot hopen
  | notFound _ => exact hs
  | revokeFailed _ => exact hs
  | revoked _ huse _ _ hid => exact hs.revoke huse hid

theorem CallStep.failed (hstep : CallStep A s call status s') (hstatus : status ≠ .ok) :
    s'.loans = s.loans := by
  cases hstep with
  | lent => exact absurd rfl hstatus
  | revoked => exact absurd rfl hstatus
  | _ => rfl

/-- The records describe the loans the history leaves outstanding. -/
theorem CallStep.loans (hstep : CallStep A s call status s') (hs : Ready s) :
    s'.loans.Perm (loanStep s.loans (call, status)) := by
  have hkeys := nodup_finRange aosLeaseMaxActive
  cases hstep with
  | @lent a i k lease _ _ _ _ hfree _ _ _ =>
    exact Slots.roster_insert hkeys (mem_finRange i) (by simp [CapLendRecord.loan, hfree]) rfl
  | @revoked original i k _ huse horiginal _ hid =>
    have hclear := Slots.roster_clear CapLendRecord.loan s.records hkeys
      (mem_finRange i) (if_pos huse) (a := .zero) rfl
    refine List.Perm.trans ?_ (hclear.filter _).symm
    rw [filter_cons_of_neg (by simp [horiginal]), filter_eq_self.mpr]
    · exact .refl _
    · intro loan hloan
      -- no other record in use is for this original
      obtain ⟨j, hj, rfl⟩ := mem_loans.mp (show loan ∈ LendState.loans
        { s with records := update s.records i .zero } from hloan)
      have hne : j ≠ i := by
        rintro rfl
        simp only [update_self] at hj
        cases hj
      simp only [update_of_ne hne] at hj ⊢
      rw [bne_iff_ne]
      exact fun hsame => hne (hs.originals j i hj huse (hsame.trans horiginal.symm))
  | _ => exact .refl _

end Kept

/-! ## Whole histories -/

section Histories

variable {history : List (LendCall × LendStatus)} {s : LendState}

/-- A call first sets the tables up; it then acts as from a state that is set up. -/
theorem runCall_ensureInit (call : LendCall) (s : LendState) :
    runCall call (capLendEnsureInit s) = runCall call s := by
  have hidem : capLendEnsureInit (capLendEnsureInit s) = capLendEnsureInit s := by
    by_cases hinit : s.initialized = true
    · have hsame : capLendEnsureInit s = s := if_pos hinit
      rw [hsame, hsame]
    · have hfresh : capLendEnsureInit s = aosCapLendInit := if_neg hinit
      rw [hfresh]
      rfl
  cases call with
  | lend a =>
    show aosCapLend a (capLendEnsureInit s) = aosCapLend a s
    unfold aosCapLend
    rw [hidem]
  | revoke original =>
    show aosCapLendRevoke original (capLendEnsureInit s) = aosCapLendRevoke original s
    unfold aosCapLendRevoke
    rw [hidem]

/-- The tables after any history, as the next call finds them. -/
structure Kept (loans : List Loan) (s : LendState) : Prop where
  ready : Ready (capLendEnsureInit s)
  same : s.loans = (capLendEnsureInit s).loans
  lockStep : LockStep s
  loans : s.loans.Perm loans

variable {loans : List Loan}

theorem kept_of_ready (hs : Ready s) (hloans : s.loans.Perm loans) : Kept loans s := by
  refine ⟨?_, ?_, hs.lockStep, hloans⟩
  · rw [hs.ensureInit]
    exact hs
  · rw [hs.ensureInit]

theorem loanStep_perm {loans' : List Loan} (hperm : loans.Perm loans')
    (call : LendCall × LendStatus) : (loanStep loans call).Perm (loanStep loans' call) := by
  unfold loanStep
  split
  · exact hperm.cons _
  · exact hperm.filter _
  · exact hperm

variable {s' : LendState} {status : LendStatus} {A : Bool -> Prop}

theorem Kept.call (hs : Kept loans s) {call : LendCall} {trace : Trace LendIo}
    (hrun : Run (runCall call s) trace (status, s')) (hanswers : ∀ event ∈ trace, A event.answer) :
    CallStep A (capLendEnsureInit s) call status s' := by
  rw [<- runCall_ensureInit] at hrun
  exact ((runCall_ensures hs.ready call).run hrun hanswers).2

theorem Reached.kept (hreached : Reached history s) : Kept (outstanding history) s := by
  induction hreached with
  | start => exact ⟨ready_init, rfl, lockStep_zero, .refl _⟩
  | @call history s s' call status trace _ hrun ih =>
    have hstep := ih.call (A := fun _ => True) hrun (fun _ _ => trivial)
    refine kept_of_ready (hstep.ready ih.ready) ((hstep.loans ih.ready).trans ?_)
    rw [outstanding, foldl_append, foldl_cons, foldl_nil, <- ih.same]
    exact loanStep_perm ih.loans _

/-- An original is on loan, or no further loan fits. -/
def Blocked (loans : List Loan) (original : UInt64) : Prop :=
  (∃ loan ∈ loans, loan.original = original) \/ loans.length = aosLeaseMaxActive

theorem blocked_perm {loans' : List Loan} (hperm : loans.Perm loans') (original : UInt64) :
    Blocked loans original ↔ Blocked loans' original := by
  unfold Blocked
  rw [hperm.length_eq]
  simp only [hperm.mem_iff]

/-- A lend is refused for its lease exactly when its rights are reduced and the original is
blocked. -/
theorem CallStep.errLease_iff {s : LendState} {a : LendArgs}
    (hstep : CallStep A s (.lend a) status s') :
    status = .errLease ↔
      capLendRightsIsStrictSubset a.rights = true /\ Blocked s.loans a.original := by
  cases hstep with
  | rights hrights => simp [hrights]
  | refused hstrict hblocked => exact ⟨fun _ => ⟨hstrict, hblocked⟩, fun _ => rfl⟩
  | mintFailed _ _ hnew hroom =>
    refine ⟨nofun, ?_⟩
    rintro ⟨_, ⟨loan, hloan, hsame⟩ | hfull⟩
    · exact absurd hsame (hnew loan hloan)
    · exact absurd hfull hroom
  | lent _ _ hnew hroom =>
    refine ⟨nofun, ?_⟩
    rintro ⟨_, ⟨loan, hloan, hsame⟩ | hfull⟩
    · exact absurd hsame (hnew loan hloan)
    · exact absurd hfull hroom

/-- After a loan was ended its original is not blocked. -/
theorem CallStep.unblocked {s : LendState} {original : UInt64}
    (hstep : CallStep A s (.revoke original) .ok s') (hs : Ready s) :
    ¬Blocked s'.loans original := by
  have hloans := hstep.loans hs
  cases hstep with
  | @revoked _ i k _ huse horiginal _ _ =>
    rw [blocked_perm hloans]
    rintro (⟨loan, hloan, hsame⟩ | hfull)
    · exact absurd hsame (bne_iff_ne.mp (mem_filter.mp hloan).2)
    · -- the record that was cleared is free
      have hall := loans_full_iff.mp (hloans.length_eq.trans hfull) i
      simp only [update_self] at hall
      cases hall

/-- A lend whose rights are reduced and whose original is not blocked succeeds when the
kernel mints. -/
theorem CallStep.lent_of_minted {s : LendState} {a : LendArgs}
    (hstep : CallStep (fun answer => answer = true) s (.lend a) status s')
    (hstrict : capLendRightsIsStrictSubset a.rights = true) (hfree : ¬Blocked s.loans a.original) :
    status = .ok := by
  cases hstep with
  | rights hrights =>
    rw [hstrict] at hrights
    cases hrights
  | refused _ hblocked => exact absurd hblocked hfree
  | mintFailed _ hanswer => cases hanswer
  | lent => rfl

/-- A lend asks the kernel for reduced rights of an original that is not blocked, and a revoke for
an original on loan, where it was lent from; they ask for nothing else. -/
theorem capLend_asks (hreached : Reached history s) (call : LendCall) :
    Ensures anyAnswer (fun request => match call with
      | .lend a => request = a.mint /\ a.rights ≠ sel4AllRights /\
          ¬Blocked (outstanding history) a.original
      | .revoke original => ∃ loan ∈ outstanding history, loan.original = original /\
          request = LendOp.cnodeRevoke loan.srcRoot original loan.srcDepth.toUInt8)
      (fun _ => True) (runCall call s) := by
  have hloans := hreached.kept.same ▸ hreached.kept.loans
  cases call with
  | lend a =>
    simp only [runCall, aosCapLend]
    split
    · trivial
    rename_i hrights
    split
    · trivial
    rename_i hfind
    split
    · trivial
    rename_i i hfree
    split
    · trivial
    refine ⟨⟨rfl, fun hall => hrights (by rw [hall]; rfl), ?_⟩, fun minted _ => by
      cases minted <;> trivial⟩
    rw [<- blocked_perm hloans]
    rintro (⟨loan, hloan, hsame⟩ | hfull)
    · exact not_on_loan hfind loan hloan hsame
    · exact absurd ((capLendFindFree_some hfree).symm.trans (loans_full_iff.mp hfull i)) nofun
  | revoke original =>
    simp only [runCall, aosCapLendRevoke]
    split
    · trivial
    rename_i i hfind
    obtain ⟨huse, horiginal⟩ := capLendFind_some hfind
    have hloan := hloans.mem_iff.mp (mem_loans.mpr ⟨i, huse, rfl⟩)
    refine ⟨⟨_, hloan, horiginal, rfl⟩, fun _ _ => ?_⟩
    show Ensures _ _ _ (ite _ _ _)
    split
    · trivial
    split <;> trivial

/-- A lookup shows an active lease for what is on loan, and nothing else. -/
theorem lookup_outstanding (hreached : Reached history s) (original : UInt64) :
    (aosCapLendLookup original s).1.map AosLease.state =
      if ∃ loan ∈ outstanding history, loan.original = original then some .active else none := by
  have hs := hreached.kept
  simp only [<- (hs.same ▸ hs.loans).mem_iff, <- capLendFind_isSome_iff, aosCapLendLookup]
  cases hfind : capLendFind (capLendEnsureInit s) original with
  | none => rfl
  | some i =>
    obtain ⟨k, hactive, hid⟩ := hs.ready.leased i (capLendFind_some hfind).1
    have hslot := hs.ready.table k
    rw [hid] at hslot
    simp [aosLeaseGet, hslot, hid, hactive]

end Histories

/-- After every history of calls, whatever the kernel answered: records in use and active
leases correspond one to one, with different originals, and are the loans the successful
calls left outstanding.  For the next call: a lend reports a lease error exactly when its
rights are reduced and its original is on loan or all loans are out; a failure changes no
loan; a revoke never fails to close its lease; and a revoked original can be lent again. -/
theorem capLend_lockStep {history : List (LendCall × LendStatus)} {s : LendState}
    (hreached : Reached history s) :
    LockStep s /\ s.loans.Perm (outstanding history) /\
      ∀ call trace status s', Run (runCall call s) trace (status, s') ->
        (∀ a, call = .lend a -> (status = .errLease ↔
          capLendRightsIsStrictSubset a.rights = true /\
            ((∃ loan ∈ outstanding history, loan.original = a.original) \/
              (outstanding history).length = aosLeaseMaxActive))) /\
        (status ≠ .ok -> s'.loans = s.loans) /\
        status ≠ .errLeaseClose /\
        ∀ original, call = .revoke original -> status = .ok ->
          ∀ a trace' status' s'', a.original = original ->
            capLendRightsIsStrictSubset a.rights = true ->
            Run (runCall (.lend a) s') trace' (status', s'') ->
            (∀ event ∈ trace', event.answer = true) -> status' = .ok := by
  have hkept := hreached.kept
  refine ⟨hkept.lockStep, hkept.loans, fun call trace status s' hrun => ?_⟩
  have hstep := hkept.call (A := fun _ => True) hrun (fun _ _ => trivial)
  refine ⟨?_, ?_, ?_, ?_⟩
  · rintro a rfl
    rw [hstep.errLease_iff, <- hkept.same, blocked_perm hkept.loans]
    rfl
  · intro hstatus
    rw [hstep.failed hstatus, <- hkept.same]
  · cases hstep <;> decide
  · rintro original rfl rfl a trace' status' s'' rfl hstrict hrun' hanswers
    have hready := hstep.ready hkept.ready
    have hagain := (kept_of_ready hready (.refl _)).call
      (A := fun answer => answer = true) hrun' hanswers
    rw [hready.ensureInit] at hagain
    exact hagain.lent_of_minted hstrict (hstep.unblocked hkept.ready)

/-! ## Runs in which the kernel refuses nothing -/

/-- A call with every kernel call successful. -/
def granted (call : LendCall) (s : LendState) : LendStatus × LendState :=
  Prog.resolve (fun _ => true) (runCall call s)

theorem Reached.granted {history : List (LendCall × LendStatus)} (hreached : Reached history s)
    (call : LendCall) :
    Reached (history ++ [(call, (granted call s).1)]) (granted call s).2 := by
  obtain ⟨trace, hrun, _⟩ := run_resolve (fun _ => true) (runCall call s)
  exact .call hreached hrun

/-- A loan of the first capability, write access dropped. -/
def firstLoan : LendArgs := ⟨2, 5, 8, 2, 9, 8, ⟨true, true, true, false⟩, 7⟩

theorem firstLoan_reached : Reached [(.lend firstLoan, .ok)] (granted (.lend firstLoan) .zero).2 :=
  Reached.start.granted (.lend firstLoan)

/-- The same capability is on loan, and a second lend asks for all rights: the rights are
refused before the loan is looked for. -/
theorem onLoan_errRights : ∃ history s a trace s', Reached history s /\
      (∃ loan ∈ outstanding history, loan.original = a.original) /\
      Run (runCall (.lend a) s) trace (.errRights, s') := by
  refine ⟨_, _, { firstLoan with rights := sel4AllRights }, [],
    (granted (.lend firstLoan) .zero).2, firstLoan_reached,
    ⟨firstLoan.loan, mem_singleton_self _, rfl⟩, ?_⟩
  exact .ret _

theorem capLend_lockStep_firstLoan :
    Reached [(.lend firstLoan, .ok)] (granted (.lend firstLoan) .zero).2 /\
      (granted (.lend firstLoan) .zero).2.loans.Perm [⟨5, 2, 8⟩] :=
  ⟨firstLoan_reached, (capLend_lockStep firstLoan_reached).2.1⟩

theorem capLend_asks_firstLoan : ∃ loan ∈ [firstLoan.loan], loan.original = 5 /\
    LendOp.cnodeRevoke 2 5 8 = .cnodeRevoke loan.srcRoot 5 loan.srcDepth.toUInt8 :=
  (capLend_asks firstLoan_reached (.revoke 5)).1

theorem lookup_firstLoan :
    (aosCapLendLookup 5 (granted (.lend firstLoan) .zero).2).1.map AosLease.state = some .active :=
  lookup_outstanding firstLoan_reached 5

end AgentOs.Lending
