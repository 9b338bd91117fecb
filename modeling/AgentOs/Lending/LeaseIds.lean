import AgentOs.Lending.Lease
import AgentOs.Library.Slots
import Mathlib.Data.List.Induction

/-!
# Lease identifiers over whole histories

What a holder of identifiers sees of the lease table.
-/

open Function (update update_self update_of_ne)

namespace AgentOs.Lending

open Library List Option

/-- A lease as `aos_lease_open` gave it out. -/
structure Grant where
  leaseId : UInt32
  borrowerPd : UInt32
  rights : UInt32
  deriving DecidableEq

/-- What a history of calls gave out, newest first, and what it took back. -/
structure LeaseHistory where
  opened : List Grant
  closed : List UInt32

inductive LeaseCall where
  | open (borrowerPd rights : UInt32)
  | close (leaseId : UInt32)

/-- One call; a failing one is not part of the history. -/
def leaseStep (s : AosLeaseTable × LeaseHistory) : LeaseCall -> AosLeaseTable × LeaseHistory
  | .open borrowerPd rights =>
    match aosLeaseOpen s.1 borrowerPd rights with
    | (none, table) => (table, s.2)
    | (some leaseId, table) =>
      (table, { s.2 with opened := ⟨leaseId, borrowerPd, rights⟩ :: s.2.opened })
  | .close leaseId =>
    match aosLeaseClose s.1 leaseId with
    | (false, table) => (table, s.2)
    | (true, table) => (table, { s.2 with closed := leaseId :: s.2.closed })

def leaseRun (calls : List LeaseCall) : AosLeaseTable × LeaseHistory :=
  calls.foldl leaseStep (aosLeaseTableInit, ⟨[], []⟩)

namespace LeaseHistory

def ids (h : LeaseHistory) : List UInt32 := h.opened.map Grant.leaseId

/-- The leases given out in one slot. -/
def grants (h : LeaseHistory) (i : Fin aosLeaseMaxActive) : List Grant :=
  h.opened.filter fun g => leaseSlot g.leaseId = some i

/-- How often a slot was opened again after its first lease. -/
def reopenings (h : LeaseHistory) (i : Fin aosLeaseMaxActive) : Nat := (h.grants i).length - 1

/-- The leases given out and not taken back. -/
def active (h : LeaseHistory) : List UInt32 := h.ids.filter fun leaseId => leaseId ∉ h.closed

theorem mem_ids {h : LeaseHistory} {leaseId : UInt32} :
    leaseId ∈ h.ids ↔ ∃ g ∈ h.opened, g.leaseId = leaseId := mem_map

theorem mem_grants {h : LeaseHistory} {i : Fin aosLeaseMaxActive} {g : Grant} :
    g ∈ h.grants i ↔ g ∈ h.opened /\ leaseSlot g.leaseId = some i := by
  unfold grants
  rw [mem_filter, decide_eq_true_iff]

theorem grants_open (h : LeaseHistory) (g : Grant) (i : Fin aosLeaseMaxActive) :
    grants { h with opened := g :: h.opened } i =
      if leaseSlot g.leaseId = some i then g :: h.grants i else h.grants i := by
  unfold grants
  rw [filter_cons]
  simp only [decide_eq_true_iff]

end LeaseHistory

/-! ## Generations -/

theorem leaseIdGen_makeId (index generation : UInt32) :
    leaseIdGen (leaseMakeId index generation) = generation &&& aosLeaseGenMask := by
  refine UInt32.eq_of_toBitVec_eq (BitVec.eq_of_getLsbD_eq fun j hj => ?_)
  simp only [leaseIdGen, leaseMakeId, aosLeaseSlotMask, aosLeaseGenMask, aosLeaseSlotBits]
  interval_cases j <;> simp

variable {n : Nat}

theorem toNat_generation (hn : n < 2 ^ 24) : (UInt32.ofNat n).toNat = n :=
  UInt32.toNat_ofNat_of_lt' (Nat.lt_trans hn (by decide))

theorem and_genMask (hn : n < 2 ^ 24) : UInt32.ofNat n &&& aosLeaseGenMask = .ofNat n := by
  refine UInt32.toNat_inj.mp ?_
  rw [UInt32.toNat_and, toNat_generation hn]
  exact (Nat.and_two_pow_sub_one_eq_mod n 24).trans (Nat.mod_eq_of_lt hn)

theorem makeId_injective {i : Fin aosLeaseMaxActive} {m : Nat} (hm : m < 2 ^ 24) (hn : n < 2 ^ 24)
    (hid : leaseMakeId (slotIdx i) (.ofNat m) = leaseMakeId (slotIdx i) (.ofNat n)) :
    m = n := by
  have hgen := congrArg leaseIdGen hid
  rw [leaseIdGen_makeId, leaseIdGen_makeId, and_genMask hm, and_genMask hn] at hgen
  have hnat := congrArg UInt32.toNat hgen
  rwa [toNat_generation hm, toNat_generation hn] at hnat

/-! ## One slot -/

/-- The leases of a slot, newest first, carry the generations down to zero. -/
def Numbered (i : Fin aosLeaseMaxActive) : List Grant -> Prop
  | [] => True
  | g :: older =>
    g.leaseId = leaseMakeId (slotIdx i) (.ofNat older.length) /\ Numbered i older

theorem Numbered.leaseId {i : Fin aosLeaseMaxActive} {grants : List Grant}
    (hnumbered : Numbered i grants) {g : Grant} (hmem : g ∈ grants) :
    ∃ k < grants.length, g.leaseId = leaseMakeId (slotIdx i) (.ofNat k) := by
  induction grants with
  | nil => cases hmem
  | cons first older ih =>
    rcases mem_cons.mp hmem with rfl | hmem
    · exact ⟨older.length, Nat.lt_succ_self _, hnumbered.1⟩
    · obtain ⟨k, hk, hid⟩ := ih hnumbered.2 hmem
      exact ⟨k, Nat.lt_succ_of_lt hk, hid⟩

/-- A slot that was never used is as `aos_lease_table_init` left it; otherwise it holds the
newest of its leases, and all older ones were closed. -/
structure SlotOk (i : Fin aosLeaseMaxActive) (lease : AosLease) (grants : List Grant)
    (closed : List UInt32) : Prop where
  numbered : Numbered i grants
  unused : grants = [] -> lease = aosLeaseTableInit i
  current : ∀ g older, grants = g :: older ->
    lease = ⟨g.leaseId, g.borrowerPd, g.rights, if g.leaseId ∈ closed then .revoked else .active⟩
  older : ∀ g older, grants = g :: older -> ∀ g' ∈ older, g'.leaseId ∈ closed

namespace SlotOk

variable {i : Fin aosLeaseMaxActive} {lease : AosLease} {grants : List Grant} {closed : List UInt32}

theorem of_active (hslot : SlotOk i lease grants closed) (hactive : lease.state = .active) :
    ∃ g older, grants = g :: older /\ lease.leaseId = g.leaseId /\ g.leaseId ∉ closed := by
  cases grants with
  | nil =>
    rw [hslot.unused rfl] at hactive
    cases hactive
  | cons g older =>
    have hlease := hslot.current g older rfl
    refine ⟨g, older, rfl, by rw [hlease], fun hclosed => ?_⟩
    rw [hlease, if_pos hclosed] at hactive
    cases hactive

theorem active_of_newest {g : Grant} {older : List Grant}
    (hslot : SlotOk i lease (g :: older) closed) (hopen : g.leaseId ∉ closed) :
    lease.state = .active /\ lease.leaseId = g.leaseId := by
  have hlease := hslot.current g older rfl
  rw [hlease, if_neg hopen]
  exact ⟨rfl, rfl⟩

/-- In a slot that is not active everything was closed, and the next generation is the
number of leases so far. -/
theorem of_inactive (hslot : SlotOk i lease grants closed) (hinactive : lease.state ≠ .active)
    (hcount : grants.length < 2 ^ 24) :
    (∀ g ∈ grants, g.leaseId ∈ closed) /\
      leaseMakeId (slotIdx i) (nextGeneration lease) =
        leaseMakeId (slotIdx i) (.ofNat grants.length) := by
  cases grants with
  | nil =>
    have hfirst : ∀ i, leaseMakeId (slotIdx i) (nextGeneration (aosLeaseTableInit i)) =
        leaseMakeId (slotIdx i) (.ofNat 0) := by decide
    refine ⟨nofun, ?_⟩
    rw [hslot.unused rfl]
    exact hfirst i
  | cons g older =>
    have hlease := hslot.current g older rfl
    have hclosed : g.leaseId ∈ closed := by
      by_contra hopen
      exact hinactive (hslot.active_of_newest hopen).1
    constructor
    · intro g' hg'
      rcases mem_cons.mp hg' with rfl | hg'
      · exact hclosed
      · exact hslot.older g older rfl g' hg'
    · rw [length_cons] at hcount
      have hgeneration : nextGeneration lease = .ofNat (older.length + 1) := by
        unfold nextGeneration
        rw [hlease, if_pos hclosed, if_pos rfl]
        show (leaseIdGen g.leaseId + 1) &&& aosLeaseGenMask = _
        rw [hslot.numbered.1, leaseIdGen_makeId, and_genMask (by omega), <- and_genMask hcount,
          UInt32.ofNat_add]
        rfl
      rw [hgeneration, length_cons]

end SlotOk

/-! ## The table and its history -/

structure HistoryOk (table : AosLeaseTable) (h : LeaseHistory) : Prop where
  slots : ∀ i, SlotOk i (table i) (h.grants i) h.closed
  named : ∀ g ∈ h.opened, ∃ i, leaseSlot g.leaseId = some i
  distinct : h.ids.Nodup
  closed : ∀ leaseId ∈ h.closed, leaseId ∈ h.ids

theorem historyOk_init : HistoryOk aosLeaseTableInit ⟨[], []⟩ where
  slots _ := ⟨trivial, fun _ => rfl, nofun, nofun⟩
  named _ := nofun
  distinct := nodup_nil
  closed _ := nofun

namespace HistoryOk

variable {table : AosLeaseTable} {h : LeaseHistory}

theorem tableOk (hok : HistoryOk table h) : TableOk table := by
  intro i
  have hslot := hok.slots i
  cases hgrants : h.grants i with
  | nil =>
    rw [hslot.unused hgrants]
    exact tableOk_init i
  | cons g older =>
    rw [hslot.current g older hgrants]
    have hmem : g ∈ h.grants i := by rw [hgrants]; exact mem_cons_self
    exact (LeaseHistory.mem_grants.mp hmem).2

/-- A lease opened in a slot whose generation has not wrapped has a new identifier. -/
theorem grant (hok : HistoryOk table h) {i : Fin aosLeaseMaxActive} {g : Grant}
    (hinactive : (table i).state ≠ .active) (hcount : (h.grants i).length < 2 ^ 24)
    (hid : g.leaseId = leaseMakeId (slotIdx i) (nextGeneration (table i))) :
    HistoryOk (update table i ⟨g.leaseId, g.borrowerPd, g.rights, .active⟩)
      { h with opened := g :: h.opened } := by
  obtain ⟨hclosed, hnext⟩ := (hok.slots i).of_inactive hinactive hcount
  have hslot : leaseSlot g.leaseId = some i := by
    rw [hid]
    exact leaseSlot_makeId i _
  have hnew : g.leaseId ∉ h.ids := by
    intro hmem
    obtain ⟨g', hg', hsame⟩ := LeaseHistory.mem_ids.mp hmem
    have hgrant : g' ∈ h.grants i := LeaseHistory.mem_grants.mpr ⟨hg', hsame ▸ hslot⟩
    obtain ⟨k, hk, hnumber⟩ := (hok.slots i).numbered.leaseId hgrant
    have hequal := makeId_injective (i := i) (hk.trans hcount) hcount
      (by rw [<- hnumber, hsame, hid, hnext])
    exact absurd hequal hk.ne
  refine ⟨fun j => ?_, fun g' hg' => ?_, nodup_cons.mpr ⟨hnew, hok.distinct⟩,
    fun leaseId hmem => mem_cons_of_mem _ (hok.closed leaseId hmem)⟩
  · rw [LeaseHistory.grants_open]
    by_cases hj : j = i
    · subst hj
      rw [if_pos hslot, update_self]
      refine ⟨⟨hid.trans hnext, (hok.slots j).numbered⟩, nofun, ?_, ?_⟩
      · rintro g' older ⟨rfl, rfl⟩
        rw [if_neg fun hmem => hnew (hok.closed _ hmem)]
      · rintro g' older ⟨rfl, rfl⟩
        exact hclosed
    · have hother : ¬leaseSlot g.leaseId = some j := fun hsame =>
        hj (some.inj (hsame.symm.trans hslot))
      rw [if_neg hother, update_of_ne hj]
      exact hok.slots j
  · rcases mem_cons.mp hg' with rfl | hg'
    · exact ⟨i, hslot⟩
    · exact hok.named g' hg'

theorem close (hok : HistoryOk table h) {i : Fin aosLeaseMaxActive}
    (hactive : (table i).state = .active) :
    HistoryOk (update table i { table i with state := .revoked })
      { h with closed := (table i).leaseId :: h.closed } := by
  have hgrow (leaseId : UInt32) (hmem : leaseId ∈ h.closed) :
      leaseId ∈ (table i).leaseId :: h.closed := mem_cons_of_mem _ hmem
  refine ⟨fun j => ?_, hok.named, hok.distinct, fun leaseId hmem => ?_⟩
  · have hslot := hok.slots j
    by_cases hj : j = i
    · subst hj
      rw [update_self]
      refine ⟨hslot.numbered, fun hnone => ?_, fun g older hgrants => ?_,
        fun g older hgrants g' hg' => hgrow _ (hslot.older g older hgrants g' hg')⟩
      · rw [hslot.unused hnone] at hactive
        cases hactive
      · rw [hslot.current g older hgrants, if_pos mem_cons_self]
    · rw [update_of_ne hj]
      refine ⟨hslot.numbered, hslot.unused, fun g older hgrants => ?_,
        fun g older hgrants g' hg' => hgrow _ (hslot.older g older hgrants g' hg')⟩
      have hne : g.leaseId ≠ (table i).leaseId := by
        intro hsame
        have hlease := hslot.current g older hgrants
        exact hj (hok.tableOk.unique (by rw [hlease, hsame]))
      rw [hslot.current g older hgrants]
      simp only [mem_cons, hne, false_or]
  · rcases mem_cons.mp hmem with rfl | hmem
    · obtain ⟨g, older, hgrants, hid, -⟩ := (hok.slots i).of_active hactive
      have hgrant : g ∈ h.grants i := by rw [hgrants]; exact mem_cons_self
      exact LeaseHistory.mem_ids.mpr ⟨g, (LeaseHistory.mem_grants.mp hgrant).1, hid.symm⟩
    · exact hok.closed leaseId hmem

end HistoryOk

/-- A call either changes nothing or adds to the history. -/
theorem leaseStep_cases (table : AosLeaseTable) (h : LeaseHistory) (call : LeaseCall) :
    leaseStep (table, h) call = (table, h) \/
    (∃ (i : Fin aosLeaseMaxActive) (g : Grant), (table i).state ≠ .active /\
      g.leaseId = leaseMakeId (slotIdx i) (nextGeneration (table i)) /\
      leaseStep (table, h) call =
        (update table i ⟨g.leaseId, g.borrowerPd, g.rights, .active⟩,
          { h with opened := g :: h.opened })) \/
    (∃ i : Fin aosLeaseMaxActive, (table i).state = .active /\
      leaseStep (table, h) call =
        (update table i { table i with state := .revoked },
          { h with closed := (table i).leaseId :: h.closed })) := by
  cases call with
  | «open» borrowerPd rights =>
    unfold leaseStep aosLeaseOpen
    dsimp only
    cases hfind : (finRange aosLeaseMaxActive).find? fun i => (table i).state != .active with
    | none => exact .inl rfl
    | some i =>
      have hinactive := find?_some hfind
      rw [bne_iff_ne] at hinactive
      exact .inr (.inl ⟨i, ⟨_, borrowerPd, rights⟩, hinactive, rfl, rfl⟩)
  | close leaseId =>
    unfold leaseStep aosLeaseClose
    dsimp only
    cases leaseSlot leaseId with
    | none => exact .inl rfl
    | some i =>
      by_cases hactive : (table i).state = .active
      · by_cases hid : (table i).leaseId = leaseId
        · subst hid
          dsimp only
          rw [if_neg (not_not.mpr hactive), if_neg (not_not.mpr rfl)]
          exact .inr (.inr ⟨i, hactive, rfl⟩)
        · dsimp only
          rw [if_neg (not_not.mpr hactive), if_pos hid]
          exact .inl rfl
      · dsimp only
        rw [if_pos hactive]
        exact .inl rfl

variable {table : AosLeaseTable}

/-- Generations that fit after a call fit before it. -/
theorem reopenings_step {h : LeaseHistory} {call : LeaseCall} (i : Fin aosLeaseMaxActive) :
    h.reopenings i <= (leaseStep (table, h) call).2.reopenings i := by
  obtain hsame | ⟨j, g, -, -, hopen⟩ | ⟨j, -, hclose⟩ := leaseStep_cases table h call
  · rw [hsame]
  · rw [hopen]
    unfold LeaseHistory.reopenings
    rw [LeaseHistory.grants_open]
    split
    · exact Nat.sub_le_sub_right (Nat.le_succ _) 1
    · exact Nat.le_refl _
  · rw [hclose]
    exact Nat.le_refl _

theorem leaseStep_ok {h : LeaseHistory} {call : LeaseCall} (hok : HistoryOk table h)
    (hfits : ∀ i, (leaseStep (table, h) call).2.reopenings i < 2 ^ 24) :
    HistoryOk (leaseStep (table, h) call).1 (leaseStep (table, h) call).2 := by
  obtain hsame | ⟨i, g, hinactive, hid, hopen⟩ | ⟨i, hactive, hclose⟩ :=
    leaseStep_cases table h call
  · rw [hsame]
    exact hok
  · have hslot : leaseSlot g.leaseId = some i := by
      rw [hid]
      exact leaseSlot_makeId i _
    have hcount := hfits i
    rw [hopen] at hcount ⊢
    unfold LeaseHistory.reopenings at hcount
    rw [LeaseHistory.grants_open, if_pos hslot] at hcount
    exact hok.grant hinactive hcount hid
  · rw [hclose]
    exact hok.close hactive

theorem leaseRun_ok {calls : List LeaseCall}
    (hfits : ∀ i, (leaseRun calls).2.reopenings i < 2 ^ 24) :
    HistoryOk (leaseRun calls).1 (leaseRun calls).2 := by
  induction calls using List.reverseRecOn with
  | nil => exact historyOk_init
  | append_singleton calls call ih =>
    have hrun : leaseRun (calls ++ [call]) = leaseStep (leaseRun calls) call := foldl_concat ..
    rw [hrun] at hfits ⊢
    exact leaseStep_ok (ih fun i => (reopenings_step i).trans_lt (hfits i)) hfits

/-! ## What an identifier names -/

theorem aosLeaseClose_ok_iff {leaseId : UInt32} : (aosLeaseClose table leaseId).1 = true ↔
      ∃ i, leaseSlot leaseId = some i /\ (table i).state = .active /\
        (table i).leaseId = leaseId := by
  constructor
  · intro hclose
    unfold aosLeaseClose at hclose
    cases hslot : leaseSlot leaseId with
    | none =>
      rw [hslot] at hclose
      cases hclose
    | some i =>
      rw [hslot] at hclose
      dsimp only at hclose
      split at hclose
      · cases hclose
      case isFalse hactive =>
        split at hclose
        · cases hclose
        case isFalse hid => exact ⟨i, rfl, not_not.mp hactive, not_not.mp hid⟩
  · rintro ⟨i, hslot, hactive, hid⟩
    rw [aosLeaseClose_eq table hslot hactive hid]

theorem aosLeaseOpen_isSome_iff {borrowerPd rights : UInt32} :
    (aosLeaseOpen table borrowerPd rights).1.isSome = true ↔ ∃ i, (table i).state ≠ .active := by
  constructor
  · intro hopen
    obtain ⟨leaseId, hsome⟩ := isSome_iff_exists.mp hopen
    obtain ⟨i, hinactive, -⟩ := aosLeaseOpen_some (Prod.ext hsome rfl)
    exact ⟨i, hinactive⟩
  · rintro ⟨i, hinactive⟩
    rw [Option.isSome_iff_ne_none]
    exact fun hnone => hinactive (aosLeaseOpen_none hnone i)

namespace HistoryOk

variable {table : AosLeaseTable} {h : LeaseHistory}

/-- The leases given out and not taken back are those of the active slots. -/
theorem mem_active_iff (hok : HistoryOk table h) {leaseId : UInt32} :
    leaseId ∈ h.active ↔ ∃ i, leaseSlot leaseId = some i /\ (table i).state = .active /\
      (table i).leaseId = leaseId := by
  unfold LeaseHistory.active
  rw [mem_filter, decide_eq_true_iff, LeaseHistory.mem_ids]
  constructor
  · rintro ⟨⟨g, hg, rfl⟩, hopen⟩
    obtain ⟨i, hslot⟩ := hok.named g hg
    have hgrant : g ∈ h.grants i := LeaseHistory.mem_grants.mpr ⟨hg, hslot⟩
    have hslotOk := hok.slots i
    cases hgrants : h.grants i with
    | nil => exact absurd (hgrants ▸ hgrant) not_mem_nil
    | cons newest older =>
      rw [hgrants] at hgrant hslotOk
      rcases mem_cons.mp hgrant with rfl | holder
      · obtain ⟨hactive, hid⟩ := hslotOk.active_of_newest hopen
        exact ⟨i, hslot, hactive, hid⟩
      · exact absurd (hslotOk.older newest older rfl g holder) hopen
  · rintro ⟨i, -, hactive, rfl⟩
    obtain ⟨g, older, hgrants, hid, hopen⟩ := (hok.slots i).of_active hactive
    have hgrant : g ∈ h.grants i := by rw [hgrants]; exact mem_cons_self
    rw [hid]
    exact ⟨⟨g, (LeaseHistory.mem_grants.mp hgrant).1, rfl⟩, hopen⟩

theorem active_length (hok : HistoryOk table h) : h.active.length =
      ((finRange aosLeaseMaxActive).filter fun i => (table i).state = .active).length := by
  have hperm : h.active.Perm (((finRange aosLeaseMaxActive).filter
      fun i => (table i).state = .active).map fun i => (table i).leaseId) := by
    refine (perm_ext_iff_of_nodup (hok.distinct.filter _) ?_).mpr fun leaseId => ?_
    · refine List.Nodup.map_on (fun i _ j _ hid => hok.tableOk.unique hid) ?_
      exact (nodup_finRange _).filter _
    · show leaseId ∈ h.active ↔ _
      rw [hok.mem_active_iff, List.mem_map]
      constructor
      · rintro ⟨i, -, hactive, hid⟩
        exact ⟨i, mem_filter.mpr ⟨mem_finRange i, decide_eq_true hactive⟩, hid⟩
      · rintro ⟨i, hmem, hid⟩
        have hactive := of_decide_eq_true (mem_filter.mp hmem).2
        exact ⟨i, hid ▸ hok.tableOk i, hactive, hid⟩
  rw [hperm.length_eq, length_map]

theorem open_isSome_iff (hok : HistoryOk table h) (borrowerPd rights : UInt32) :
    (aosLeaseOpen table borrowerPd rights).1.isSome = true ↔ h.active.length < aosLeaseMaxActive := by
  rw [aosLeaseOpen_isSome_iff, hok.active_length]
  have hsome : (∃ i, (table i).state ≠ .active) ↔ ∃ i ∈ finRange aosLeaseMaxActive,
      ¬decide ((table i).state = .active) = true := by
    constructor
    · rintro ⟨i, hinactive⟩
      exact ⟨i, mem_finRange i, fun hactive => hinactive (of_decide_eq_true hactive)⟩
    · rintro ⟨i, -, hinactive⟩
      exact ⟨i, fun hactive => hinactive (decide_eq_true hactive)⟩
  rw [hsome, <- length_filter_lt_length_iff_exists, length_finRange]

theorem get (hok : HistoryOk table h) {newer older : List Grant} {g : Grant}
    (hopened : h.opened = newer ++ g :: older) :
    if ∃ g' ∈ newer, leaseSlot g'.leaseId = leaseSlot g.leaseId then
      aosLeaseGet table g.leaseId = none
    else ∃ lease, aosLeaseGet table g.leaseId = some lease /\
      lease.borrowerPd = g.borrowerPd /\ lease.rights = g.rights := by
  obtain ⟨i, hslot⟩ := hok.named g (by rw [hopened]; simp)
  have hget : aosLeaseGet table g.leaseId =
      if (table i).leaseId ≠ g.leaseId then none else some (table i) := by
    unfold aosLeaseGet
    rw [hslot]
  have hgrants : h.grants i =
      newer.filter (fun g => leaseSlot g.leaseId = some i) ++
        g :: older.filter fun g => leaseSlot g.leaseId = some i := by
    unfold LeaseHistory.grants
    rw [hopened, filter_append, filter_cons, if_pos (decide_eq_true hslot)]
  have hslotOk := hok.slots i
  rw [hslot, hget]
  cases hnewer : newer.filter (fun g => leaseSlot g.leaseId = some i) with
  | nil =>
    have hunused : ¬∃ g' ∈ newer, leaseSlot g'.leaseId = some i := by
      rintro ⟨g', hg', hsame⟩
      exact filter_eq_nil_iff.mp hnewer g' hg' (decide_eq_true hsame)
    rw [hnewer, nil_append] at hgrants
    rw [if_neg hunused, hslotOk.current _ _ hgrants, if_neg (not_not.mpr rfl)]
    exact ⟨_, rfl, rfl, rfl⟩
  | cons newest rest =>
    have hmem : newest ∈ newer.filter fun g => leaseSlot g.leaseId = some i := by
      rw [hnewer]
      exact mem_cons_self
    obtain ⟨hnewest, hsame⟩ := mem_filter.mp hmem
    -- two entries of the history never share an identifier
    have hne : newest.leaseId ≠ g.leaseId := by
      have hdistinct := hok.distinct
      unfold LeaseHistory.ids at hdistinct
      rw [hopened, map_append, nodup_append] at hdistinct
      exact hdistinct.2.2 _ (mem_map_of_mem hnewest) _ mem_cons_self
    rw [hnewer, cons_append] at hgrants
    rw [if_pos ⟨newest, hnewest, of_decide_eq_true hsame⟩, hslotOk.current _ _ hgrants, if_pos hne]

end HistoryOk

/-- In every history in which no slot is reopened `2 ^ 24` times, all identifiers given out
differ; a close succeeds exactly for an identifier given out and not closed; a lease is found
under its identifier, with its own borrower and rights, until its slot is reused and not
afterwards; an open succeeds exactly while fewer than eight leases are active; and a call that
fails leaves the table as it is. -/
theorem lease_ids_do_not_alias (calls : List LeaseCall)
    (hfits : ∀ i, (leaseRun calls).2.reopenings i < 2 ^ 24) :
    (leaseRun calls).2.ids.Nodup /\
    (∀ leaseId, (aosLeaseClose (leaseRun calls).1 leaseId).1 = true ↔
      leaseId ∈ (leaseRun calls).2.ids /\ leaseId ∉ (leaseRun calls).2.closed) /\
    (∀ newer g older, (leaseRun calls).2.opened = newer ++ g :: older ->
      if ∃ g' ∈ newer, leaseSlot g'.leaseId = leaseSlot g.leaseId then
        aosLeaseGet (leaseRun calls).1 g.leaseId = none
      else ∃ lease, aosLeaseGet (leaseRun calls).1 g.leaseId = some lease /\
        lease.borrowerPd = g.borrowerPd /\ lease.rights = g.rights) /\
    (∀ borrowerPd rights, (aosLeaseOpen (leaseRun calls).1 borrowerPd rights).1.isSome = true ↔
      (leaseRun calls).2.active.length < 8) /\
    (∀ call, (leaseRun (calls ++ [call])).2 = (leaseRun calls).2 ->
      (leaseRun (calls ++ [call])).1 = (leaseRun calls).1) := by
  have hok := leaseRun_ok hfits
  refine ⟨hok.distinct, fun leaseId => ?_, fun newer g older hopened => hok.get hopened,
    hok.open_isSome_iff, fun call hsame => ?_⟩
  · rw [aosLeaseClose_ok_iff, <- hok.mem_active_iff]
    unfold LeaseHistory.active
    rw [mem_filter, decide_eq_true_iff]
  · have hrun : leaseRun (calls ++ [call]) = leaseStep (leaseRun calls) call := foldl_concat ..
    rw [hrun] at hsame ⊢
    obtain hfailed | ⟨i, g, -, -, hopen⟩ | ⟨i, -, hclose⟩ :=
      leaseStep_cases (leaseRun calls).1 (leaseRun calls).2 call
    · rw [hfailed]
    · rw [hopen] at hsame
      exact absurd (congrArg (List.length ∘ LeaseHistory.opened) hsame) (Nat.succ_ne_self _)
    · rw [hclose] at hsame
      exact absurd (congrArg (List.length ∘ LeaseHistory.closed) hsame) (Nat.succ_ne_self _)

/-- A slot that is used a second time: the first identifier is not found any more. -/
def reuseCalls : List LeaseCall := [.open 3 1, .open 4 2, .close 0, .open 5 3]

theorem lease_ids_do_not_alias_reuse : (leaseRun reuseCalls).2.ids = [256, 1, 0] /\
      aosLeaseGet (leaseRun reuseCalls).1 0 = none /\
      (aosLeaseClose (leaseRun reuseCalls).1 256).1 = true := by
  have hfits : ∀ i, (leaseRun reuseCalls).2.reopenings i < 2 ^ 24 := by decide +kernel
  obtain ⟨-, hclose, hget, -⟩ := lease_ids_do_not_alias reuseCalls hfits
  refine ⟨by decide +kernel, ?_, (hclose 256).mpr (by decide +kernel)⟩
  have hold := hget [⟨256, 5, 3⟩, ⟨1, 4, 2⟩] ⟨0, 3, 1⟩ [] (by decide +kernel)
  rwa [if_pos (by decide +kernel)] at hold

end AgentOs.Lending
