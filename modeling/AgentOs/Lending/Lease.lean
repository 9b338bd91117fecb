import Mathlib.Data.List.FinRange
import Mathlib.Tactic.IntervalCases

/-!
# Lease table

`cap_lease.c` and `lease_contract.h`: the table in which a lender records what it has on
loan.  An identifier packs the slot with a generation that grows each time a used slot is
reclaimed.
-/

namespace AgentOs.Lending

def aosLeaseMaxActive : Nat := 8

@[simp]
def aosLeaseSlotBits : UInt32 := 8

@[simp]
def aosLeaseSlotMask : UInt32 := 0xff

@[simp]
def aosLeaseGenMask : UInt32 := 0xffffff

/-- `aos_lease_state_t`. -/
inductive AosLeaseState where
  | free
  | active
  | revoked
  deriving DecidableEq

/-- `aos_lease_t`. -/
structure AosLease where
  leaseId : UInt32
  borrowerPd : UInt32
  rights : UInt32
  state : AosLeaseState

/-- `aos_lease_table_t`. -/
abbrev AosLeaseTable := Fin aosLeaseMaxActive -> AosLease

def leaseMakeId (slotIdx generation : UInt32) : UInt32 :=
  (slotIdx &&& aosLeaseSlotMask) ||| ((generation &&& aosLeaseGenMask) <<< aosLeaseSlotBits)

def leaseIdSlot (leaseId : UInt32) : UInt32 := leaseId &&& aosLeaseSlotMask

def leaseIdGen (leaseId : UInt32) : UInt32 := (leaseId >>> aosLeaseSlotBits) &&& aosLeaseGenMask

/-- The number of a slot as the table's loops count it. -/
def slotIdx (i : Fin aosLeaseMaxActive) : UInt32 := .ofNat i.val

def aosLeaseTableInit : AosLeaseTable := fun i => ⟨leaseMakeId (slotIdx i) 0, 0, 0, .free⟩

/-- The generation of the next lease in a slot. -/
def nextGeneration (slot : AosLease) : UInt32 :=
  if slot.state = .revoked then (leaseIdGen slot.leaseId + 1) &&& aosLeaseGenMask
  else leaseIdGen slot.leaseId

/-- The first slot that is not active takes the lease.  The answer is the identifier, or none
for -1, and the table after the call. -/
def aosLeaseOpen (table : AosLeaseTable) (borrowerPd rights : UInt32) :
    Option UInt32 × AosLeaseTable :=
  match (List.finRange aosLeaseMaxActive).find? fun i => (table i).state != .active with
  | none => (none, table)
  | some i =>
    let newId := leaseMakeId (slotIdx i) (nextGeneration (table i))
    (some newId, Function.update table i ⟨newId, borrowerPd, rights, .active⟩)

/-- The slot an identifier names, when it is one of the table. -/
def leaseSlot (leaseId : UInt32) : Option (Fin aosLeaseMaxActive) :=
  if h : (leaseIdSlot leaseId).toNat < aosLeaseMaxActive then some ⟨(leaseIdSlot leaseId).toNat, h⟩
  else none

/-- Whether the call returned 0, and the table after it. -/
def aosLeaseClose (table : AosLeaseTable) (leaseId : UInt32) : Bool × AosLeaseTable :=
  match leaseSlot leaseId with
  | none => (false, table)
  | some i =>
    if (table i).state ≠ .active then (false, table)
    else if (table i).leaseId ≠ leaseId then (false, table)
    else (true, Function.update table i { table i with state := .revoked })

def aosLeaseGet (table : AosLeaseTable) (leaseId : UInt32) : Option AosLease :=
  match leaseSlot leaseId with
  | none => none
  | some i => if (table i).leaseId ≠ leaseId then none else some (table i)

/-! ## Identifiers -/

theorem leaseIdSlot_makeId (index generation : UInt32) :
    leaseIdSlot (leaseMakeId index generation) = index &&& aosLeaseSlotMask := by
  refine UInt32.eq_of_toBitVec_eq (BitVec.eq_of_getLsbD_eq fun j hj => ?_)
  simp only [leaseIdSlot, leaseMakeId, aosLeaseSlotMask, aosLeaseGenMask, aosLeaseSlotBits]
  interval_cases j <;> simp

theorem leaseSlot_makeId (i : Fin aosLeaseMaxActive) (generation : UInt32) :
    leaseSlot (leaseMakeId (slotIdx i) generation) = some i := by
  have hslot : (slotIdx i &&& aosLeaseSlotMask).toNat = i.val := by
    revert i
    decide
  unfold leaseSlot
  rw [leaseIdSlot_makeId, hslot, dif_pos i.isLt]

/-! ## What a table keeps -/

/-- Every slot's identifier names that slot. -/
def TableOk (table : AosLeaseTable) : Prop := ∀ i, leaseSlot (table i).leaseId = some i

variable {table : AosLeaseTable} {i : Fin aosLeaseMaxActive}

theorem TableOk.unique (h : TableOk table) {j : Fin aosLeaseMaxActive}
    (hid : (table i).leaseId = (table j).leaseId) : i = j := by
  have hsame := h i
  rw [hid, h j] at hsame
  exact (Option.some.inj hsame).symm

theorem tableOk_init : TableOk aosLeaseTableInit := fun i => leaseSlot_makeId i 0

/-- A lease is opened in a slot that was not active, under an identifier of that slot. -/
theorem aosLeaseOpen_some {table' : AosLeaseTable} {borrowerPd rights leaseId : UInt32}
    (hopen : aosLeaseOpen table borrowerPd rights = (some leaseId, table')) :
    ∃ i, (table i).state ≠ .active /\ leaseSlot leaseId = some i /\
      table' = Function.update table i ⟨leaseId, borrowerPd, rights, .active⟩ := by
  unfold aosLeaseOpen at hopen
  split at hopen
  · cases hopen
  rename_i i hfind
  have hstate := List.find?_some hfind
  rw [bne_iff_ne] at hstate
  cases hopen
  exact ⟨i, hstate, leaseSlot_makeId i _, rfl⟩

/-- A lease is refused only when every slot is active. -/
theorem aosLeaseOpen_none {borrowerPd rights : UInt32}
    (hopen : (aosLeaseOpen table borrowerPd rights).1 = none) (i : Fin aosLeaseMaxActive) :
    (table i).state = .active := by
  unfold aosLeaseOpen at hopen
  split at hopen
  · rename_i hfind
    have hall := List.find?_eq_none.mp hfind i (List.mem_finRange i)
    simpa using hall
  · cases hopen

theorem aosLeaseClose_eq (table : AosLeaseTable) {leaseId : UInt32}
    (hslot : leaseSlot leaseId = some i) (hactive : (table i).state = .active)
    (hid : (table i).leaseId = leaseId) :
    aosLeaseClose table leaseId =
      (true, Function.update table i { table i with state := .revoked }) := by
  unfold aosLeaseClose
  rw [hslot]
  simp only
  rw [if_neg (not_not.mpr hactive), if_neg (not_not.mpr hid)]

theorem TableOk.update (h : TableOk table) {lease : AosLease}
    (hlease : leaseSlot lease.leaseId = some i) :
    TableOk (Function.update table i lease) :=
  (Function.forall_update_iff table fun j lease => leaseSlot lease.leaseId = some j).mpr
    ⟨hlease, fun j _ => h j⟩

end AgentOs.Lending
