import AgentOs.Library.Program
import AgentOs.Lending.Lease
import AgentOs.Sel4.Kernel

/-!
# Lending a capability

`cap_lend.c`: a lender mints a derivative of a capability it holds, remembers where the original
is, and revokes the original to end the loan.  Mints and revokes are requests that answer
whether they returned `seL4_NoError`.
-/

namespace AgentOs.Lending

open Library Sel4 List

def sel4AllRights : CapRights := ⟨true, true, true, true⟩

/-- `cap_lend_record_t`. -/
structure CapLendRecord where
  inUse : Bool
  original : UInt64
  srcRoot : UInt64
  srcDepth : UInt64
  leaseId : UInt32

def CapLendRecord.zero : CapLendRecord := ⟨false, 0, 0, 0, 0⟩

/-- `g_lend_leases`, `g_lend_records` and `g_lend_initialized`. -/
structure LendState where
  leases : AosLeaseTable
  records : Fin aosLeaseMaxActive -> CapLendRecord
  initialized : Bool

/-- The statics as the loader leaves them. -/
def LendState.zero : LendState := ⟨fun _ => ⟨0, 0, 0, .free⟩, fun _ => .zero, false⟩

inductive LendStatus where
  | ok
  | errRights
  | errLease
  | errMint
  | errNotFound
  | errRevoke
  | errLeaseClose
  deriving DecidableEq

inductive LendOp where
  | cnodeMint (destCnode destSlot : UInt64) (destDepth : UInt8) (srcRoot original : UInt64)
      (srcDepth : UInt8) (rights : CapRights) (badge : UInt64)
  | cnodeRevoke (root original : UInt64) (depth : UInt8)

abbrev LendIo : Interface := ⟨LendOp, fun _ => Bool⟩

abbrev LendM := Prog LendIo

def aosCapLendInit : LendState := ⟨aosLeaseTableInit, fun _ => .zero, true⟩

def capLendEnsureInit (s : LendState) : LendState := if s.initialized then s else aosCapLendInit

/-- At least one right is dropped. -/
def capLendRightsIsStrictSubset (rights : CapRights) : Bool :=
  !(rights.grantReply && rights.grant && rights.read && rights.write)

def capLendPackRights (rights : CapRights) : UInt32 :=
  let bit (right : Bool) (n : UInt32) : UInt32 := if right then 1 <<< n else 0
  bit rights.grantReply 3 ||| bit rights.grant 2 ||| bit rights.read 1 ||| bit rights.write 0

def capLendFind (s : LendState) (original : UInt64) : Option (Fin aosLeaseMaxActive) :=
  (finRange aosLeaseMaxActive).find? fun i =>
    (s.records i).inUse && (s.records i).original == original

def capLendFindFree (s : LendState) : Option (Fin aosLeaseMaxActive) :=
  (finRange aosLeaseMaxActive).find? fun i => !(s.records i).inUse

/-- The arguments of `aos_cap_lend`. -/
structure LendArgs where
  srcRoot : UInt64
  original : UInt64
  srcDepth : UInt64
  destCnode : UInt64
  destSlot : UInt64
  destDepth : UInt64
  rights : CapRights
  badge : UInt64

def LendArgs.mint (a : LendArgs) : LendOp :=
  .cnodeMint a.destCnode a.destSlot a.destDepth.toUInt8 a.srcRoot a.original a.srcDepth.toUInt8
    a.rights a.badge

def LendArgs.record (a : LendArgs) (leaseId : UInt32) : CapLendRecord :=
  ⟨true, a.original, a.srcRoot, a.srcDepth, leaseId⟩

def aosCapLend (a : LendArgs) (state : LendState) : LendM (LendStatus × LendState) :=
  let s := capLendEnsureInit state
  if !capLendRightsIsStrictSubset a.rights then pure (.errRights, s)
  else if (capLendFind s a.original).isSome then pure (.errLease, s)
  else
    match capLendFindFree s with
    | none => pure (.errLease, s)
    | some rec =>
      match aosLeaseOpen s.leases a.badge.toUInt32 (capLendPackRights a.rights) with
      | (none, leases) => pure (.errLease, { s with leases := leases })
      | (some leaseId, leases) => do
        let minted <- Prog.perform (I := LendIo) a.mint
        if !minted then
          pure (.errMint, { s with leases := (aosLeaseClose leases leaseId).2 })
        else
          pure (.ok, { s with
            leases := leases
            records := Function.update s.records rec (a.record leaseId) })

def aosCapLendRevoke (original : UInt64) (state : LendState) : LendM (LendStatus × LendState) :=
  let s := capLendEnsureInit state
  match capLendFind s original with
  | none => pure (.errNotFound, s)
  | some rec => do
    let revoked <- Prog.perform (I := LendIo)
      (.cnodeRevoke (s.records rec).srcRoot original (s.records rec).srcDepth.toUInt8)
    if !revoked then pure (.errRevoke, s)
    else
      match aosLeaseClose s.leases (s.records rec).leaseId with
      | (false, leases) => pure (.errLeaseClose, { s with leases := leases })
      | (true, leases) =>
        pure (.ok, { s with
          leases := leases
          records := Function.update s.records rec .zero })

def aosCapLendLookup (original : UInt64) (state : LendState) : Option AosLease × LendState :=
  let s := capLendEnsureInit state
  match capLendFind s original with
  | none => (none, s)
  | some rec => (aosLeaseGet s.leases (s.records rec).leaseId, s)

/-! ## Searches -/

variable {s : LendState}

theorem capLendFind_some {original : UInt64} {i : Fin aosLeaseMaxActive}
    (hfind : capLendFind s original = some i) :
    (s.records i).inUse = true /\ (s.records i).original = original := by
  simpa using find?_some hfind

theorem capLendFind_none {original : UInt64} (hfind : capLendFind s original = none)
    (i : Fin aosLeaseMaxActive) (huse : (s.records i).inUse = true) :
      (s.records i).original ≠ original := by
  have hall := find?_eq_none.mp hfind i (mem_finRange i)
  simpa [huse] using hall

theorem capLendFindFree_some {i : Fin aosLeaseMaxActive} (hfind : capLendFindFree s = some i) :
    (s.records i).inUse = false := by
  simpa using find?_some hfind

theorem capLendFindFree_none (hfind : capLendFindFree s = none) (i : Fin aosLeaseMaxActive) :
    (s.records i).inUse = true := by
  have hall := find?_eq_none.mp hfind i (mem_finRange i)
  simpa using hall

end AgentOs.Lending
