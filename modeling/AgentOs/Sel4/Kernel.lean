import Mathlib.Data.Nat.Notation

/-!
# Kernel results

The part of the seL4 interface that several components share.
-/

namespace AgentOs.Sel4

/-- `seL4_Error`. -/
inductive Sel4Error where
  | noError
  | invalidArgument
  | invalidCapability
  | illegalOperation
  | rangeError
  | alignmentError
  | failedLookup
  | truncatedMessage
  | deleteFirst
  | revokeFirst
  | notEnoughMemory
  deriving DecidableEq

/-- `seL4_CapRights_t`. -/
structure CapRights where
  grantReply : Bool
  grant : Bool
  read : Bool
  write : Bool

/-- `seL4_CapNull`. -/
def sel4CapNull : UInt64 := 0

end AgentOs.Sel4
