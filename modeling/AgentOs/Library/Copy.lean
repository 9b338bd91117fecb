import Mathlib.Data.Nat.Notation

/-!
# Copies between memories
-/

namespace AgentOs.Library

/-- Copy bytes from one memory into a range of another. -/
def copyRange (source target : Nat -> UInt8) (start dest len : Nat) : Nat -> UInt8 :=
  fun i => if dest <= i /\ i < dest + len then source (start + (i - dest)) else target i

variable (source target : Nat -> UInt8) (start : Nat) {dest len i : Nat}

theorem copyRange_inside (dest : Nat) (hi : i < len) :
    copyRange source target start dest len (dest + i) = source (start + i) := by
  unfold copyRange
  rw [if_pos ⟨Nat.le_add_right dest i, Nat.add_lt_add_left hi dest⟩, Nat.add_sub_cancel_left]

theorem copyRange_below (hi : i < dest) : copyRange source target start dest len i = target i :=
  if_neg fun h => Nat.not_le.mpr hi h.1

end AgentOs.Library
