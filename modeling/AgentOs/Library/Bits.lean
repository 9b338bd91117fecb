import Mathlib.Data.Nat.Basic

/-!
# Bit maps in 32-bit words

One word is a set of numbers below 32, and a table of words is a set of numbers: number `v` is
bit `v % 32` of word `v / 32`.
-/

namespace AgentOs.Library

/-- The word with only bit `k`. -/
def bit (k : Nat) : UInt32 := 1 <<< UInt32.ofNat k

def hasBit (word : UInt32) (k : Nat) : Bool := word &&& bit k != 0

variable {k : Nat}

theorem toBitVec_bit (hk : k < 32) : (bit k).toBitVec = BitVec.twoPow 32 k := by
  have hmod : k % 4294967296 % 32 = k := by omega
  rw [bit, UInt32.toBitVec_shiftLeft, BitVec.twoPow_eq]
  simp [BitVec.shiftLeft_eq', hmod]

variable {word : UInt32}

theorem hasBit_eq (hk : k < 32) : hasBit word k = word.toBitVec.getLsbD k := by
  have hand : (word &&& bit k).toBitVec = word.toBitVec &&& BitVec.twoPow 32 k := by
    rw [UInt32.toBitVec_and, toBitVec_bit hk]
  rw [BitVec.and_twoPow] at hand
  have hzero : word &&& bit k = 0 ↔ (word &&& bit k).toBitVec = 0#32 := UInt32.toBitVec_inj.symm
  unfold hasBit
  cases hbit : word.toBitVec.getLsbD k with
  | false =>
    rw [hbit] at hand
    simpa using hzero.mpr hand
  | true =>
    rw [hbit, if_pos rfl] at hand
    have hne : BitVec.twoPow 32 k ≠ 0#32 := by
      intro h
      have hsame := congrArg (BitVec.getLsbD · k) h
      simp [hk] at hsame
    simpa [hand] using (not_congr hzero).mpr (hand ▸ hne)

theorem hasBit_or_bit {l : Nat} (hk : k < 32) (hl : l < 32) :
    hasBit (word ||| bit k) l = (hasBit word l || decide (k = l)) := by
  rw [hasBit_eq hl, hasBit_eq hl, UInt32.toBitVec_or, toBitVec_bit hk]
  simp [hl, eq_comm]

theorem hasBit_and_not_bit {l : Nat} (hk : k < 32) (hl : l < 32) :
    hasBit (word &&& ~~~bit k) l = (hasBit word l && !decide (k = l)) := by
  rw [hasBit_eq hl, hasBit_eq hl, UInt32.toBitVec_and, UInt32.toBitVec_not, toBitVec_bit hk]
  simp [hl, eq_comm]

@[simp]
theorem hasBit_zero (k : Nat) : hasBit 0 k = false := by
  simp [hasBit]

/-! ## Tables -/

/-- The words of a bit map. -/
abbrev BitTable := Nat -> UInt32

namespace BitTable

def test (t : BitTable) (v : Nat) : Bool := hasBit (t (v / 32)) (v % 32)

def set (t : BitTable) (v : Nat) : BitTable :=
  fun i => if i = v / 32 then t i ||| bit (v % 32) else t i

def clear (t : BitTable) (v : Nat) : BitTable :=
  fun i => if i = v / 32 then t i &&& ~~~bit (v % 32) else t i

variable {t : BitTable} {v w : Nat}

theorem test_set : (t.set v).test w = (t.test w || decide (v = w)) := by
  have hv := Nat.mod_lt v (by decide : 32 > 0)
  have hw := Nat.mod_lt w (by decide : 32 > 0)
  unfold test set
  split
  case isTrue hword =>
    have hsame : v % 32 = w % 32 ↔ v = w := by omega
    rw [hasBit_or_bit hv hw, decide_eq_decide.mpr hsame]
  case isFalse hword =>
    have hne : v ≠ w := fun h => hword (h ▸ rfl)
    rw [decide_eq_false hne, Bool.or_false]

theorem test_clear : (t.clear v).test w = (t.test w && !decide (v = w)) := by
  have hv := Nat.mod_lt v (by decide : 32 > 0)
  have hw := Nat.mod_lt w (by decide : 32 > 0)
  unfold test clear
  split
  case isTrue hword =>
    have hsame : v % 32 = w % 32 ↔ v = w := by omega
    rw [hasBit_and_not_bit hv hw, decide_eq_decide.mpr hsame]
  case isFalse hword =>
    have hne : v ≠ w := fun h => hword (h ▸ rfl)
    rw [decide_eq_false hne, Bool.not_false, Bool.and_true]

@[simp]
theorem test_set_self : (t.set v).test v = true := by
  simp [test_set]

theorem test_set_of_test (h : t.test w = true) : (t.set v).test w = true := by
  rw [test_set, h, Bool.true_or]

theorem test_clear_of_ne (h : v ≠ w) : (t.clear v).test w = t.test w := by
  rw [test_clear, decide_eq_false h, Bool.not_false, Bool.and_true]

end BitTable

end AgentOs.Library
