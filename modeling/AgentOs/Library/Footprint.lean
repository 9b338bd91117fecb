import Mathlib.Order.Nat

/-!
# Pointers and the bytes an access touches

A pointer is an object together with a byte offset into it, so that two objects
never overlap and an offset past the end of one object is visible as such.
-/

namespace AgentOs.Library

structure Ptr (R : Type) where
  region : R
  off : Nat
  deriving DecidableEq

namespace Ptr

variable {R : Type}

instance : HAdd (Ptr R) Nat (Ptr R) where
  hAdd p n := ⟨p.region, p.off + n⟩

variable (p : Ptr R)

@[simp]
theorem add_region (n : Nat) : (p + n).region = p.region := rfl

@[simp]
theorem add_off (n : Nat) : (p + n).off = p.off + n := rfl

theorem add_add (m n : Nat) : p + m + n = p + (m + n) := by
  change Ptr.mk p.region (p.off + m + n) = Ptr.mk p.region (p.off + (m + n))
  rw [Nat.add_assoc]

@[simp]
theorem add_zero : p + 0 = p := rfl

end Ptr

/-- A run of consecutive bytes. -/
structure Span (R : Type) where
  start : Ptr R
  len : Nat

namespace Span

variable {R : Type}

/-- Every byte of the first run is a byte of the second. -/
def Within (inner outer : Span R) : Prop :=
  inner.start.region = outer.start.region /\ outer.start.off <= inner.start.off /\
    inner.start.off + inner.len <= outer.start.off + outer.len

/-- The two runs share no byte. -/
def Apart (first second : Span R) : Prop :=
  first.start.region = second.start.region ->
    first.start.off + first.len <= second.start.off \/ second.start.off + second.len <= first.start.off

theorem within_add (p : Ptr R) {offset len size : Nat} (hfits : offset + len <= size) :
    (⟨p + offset, len⟩ : Span R).Within ⟨p, size⟩ := by
  refine ⟨rfl, ?_, ?_⟩
  · rw [Ptr.add_off]
    exact Nat.le_add_right _ _
  · rw [Ptr.add_off, Nat.add_assoc]
    exact Nat.add_le_add_left hfits _

theorem Within.trans {first second third : Span R} (hfirst : first.Within second)
    (hsecond : second.Within third) : first.Within third := by
  obtain ⟨hregion, hlow, hhigh⟩ := hfirst
  obtain ⟨hregion', hlow', hhigh'⟩ := hsecond
  exact ⟨hregion.trans hregion', hlow'.trans hlow, hhigh.trans hhigh'⟩

theorem Within.apart {inner outer other : Span R} (hinner : inner.Within outer)
    (hapart : outer.Apart other) : inner.Apart other := by
  intro hregion
  obtain ⟨hsame, hlow, hhigh⟩ := hinner
  cases hapart (hsame.symm.trans hregion) with
  | inl hbefore => exact Or.inl (hhigh.trans hbefore)
  | inr hafter => exact Or.inr (hafter.trans hlow)

end Span

/-! ## Overwriting a run of bytes -/

section Overwrite

variable {β : Type}

/-- The contents `f` with the `n` places from `start` on replaced from `src`. -/
def overwrite (f : Nat -> β) (start n : Nat) (src : Nat -> β) : Nat -> β := fun k =>
  if start <= k /\ k < start + n then src (k - start) else f k

variable {start n k : Nat} {f src : Nat -> β}

theorem overwrite_of_mem (hlow : start <= k) (hhigh : k < start + n) : overwrite f start n src k =
    src (k - start) :=
  if_pos ⟨hlow, hhigh⟩

theorem overwrite_of_not_mem (hout : k < start \/ start + n <= k) : overwrite f start n src k = f k :=
  if_neg (by omega)

theorem overwrite_zero (f : Nat -> β) (start : Nat) (src : Nat -> β) :
    overwrite f start 0 src = f := by
  funext k
  exact overwrite_of_not_mem (by omega)

/-- Replacing a run in two parts, front first. -/
theorem overwrite_append (f : Nat -> β) (start m n : Nat) (src : Nat -> β) :
    overwrite (overwrite f start m src) (start + m) n (fun k => src (m + k)) =
      overwrite f start (m + n) src := by
  funext k
  by_cases hlow : k < start
  · rw [overwrite_of_not_mem (Or.inl (by omega)), overwrite_of_not_mem (Or.inl hlow),
      overwrite_of_not_mem (Or.inl hlow)]
  by_cases hfront : k < start + m
  · rw [overwrite_of_not_mem (Or.inl hfront), overwrite_of_mem (by omega) hfront,
      overwrite_of_mem (by omega) (by omega)]
  by_cases hback : k < start + m + n
  · rw [overwrite_of_mem (by omega) hback, overwrite_of_mem (by omega) (by omega)]
    congr 1
    omega
  · rw [overwrite_of_not_mem (Or.inr (by omega)), overwrite_of_not_mem (Or.inr (by omega)),
      overwrite_of_not_mem (Or.inr (by omega))]

/-- Overwriting depends only on what is written and on what is kept. -/
theorem overwrite_congr {g src' : Nat -> β} (hsrc : ∀ j, j < n -> src j = src' j) (hkept : f k = g k)
    :
    overwrite f start n src k = overwrite g start n src' k := by
  by_cases hin : start <= k /\ k < start + n
  · rw [overwrite_of_mem hin.1 hin.2, overwrite_of_mem hin.1 hin.2]
    exact hsrc _ (by omega)
  · rw [overwrite_of_not_mem (by omega), overwrite_of_not_mem (by omega), hkept]

theorem overwrite_shift (f src : Nat -> β) (origin start n k : Nat) :
    overwrite f (origin + start) n src (origin + k) =
      overwrite (fun j => f (origin + j)) start n src k := by
  by_cases hin : start <= k /\ k < start + n
  · rw [overwrite_of_mem (by omega) (by omega), overwrite_of_mem hin.1 hin.2]
    congr 1
    omega
  · rw [overwrite_of_not_mem (by omega), overwrite_of_not_mem (by omega)]

end Overwrite

end AgentOs.Library
