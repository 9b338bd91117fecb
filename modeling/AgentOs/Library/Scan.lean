import Mathlib.Data.Option.Basic

/-!
# Scanners

A scanner reads a list from its front and counts what it has read.  A local scanner that
succeeds has looked at nothing behind what it read: whatever follows, it gives the same result.
-/

namespace AgentOs.Library

abbrev Scan (β : Type) := StateT (Nat × List β) Option

namespace Scan

variable {α β γ : Type}

def next : Scan β β
  | (i, b :: rest) => some (b, (i + 1, rest))
  | (_, []) => none

def peek : Scan β β
  | (i, b :: rest) => some (b, (i, b :: rest))
  | (_, []) => none

def take : Nat -> Scan β (List β)
  | 0 => pure []
  | n + 1 => do
    let b <- next
    let rest <- take n
    pure (b :: rest)

def consumed : Scan β Nat := fun s => some (s.1, s)

def fail : Scan β α := fun _ => none

/-- What follows does not matter. -/
def Local (p : Scan β α) : Prop :=
  ∀ s a t, p s = some (a, t) -> ∀ more, p (s.1, s.2 ++ more) = some (a, (t.1, t.2 ++ more))

theorem local_pure (a : α) : Local (pure a : Scan β α) := by
  intro s b t h more
  cases h
  rfl

theorem local_fail : Local (fail : Scan β α) := nofun

theorem local_consumed : Local (consumed : Scan β Nat) := by
  intro s a t h more
  cases h
  rfl

theorem local_next : Local (next : Scan β β) := by
  rintro ⟨i, _ | ⟨b, rest⟩⟩ a t h more
  · cases h
  · cases h
    rfl

theorem local_peek : Local (peek : Scan β β) := by
  rintro ⟨i, _ | ⟨b, rest⟩⟩ a t h more
  · cases h
  · cases h
    rfl

theorem Local.bind {p : Scan β α} {f : α -> Scan β γ} (hp : Local p) (hf : ∀ a, Local (f a)) :
    Local (p >>= f) := by
  intro s c t h more
  obtain ⟨⟨a, middle⟩, hfirst, hrest⟩ := Option.bind_eq_some_iff.mp h
  have hlong := hf a middle c t hrest more
  exact Option.bind_eq_some_iff.mpr ⟨(a, (middle.1, middle.2 ++ more)), hp s a middle hfirst more, hlong⟩

theorem Local.ite {c : Prop} [Decidable c] {p q : Scan β α} (hp : Local p) (hq : Local q) :
    Local (if c then p else q) := by
  split
  · exact hp
  · exact hq

theorem local_take (n : Nat) : Local (take n : Scan β (List β)) := by
  induction n with
  | zero => exact local_pure _
  | succ n ih => exact local_next.bind fun _ => ih.bind fun _ => local_pure _

end Scan

end AgentOs.Library
