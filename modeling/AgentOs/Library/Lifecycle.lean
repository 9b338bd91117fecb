import Mathlib.Algebra.Group.Nat.Defs
import Mathlib.Logic.Function.Basic

/-!
# Clients that attach, retire and come back

What a service that hands out revocable resources promises about each client.  A
client is attached at most once from its first state; after it was retired it comes
back only under the next generation, and the generation never passes its limit.
-/

open Function (update update_self update_of_ne)

namespace AgentOs.Library

inductive ClientPhase where
  | fresh
  | attached
  | retired
  deriving DecidableEq

structure ClientLife where
  phase : ClientPhase
  generation : Nat

inductive LifeEvent (ι : Type) where
  | attach (client : ι)
  | detach (client : ι)
  | rebind (client : ι) (generation : Nat)
  | reject

/-- The client an event is about. -/
def LifeEvent.Concerns {ι : Type} (client : ι) : LifeEvent ι -> Prop
  | .attach other => other = client
  | .detach other => other = client
  | .rebind other _ => other = client
  | .reject => False

variable {generation : UInt32}

theorem toNat_lt_last (hlast : generation ≠ 0xffffffff) : generation.toNat < 2 ^ 32 - 1 := by
  have hne : generation.toNat ≠ 0xffffffff := fun h => hlast (UInt32.toNat_inj.mp h)
  have hlt := generation.toNat_lt
  omega

theorem toNat_succ (hlimit : generation.toNat < 2 ^ 32 - 1) :
    (generation + 1).toNat = generation.toNat + 1 := by
  rw [UInt32.toNat_add, UInt32.toNat_one]
  omega

theorem toNat_next (hlast : generation ≠ 0xffffffff) :
    (generation + 1).toNat = generation.toNat + 1 := toNat_succ (toNat_lt_last hlast)

variable {ι : Type} [DecidableEq ι]

theorem eq_of_update_ne {α : Type} {table : ι -> α} {i j : ι} {value : α}
    (hne : update table j value i ≠ table i) : j = i := by
  by_contra hdiff
  exact hne (update_of_ne (Ne.symm hdiff) value table)

inductive LifeStep (limit : Nat) :
    (ι -> ClientLife) -> LifeEvent ι -> (ι -> ClientLife) -> Prop where
  | attach {s : ι -> ClientLife} {client : ι} :
      (s client).phase = .fresh ->
      LifeStep limit s (.attach client)
        (update s client ⟨.attached, (s client).generation⟩)
  | detach {s : ι -> ClientLife} {client : ι} :
      LifeStep limit s (.detach client)
        (update s client ⟨.retired, (s client).generation⟩)
  | rebind {s : ι -> ClientLife} {client : ι} :
      (s client).phase = .retired -> (s client).generation < limit ->
      LifeStep limit s (.rebind client ((s client).generation + 1))
        (update s client ⟨.attached, (s client).generation + 1⟩)
  | reject {s : ι -> ClientLife} : LifeStep limit s .reject s

namespace LifeStep

variable {limit : Nat} {s s' : ι -> ClientLife} {event : LifeEvent ι} {client : ι}

theorem concerns (hstep : LifeStep limit s event s') (hchange : s' client ≠ s client) :
    event.Concerns client := by
  cases hstep with
  | attach _ => exact eq_of_update_ne hchange
  | detach => exact eq_of_update_ne hchange
  | rebind _ _ => exact eq_of_update_ne hchange
  | reject => exact absurd rfl hchange

/-- A retired client comes back only by a rebind to the next generation. -/
theorem reattached (hstep : LifeStep limit s event s')
    (hretired : (s client).phase = .retired) (hattached : (s' client).phase = .attached) :
    event = .rebind client ((s client).generation + 1) /\
      (s' client).generation = (s client).generation + 1 /\ (s client).generation < limit := by
  have hchange : s' client ≠ s client := by
    intro hsame
    rw [hsame, hretired] at hattached
    cases hattached
  have hconcerns := hstep.concerns hchange
  cases hstep with
  | attach hfresh =>
    cases hconcerns
    cases hfresh.symm.trans hretired
  | detach =>
    cases hconcerns
    rw [update_self] at hattached
    exact absurd hattached (by simp)
  | rebind hphase hlimit =>
    cases hconcerns
    exact ⟨rfl, by rw [update_self], hlimit⟩
  | reject => exact absurd rfl hchange

/-- The generation moves only when a retired client comes back. -/
theorem generation_moved (hstep : LifeStep limit s event s')
    (hmoved : (s' client).generation ≠ (s client).generation) :
    (s client).phase = .retired /\ (s' client).phase = .attached := by
  have hconcerns := hstep.concerns fun hsame => hmoved (by rw [hsame])
  cases hstep with
  | attach _ =>
    cases hconcerns
    exact absurd (by rw [update_self]) hmoved
  | detach =>
    cases hconcerns
    exact absurd (by rw [update_self]) hmoved
  | rebind hphase _ =>
    cases hconcerns
    exact ⟨hphase, by rw [update_self]⟩
  | reject => exact absurd rfl hmoved

end LifeStep

end AgentOs.Library
