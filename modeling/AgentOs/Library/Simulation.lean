import AgentOs.Library.Program

/-!
# Simulation of one program by another

Two programs are evaluated, each by its own handler from its own state.  They simulate each
other along a relation if they take related states to related states, with related results.
-/

namespace AgentOs.Library.Prog

variable {I : Interface} {α β α' β' σ₁ σ₂ : Type}

/-- From related states both programs reach related states. -/
def Sim (first : (request : I.Op) -> σ₁ -> I.Ans request × σ₁)
    (second : (request : I.Op) -> σ₂ -> I.Ans request × σ₂) (R : σ₁ -> σ₂ -> Prop)
    (Q : α -> β -> Prop) (p1 : Prog I α) (p2 : Prog I β) : Prop :=
  ∀ s1 s2, R s1 s2 -> Q (eval first p1 s1).1 (eval second p2 s2).1 /\
    R (eval first p1 s1).2 (eval second p2 s2).2

variable {first : (request : I.Op) -> σ₁ -> I.Ans request × σ₁}
  {second : (request : I.Op) -> σ₂ -> I.Ans request × σ₂} {R : σ₁ -> σ₂ -> Prop} {Q : α -> β -> Prop}

theorem sim_ret {a : α} {b : β} (h : Q a b) : Sim first second R Q (.ret a) (.ret b) :=
  fun _ _ hs => ⟨h, hs⟩

theorem Sim.bind {Q' : α' -> β' -> Prop} {p1 : Prog I α} {p2 : Prog I β} {next1 : α -> Prog I α'}
    {next2 : β -> Prog I β'} (hfirst : Sim first second R Q p1 p2)
    (hnext : ∀ a b, Q a b -> Sim first second R Q' (next1 a) (next2 b)) :
    Sim first second R Q' (p1 >>= next1) (p2 >>= next2) := by
  intro s1 s2 hs
  obtain ⟨hvalue, hstate⟩ := hfirst s1 s2 hs
  rw [eval_bind, eval_bind]
  exact hnext _ _ hvalue _ _ hstate

/-- A request of the first program that changes nothing may have no counterpart. -/
theorem sim_skip_left {request : I.Op} {a : I.Ans request} {next : I.Ans request -> Prog I α}
    {p2 : Prog I β} (hskip : ∀ s, first request s = (a, s))
    (hnext : Sim first second R Q (next a) p2) :
    Sim first second R Q (.op request next) p2 := by
  intro s1 s2 hs
  rw [eval_op, hskip]
  exact hnext s1 s2 hs

/-- A program simulates itself if its requests get the same answers on both sides. -/
theorem sim_self {P : I.Op -> Prop} {Q : α -> Prop} {program : Prog I α}
    (hprogram : Ensures anyAnswer P Q program)
    (hsame : ∀ request s1 s2, P request -> R s1 s2 ->
      (first request s1).1 = (second request s2).1 /\ R (first request s1).2 (second request s2).2) :
    Sim first second R (fun a b => a = b /\ Q a) program program := by
  induction program with
  | ret value => exact sim_ret ⟨rfl, hprogram⟩
  | op request rest ih =>
    intro s1 s2 hs
    obtain ⟨hanswer, hstate⟩ := hsame request s1 s2 hprogram.1 hs
    rw [eval_op, eval_op, <- hanswer]
    exact ih _ (hprogram.2 _ trivial) _ _ hstate

end AgentOs.Library.Prog
