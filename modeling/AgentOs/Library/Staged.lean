import AgentOs.Library.Program

/-!
# Programs that stop at the first failure

A sequence of steps over a state, in which a step can fail.  A failure ends the sequence
and keeps the state as it stands, so that what comes after can undo the steps that were
made.  The logic speaks of the whole trace since the sequence began.
-/

namespace AgentOs.Library

/-- Steps over a state `σ` that stop with an `ε`. -/
def Staged (I : Interface) (σ ε α : Type) : Type := σ -> Prog I (Except ε α × σ)

namespace Staged

variable {I : Interface} {σ ε α β : Type}

def bind (m : Staged I σ ε α) (f : α -> Staged I σ ε β) : Staged I σ ε β := fun s =>
  Prog.bind (m s) fun
    | (.ok value, s') => f value s'
    | (.error failure, s') => .ret (.error failure, s')

instance : Monad (Staged I σ ε) where
  pure value := fun s => .ret (.ok value, s)
  bind := Staged.bind

def fail (failure : ε) : Staged I σ ε α := fun s => .ret (.error failure, s)

def read : Staged I σ ε σ := fun s => .ret (.ok s, s)

def change (f : σ -> σ) : Staged I σ ε Unit := fun s => .ret (.ok (), f s)

/-- One request, whose answer is the result. -/
def ask (request : I.Op) : Staged I σ ε (I.Ans request) := fun s =>
  .op request fun answer => .ret (.ok answer, s)

theorem bind_apply (m : Staged I σ ε α) (f : α -> Staged I σ ε β) (s : σ) : (m >>= f) s = m s >>= fun
      | (.ok value, s') => f value s'
      | (.error failure, s') => .ret (.error failure, s') := rfl

/-! ## Every run -/

/-- Whatever is answered after the trace so far, the outcome, the state and the trace
satisfy `Q`. -/
def Meets (Q : Except ε α -> σ -> Prog.Trace I -> Prop) (m : Staged I σ ε α) (s : σ)
    (before : Prog.Trace I) : Prop :=
  ∀ trace outcome s', Prog.Run (m s) trace (outcome, s') -> Q outcome s' (before ++ trace)

section Meets

variable {Q R : Except ε α -> σ -> Prog.Trace I -> Prop} {s : σ} {before : Prog.Trace I}

theorem meets_pure {value : α} (h : Q (.ok value) s before) :
    Meets Q (pure value : Staged I σ ε α) s before := by
  intro trace outcome s' hrun
  obtain ⟨rfl, ⟨⟩⟩ := Prog.run_ret_iff.mp hrun
  rwa [List.append_nil]

theorem meets_fail {failure : ε} (h : Q (.error failure) s before) :
    Meets Q (fail failure : Staged I σ ε α) s before := by
  intro trace outcome s' hrun
  obtain ⟨rfl, ⟨⟩⟩ := Prog.run_ret_iff.mp hrun
  rwa [List.append_nil]

theorem meets_read_bind {f : σ -> Staged I σ ε α} (h : Meets Q (f s) s before) :
    Meets Q (read >>= f) s before := h

theorem meets_change_bind {g : σ -> σ} {f : Unit -> Staged I σ ε α}
    (h : Meets Q (f ()) (g s) before) : Meets Q (change g >>= f) s before := h

theorem meets_ask_bind {request : I.Op} {f : I.Ans request -> Staged I σ ε α}
    (h : ∀ answer, Meets Q (f answer) s (before ++ [⟨request, answer⟩])) :
    Meets Q (ask request >>= f) s before := by
  intro trace outcome s' hrun
  obtain ⟨answer, rest, rfl, hrest⟩ := Prog.run_op_iff.mp hrun
  have hQ := h answer rest outcome s' hrest
  rwa [List.append_assoc] at hQ

/-- The steps after the first start where it ended, unless it failed. -/
theorem Meets.bind {Q : Except ε β -> σ -> Prog.Trace I -> Prop} {m : Staged I σ ε α}
    {f : α -> Staged I σ ε β} (hfirst : Meets R m s before)
    (hok : ∀ value s' trace, R (.ok value) s' trace -> Meets Q (f value) s' trace)
    (herror : ∀ failure s' trace, R (.error failure) s' trace -> Q (.error failure) s' trace) :
    Meets Q (m >>= f) s before := by
  intro trace outcome s' hrun
  rw [bind_apply] at hrun
  obtain ⟨first, second, ⟨middle, s1⟩, rfl, hrun, hrest⟩ := Prog.run_bind_iff.mp hrun
  have hmiddle := hfirst first middle s1 hrun
  cases middle with
  | ok value =>
    rw [<- List.append_assoc]
    exact hok value s1 _ hmiddle second outcome s' hrest
  | error failure =>
    obtain ⟨rfl, ⟨⟩⟩ := Prog.run_ret_iff.mp hrest
    rw [List.append_nil]
    exact herror failure s' _ hmiddle

theorem Meets.mono {m : Staged I σ ε α} (h : Meets R m s before)
    (himp : ∀ outcome s' trace, R outcome s' trace -> Q outcome s' trace) :
    Meets Q m s before :=
  fun trace outcome s' hrun => himp outcome s' _ (h trace outcome s' hrun)

end Meets

/-! ## Some run -/

/-- There are answers with which the outcome and the state satisfy `Q`. -/
def Reaches (Q : Except ε α -> σ -> Prop) (m : Staged I σ ε α) (s : σ) : Prop :=
  ∃ trace outcome s', Prog.Run (m s) trace (outcome, s') /\ Q outcome s'

section Reaches

variable {Q R : Except ε α -> σ -> Prop} {s : σ}

theorem reaches_pure {value : α} (h : Q (.ok value) s) :
    Reaches Q (pure value : Staged I σ ε α) s :=
  ⟨[], _, _, .ret _, h⟩

theorem reaches_fail {failure : ε} (h : Q (.error failure) s) :
    Reaches Q (fail failure : Staged I σ ε α) s :=
  ⟨[], _, _, .ret _, h⟩

theorem reaches_read_bind {f : σ -> Staged I σ ε α} (h : Reaches Q (f s) s) :
    Reaches Q (read >>= f) s := h

theorem reaches_change_bind {g : σ -> σ} {f : Unit -> Staged I σ ε α}
    (h : Reaches Q (f ()) (g s)) : Reaches Q (change g >>= f) s := h

theorem reaches_ask_bind {request : I.Op} {f : I.Ans request -> Staged I σ ε α}
    (answer : I.Ans request) (h : Reaches Q (f answer) s) : Reaches Q (ask request >>= f) s := by
  obtain ⟨trace, outcome, s', hrun, hQ⟩ := h
  exact ⟨⟨request, answer⟩ :: trace, outcome, s', .op hrun, hQ⟩

theorem Reaches.bind {Q : Except ε β -> σ -> Prop} {m : Staged I σ ε α}
    {f : α -> Staged I σ ε β} (hfirst : Reaches R m s)
    (hok : ∀ value s', R (.ok value) s' -> Reaches Q (f value) s')
    (herror : ∀ failure s', R (.error failure) s' -> Q (.error failure) s') :
    Reaches Q (m >>= f) s := by
  obtain ⟨first, outcome, s1, hrun, hR⟩ := hfirst
  cases outcome with
  | ok value =>
    obtain ⟨second, outcome, s2, hrest, hQ⟩ := hok value s1 hR
    refine ⟨first ++ second, outcome, s2, ?_, hQ⟩
    rw [bind_apply]
    exact Prog.run_bind_iff.mpr ⟨first, second, (.ok value, s1), rfl, hrun, hrest⟩
  | error failure =>
    refine ⟨first, .error failure, s1, ?_, herror failure s1 hR⟩
    rw [bind_apply]
    exact Prog.run_bind_iff.mpr
      ⟨first, [], (.error failure, s1), (List.append_nil first).symm, hrun, .ret _⟩

theorem Reaches.mono {m : Staged I σ ε α} (h : Reaches R m s)
    (himp : ∀ outcome s', R outcome s' -> Q outcome s') : Reaches Q m s := by
  obtain ⟨trace, outcome, s', hrun, hR⟩ := h
  exact ⟨trace, outcome, s', hrun, himp outcome s' hR⟩

end Reaches

end Staged

end AgentOs.Library
