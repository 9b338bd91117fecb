import Mathlib.Logic.Relation

/-!
# Programs that ask their environment

A component is embedded as a terminating tree of requests: every load, store, system call and
message is one request, and the tree continues with the answer.  A run records arbitrary
answers, so a statement about all runs covers every behaviour of the memory and of the other
parties.  Evaluation answers from a state and gives the sequential meaning.
-/

namespace AgentOs.Library

/-- The requests a program can make and the type of the answer to each. -/
structure Interface where
  Op : Type
  Ans : Op -> Type

/-- A program returns, or makes one request and continues with its answer. -/
inductive Prog (I : Interface) (α : Type) : Type where
  | ret (value : α) : Prog I α
  | op (request : I.Op) (next : I.Ans request -> Prog I α) : Prog I α

namespace Prog

variable {I : Interface} {α β γ σ : Type}

def bind : Prog I α -> (α -> Prog I β) -> Prog I β
  | .ret value, next => next value
  | .op request rest, next => .op request (fun answer => (rest answer).bind next)

instance : Monad (Prog I) where
  pure := .ret
  bind := Prog.bind

/-- The program that makes one request and returns its answer. -/
def perform (request : I.Op) : Prog I (I.Ans request) := .op request .ret

@[simp]
theorem pure_eq_ret (value : α) : (pure value : Prog I α) = .ret value := rfl

@[simp]
theorem ret_bind (value : α) (next : α -> Prog I β) : (Prog.ret value >>= next) = next value := rfl

@[simp]
theorem op_bind (request : I.Op) (rest : I.Ans request -> Prog I α) (next : α -> Prog I β) :
    (Prog.op request rest >>= next) = .op request (fun answer => rest answer >>= next) := rfl

@[simp]
theorem perform_bind (request : I.Op) (next : I.Ans request -> Prog I β) :
    (perform request >>= next) = .op request next := rfl

theorem bind_assoc (program : Prog I α) (first : α -> Prog I β) (second : β -> Prog I γ) :
    (program >>= first) >>= second = program >>= (fun value => first value >>= second) := by
  induction program with
  | ret value => rfl
  | op request rest ih =>
    simp only [op_bind]
    congr 1
    funext answer
    exact ih answer

/-! ## Runs -/

/-- One request together with the answer it received. -/
structure Event (I : Interface) where
  request : I.Op
  answer : I.Ans request

abbrev Trace (I : Interface) := List (Event I)

/-- A complete run: the requests in order with their answers, and the result. -/
inductive Run : Prog I α -> Trace I -> α -> Prop where
  | ret (value : α) : Run (.ret value) [] value
  | op {request : I.Op} {next : I.Ans request -> Prog I α} {answer : I.Ans request}
      {trace : Trace I} {value : α} :
      Run (next answer) trace value ->
      Run (.op request next) (⟨request, answer⟩ :: trace) value

variable {value : α} {trace : Trace I}

theorem run_ret_iff {result : α} :
    Run (.ret value : Prog I α) trace result ↔ trace = [] /\ result = value := by
  constructor
  · rintro ⟨⟩
    exact ⟨rfl, rfl⟩
  · rintro ⟨rfl, rfl⟩
    exact .ret _

variable {request : I.Op}

theorem run_op_iff {next : I.Ans request -> Prog I α} {result : α} :
    Run (.op request next) trace result ↔
      ∃ answer rest, trace = ⟨request, answer⟩ :: rest /\ Run (next answer) rest result := by
  constructor
  · rintro (_ | hrun)
    exact ⟨_, _, rfl, hrun⟩
  · rintro ⟨answer, rest, rfl, hrun⟩
    exact .op hrun

variable {program : Prog I α} {next : α -> Prog I β}

/-- A run of a sequence is a run of the first part followed by one of the second. -/
theorem run_bind_iff {result : β} : Run (program >>= next) trace result ↔
      ∃ first second value, trace = first ++ second /\
        Run program first value /\ Run (next value) second result := by
  induction program generalizing trace with
  | ret value =>
    rw [ret_bind]
    constructor
    · intro hrun
      exact ⟨[], trace, value, rfl, .ret value, hrun⟩
    · rintro ⟨first, second, middle, rfl, hfirst, hsecond⟩
      obtain ⟨rfl, rfl⟩ := run_ret_iff.mp hfirst
      exact hsecond
  | op request rest ih =>
    rw [op_bind, run_op_iff]
    constructor
    · rintro ⟨answer, tail, rfl, hrun⟩
      obtain ⟨first, second, middle, rfl, hfirst, hsecond⟩ := (ih answer).mp hrun
      exact ⟨⟨request, answer⟩ :: first, second, middle, rfl, .op hfirst, hsecond⟩
    · rintro ⟨first, second, middle, rfl, hfirst, hsecond⟩
      obtain ⟨answer, tail, rfl, htail⟩ := run_op_iff.mp hfirst
      exact ⟨answer, tail ++ second, rfl,
        (ih answer).mpr ⟨tail, second, middle, rfl, htail, hsecond⟩⟩

theorem run_bind_ret_iff {f : α -> β} {result : β} :
    Run (program >>= fun value => .ret (f value)) trace result ↔
      ∃ value, result = f value /\ Run program trace value := by
  rw [run_bind_iff]
  constructor
  · rintro ⟨first, second, value, rfl, hrun, hret⟩
    obtain ⟨rfl, rfl⟩ := run_ret_iff.mp hret
    exact ⟨value, rfl, by rwa [List.append_nil]⟩
  · rintro ⟨value, rfl, hrun⟩
    exact ⟨trace, [], value, (List.append_nil trace).symm, hrun, .ret _⟩

/-! ## Fixed answers -/

/-- The result when each request always gets the same answer. -/
def resolve (ans : (request : I.Op) -> I.Ans request) : Prog I α -> α
  | .ret value => value
  | .op request next => resolve ans (next (ans request))

variable (ans : (request : I.Op) -> I.Ans request)

@[simp]
theorem resolve_ret (value : α) : resolve ans (.ret value) = value := rfl

@[simp]
theorem resolve_bind (program : Prog I α) (next : α -> Prog I β) :
    resolve ans (program >>= next) = resolve ans (next (resolve ans program)) := by
  induction program with
  | ret value => rfl
  | op request rest ih => exact ih (ans request)

/-- The run in which each request gets that answer. -/
theorem run_resolve (program : Prog I α) : ∃ trace, Run program trace (resolve ans program) /\
      ∀ event ∈ trace, event.answer = ans event.request := by
  induction program with
  | ret value => exact ⟨[], .ret value, nofun⟩
  | op request rest ih =>
    obtain ⟨trace, hrun, hanswers⟩ := ih (ans request)
    exact ⟨⟨request, ans request⟩ :: trace, .op hrun, List.forall_mem_cons.mpr ⟨rfl, hanswers⟩⟩

/-- The request after `n` earlier ones, each with its fixed answer. -/
def requestAt (ans : (request : I.Op) -> I.Ans request) : Nat -> Prog I α -> Option I.Op
  | _, .ret _ => none
  | 0, .op request _ => some request
  | n + 1, .op request next => requestAt ans n (next (ans request))

theorem run_resolve_of_requestAt {n : Nat} (hrequest : requestAt ans n program = some request) :
    ∃ trace, Run program trace (resolve ans program) /\
      (∀ event ∈ trace, event.answer = ans event.request) /\ ⟨request, ans request⟩ ∈ trace := by
  induction program generalizing n with
  | ret value => cases n <;> exact absurd hrequest (by simp [requestAt])
  | op first rest ih =>
    cases n with
    | zero =>
      obtain ⟨trace, hrun, hanswers⟩ := run_resolve ans (rest (ans first))
      have hfirst : first = request := Option.some.inj hrequest
      exact ⟨⟨first, ans first⟩ :: trace, .op hrun,
        List.forall_mem_cons.mpr ⟨rfl, hanswers⟩, hfirst ▸ List.mem_cons_self⟩
    | succ n =>
      obtain ⟨trace, hrun, hanswers, hmem⟩ := ih (ans first) hrequest
      exact ⟨⟨first, ans first⟩ :: trace, .op hrun,
        List.forall_mem_cons.mpr ⟨rfl, hanswers⟩, List.mem_cons_of_mem _ hmem⟩

/-! ## What holds of every run -/

/-- Whatever answers satisfying `A` arrive, every request satisfies `P` and the
result satisfies `Q`. -/
def Ensures (A : (request : I.Op) -> I.Ans request -> Prop) (P : I.Op -> Prop)
    (Q : α -> Prop) : Prog I α -> Prop
  | .ret value => Q value
  | .op request next => P request /\ ∀ answer, A request answer -> Ensures A P Q (next answer)

/-- No assumption on the answers. -/
def anyAnswer (request : I.Op) (_ : I.Ans request) : Prop := True

section Ensures

variable {A : (request : I.Op) -> I.Ans request -> Prop} {P P' : I.Op -> Prop} {Q : α -> Prop}

@[simp]
theorem ensures_ret : Ensures A P Q (.ret value : Prog I α) ↔ Q value := Iff.rfl

@[simp]
theorem ensures_op {next : I.Ans request -> Prog I α} : Ensures A P Q (.op request next) ↔
      P request /\ ∀ answer, A request answer -> Ensures A P Q (next answer) := Iff.rfl

variable {R : β -> Prop}

theorem ensures_perform_bind {next : I.Ans request -> Prog I β} :
    Ensures A P R (perform request >>= next) ↔
      P request /\ ∀ answer, A request answer -> Ensures A P R (next answer) :=
  Iff.rfl

theorem Ensures.bind (hfirst : Ensures A P Q program)
    (hnext : ∀ value, Q value -> Ensures A P R (next value)) :
    Ensures A P R (program >>= next) := by
  induction program with
  | ret value => exact hnext value hfirst
  | op request rest ih =>
    exact ⟨hfirst.1, fun answer hanswer => ih answer (hfirst.2 answer hanswer)⟩

/-- The second part of a sequence is what the first part has to end in. -/
theorem ensures_bind_iff : Ensures A P R (program >>= next) ↔
      Ensures A P (fun value => Ensures A P R (next value)) program := by
  induction program with
  | ret value => exact Iff.rfl
  | op request rest ih =>
    rw [op_bind, ensures_op, ensures_op]
    exact and_congr_right fun _ => forall_congr' fun answer => imp_congr_right fun _ => ih answer

theorem Ensures.mono {R : α -> Prop} (hprogram : Ensures A P Q program)
    (hop : ∀ request, P request -> P' request) (hresult : ∀ value, Q value -> R value) :
    Ensures A P' R program := by
  induction program with
  | ret value => exact hresult value hprogram
  | op request rest ih =>
    exact ⟨hop request hprogram.1, fun answer hanswer => ih answer (hprogram.2 answer hanswer)⟩

theorem Ensures.weaken {R : α -> Prop} (hprogram : Ensures A P Q program)
    (hresult : ∀ value, Q value -> R value) :
    Ensures A P R program :=
  hprogram.mono (fun _ hop => hop) hresult

/-- A result that holds unconditionally needs no argument about the requests. -/
theorem Ensures.of_forall (hQ : ∀ value, Q value) : Ensures A (fun _ => True) Q program := by
  induction program with
  | ret value => exact hQ value
  | op request rest ih => exact ⟨trivial, fun answer _ => ih answer⟩

/-- A run whose answers meet the assumption makes only permitted requests and
returns a permitted result. -/
theorem Ensures.run (hprogram : Ensures A P Q program) (hrun : Run program trace value)
    (hanswers : ∀ event ∈ trace, A event.request event.answer) :
    (∀ event ∈ trace, P event.request) /\ Q value := by
  induction hrun with
  | ret value => exact ⟨nofun, hprogram⟩
  | op hrest ih =>
    obtain ⟨hhead, htail⟩ := List.forall_mem_cons.mp hanswers
    obtain ⟨hops, hvalue⟩ := ih (hprogram.2 _ hhead) htail
    exact ⟨List.forall_mem_cons.mpr ⟨hprogram.1, hops⟩, hvalue⟩

/-- When every request can be answered, the requests of all runs are all the requests. -/
theorem ensures_iff_runs (hanswer : ∀ request, ∃ answer, A request answer) :
    Ensures A P (fun _ => True) program ↔
      ∀ trace value, Run program trace value ->
        (∀ event ∈ trace, A event.request event.answer) -> ∀ event ∈ trace, P event.request := by
  constructor
  · intro hprogram trace value hrun hanswers
    exact (hprogram.run hrun hanswers).1
  · intro hruns
    induction program with
    | ret value => trivial
    | op request rest ih =>
      have hrest : ∀ answer, A request answer -> Ensures A P (fun _ => True) (rest answer) := by
        intro answer hA
        refine ih answer fun trace value hrun hanswers event hmem => ?_
        exact hruns _ value (.op hrun) (List.forall_mem_cons.mpr ⟨hA, hanswers⟩) event
          (List.mem_cons_of_mem _ hmem)
      refine ⟨?_, hrest⟩
      let ans := fun request => (hanswer request).choose
      have hans : ∀ request, A request (ans request) := fun request => (hanswer request).choose_spec
      obtain ⟨trace, hrun, hfixed⟩ := run_resolve ans (rest (ans request))
      refine hruns _ _ (.op hrun) (List.forall_mem_cons.mpr ⟨hans request, ?_⟩) ⟨request, _⟩
        List.mem_cons_self
      intro event hmem
      rw [hfixed event hmem]
      exact hans event.request

theorem Ensures.result (hprogram : Ensures anyAnswer P Q program) (hrun : Run program trace value) :
    Q value :=
  (hprogram.run hrun (fun _ _ => trivial)).2

theorem Ensures.requests (hprogram : Ensures anyAnswer P Q program)
    (hrun : Run program trace value) : ∀ event ∈ trace, P event.request :=
  (hprogram.run hrun (fun _ _ => trivial)).1

end Ensures

/-! ## Programs in a larger interface -/

/-- The program with its requests renamed into another interface. -/
def lift {J : Interface} (inject : I.Op -> J.Op)
    (back : (request : I.Op) -> J.Ans (inject request) -> I.Ans request) : Prog I α -> Prog J α
  | .ret value => .ret value
  | .op request next => .op (inject request) fun answer => lift inject back (next (back request answer))

/-- A run of the renamed program is a run of the program. -/
theorem run_lift {J : Interface} {inject : I.Op -> J.Op}
    {back : (request : I.Op) -> J.Ans (inject request) -> I.Ans request} {trace : Trace J}
    (hrun : Run (program.lift inject back) trace value) :
    (∃ original, Run program original value /\ ∀ event ∈ original, ∃ answer,
      ⟨inject event.request, answer⟩ ∈ trace /\ event.answer = back event.request answer) /\
    ∀ event ∈ trace, ∃ request, event.request = inject request := by
  induction program generalizing trace with
  | ret result =>
    obtain ⟨rfl, rfl⟩ := run_ret_iff.mp hrun
    exact ⟨⟨[], .ret _, nofun⟩, nofun⟩
  | op request rest ih =>
    obtain ⟨answer, tail, rfl, hrest⟩ := run_op_iff.mp hrun
    obtain ⟨⟨original, horiginal, hevents⟩, htail⟩ := ih _ hrest
    refine ⟨⟨_, .op horiginal, List.forall_mem_cons.mpr ⟨⟨answer, List.mem_cons_self, rfl⟩,
      fun event hmem => ?_⟩⟩, List.forall_mem_cons.mpr ⟨⟨request, rfl⟩, htail⟩⟩
    obtain ⟨other, hother, heq⟩ := hevents event hmem
    exact ⟨other, List.mem_cons_of_mem _ hother, heq⟩

theorem Ensures.lift {J : Interface} {inject : I.Op -> J.Op}
    {back : (request : I.Op) -> J.Ans (inject request) -> I.Ans request}
    {A : (request : I.Op) -> I.Ans request -> Prop} {P : I.Op -> Prop}
    {B : (request : J.Op) -> J.Ans request -> Prop} {R : J.Op -> Prop} {Q : α -> Prop}
    (hprogram : Ensures A P Q program) (hrequest : ∀ request, P request -> R (inject request))
    (hanswer : ∀ request answer, B (inject request) answer -> A request (back request answer)) :
    Ensures B R Q (program.lift inject back) := by
  induction program with
  | ret value => exact hprogram
  | op request next ih =>
    refine ⟨hrequest request hprogram.1, fun answer hB => ?_⟩
    exact ih _ (hprogram.2 _ (hanswer request answer hB))

/-! ## Properties of whole traces -/

/-- Every run leaves a trace with the property. -/
def AllTraces (T : Trace I -> Prop) (program : Prog I α) : Prop :=
  ∀ trace value, Run program trace value -> T trace

theorem allTraces_of_ensures {T : Trace I -> Prop} {P : I.Op -> Prop} {Q : α -> Prop}
    (hprogram : Ensures anyAnswer P Q program)
    (hT : ∀ trace : Trace I, (∀ event ∈ trace, P event.request) -> T trace) :
    AllTraces T program :=
  fun trace _ hrun => hT trace (hprogram.requests hrun)

/-! ## Ghost state along a run -/

/-- A state that follows the requests and answers of a run ends related to the
result. -/
def Tracks (step : σ -> Event I -> σ) (Q : α -> σ -> Prop) : Prog I α -> σ -> Prop
  | .ret value, s => Q value s
  | .op request next, s => ∀ answer, Tracks step Q (next answer) (step s ⟨request, answer⟩)

section Tracks

variable {step : σ -> Event I -> σ} {Q : α -> σ -> Prop} {s : σ}

theorem Tracks.bind {R : β -> σ -> Prop} (hfirst : Tracks step Q program s)
    (hnext : ∀ value s', Q value s' -> Tracks step R (next value) s') :
    Tracks step R (program >>= next) s := by
  induction program generalizing s with
  | ret value => exact hnext value s hfirst
  | op request rest ih => exact fun answer => ih answer (hfirst answer)

theorem tracks_bind_iff {R : β -> σ -> Prop} : Tracks step R (program >>= next) s ↔
      Tracks step (fun value s' => Tracks step R (next value) s') program s := by
  induction program generalizing s with
  | ret value => exact Iff.rfl
  | op request rest ih => exact forall_congr' fun answer => ih answer

theorem Tracks.mono {R : α -> σ -> Prop} (hprogram : Tracks step Q program s)
    (hresult : ∀ value s', Q value s' -> R value s') :
    Tracks step R program s := by
  induction program generalizing s with
  | ret value => exact hresult value s hprogram
  | op request rest ih => exact fun answer => ih answer (hprogram answer)

/-- Requests that the ghost state ignores leave it alone. -/
theorem tracks_of_ensures {P : I.Op -> Prop} {Q : α -> Prop}
    (hprogram : Ensures anyAnswer P Q program)
    (hquiet : ∀ request, P request -> ∀ answer, step s ⟨request, answer⟩ = s) :
    Tracks step (fun value s' => Q value /\ s' = s) program s := by
  induction program with
  | ret value => exact ⟨hprogram, rfl⟩
  | op request rest ih =>
    intro answer
    rw [hquiet request hprogram.1 answer]
    exact ih answer (hprogram.2 answer trivial)

theorem Tracks.run (hprogram : Tracks step Q program s) (hrun : Run program trace value) :
    Q value (trace.foldl step s) := by
  induction hrun generalizing s with
  | ret value => exact hprogram
  | op _ ih => exact ih (hprogram _)

theorem tracks_of_run (hruns : ∀ trace value, Run program trace value ->
    Q value (trace.foldl step s)) : Tracks step Q program s := by
  induction program generalizing s with
  | ret value => exact hruns [] value (.ret value)
  | op request next ih =>
    exact fun answer => ih answer fun trace value hrun => hruns _ value (.op hrun)

end Tracks

/-! ## Sequential evaluation -/

/-- Answer every request from a state that no other party touches. -/
def eval (handler : (request : I.Op) -> σ -> I.Ans request × σ) : Prog I α -> σ -> α × σ
  | .ret value, s => (value, s)
  | .op request next, s =>
    eval handler (next (handler request s).1) (handler request s).2

section Eval

variable {handler : (request : I.Op) -> σ -> I.Ans request × σ}

@[simp]
theorem eval_op (request : I.Op) (next : I.Ans request -> Prog I α) (s : σ) :
    eval handler (.op request next) s =
      eval handler (next (handler request s).1) (handler request s).2 := rfl

theorem eval_bind (program : Prog I α) (next : α -> Prog I β) (s : σ) :
    eval handler (program >>= next) s =
      eval handler (next (eval handler program s).1) (eval handler program s).2 := by
  induction program generalizing s with
  | ret value => rfl
  | op request rest ih => exact ih (handler request s).1 (handler request s).2

/-- The result of an evaluation and the state it ends in satisfy `Q`. -/
def EvalsTo (handler : (request : I.Op) -> σ -> I.Ans request × σ) (Q : α -> σ -> Prop)
    (program : Prog I α) (s : σ) : Prop :=
  Q (eval handler program s).1 (eval handler program s).2

variable {s : σ}

theorem evalsTo_bind {R : β -> σ -> Prop} :
    EvalsTo handler R (program >>= next) s ↔
      EvalsTo handler R (next (eval handler program s).1) (eval handler program s).2 := by
  unfold EvalsTo
  rw [eval_bind]

theorem EvalsTo.bind {Q : α -> σ -> Prop} {R : β -> σ -> Prop} (hfirst : EvalsTo handler Q program s)
    (hnext : ∀ value s', Q value s' -> EvalsTo handler R (next value) s') :
    EvalsTo handler R (program >>= next) s :=
  evalsTo_bind.mpr (hnext _ _ hfirst)

theorem EvalsTo.mono {Q R : α -> σ -> Prop} (hprogram : EvalsTo handler Q program s)
    (hresult : ∀ value s', Q value s' -> R value s') :
    EvalsTo handler R program s :=
  hresult _ _ hprogram

theorem run_eval (handler : (request : I.Op) -> σ -> I.Ans request × σ) (program : Prog I α)
    (s : σ) : ∃ trace, Run program trace (eval handler program s).1 := by
  induction program generalizing s with
  | ret value => exact ⟨[], .ret value⟩
  | op request rest ih =>
    obtain ⟨trace, hrun⟩ := ih (handler request s).1 (handler request s).2
    exact ⟨⟨request, (handler request s).1⟩ :: trace, .op hrun⟩

/-- Evaluation from a state that follows the run. -/
theorem run_eval_foldl (answer : (request : I.Op) -> σ -> I.Ans request) (step : σ -> Event I -> σ)
    (program : Prog I α) (s : σ) :
    ∃ trace, trace.foldl step s =
        (eval (fun request s => (answer request s, step s ⟨request, answer request s⟩)) program s).2
          /\
      Run program trace
        (eval (fun request s => (answer request s, step s ⟨request, answer request s⟩)) program s).1
          := by
  induction program generalizing s with
  | ret value => exact ⟨[], rfl, .ret value⟩
  | op request rest ih =>
    obtain ⟨trace, hstate, hrun⟩ := ih (answer request s) (step s ⟨request, answer request s⟩)
    exact ⟨⟨request, answer request s⟩ :: trace, hstate, .op hrun⟩

/-- The event after `n` earlier ones. -/
def eventAt (handler : (request : I.Op) -> σ -> I.Ans request × σ) :
    Nat -> Prog I α -> σ -> Option (Event I)
  | _, .ret _, _ => none
  | 0, .op request _, s => some ⟨request, (handler request s).1⟩
  | n + 1, .op request next, s =>
    eventAt handler n (next (handler request s).1) (handler request s).2

/-- An event seen during evaluation is in the trace of that run. -/
theorem run_eval_of_eventAt (handler : (request : I.Op) -> σ -> I.Ans request × σ) {n : Nat}
    {event : Event I} (hevent : eventAt handler n program s = some event) :
    ∃ trace, Run program trace (eval handler program s).1 /\ event ∈ trace := by
  induction program generalizing n s with
  | ret value => cases n <;> exact absurd hevent (by simp [eventAt])
  | op request rest ih =>
    cases n with
    | zero =>
      obtain ⟨trace, hrun⟩ := run_eval handler (rest (handler request s).1) (handler request s).2
      have hfirst : (⟨request, (handler request s).1⟩ : Event I) = event := Option.some.inj hevent
      exact ⟨_, .op hrun, hfirst ▸ List.mem_cons_self⟩
    | succ n =>
      obtain ⟨trace, hrun, hmem⟩ := ih _ hevent
      exact ⟨_, .op hrun, List.mem_cons_of_mem _ hmem⟩

end Eval

/-! ## Answers that a state allows -/

/-- A run against a state that decides which answers are possible and how it moves. -/
inductive Executes (exec : (request : I.Op) -> σ -> I.Ans request -> σ -> Prop) :
    Prog I α -> σ -> α -> σ -> Prop where
  | ret (value : α) (s : σ) : Executes exec (.ret value) s value s
  | op {request : I.Op} {next : I.Ans request -> Prog I α} {answer : I.Ans request}
      {s s' s'' : σ} {value : α} :
      exec request s answer s' -> Executes exec (next answer) s' value s'' ->
      Executes exec (.op request next) s value s''

/-- Every such run ends in a result and a state with the property. -/
def Establishes (exec : (request : I.Op) -> σ -> I.Ans request -> σ -> Prop)
    (Q : α -> σ -> Prop) : Prog I α -> σ -> Prop
  | .ret value, s => Q value s
  | .op request next, s =>
    ∀ answer s', exec request s answer s' -> Establishes exec Q (next answer) s'

section Establishes

variable {exec : (request : I.Op) -> σ -> I.Ans request -> σ -> Prop} {Q : α -> σ -> Prop} {s : σ}

theorem Establishes.executes {s' : σ} (hprogram : Establishes exec Q program s)
    (hrun : Executes exec program s value s') :
    Q value s' := by
  induction hrun with
  | ret value s => exact hprogram
  | op hexec _ ih => exact ih (hprogram _ _ hexec)

theorem Establishes.bind {R : β -> σ -> Prop} (hfirst : Establishes exec Q program s)
    (hnext : ∀ value s', Q value s' -> Establishes exec R (next value) s') :
    Establishes exec R (program >>= next) s := by
  induction program generalizing s with
  | ret value => exact hnext value s hfirst
  | op request rest ih => exact fun answer s' hexec => ih answer (hfirst answer s' hexec)

theorem Establishes.and {R : α -> σ -> Prop} (hfirst : Establishes exec Q program s)
    (hsecond : Establishes exec R program s) :
    Establishes exec (fun value s' => Q value s' /\ R value s') program s := by
  induction program generalizing s with
  | ret value => exact ⟨hfirst, hsecond⟩
  | op request rest ih =>
    exact fun answer s' hexec => ih answer (hfirst answer s' hexec) (hsecond answer s' hexec)

/-- Fewer answers, fewer runs. -/
theorem Establishes.restrict {exec' : (request : I.Op) -> σ -> I.Ans request -> σ -> Prop}
    (hexec : ∀ request s answer s', exec' request s answer s' -> exec request s answer s')
    (hprogram : Establishes exec Q program s) :
    Establishes exec' Q program s := by
  induction program generalizing s with
  | ret value => exact hprogram
  | op request rest ih =>
    exact fun answer s' h => ih answer (hprogram answer s' (hexec request s answer s' h))

theorem Establishes.mono {R : α -> σ -> Prop} (hprogram : Establishes exec Q program s)
    (hresult : ∀ value s', Q value s' -> R value s') :
    Establishes exec R program s := by
  induction program generalizing s with
  | ret value => exact hresult value s hprogram
  | op request rest ih => exact fun answer s' hexec => ih answer (hprogram answer s' hexec)

end Establishes

end Prog

end AgentOs.Library
