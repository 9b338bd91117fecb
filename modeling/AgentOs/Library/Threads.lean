import AgentOs.Library.Program
import Mathlib.Logic.Function.Basic

/-!
# Threads that share a state

Each thread makes calls, one after the other, and every request of a call is one atomic step;
steps of different threads come in any order.  The proof rule is rely and guarantee: a relation
for each thread says what its steps may do, and a thread's own argument uses only assertions
that the other relations keep.  `reach_covered` turns this into a statement about all reachable
configurations.
-/

open Function (forall_update_iff update update_idem update_self)

namespace AgentOs.Library

open Relation

/-- What a thread is doing: between two calls, with its private state, or in a call. -/
inductive Activity (I : Interface) (Own Call Res : Type) : Type where
  | idle (own : Own) : Activity I Own Call Res
  | running (call : Call) (program : Prog I (Res × Own)) : Activity I Own Call Res

/-- The calls a thread may make, their programs, how a request acts on the shared state,
and what is noted there when a call returns. -/
structure Threads (I : Interface) (ι : Type) (Own Call Res : ι -> Type) (σ : Type) where
  exec : ι -> (request : I.Op) -> σ -> I.Ans request -> σ -> Prop
  enter : (i : ι) -> Own i -> Call i -> σ -> Prop
  code : (i : ι) -> Own i -> Call i -> Prog I (Res i × Own i)
  finish : (i : ι) -> Call i -> Res i -> σ -> σ

namespace Threads

variable {I : Interface} {ι : Type} {Own Call Res : ι -> Type} {σ α β : Type}

abbrev Acts (I : Interface) {ι : Type} (Own Call Res : ι -> Type) : Type :=
  (i : ι) -> Activity I (Own i) (Call i) (Res i)

section Steps

variable [DecidableEq ι] (T : Threads I ι Own Call Res σ)

/-- A thread goes on with the rest of its call, or returns from it. -/
def resume (acts : Acts I Own Call Res) (i : ι) (call : Call i) :
    Prog I (Res i × Own i) -> σ -> Acts I Own Call Res × σ
  | .ret (res, own), s => (update acts i (.idle own), T.finish i call res s)
  | .op request next, s => (update acts i (.running call (.op request next)), s)

inductive Step : Acts I Own Call Res × σ -> Acts I Own Call Res × σ -> Prop where
  | start {acts : Acts I Own Call Res} {s : σ} {i : ι} {own : Own i} {call : Call i} :
      acts i = .idle own -> T.enter i own call s ->
      Step (acts, s) (T.resume acts i call (T.code i own call) s)
  | op {acts : Acts I Own Call Res} {s s' : σ} {i : ι} {call : Call i} {request : I.Op}
      {next : I.Ans request -> Prog I (Res i × Own i)} {answer : I.Ans request} :
      acts i = .running call (.op request next) -> T.exec i request s answer s' ->
      Step (acts, s) (T.resume acts i call (next answer) s')

/-- Reachability by any interleaving. -/
def Reach : Acts I Own Call Res × σ -> Acts I Own Call Res × σ -> Prop := ReflTransGen T.Step

variable {T} in
/-- What differs at the end of a run changed in one of its steps. -/
theorem exists_step_of_ne {β : Type*} (f : Acts I Own Call Res × σ -> β)
    {config config' : Acts I Own Call Res × σ} (hreach : T.Reach config config')
    (hne : f config' ≠ f config) : ∃ c d, T.Reach config c /\ T.Step c d /\ f d ≠ f c := by
  induction hreach with
  | refl => exact absurd rfl hne
  | @tail c d hbefore hstep ih =>
    by_cases heq : f d = f c
    · exact ih (heq ▸ hne)
    · exact ⟨c, d, hbefore, hstep, heq⟩

end Steps

/-! ## Rely and guarantee -/

/-- What each thread may request, and what its steps may do to the shared state. -/
structure Contract (I : Interface) (ι σ : Type) where
  may : ι -> I.Op -> σ -> Prop
  step : ι -> σ -> σ -> Prop

section Rules

variable (T : Threads I ι Own Call Res σ) (K : Contract I ι σ)

/-- A step of one of the other threads. -/
def rely (i : ι) (s s' : σ) : Prop := ∃ j, j ≠ i /\ K.step j s s'

/-- An assertion that the other threads keep. -/
def Stable (i : ι) (A : σ -> Prop) : Prop := ∀ s s', rely K i s s' -> A s -> A s'

/-- The next request may be made whenever its turn comes, and the program goes on well. -/
def Proceeds (i : ι) (request : I.Op) (s : σ) (after : I.Ans request -> σ -> σ -> Prop) : Prop :=
  ∀ s1, ReflTransGen (rely K i) s s1 ->
    K.may i request s1 /\ ∀ answer s2, T.exec i request s1 answer s2 -> after answer s1 s2

/-- The rest of a program, after a step from `s0`: it keeps the contract, and `Q` relates
the state before the last step, the result and the state after. -/
def Within (i : ι) (Q : σ -> α -> σ -> Prop) : Prog I α -> σ -> σ -> Prop
  | .ret value, s0, s => Q s0 value s
  | .op request next, s0, s => K.step i s0 s /\
      Proceeds T K i request s fun answer => Within i Q (next answer)

/-- The call returns by a permitted step and leaves the thread's idle assertion. -/
def Returns (J : (i : ι) -> Own i -> σ -> Prop) (i : ι) (call : Call i) (s0 : σ)
    (result : Res i × Own i) (s : σ) : Prop :=
  K.step i s0 (T.finish i call result.1 s) /\ J i result.2 (T.finish i call result.1 s)

/-- What the proof attaches to a thread. -/
def Covered (J : (i : ι) -> Own i -> σ -> Prop) (i : ι) :
    Activity I (Own i) (Call i) (Res i) -> σ -> Prop
  | .idle own, s => J i own s
  | .running call (.op request next), s =>
    Proceeds T K i request s fun answer => Within T K i (Returns T K J i call) (next answer)
  | .running _ (.ret _), _ => False

variable {T K} {A : σ -> Prop} {s : σ} {i : ι}

theorem Stable.star (hstable : Stable K i A) {s' : σ} (hsteps : ReflTransGen (rely K i) s s')
    (hs : A s) : A s' := by
  induction hsteps with
  | refl => exact hs
  | tail _ hstep ih => exact hstable _ _ hstep ih

theorem Stable.and {B : σ -> Prop} (hA : Stable K i A) (hB : Stable K i B) :
    Stable K i (fun s => A s /\ B s) :=
  fun s s' hrely hs => ⟨hA s s' hrely hs.1, hB s s' hrely hs.2⟩

variable {s0 : σ}

theorem within_op {Q : σ -> α -> σ -> Prop} {request : I.Op} {next : I.Ans request -> Prog I α}
    (hstep : K.step i s0 s) (hstable : Stable K i A) (hs : A s)
    (hmay : ∀ s1, A s1 -> K.may i request s1)
    (hnext : ∀ s1 answer s2, A s1 -> T.exec i request s1 answer s2 ->
      Within T K i Q (next answer) s1 s2) :
    Within T K i Q (.op request next) s0 s := by
  refine ⟨hstep, fun s1 hsteps => ?_⟩
  have hA := hstable.star hsteps hs
  exact ⟨hmay s1 hA, fun answer s2 hexec => hnext s1 answer s2 hA hexec⟩

variable {program : Prog I α}

theorem within_bind {Q : σ -> β -> σ -> Prop} {next : α -> Prog I β}
    (h : Within T K i (fun s0 value s => Within T K i Q (next value) s0 s) program s0 s) :
    Within T K i Q (program >>= next) s0 s := by
  induction program generalizing s0 s with
  | ret value => exact h
  | op request rest ih =>
    refine ⟨h.1, fun s1 hsteps => ⟨(h.2 s1 hsteps).1, fun answer s2 hexec => ?_⟩⟩
    exact ih answer ((h.2 s1 hsteps).2 answer s2 hexec)

theorem Within.mono {Q R : σ -> α -> σ -> Prop} (h : Within T K i Q program s0 s)
    (himp : ∀ s0 value s, Q s0 value s -> R s0 value s) : Within T K i R program s0 s := by
  induction program generalizing s0 s with
  | ret value => exact himp s0 value s h
  | op request rest ih =>
    refine ⟨h.1, fun s1 hsteps => ⟨(h.2 s1 hsteps).1, fun answer s2 hexec => ?_⟩⟩
    exact ih answer ((h.2 s1 hsteps).2 answer s2 hexec)

/-- A program all of whose requests keep one assertion. -/
theorem within_of_ensures {Ok : (request : I.Op) -> I.Ans request -> Prop} {P : I.Op -> Prop}
    {Q : α -> Prop} (hprogram : Prog.Ensures Ok P Q program) (hstable : Stable K i A)
    (hmay : ∀ request s, P request -> A s -> K.may i request s)
    (hkeep : ∀ request s answer s', P request -> A s -> T.exec i request s answer s' ->
      Ok request answer /\ K.step i s s' /\ A s')
    (hstep : K.step i s0 s) (hs : A s) :
    Within T K i (fun s0 value s => K.step i s0 s /\ A s /\ Q value) program s0 s := by
  induction program generalizing s0 s with
  | ret value => exact ⟨hstep, hs, hprogram⟩
  | op request rest ih =>
    obtain ⟨hP, hrest⟩ := hprogram
    refine within_op hstep hstable hs (fun s1 hA => hmay request s1 hP hA) ?_
    intro s1 answer s2 hA hexec
    obtain ⟨hok, hnext, hA2⟩ := hkeep request s1 answer s2 hP hA hexec
    exact ih answer (hrest answer hok) hnext hA2

end Rules

/-! ## Whole runs -/

section Runs

variable {T : Threads I ι Own Call Res σ} {K : Contract I ι σ} {J : (i : ι) -> Own i -> σ -> Prop}
  {s : σ}

/-- A thread that another thread's step passes by. -/
theorem Covered.rely {i : ι} {act : Activity I (Own i) (Call i) (Res i)} {s' : σ}
    (hstable : ∀ own, Stable K i (J i own)) (hcovered : Covered T K J i act s)
    (hrely : Threads.rely K i s s') : Covered T K J i act s' := by
  match act, hcovered with
  | .idle own, hcovered => exact hstable own s s' hrely hcovered
  | .running call (.op request next), hcovered =>
    exact fun s1 hsteps => hcovered s1 (.head hrely hsteps)

/-- What every thread's steps keep is kept by a run. -/
theorem steps_keep {Inv : σ -> Prop} (hkeep : ∀ i s s', K.step i s s' -> Inv s -> Inv s') {s' : σ}
    (hsteps : ReflTransGen (fun s s' => ∃ i, K.step i s s') s s') (hs : Inv s) : Inv s' := by
  induction hsteps with
  | refl => exact hs
  | tail _ hstep ih =>
    obtain ⟨i, hmove⟩ := hstep
    exact hkeep i _ _ hmove ih

/-- A covered thread may make the request it is about to make. -/
theorem Covered.may {i : ι} {call : Call i} {request : I.Op}
    {next : I.Ans request -> Prog I (Res i × Own i)}
    (hcovered : Covered T K J i (.running call (.op request next)) s) : K.may i request s :=
  (hcovered s .refl).1

variable [DecidableEq ι]

/-- The thread that moves makes a permitted step, and every thread stays covered. -/
theorem covered_resume (hstable : ∀ i own, Stable K i (J i own)) {acts : Acts I Own Call Res}
    {s0 : σ} {i : ι} {call : Call i} {program : Prog I (Res i × Own i)}
    (hothers : ∀ j, j ≠ i -> Covered T K J j (acts j) s0)
    (hwithin : Within T K i (Returns T K J i call) program s0 s) :
    K.step i s0 (T.resume acts i call program s).2 /\
      ∀ j, Covered T K J j ((T.resume acts i call program s).1 j)
        (T.resume acts i call program s).2 := by
  have hrely {s' : σ} (hstep : K.step i s0 s') (j : ι) (hj : j ≠ i) :
      Covered T K J j (acts j) s' :=
    (hothers j hj).rely (hstable j) ⟨i, Ne.symm hj, hstep⟩
  cases program with
  | ret result =>
    obtain ⟨hstep, hidle⟩ := hwithin
    exact ⟨hstep, (forall_update_iff acts fun j act => Covered T K J j act _).mpr
      ⟨hidle, hrely hstep⟩⟩
  | op request next =>
    obtain ⟨hstep, hrest⟩ := hwithin
    exact ⟨hstep, (forall_update_iff acts fun j act => Covered T K J j act _).mpr
      ⟨hrest, hrely hstep⟩⟩

theorem covered_step (hstable : ∀ i own, Stable K i (J i own))
    (hstart : ∀ i own call s, J i own s -> T.enter i own call s ->
      Within T K i (Returns T K J i call) (T.code i own call) s s)
    {config config' : Acts I Own Call Res × σ} (hstep : T.Step config config')
    (hcovered : ∀ i, Covered T K J i (config.1 i) config.2) :
    (∃ i, K.step i config.2 config'.2) /\ ∀ i, Covered T K J i (config'.1 i) config'.2 := by
  cases hstep with
  | @start acts s i own call hidle henter =>
    have hown := hcovered i
    simp only [hidle] at hown
    obtain ⟨hmove, hall⟩ := covered_resume hstable (fun j _ => hcovered j)
      (hstart i own call s hown henter)
    exact ⟨⟨i, hmove⟩, hall⟩
  | @op acts s s' i call request next answer hrunning hexec =>
    have hown := hcovered i
    simp only [hrunning] at hown
    obtain ⟨hmove, hall⟩ := covered_resume hstable (fun j _ => hcovered j)
      ((hown s .refl).2 answer s' hexec)
    exact ⟨⟨i, hmove⟩, hall⟩

/-- Every thread stays covered in every run, and what all threads' steps keep is kept. -/
theorem reach_covered (hstable : ∀ i own, Stable K i (J i own))
    (hstart : ∀ i own call s, J i own s -> T.enter i own call s ->
      Within T K i (Returns T K J i call) (T.code i own call) s s)
    {config config' : Acts I Own Call Res × σ} (hreach : T.Reach config config')
    (hcovered : ∀ i, Covered T K J i (config.1 i) config.2) :
    ReflTransGen (fun s s' => ∃ i, K.step i s s') config.2 config'.2 /\
      ∀ i, Covered T K J i (config'.1 i) config'.2 := by
  induction hreach with
  | refl => exact ⟨.refl, hcovered⟩
  | tail _ hstep ih =>
    obtain ⟨hmove, hall⟩ := covered_step hstable hstart hstep ih.2
    exact ⟨ih.1.tail hmove, hall⟩

end Runs

/-! ## Runs under a condition -/

section Restrict

variable (T : Threads I ι Own Call Res σ)

/-- The same threads, in runs whose steps all meet a condition. -/
def restrict (condition : ι -> I.Op -> σ -> Prop) : Threads I ι Own Call Res σ where
  exec i request s answer s' := condition i request s /\ T.exec i request s answer s'
  enter := T.enter
  code := T.code
  finish := T.finish

variable {T} [DecidableEq ι] {condition : ι -> I.Op -> σ -> Prop}
  {config config' : Acts I Own Call Res × σ}

theorem resume_restrict (acts : Acts I Own Call Res) (i : ι) (call : Call i)
    (program : Prog I (Res i × Own i)) (s : σ) :
    (T.restrict condition).resume acts i call program s = T.resume acts i call program s := by
  cases program with
  | ret result => rfl
  | op request next => rfl

theorem step_restrict (hcondition : ∀ i request s, condition i request s)
    (hstep : T.Step config config') : (T.restrict condition).Step config config' := by
  cases hstep with
  | start hidle henter =>
    rw [<- resume_restrict]
    exact .start hidle henter
  | op hrunning hexec =>
    rw [<- resume_restrict]
    exact .op hrunning ⟨hcondition _ _ _, hexec⟩

/-- A condition that always holds restricts nothing. -/
theorem reach_restrict (hcondition : ∀ i request s, condition i request s)
    (hreach : T.Reach config config') : (T.restrict condition).Reach config config' := by
  induction hreach with
  | refl => exact .refl
  | tail _ hstep ih => exact ih.tail (step_restrict hcondition hstep)

end Restrict

/-! ## Schedules -/

section Schedules

variable [DecidableEq ι] (T : Threads I ι Own Call Res σ) {ω : Type}

/-- One turn of a schedule.  An oracle settles the answers that the state leaves open. -/
inductive Turn (ι : Type) (Call : ι -> Type) (ω : Type) : Type where
  | start (i : ι) (call : Call i) : Turn ι Call ω
  | op (i : ι) (oracle : ω) : Turn ι Call ω

/-- One turn, if the thread can take it. -/
def take (answer : ω -> (i : ι) -> (request : I.Op) -> σ -> Option (I.Ans request × σ))
    (mayEnter : (i : ι) -> Own i -> Call i -> σ -> Bool) :
    Turn ι Call ω -> Acts I Own Call Res × σ -> Option (Acts I Own Call Res × σ)
  | .start i call, (acts, s) =>
    match acts i with
    | .idle own =>
      if mayEnter i own call s then some (T.resume acts i call (T.code i own call) s)
      else none
    | .running _ _ => none
  | .op i oracle, (acts, s) =>
    match acts i with
    | .running call (.op request next) =>
      match answer oracle i request s with
      | some (ans, s') => some (T.resume acts i call (next ans) s')
      | none => none
    | _ => none

def play (answer : ω -> (i : ι) -> (request : I.Op) -> σ -> Option (I.Ans request × σ))
    (mayEnter : (i : ι) -> Own i -> Call i -> σ -> Bool) :
    List (Turn ι Call ω) -> Acts I Own Call Res × σ -> Option (Acts I Own Call Res × σ)
  | [], config => some config
  | turn :: rest, config =>
    match T.take answer mayEnter turn config with
    | some config' => play answer mayEnter rest config'
    | none => none

variable {T} {answer : ω -> (i : ι) -> (request : I.Op) -> σ -> Option (I.Ans request × σ)}
  {mayEnter : (i : ι) -> Own i -> Call i -> σ -> Bool}

section

variable (hanswer : ∀ oracle i request s ans s', answer oracle i request s = some (ans, s') ->
  T.exec i request s ans s') (henter : ∀ i own call s, mayEnter i own call s = true -> T.enter i own
  call s)

include hanswer henter

variable {config : Acts I Own Call Res × σ}

theorem step_of_take {turn : Turn ι Call ω} {config' : Acts I Own Call Res × σ}
    (htake : T.take answer mayEnter turn config = some config') : T.Step config config' := by
  obtain ⟨acts, s⟩ := config
  cases turn with
  | start i call =>
    simp only [take] at htake
    split at htake
    case h_1 own hidle =>
      split at htake
      case isTrue hmay =>
        cases htake
        exact .start hidle (henter i own call s hmay)
      case isFalse => cases htake
    case h_2 => cases htake
  | op i oracle =>
    simp only [take] at htake
    split at htake
    case h_1 call request next hrunning =>
      split at htake
      case h_1 ans s' hans =>
        cases htake
        exact .op hrunning (hanswer oracle i request s ans s' hans)
      case h_2 => cases htake
    case h_2 => cases htake

theorem reach_of_play {turns : List (Turn ι Call ω)} {config' : Acts I Own Call Res × σ}
    (hplay : T.play answer mayEnter turns config = some config') : T.Reach config config' := by
  induction turns generalizing config with
  | nil =>
    cases hplay
    exact .refl
  | cons turn rest ih =>
    simp only [play] at hplay
    split at hplay
    case h_1 next htake =>
      exact .head (step_of_take hanswer henter htake) (ih hplay)
    case h_2 => cases hplay

/-- A test that a schedule ends in a configuration that passes it. -/
theorem reach_of_play_any {turns : List (Turn ι Call ω)} {test : Acts I Own Call Res × σ -> Bool}
    (hplay : (T.play answer mayEnter turns config).any test = true) :
    ∃ config', T.Reach config config' /\ test config' = true := by
  cases hresult : T.play answer mayEnter turns config with
  | none =>
    rw [hresult] at hplay
    cases hplay
  | some config' =>
    rw [hresult] at hplay
    exact ⟨config', reach_of_play hanswer henter hresult, hplay⟩

end

end Schedules

/-! ## One thread alone -/

section Alone

variable [DecidableEq ι] {T : Threads I ι Own Call Res σ} {i : ι}
  {handler : (request : I.Op) -> σ -> I.Ans request × σ}

theorem reach_resume {acts : Acts I Own Call Res} {call : Call i} {request : I.Op}
    {next : I.Ans request -> Prog I (Res i × Own i)} {answer : I.Ans request} {s s' : σ}
    (hexec : T.exec i request s answer s') :
    T.Reach (T.resume acts i call (.op request next) s)
      (T.resume acts i call (next answer) s') := by
  have hrunning : update acts i (.running call (.op request next)) i =
      .running call (.op request next) := update_self ..
  have hstep := Step.op (T := T) hrunning hexec
  cases hnext : next answer with
  | ret result =>
    rw [hnext] at hstep
    simp only [resume, update_idem] at hstep ⊢
    exact .single hstep
  | op request' next' =>
    rw [hnext] at hstep
    simp only [resume, update_idem] at hstep ⊢
    exact .single hstep

theorem reach_eval
    (hexec : ∀ request s, T.exec i request s (handler request s).1 (handler request s).2)
    (acts : Acts I Own Call Res) (call : Call i) (program : Prog I (Res i × Own i)) (s : σ) :
    T.Reach (T.resume acts i call program s)
      (update acts i (.idle (program.eval handler s).1.2),
        T.finish i call (program.eval handler s).1.1 (program.eval handler s).2) := by
  induction program generalizing s with
  | ret result => exact .refl
  | op request next ih =>
    exact (reach_resume (hexec request s)).trans (ih (handler request s).1 (handler request s).2)

variable (handler) in
theorem reach_call
    (hexec : ∀ request s, T.exec i request s (handler request s).1 (handler request s).2)
    {acts : Acts I Own Call Res} {own : Own i} (call : Call i) {s : σ}
    (hidle : acts i = .idle own) (henter : T.enter i own call s)
    {Q : Res i × Own i -> σ -> Prop} (heval : (T.code i own call).EvalsTo handler Q s) :
    ∃ result s', Q result s' /\ T.Reach (acts, s)
      (update acts i (.idle result.2), T.finish i call result.1 s') :=
  ⟨_, _, heval, .head (.start hidle henter) (reach_eval hexec acts call _ s)⟩

end Alone

end Threads

end AgentOs.Library
