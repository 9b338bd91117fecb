import AgentOs.Library.Program

/-!
# Interleaved execution of a server program

A server alternates between waiting for a message and running a program to its end.  While it
runs, every request is one atomic step, and the other parties may take any steps before each of
them.  `Safe` attaches to each point of the program an assertion that the other parties
preserve, and `Server.reach_covered` turns it into a statement about all reachable states.
-/

namespace AgentOs.Library

open Relation

/-- How one request acts on the shared state, and how the other parties do. -/
structure Machine (I : Interface) (σ : Type) where
  exec : (request : I.Op) -> σ -> I.Ans request -> σ -> Prop
  env : σ -> σ -> Prop

namespace Machine

variable {I : Interface} {σ α β : Type}

/-- The machine that only takes steps whose state before the step meets a condition. -/
def restrict (M : Machine I σ) (own : I.Op -> σ -> Prop) (other : σ -> σ -> Prop) : Machine I σ where
  exec request s answer s' := own request s /\ M.exec request s answer s'
  env s s' := other s s' /\ M.env s s'

/-- `G` holds at every point of an interleaved run of the program from `s`, and
`Q` holds of the result for as long as the other parties run. -/
def Safe (M : Machine I σ) (G : σ -> Prop) (Q : α -> σ -> Prop) : Prog I α -> σ -> Prop
  | .ret value, s => ∀ s', ReflTransGen M.env s s' -> G s' /\ Q value s'
  | .op request next, s => ∀ s', ReflTransGen M.env s s' -> G s' /\
      ∀ answer s'', M.exec request s' answer s'' -> Safe M G Q (next answer) s''

/-- An assertion the other parties cannot invalidate. -/
def Stable (M : Machine I σ) (A : σ -> Prop) : Prop := ∀ s s', M.env s s' -> A s -> A s'

variable {M : Machine I σ} {G : σ -> Prop} {A : σ -> Prop} {s : σ}

theorem Stable.star (hstable : M.Stable A) {s' : σ} (hsteps : ReflTransGen M.env s s') (hs : A s) :
    A s' := by
  induction hsteps with
  | refl => exact hs
  | tail _ hstep ih => exact hstable _ _ hstep ih

theorem stable_const (p : Prop) : M.Stable (fun _ => p) := fun _ _ _ h => h

variable {Q : α -> σ -> Prop}

theorem safe_ret {value : α} (hstable : M.Stable A) (hs : A s)
    (hpost : ∀ s, A s -> G s /\ Q value s) :
    M.Safe G Q (.ret value) s :=
  fun s' hsteps => hpost s' (hstable.star hsteps hs)

theorem safe_op {request : I.Op} {next : I.Ans request -> Prog I α} (hstable : M.Stable A)
    (hs : A s) (hinv : ∀ s, A s -> G s)
    (hnext : ∀ s answer s', A s -> M.exec request s answer s' -> M.Safe G Q (next answer) s') :
    M.Safe G Q (.op request next) s :=
  fun s' hsteps => ⟨hinv s' (hstable.star hsteps hs),
    fun answer s'' hexec => hnext s' answer s'' (hstable.star hsteps hs) hexec⟩

variable {program : Prog I α}

theorem Safe.bind {R : β -> σ -> Prop} {next : α -> Prog I β} (hfirst : M.Safe G Q program s)
    (hnext : ∀ value s, Q value s -> M.Safe G R (next value) s) :
    M.Safe G R (program >>= next) s := by
  induction program generalizing s with
  | ret value => exact hnext value s (hfirst s .refl).2
  | op request rest ih =>
    intro s' hsteps
    obtain ⟨hinv, hrest⟩ := hfirst s' hsteps
    exact ⟨hinv, fun answer s'' hexec => ih answer (hrest answer s'' hexec)⟩

theorem Safe.mono {R : α -> σ -> Prop} (hprogram : M.Safe G Q program s)
    (hresult : ∀ value s, Q value s -> R value s) :
    M.Safe G R program s := by
  induction program generalizing s with
  | ret value =>
    intro s' hsteps
    exact ⟨(hprogram s' hsteps).1, hresult value s' (hprogram s' hsteps).2⟩
  | op request rest ih =>
    intro s' hsteps
    obtain ⟨hinv, hrest⟩ := hprogram s' hsteps
    exact ⟨hinv, fun answer s'' hexec => ih answer (hrest answer s'' hexec)⟩

theorem Safe.guarantee {G' : σ -> Prop} (hprogram : M.Safe G Q program s) (hinv : ∀ s, G s -> G' s) :
    M.Safe G' Q program s := by
  induction program generalizing s with
  | ret value =>
    intro s' hsteps
    exact ⟨hinv s' (hprogram s' hsteps).1, (hprogram s' hsteps).2⟩
  | op request rest ih =>
    intro s' hsteps
    obtain ⟨hG, hrest⟩ := hprogram s' hsteps
    exact ⟨hinv s' hG, fun answer s'' hexec => ih answer (hrest answer s'' hexec)⟩

theorem Safe.and {R : α -> σ -> Prop} (hfirst : M.Safe G Q program s)
    (hsecond : M.Safe G R program s) :
    M.Safe G (fun value s => Q value s /\ R value s) program s := by
  induction program generalizing s with
  | ret value =>
    intro s' hsteps
    exact ⟨(hfirst s' hsteps).1, (hfirst s' hsteps).2, (hsecond s' hsteps).2⟩
  | op request rest ih =>
    intro s' hsteps
    obtain ⟨hinv, hrest⟩ := hfirst s' hsteps
    obtain ⟨_, hrest'⟩ := hsecond s' hsteps
    exact ⟨hinv, fun answer s'' hexec =>
      ih answer (hrest answer s'' hexec) (hrest' answer s'' hexec)⟩

theorem Safe.forall {ι : Type} [Nonempty ι] {Q : ι -> α -> σ -> Prop}
    (hall : ∀ i, M.Safe G (Q i) program s) :
    M.Safe G (fun value s => ∀ i, Q i value s) program s := by
  obtain ⟨k⟩ := ‹Nonempty ι›
  induction program generalizing s with
  | ret value =>
    intro s' hsteps
    exact ⟨(hall k s' hsteps).1, fun i => (hall i s' hsteps).2⟩
  | op request rest ih =>
    intro s' hsteps
    exact ⟨(hall k s' hsteps).1, fun answer s'' hexec =>
      ih answer fun i => (hall i s' hsteps).2 answer s'' hexec⟩

variable {P : I.Op -> Prop}

/-- What every run returns, whatever the answers, is returned under interference. -/
theorem safe_of_ensures {Q : α -> Prop} (hprogram : Prog.Ensures Prog.anyAnswer P Q program)
    (s : σ) :
    M.Safe (fun _ => True) (fun value _ => Q value) program s := by
  induction program generalizing s with
  | ret value => exact fun _ _ => ⟨trivial, hprogram⟩
  | op request rest ih =>
    exact fun _ _ => ⟨trivial, fun answer s'' _ => ih answer (hprogram.2 answer trivial) s''⟩

/-- An assertion kept by the other parties and by every request of the program
holds throughout. -/
theorem safe_of_frame {Q : α -> Prop} (hprogram : Prog.Ensures Prog.anyAnswer P Q program)
    (hstable : M.Stable A)
    (hkeep : ∀ request s answer s', P request -> A s -> M.exec request s answer s' -> A s')
    (hs : A s) : M.Safe A (fun value s => Q value /\ A s) program s := by
  induction program generalizing s with
  | ret value =>
    intro s' hsteps
    have hA := hstable.star hsteps hs
    exact ⟨hA, hprogram, hA⟩
  | op request rest ih =>
    intro s' hsteps
    have hA := hstable.star hsteps hs
    exact ⟨hA, fun answer s'' hexec =>
      ih answer (hprogram.2 answer trivial) (hkeep _ _ _ _ hprogram.1 hA hexec)⟩

/-- A program that only looks.  While `F` lasts, each look gives the same answer; once
`F` is lost, `A` holds for good.  So `A` holds at the end, or the result is the one
those answers lead to. -/
theorem safe_resolve {F : σ -> Prop} {a : (request : I.Op) -> I.Ans request}
    (hprogram : Prog.Ensures Prog.anyAnswer P (fun _ => True) program) (hstable : M.Stable A)
    (hfrozen : ∀ s s', M.env s s' -> F s -> F s' \/ A s')
    (hkeep : ∀ request s answer s', P request -> A s -> M.exec request s answer s' -> A s')
    (hlook : ∀ request s answer s', P request -> F s -> M.exec request s answer s' ->
      F s' /\ answer = a request) (hs : F s \/ A s) :
    M.Safe (fun _ => True) (fun value s => A s \/ value = Prog.resolve a program) program s := by
  have hmixed : M.Stable (fun s => F s \/ A s) := by
    intro s s' henv h
    cases h with
    | inl hF => exact hfrozen s s' henv hF
    | inr hA => exact Or.inr (hstable s s' henv hA)
  induction program generalizing s with
  | ret value => exact fun s' _ => ⟨trivial, Or.inr rfl⟩
  | op request rest ih =>
    intro s' hsteps
    refine ⟨trivial, fun answer s'' hexec => ?_⟩
    have hrest := hprogram.2 answer trivial
    cases hmixed.star hsteps hs with
    | inl hF =>
      obtain ⟨hF', rfl⟩ := hlook _ _ _ _ hprogram.1 hF hexec
      exact ih _ hrest (Or.inl hF')
    | inr hA =>
      have hframe := safe_of_frame hrest hstable hkeep (hkeep _ _ _ _ hprogram.1 hA hexec)
      exact (hframe.guarantee fun _ _ => trivial).mono fun _ _ h => Or.inl h.2

end Machine

/-- A machine with the rule by which a waiting server receives a message and
starts the program that handles it. -/
structure Server (I : Interface) (τ σ : Type) extends Machine I σ where
  recv : τ -> σ -> Prog I τ -> σ -> Prop

/-- What a server is doing: blocked in receive with its private state, or in the
middle of a program that ends with the next private state. -/
inductive Phase (I : Interface) (τ : Type) : Type where
  | waiting (own : τ) : Phase I τ
  | running (program : Prog I τ) : Phase I τ

namespace Server

variable {I : Interface} {τ σ : Type}

inductive Step (S : Server I τ σ) : Phase I τ × σ -> Phase I τ × σ -> Prop where
  | env {phase : Phase I τ} {s s' : σ} :
      S.env s s' -> Step S (phase, s) (phase, s')
  | recv {own : τ} {program : Prog I τ} {s s' : σ} :
      S.recv own s program s' -> Step S (.waiting own, s) (.running program, s')
  | op {request : I.Op} {next : I.Ans request -> Prog I τ} {answer : I.Ans request}
      {s s' : σ} :
      S.exec request s answer s' ->
      Step S (.running (.op request next), s) (.running (next answer), s')
  | done {own : τ} {s : σ} : Step S (.running (.ret own), s) (.waiting own, s)

/-- Reachability by any interleaving. -/
def Reach (S : Server I τ σ) : Phase I τ × σ -> Phase I τ × σ -> Prop := ReflTransGen S.Step

theorem reach_env (S : Server I τ σ) {phase : Phase I τ} {s s' : σ} (hstep : S.env s s') :
    S.Reach (phase, s) (phase, s') :=
  .single (.env hstep)

variable {handler : (request : I.Op) -> σ -> I.Ans request × σ}

/-- An undisturbed run of a program, by a handler that answers as the machine may. -/
theorem reach_eval (S : Server I τ σ)
    (hexec : ∀ request s, S.exec request s (handler request s).1 (handler request s).2)
    (program : Prog I τ) (s : σ) :
    S.Reach (.running program, s)
      (.waiting (Prog.eval handler program s).1, (Prog.eval handler program s).2) := by
  induction program generalizing s with
  | ret own => exact .single .done
  | op request next ih => exact .head (.op (hexec request s)) (ih _ _)

/-- An undisturbed run of the first part of a program. -/
theorem reach_eval_bind (S : Server I τ σ) {α : Type}
    (hexec : ∀ request s, S.exec request s (handler request s).1 (handler request s).2)
    (program : Prog I α) (next : α -> Prog I τ) (s : σ) :
    S.Reach (.running (program >>= next), s)
      (.running (next (Prog.eval handler program s).1), (Prog.eval handler program s).2) := by
  induction program generalizing s with
  | ret value => exact .refl
  | op request rest ih => exact .head (.op (hexec request s)) (ih _ _)

/-- Run undisturbed up to the first request that `stop` picks. -/
def advance (handler : (request : I.Op) -> σ -> I.Ans request × σ) (stop : I.Op -> Bool) :
    Prog I τ -> σ -> Prog I τ × σ
  | .ret own, s => (.ret own, s)
  | .op request next, s =>
    if stop request then (.op request next, s)
    else advance handler stop (next (handler request s).1) (handler request s).2

theorem reach_advance (S : Server I τ σ) (stop : I.Op -> Bool)
    (hexec : ∀ request s, stop request = false ->
      S.exec request s (handler request s).1 (handler request s).2) (program : Prog I τ) (s : σ) :
    S.Reach (.running program, s)
      (.running (advance handler stop program s).1, (advance handler stop program s).2) := by
  induction program generalizing s with
  | ret own => exact .refl
  | op request next ih =>
    unfold advance
    split
    · exact .refl
    · rename_i hgo
      exact .head (.op (hexec request s (Bool.eq_false_iff.mpr hgo))) (ih _ _)

/-- A schedule, played move by move. -/
def play {μ γ : Type} (move : μ -> γ -> Option γ) : List μ -> γ -> Option γ
  | [], config => some config
  | first :: rest, config => (move first config).bind (play move rest)

theorem reach_play (S : Server I τ σ) {μ : Type} {move : μ -> Phase I τ × σ -> Option (Phase I τ × σ)}
    {moves : List μ}
    (hmove : ∀ m ∈ moves, ∀ config config', move m config = some config' ->
      S.Reach config config') {config config' : Phase I τ × σ}
    (hplay : play move moves config = some config') : S.Reach config config' := by
  induction moves generalizing config with
  | nil =>
    cases hplay
    exact .refl
  | cons first rest ih =>
    obtain ⟨middle, hfirst, hrest⟩ := Option.bind_eq_some_iff.mp hplay
    exact (hmove first List.mem_cons_self config middle hfirst).trans
      (ih (fun m hm => hmove m (List.mem_cons_of_mem _ hm)) hrest)

/-- The schedule ended with the server waiting in a state the test accepts. -/
def endsWaiting (test : τ -> σ -> Bool) : Option (Phase I τ × σ) -> Bool
  | some (.waiting own, s) => test own s
  | _ => false

theorem exists_of_endsWaiting {test : τ -> σ -> Bool} {config : Option (Phase I τ × σ)}
    (hends : endsWaiting test config = true) :
    ∃ own s, config = some (.waiting own, s) /\ test own s = true := by
  match config, hends with
  | some (.waiting own, s), hends => exact ⟨own, s, rfl, hends⟩

/-- The server whose runs only take steps that meet a condition. -/
def restrict (S : Server I τ σ) (own : I.Op -> σ -> Prop) (other : σ -> σ -> Prop) : Server I τ σ where
  toMachine := S.toMachine.restrict own other
  recv := S.recv

variable {first last : Phase I τ × σ}

theorem reach_of_restrict {S : Server I τ σ} {own : I.Op -> σ -> Prop} {other : σ -> σ -> Prop}
    (hreach : (S.restrict own other).Reach first last) :
    S.Reach first last := by
  refine ReflTransGen.mono ?_ _ _ hreach
  intro config config' hstep
  cases hstep with
  | env henv => exact .env henv.2
  | recv hrecv => exact .recv hrecv
  | op hexec => exact .op hexec.2
  | done => exact .done

/-- The states a proof attaches to a phase. -/
def Covered (S : Server I τ σ) (G : σ -> Prop) (J : τ -> σ -> Prop) : Phase I τ × σ -> Prop
  | (.waiting own, s) => J own s
  | (.running program, s) => S.Safe G J program s

variable {S : Server I τ σ} {G : σ -> Prop} {J : τ -> σ -> Prop}

theorem covered_step (hstable : ∀ own, S.Stable (J own))
    (hrecv : ∀ own s program s', J own s -> S.recv own s program s' -> S.Safe G J program s')
    (hstep : S.Step first last) (hfirst : S.Covered G J first) : S.Covered G J last := by
  cases hstep with
  | @env phase s s' henv =>
    cases phase with
    | waiting own => exact hstable own _ _ henv hfirst
    | running program =>
      cases program with
      | ret value => exact fun s'' hsteps => hfirst s'' (.head henv hsteps)
      | op request next => exact fun s'' hsteps => hfirst s'' (.head henv hsteps)
  | recv hmessage => exact hrecv _ _ _ _ hfirst hmessage
  | op hexec => exact (hfirst _ .refl).2 _ _ hexec
  | done => exact (hfirst _ .refl).2

/-- The induction over whole runs, done once: an invariant of the waiting server
that the other parties keep and that every handler re-establishes. -/
theorem reach_covered (hstable : ∀ own, S.Stable (J own))
    (hrecv : ∀ own s program s', J own s -> S.recv own s program s' -> S.Safe G J program s')
    (hreach : S.Reach first last) (hfirst : S.Covered G J first) : S.Covered G J last := by
  induction hreach with
  | refl => exact hfirst
  | tail _ hstep ih => exact covered_step hstable hrecv hstep ih

/-- The guarantee holds in every covered state, provided it holds while waiting. -/
theorem covered_guarantee (hwait : ∀ own s, J own s -> G s) {config : Phase I τ × σ}
    (hcovered : S.Covered G J config) : G config.2 := by
  obtain ⟨phase, s⟩ := config
  cases phase with
  | waiting own => exact hwait own s hcovered
  | running program =>
    cases program with
    | ret value => exact (hcovered s .refl).1
    | op request next => exact (hcovered s .refl).1

end Server

end AgentOs.Library
