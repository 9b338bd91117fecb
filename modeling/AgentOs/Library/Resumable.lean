import AgentOs.Library.Program
import Mathlib.Data.List.Basic

/-!
# Sequences that are resumed after a failure

Each attempt tries the stages of a fixed sequence that are not done yet, in order, and stops at
the first that fails; the next attempt goes on from there.  Whatever fails, the stages succeed
in order and at most once each.
-/

namespace AgentOs.Library.Resumable

open Prog List

variable {α : Type}

/-- One attempt at the stages that are left: what was tried, and what is left then. -/
inductive Attempt : List α -> List (α × Bool) -> List α -> Prop where
  | finished : Attempt [] [] []
  | failed {stage : α} {rest : List α} : Attempt (stage :: rest) [(stage, false)] (stage :: rest)
  | done {stage : α} {rest left : List α} {log : List (α × Bool)} :
      Attempt rest log left -> Attempt (stage :: rest) ((stage, true) :: log) left

/-- The stages that succeeded, in order. -/
def successes (log : List (α × Bool)) : List α :=
  log.filterMap fun entry => if entry.2 then some entry.1 else none

@[simp]
theorem successes_nil : successes ([] : List (α × Bool)) = [] := rfl

@[simp]
theorem successes_append (first second : List (α × Bool)) :
    successes (first ++ second) = successes first ++ successes second :=
  filterMap_append ..

@[simp]
theorem successes_done (stage : α) (log : List (α × Bool)) :
    successes ((stage, true) :: log) = stage :: successes log := rfl

@[simp]
theorem successes_failed (stage : α) (log : List (α × Bool)) :
    successes ((stage, false) :: log) = successes log := rfl

variable {stage : α}

/-- What all attempts so far have done: the stages that succeeded are those before the ones
left, and a stage was tried only when all before it had succeeded. -/
structure Progress (stages : List α) (log : List (α × Bool)) (left : List α) : Prop where
  split : successes log ++ left = stages
  tried : ∀ before stage ok after, log = before ++ (stage, ok) :: after ->
    successes before ++ [stage] <+: stages

namespace Progress

variable {stages left : List α} {log : List (α × Bool)}

theorem start (stages : List α) : Progress stages [] stages where
  split := rfl
  tried before stage ok after h := by
    cases before <;> cases h

theorem tryStage (hprogress : Progress stages log left) {rest : List α}
    (hleft : left = stage :: rest) (ok : Bool) :
    Progress stages (log ++ [(stage, ok)]) (if ok then rest else left) := by
  have hsplit := hprogress.split
  refine ⟨?_, fun before stage' ok' after h => ?_⟩
  · cases ok with
    | true => simpa [hleft] using hsplit
    | false => simpa using hsplit
  · rcases append_eq_append_iff.mp h with ⟨middle, hbefore, hrest⟩ | ⟨middle, hlog, hrest⟩
    · cases middle with
      | nil =>
        obtain ⟨⟨rfl, -⟩, -⟩ := List.cons.inj hrest
        rw [append_nil] at hbefore
        rw [hbefore, <- hsplit, hleft]
        exact ⟨rest, by simp⟩
      | cons first middle =>
        have hlength := congrArg List.length hrest
        simp at hlength
    · cases middle with
      | nil =>
        rw [append_nil] at hlog
        obtain ⟨⟨rfl, -⟩, -⟩ := List.cons.inj hrest
        rw [<- hlog, <- hsplit, hleft]
        exact ⟨rest, by simp⟩
      | cons first middle =>
        obtain ⟨rfl, -⟩ := List.cons.inj hrest
        exact hprogress.tried before stage' ok' middle hlog

theorem attempt (hprogress : Progress stages log left) {more : List (α × Bool)}
    {left' : List α} (hattempt : Attempt left more left') :
    Progress stages (log ++ more) left' := by
  induction hattempt generalizing log with
  | finished => simpa using hprogress
  | @failed stage rest => exact hprogress.tryStage rfl false
  | @done stage rest left' more hrest ih =>
    have hstep := ih (hprogress.tryStage rfl true)
    rwa [append_assoc] at hstep

theorem earlier (hprogress : Progress stages log left) {before after : List (α × Bool)}
    {ok : Bool} (htried : log = before ++ (stage, ok) :: after) {first rest : List α}
    (hstages : stages = first ++ stage :: rest) (hnodup : stages.Nodup) :
    successes before = first := by
  obtain ⟨tail, htail⟩ := hprogress.tried before stage ok after htried
  rw [hstages, append_assoc, singleton_append] at htail
  rw [hstages, <- htail, nodup_append, nodup_cons] at hnodup
  refine ((append_cons_inj_of_notMem ?_ hnodup.2.1.1).mp htail).1
  exact fun hmem => hnodup.2.2 stage hmem stage mem_cons_self rfl

theorem nodup (hprogress : Progress stages log left) (hnodup : stages.Nodup) :
    (successes log).Nodup := by
  rw [<- hprogress.split, nodup_append] at hnodup
  exact hnodup.1

end Progress

variable {before : List α}

/-- In a sorted sequence, what is smaller than an element comes before it. -/
theorem mem_before_of_sorted {stages after : List α} {other : α} {r : α -> α -> Prop}
    (hsorted : stages.Pairwise r) (hasymm : ∀ {a b}, r a b -> ¬r b a)
    (hstages : stages = before ++ stage :: after) (hother : other ∈ stages)
    (hearlier : r other stage) : other ∈ before := by
  rw [hstages, pairwise_append, pairwise_cons] at hsorted
  rw [hstages, mem_append, mem_cons] at hother
  rcases hother with hother | rfl | hother
  · exact hother
  · exact absurd hearlier (hasymm hearlier)
  · exact absurd hearlier (hasymm (hsorted.2.1.1 other hother))

/-! ## Programs -/

/-- How a state records which stages are done, and what each of them does. -/
structure Stages (I : Interface) (σ α : Type) where
  done : σ -> α -> Bool
  act : α -> Prog I Bool
  mark : α -> σ -> σ

namespace Stages

variable {I : Interface} {σ : Type} (S : Stages I σ α)

/-- Try what is not done, in order, up to the first failure. -/
def attempt : List α -> σ -> Prog I (Bool × σ)
  | [], s => pure (true, s)
  | stage :: rest, s =>
    if S.done s stage then attempt rest s
    else do
      let ok <- S.act stage
      if ok then attempt rest (S.mark stage s) else pure (false, s)

theorem attempt_cons (stage : α) (rest : List α) (s : σ) :
    S.attempt (stage :: rest) s = if S.done s stage then S.attempt rest s
      else S.act stage >>= fun ok =>
        if ok then S.attempt rest (S.mark stage s) else pure (false, s) := rfl

theorem attempt_append (first second : List α) (s : σ) :
    S.attempt (first ++ second) s = S.attempt first s >>= fun result =>
      if result.1 then S.attempt second result.2 else pure (false, result.2) := by
  induction first generalizing s with
  | nil => rfl
  | cons stage rest ih =>
    rw [cons_append, attempt_cons, attempt_cons]
    split
    · exact ih s
    rw [Prog.bind_assoc]
    congr 1
    funext ok
    cases ok with
    | true => exact ih (S.mark stage s)
    | false => rfl

/-- The stages that are not done. -/
def left (stages : List α) (s : σ) : List α := stages.filter fun stage => !S.done s stage

/-- A loop that acts on one resource after another, up to a count.  It ends at the first
failure; `cursor` says which resource is next. -/
def countedLoop (count : Nat) (cursor : σ -> Nat) (act : Nat -> Prog I Bool) (advance : σ -> σ) :
    Nat -> σ -> Prog I (Bool × σ)
  | 0, s => pure (true, s)
  | n + 1, s =>
    if cursor s < count then do
      let ok <- act (cursor s)
      if ok then countedLoop count cursor act advance n (advance s) else pure (false, s)
    else pure (true, s)

variable {s : σ}

/-- The loop is the stages from the cursor on; those before it are passed over. -/
theorem countedLoop_eq (stageAt : Nat -> α) (cursor : σ -> Nat) {count : Nat} {advance : σ -> σ}
    (hdone : ∀ s i, S.done s (stageAt i) = decide (i < cursor s))
    (hmark : ∀ s i, S.mark (stageAt i) s = advance s)
    (hadvance : ∀ s, cursor (advance s) = cursor s + 1) {first n fuel : Nat}
    (htotal : first + n = count) (hfirst : first <= cursor s) (hfuel : count - cursor s <= fuel) :
    countedLoop count cursor (fun i => S.act (stageAt i)) advance fuel s =
      S.attempt ((range' first n).map stageAt) s := by
  induction n generalizing first fuel s with
  | zero =>
    cases fuel with
    | zero => rfl
    | succ fuel =>
      unfold countedLoop
      rw [if_neg (by omega)]
      rfl
  | succ n ih =>
    rw [range'_succ, map_cons, attempt_cons, hdone]
    by_cases hpassed : first < cursor s
    · rw [if_pos (decide_eq_true hpassed)]
      exact ih (by omega) (by omega) hfuel
    · obtain rfl : first = cursor s := by omega
      rw [if_neg (by simp)]
      cases fuel with
      | zero => omega
      | succ fuel =>
        unfold countedLoop
        rw [if_pos (by omega), hmark]
        congr 1
        funext ok
        cases ok with
        | true =>
          have hnext := hadvance s
          exact ih (by omega) (Nat.le_of_eq hnext.symm) (by omega)
        | false => rfl

/-- The cursor stands at the first resource that is not done. -/
theorem cursor_eq {stageAt : Nat -> α} {cursor : σ -> Nat}
    (hdone : ∀ i, S.done s (stageAt i) = decide (i < cursor s)) {i : Nat}
    (hearlier : ∀ j < i, stageAt j ∈ before) (hbefore : ∀ b ∈ before, S.done s b = true)
    (hopen : S.done s (stageAt i) = false) : cursor s = i := by
  have hle : ¬i < cursor s := of_decide_eq_false ((hdone i).symm.trans hopen)
  refine Nat.le_antisymm (Nat.not_lt.mp hle) ?_
  cases i with
  | zero => exact Nat.zero_le _
  | succ i =>
    have hprevious := hbefore _ (hearlier i (Nat.lt_succ_self i))
    exact of_decide_eq_true ((hdone i).symm.trans hprevious)

/-- When all before a stage are done, marking it changes nothing about the others. -/
structure MarksInOrder (stages : List α) : Prop where
  self : ∀ {before stage after s}, stages = before ++ stage :: after ->
    (∀ b ∈ before, S.done s b = true) -> S.done s stage = false ->
    S.done (S.mark stage s) stage = true
  before : ∀ {before stage after s}, stages = before ++ stage :: after ->
    (∀ b ∈ before, S.done s b = true) -> S.done s stage = false ->
    ∀ b ∈ before, S.done (S.mark stage s) b = true
  after : ∀ {before stage after s}, stages = before ++ stage :: after ->
    (∀ b ∈ before, S.done s b = true) -> S.done s stage = false ->
    ∀ b ∈ after, S.done (S.mark stage s) b = S.done s b

variable {S}

/-- What marking keeps and every request meets. -/
theorem attempt_keeps {P : σ -> Prop} {E : Event I -> Prop} {stages : List α} {s' : σ}
    (hmark : ∀ stage s, P s -> P (S.mark stage s))
    (hact : ∀ stage trace ok, Run (S.act stage) trace ok -> ∀ event ∈ trace, E event) (hs : P s)
    {trace : Trace I} {ok : Bool} (hrun : Run (S.attempt stages s) trace (ok, s')) :
    P s' /\ ∀ event ∈ trace, E event := by
  induction stages generalizing s trace with
  | nil =>
    obtain ⟨rfl, ⟨⟩⟩ := run_ret_iff.mp hrun
    exact ⟨hs, nofun⟩
  | cons stage rest ih =>
    rw [attempt_cons] at hrun
    split at hrun
    · exact ih hs hrun
    obtain ⟨first, second, answer, rfl, hfirst, hrest⟩ := run_bind_iff.mp hrun
    have hhead := hact stage first answer hfirst
    cases answer with
    | true =>
      obtain ⟨hs', htail⟩ := ih (hmark stage s hs) hrest
      refine ⟨hs', fun event hmem => ?_⟩
      rcases mem_append.mp hmem with hmem | hmem
      · exact hhead event hmem
      · exact htail event hmem
    | false =>
      obtain ⟨rfl, ⟨⟩⟩ := run_ret_iff.mp hrest
      rw [append_nil]
      exact ⟨hs, hhead⟩

variable {rest : List α}

theorem left_cons_done (hdone : S.done s stage = true) : S.left (stage :: rest) s = S.left rest s :=
  filter_cons_of_neg (by rw [hdone]; decide)

theorem left_cons_open (hdone : S.done s stage = false) :
    S.left (stage :: rest) s = stage :: S.left rest s :=
  filter_cons_of_pos (by rw [hdone]; rfl)

/-- The stages that are not done and make requests. -/
def leftShown (S : Stages I σ α) (shown : α -> Bool) (stages : List α) (s : σ) : List α :=
  (S.left stages s).filter shown

/-- A run of the program is an attempt at what was left; what was done stays done.  A stage
may make no request and cannot fail then. -/
theorem attempt_run {stages : List α} (hmarks : S.MarksInOrder stages) {shown : α -> Bool}
    {view : Event I -> Option (α × Bool)}
    (hview : ∀ stage ∈ stages, ∀ trace ok, Run (S.act stage) trace ok -> shown stage = true ->
      trace.filterMap view = [(stage, ok)])
      (hsilent : ∀ stage ∈ stages, ∀ trace ok, Run (S.act stage) trace ok -> shown stage = false ->
      trace.filterMap view = [] /\ ok = true) (hstages : stages = before ++ rest) {s' : σ}
    (hbefore : ∀ b ∈ before, S.done s b = true) {trace : Trace I} {ok : Bool}
    (hrun : Run (S.attempt rest s) trace (ok, s')) :
    Attempt (S.leftShown shown rest s) (trace.filterMap view) (S.leftShown shown rest s') /\
      (ok = true ↔ S.left rest s' = []) /\ ∀ b ∈ before, S.done s' b = true := by
  induction rest generalizing before s trace with
  | nil =>
    obtain ⟨rfl, ⟨⟩⟩ := run_ret_iff.mp hrun
    exact ⟨.finished, iff_of_true rfl rfl, hbefore⟩
  | cons stage rest ih =>
    have hmem : stage ∈ stages := by rw [hstages]; simp
    have hnext : stages = (before ++ [stage]) ++ rest := by rw [hstages]; simp
    have hsplit {s : σ} (hall : ∀ b ∈ before ++ [stage], S.done s b = true) :
        S.done s stage = true /\ ∀ b ∈ before, S.done s b = true :=
      ⟨hall stage (by simp), fun b hb => hall b (by simp [hb])⟩
    have hjoin {s : σ} (hstage : S.done s stage = true)
        (hall : ∀ b ∈ before, S.done s b = true) : ∀ b ∈ before ++ [stage], S.done s b = true := by
      intro b hb
      rcases mem_append.mp hb with hb | hb
      · exact hall b hb
      · rw [mem_singleton.mp hb]
        exact hstage
    unfold leftShown at ih ⊢
    rw [attempt_cons] at hrun
    split at hrun
    case isTrue hdone =>
      obtain ⟨hattempt, hok, hall⟩ := ih hnext (hjoin hdone hbefore) hrun
      obtain ⟨hdone', hbefore'⟩ := hsplit hall
      rw [left_cons_done hdone, left_cons_done hdone']
      exact ⟨hattempt, hok, hbefore'⟩
    case isFalse hdone =>
      rw [Bool.not_eq_true] at hdone
      obtain ⟨first, second, answer, rfl, hact, hrest⟩ := run_bind_iff.mp hrun
      rw [filterMap_append, left_cons_open hdone]
      cases answer with
      | true =>
        have hmark := hmarks.self hstages hbefore hdone
        obtain ⟨hattempt, hok, hall⟩ := ih hnext
          (hjoin hmark (hmarks.before hstages hbefore hdone)) hrest
        obtain ⟨hdone', hbefore'⟩ := hsplit hall
        have hsame : S.left rest (S.mark stage s) = S.left rest s :=
          filter_congr fun b hb => by rw [hmarks.after hstages hbefore hdone b hb]
        rw [hsame] at hattempt
        rw [left_cons_done hdone']
        refine ⟨?_, hok, hbefore'⟩
        cases hshown : shown stage with
        | true =>
          rw [hview stage hmem first true hact hshown, filter_cons_of_pos hshown]
          exact .done hattempt
        | false =>
          rw [(hsilent stage hmem first true hact hshown).1,
            filter_cons_of_neg (by rw [hshown]; decide)]
          exact hattempt
      | false =>
        obtain ⟨rfl, ⟨⟩⟩ := run_ret_iff.mp hrest
        rw [left_cons_open hdone]
        refine ⟨?_, iff_of_false Bool.false_ne_true (cons_ne_nil _ _), hbefore⟩
        cases hshown : shown stage with
        | true =>
          rw [hview stage hmem first false hact hshown, filter_cons_of_pos hshown]
          exact .failed
        | false => exact absurd (hsilent stage hmem first false hact hshown).2 Bool.false_ne_true

end Stages

end AgentOs.Library.Resumable
