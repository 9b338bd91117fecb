import AgentOs.GuestVmm.Cleanup
import AgentOs.Library.Lifecycle
import Mathlib.Data.List.Infix

/-!
# Histories of re-creations

A history is clean while every run completed.  The first step that fails ends that for
good: from then on only the cleanup of that run makes progress.
-/

namespace AgentOs.GuestVmm

open Library Prog Resumable List

variable {Step : Type}

/-! ## The steps of a run -/

/-- The steps of a run with these services. -/
def plan (kind : RecreateKind Step) (enabled : UInt32) : List Step :=
  kind.steps.filter (stepEnabled kind enabled)

abbrev stepEvent (generation : UInt32) (ok : Bool) (step : Step) : Event (RecreateIo Step) :=
  ⟨.step step generation, ok⟩

def markAll (kind : RecreateKind Step) (steps : List Step) (s : Recreate Step) : Recreate Step :=
  steps.foldl (fun s step => markAttempted kind step s) s

theorem markAttempted_eq (kind : RecreateKind Step) (step : Step) (s : Recreate Step) :
    ∃ attempted, markAttempted kind step s = { s with attemptedBackends := attempted } := by
  unfold markAttempted
  split <;> exact ⟨_, rfl⟩

theorem markAll_eq (kind : RecreateKind Step) (steps : List Step) (s : Recreate Step) :
    ∃ attempted, markAll kind steps s = { s with attemptedBackends := attempted } := by
  induction steps generalizing s with
  | nil => exact ⟨_, rfl⟩
  | cons step rest ih =>
    obtain ⟨attempted, hstep⟩ := markAttempted_eq kind step s
    obtain ⟨attempted', hrest⟩ := ih (markAttempted kind step s)
    refine ⟨attempted', hrest.trans ?_⟩
    rw [hstep]

variable {s : Recreate Step} {kind : RecreateKind Step}

/-- The services that the steps made the transaction responsible for. -/
theorem markAll_bit (howner : ∀ step backend, kind.owner step = some backend -> backend < 32)
    {steps : List Step} {i : Nat} (hi : i < 32) :
    hasBit (markAll kind steps s).attemptedBackends i = false ↔
      hasBit s.attemptedBackends i = false /\ ∀ step ∈ steps, kind.owner step ≠ some i := by
  induction steps generalizing s with
  | nil => simp [markAll]
  | cons step rest ih =>
    show hasBit (markAll kind rest (markAttempted kind step s)).attemptedBackends _ = false ↔ _
    rw [ih, forall_mem_cons]
    unfold markAttempted
    cases hstep : kind.owner step with
    | none => simp
    | some backend =>
      rw [hasBit_or_bit (howner step backend hstep) hi, Bool.or_eq_false_iff,
        decide_eq_false_iff_not, ne_eq, Option.some.injEq, and_assoc]

/-- All steps of the plan succeeded, or one failed after those before it succeeded. -/
inductive StepsRun (kind : RecreateKind Step) (generation : UInt32) (plan : List Step) :
    Trace (RecreateIo Step) -> Option Step -> List Step -> Prop where
  | completed : StepsRun kind generation plan (plan.map (stepEvent generation true)) none plan
  | failed {first rest : List Step} {step : Step} (hplan : plan = first ++ step :: rest) :
      StepsRun kind generation plan
        (first.map (stepEvent generation true) ++ [stepEvent generation false step])
        (some step) (first ++ [step])

variable {s' : Recreate Step} {trace : Trace (RecreateIo Step)}

theorem recreateSteps_run {enabled : UInt32} {steps : List Step} {failure : Option Step}
    (hrun : Run (recreateSteps kind enabled steps s) trace (failure, s')) :
    ∃ made, StepsRun kind s.generation (steps.filter (stepEnabled kind enabled)) trace failure
      made /\ s' = markAll kind made s := by
  induction steps generalizing s trace with
  | nil =>
    obtain ⟨rfl, ⟨⟩⟩ := run_ret_iff.mp hrun
    exact ⟨[], .completed, rfl⟩
  | cons step rest ih =>
    unfold recreateSteps at hrun
    cases henabled : stepEnabled kind enabled step with
    | false =>
      rw [henabled, if_pos (by decide)] at hrun
      rw [filter_cons_of_neg (by rw [henabled]; decide)]
      exact ih hrun
    | true =>
      rw [henabled, if_neg (by decide)] at hrun
      rw [filter_cons_of_pos henabled]
      have hgeneration : (markAttempted kind step s).generation = s.generation := by
        obtain ⟨attempted, hmarked⟩ := markAttempted_eq kind step s
        rw [hmarked]
      obtain ⟨ok, tail, rfl, htail⟩ := run_op_iff.mp hrun
      rw [hgeneration]
      cases ok with
      | true =>
        obtain ⟨made, hsteps, rfl⟩ := ih htail
        rw [hgeneration] at hsteps
        refine ⟨step :: made, ?_, rfl⟩
        cases hsteps with
        | completed => exact .completed
        | @failed first rest' step' hplan =>
          have hwhole : step :: rest.filter (stepEnabled kind enabled) =
              (step :: first) ++ step' :: rest' := by rw [hplan, cons_append]
          exact StepsRun.failed hwhole
      | false =>
        obtain ⟨rfl, ⟨⟩⟩ := run_ret_iff.mp htail
        exact ⟨[step], StepsRun.failed (nil_append _).symm, rfl⟩

/-! ## Histories -/

inductive RecreateCall where
  | run (enabled : UInt32)
  | cleanup

def recreateCode (kind : RecreateKind Step) (s : Recreate Step) :
    RecreateCall -> RecreateM Step (Bool × Recreate Step)
  | .run enabled => recreateRun kind s enabled
  | .cleanup => recreateCleanup kind s

/-- One call and what it asked of the operations, with their answers. -/
structure RecreateRecord (Step : Type) where
  call : RecreateCall
  trace : Trace (RecreateIo Step)

/-- The calls of one transaction's two functions, from the state that is all zero. -/
inductive Recreated
    (code : Recreate Step -> RecreateCall -> RecreateM Step (Bool × Recreate Step)) :
    List (RecreateRecord Step) -> Recreate Step -> Prop where
  | zero : Recreated code [] .zero
  | call {history : List (RecreateRecord Step)} {s s' : Recreate Step} {call : RecreateCall}
      {trace : Trace (RecreateIo Step)} {ok : Bool} :
      Recreated code history s -> Run (code s call) trace (ok, s') ->
      Recreated code (history ++ [⟨call, trace⟩]) s'

abbrev publishEvent : Event (RecreateIo Step) := ⟨.publish, ()⟩

/-- The ways a run can go. -/
inductive RunOutcome (kind : RecreateKind Step) (s : Recreate Step) (enabled : UInt32) :
    Trace (RecreateIo Step) -> Recreate Step -> Prop where
  | refused : RunOutcome kind s enabled [] s
  | completed {s' : Recreate Step} : s.failed = false -> s.generation ≠ 0xffffffff ->
      s'.generation = s.generation + 1 -> s'.failed = false -> s'.cleanupPending = false ->
      s'.attemptedBackends = 0 ->
      RunOutcome kind s enabled
        ((plan kind enabled).map (stepEvent (s.generation + 1) true) ++ [publishEvent]) s'
  | failed {first rest : List Step} {step : Step} {s1 s' : Recreate Step} {ok : Bool}
      {cleanup : Trace (RecreateIo Step)} : s.failed = false ->
      s.generation ≠ 0xffffffff -> plan kind enabled = first ++ step :: rest ->
      s1.generation = s.generation + 1 -> s1.failed = true -> s1.cleanupPending = true ->
      s1.releaseNext = 0 ->
      s1.attemptedBackends = (markAll kind (first ++ [step])
        { s with generation := s.generation + 1, releaseNext := 0 }).attemptedBackends ->
      Run (recreateCleanup kind s1) cleanup (ok, s') ->
      RunOutcome kind s enabled
        (first.map (stepEvent (s.generation + 1) true) ++
          stepEvent (s.generation + 1) false step :: cleanup) s'

variable {ok : Bool}

theorem recreateRun_outcome {enabled : UInt32}
    (hrun : Run (recreateRun kind s enabled) trace (ok, s')) :
    RunOutcome kind s enabled trace s' := by
  unfold recreateRun at hrun
  split at hrun
  · obtain ⟨rfl, ⟨⟩⟩ := run_ret_iff.mp hrun
    exact .refused
  case isFalse hguard =>
    simp only [Bool.or_eq_true, not_or, Bool.not_eq_true, beq_iff_eq] at hguard
    obtain ⟨⟨⟨-, hfailed⟩, hpending⟩, hgeneration⟩ := hguard
    obtain ⟨first, second, ⟨failure, s1⟩, rfl, hsteps, hrest⟩ := run_bind_iff.mp hrun
    obtain ⟨made, hmade, rfl⟩ := recreateSteps_run hsteps
    obtain ⟨attempted, hmarked⟩ := markAll_eq kind made
      { s with generation := s.generation + 1, releaseNext := 0 }
    cases hmade with
    | completed =>
      obtain ⟨_, rest, rfl, hret⟩ := run_op_iff.mp hrest
      obtain ⟨rfl, ⟨⟩⟩ := run_ret_iff.mp hret
      refine .completed hfailed hgeneration ?_ ?_ ?_ rfl
      · exact congrArg Recreate.generation hmarked
      · exact (congrArg Recreate.failed hmarked).trans hfailed
      · exact (congrArg Recreate.cleanupPending hmarked).trans hpending
    | @failed init rest step hplan =>
      obtain ⟨cleanup, tail, ⟨ok', s2⟩, rfl, hcleanup, hret⟩ := run_bind_iff.mp hrest
      obtain ⟨rfl, ⟨⟩⟩ := run_ret_iff.mp hret
      rw [append_nil, append_assoc, singleton_append]
      refine RunOutcome.failed hfailed hgeneration hplan ?_ ?_ ?_ ?_ ?_ hcleanup
      · exact congrArg Recreate.generation hmarked
      · rfl
      · rfl
      · exact congrArg Recreate.releaseNext hmarked
      · rfl

/-! ## What every history keeps -/

/-- A step, its generation and its answer. -/
def stepsOf (trace : Trace (RecreateIo Step)) : List (Step × UInt32 × Bool) :=
  trace.filterMap fun
    | ⟨.step step generation, ok⟩ => some (step, generation, ok)
    | _ => none

@[simp]
theorem stepsOf_append (first second : Trace (RecreateIo Step)) :
    stepsOf (first ++ second) = stepsOf first ++ stepsOf second := filterMap_append ..

@[simp]
theorem stepsOf_map (generation : UInt32) (ok : Bool) (steps : List Step) :
    stepsOf (steps.map (stepEvent generation ok)) = steps.map (·, generation, ok) := by
  unfold stepsOf
  rw [filterMap_map]
  exact filterMap_eq_map ▸ rfl

theorem stepsOf_cleanup (hcleanup : ∀ event ∈ trace, IsCleanup event) : stepsOf trace = [] := by
  refine filterMap_eq_nil_iff.mpr fun event hmem => ?_
  have hevent := hcleanup event hmem
  obtain ⟨request, answer⟩ := event
  cases request with
  | step step generation => exact hevent.elim
  | _ => rfl

/-- The calls that made steps. -/
def runsOf (history : List (RecreateRecord Step)) : List (RecreateRecord Step) :=
  history.filter fun r => !(stepsOf r.trace).isEmpty

/-- The runs are numbered from one, and there were `n` of them. -/
structure NumberedRuns (history : List (RecreateRecord Step)) (n : Nat) : Prop where
  length : (runsOf history).length = n
  generation : ∀ k r, (runsOf history)[k]? = some r -> ∀ entry ∈ stepsOf r.trace,
    entry.2.1.toNat = k + 1

/-- A call that did nothing, or a run that completed. -/
def Harmless (kind : RecreateKind Step) (r : RecreateRecord Step) : Prop :=
  r.trace = [] \/ ∃ enabled generation, r.call = .run enabled /\
    r.trace = (plan kind enabled).map (stepEvent generation true) ++ [publishEvent]

structure CleanHistory (kind : RecreateKind Step) (history : List (RecreateRecord Step))
    (s : Recreate Step) : Prop where
  harmless : ∀ r ∈ history, Harmless kind r
  failed : s.failed = false
  pending : s.cleanupPending = false
  attempted : s.attemptedBackends = 0
  numbered : NumberedRuns history s.generation.toNat

/-- The cleanup that is due after these steps. -/
def due [DecidableEq Step] (kind : RecreateKind Step) (made : List Step) : List CleanupStage :=
  ((range kind.backends).filter fun i => ∃ step ∈ made, kind.owner step = some i).map
    .detach ++ (range kind.releases).map .release

/-- A failed run, and the calls before and after it. -/
structure Failure (Step : Type) where
  before : List (RecreateRecord Step)
  enabled : UInt32
  generation : UInt32
  first : List Step
  step : Step
  cleanup : Trace (RecreateIo Step)
  after : List (RecreateRecord Step)

namespace Failure

def record (f : Failure Step) : RecreateRecord Step :=
  ⟨.run f.enabled, f.first.map (stepEvent f.generation true) ++
    stepEvent f.generation false f.step :: f.cleanup⟩

def made (f : Failure Step) : List Step := f.first ++ [f.step]

def cleanups (f : Failure Step) : Trace (RecreateIo Step) :=
  f.cleanup ++ f.after.flatMap RecreateRecord.trace

end Failure

structure FailedHistory [DecidableEq Step] (kind : RecreateKind Step)
    (history : List (RecreateRecord Step)) (s : Recreate Step) (f : Failure Step) : Prop where
  history_eq : history = f.before ++ f.record :: f.after
  before : ∀ r ∈ f.before, Harmless kind r
  plan_eq : ∃ rest, plan kind f.enabled = f.first ++ f.step :: rest
  cleanups : ∀ event ∈ f.cleanups, IsCleanup event
  failed : s.failed = true
  pending : s.cleanupPending = false ↔ cleanupStages.left (cleanupOrder kind) s = []
  progress : Progress (due kind f.made) (f.cleanups.filterMap cleanupView)
    (cleanupStages.left (cleanupOrder kind) s)
  numbered : NumberedRuns history s.generation.toNat

theorem stepsOf_completed (generation : UInt32) (steps : List Step) :
    stepsOf (steps.map (stepEvent generation true) ++ [publishEvent]) =
      steps.map (·, generation, true) := by
  rw [stepsOf_append, stepsOf_map]
  exact append_nil _

theorem Failure.stepsOf_record (f : Failure Step)
    (hcleanup : ∀ event ∈ f.cleanup, IsCleanup event) :
    stepsOf f.record.trace =
      f.first.map (·, f.generation, true) ++ [(f.step, f.generation, false)] := by
  have hcons : stepsOf (stepEvent f.generation false f.step :: f.cleanup) =
      (f.step, f.generation, false) :: stepsOf f.cleanup := rfl
  unfold Failure.record
  rw [stepsOf_append, stepsOf_map, hcons, stepsOf_cleanup hcleanup]

theorem runsOf_append (first second : List (RecreateRecord Step)) :
    runsOf (first ++ second) = runsOf first ++ runsOf second := filter_append ..

variable {history : List (RecreateRecord Step)}

theorem NumberedRuns.idle {n : Nat} (hnumbered : NumberedRuns history n) {r : RecreateRecord Step}
    (hidle : stepsOf r.trace = []) :
    NumberedRuns (history ++ [r]) n := by
  have hsame : runsOf (history ++ [r]) = runsOf history := by
    rw [runsOf_append]
    simp [runsOf, hidle]
  exact ⟨hsame ▸ hnumbered.length, hsame ▸ hnumbered.generation⟩

theorem NumberedRuns.run {n : Nat} (hnumbered : NumberedRuns history n) {r : RecreateRecord Step}
    (hsteps : stepsOf r.trace ≠ [])
    (hgeneration : ∀ entry ∈ stepsOf r.trace, entry.2.1.toNat = n + 1) :
    NumberedRuns (history ++ [r]) (n + 1) := by
  have hmore : runsOf (history ++ [r]) = runsOf history ++ [r] := by
    rw [runsOf_append]
    simp [runsOf, hsteps]
  constructor
  · rw [hmore, length_append, hnumbered.length, length_singleton]
  · intro k r' hr' entry hentry
    rw [hmore] at hr'
    rcases Nat.lt_or_ge k n with hk | hk
    · rw [getElem?_append_left (hnumbered.length ▸ hk)] at hr'
      exact hnumbered.generation k r' hr' entry hentry
    · rw [getElem?_append_right (hnumbered.length ▸ hk), hnumbered.length] at hr'
      rw [getElem?_singleton] at hr'
      split at hr'
      case isTrue hlast =>
        cases hr'
        rw [hgeneration entry hentry]
        omega
      case isFalse => cases hr'

/-- What the proof needs of a kind of transaction; `rebind` says which steps hand memory to a
service. -/
structure KindOk (kind : RecreateKind Step) (rebind : Step -> Option Nat) : Prop where
  backends_le : kind.backends <= 32
  owner_lt : ∀ step b, kind.owner step = some b -> b < kind.backends
  rebind_owner : ∀ step b, rebind step = some b -> kind.owner step = some b
  rebind_first : ∀ first ∈ kind.steps.inits, ∀ step ∈ first, ∀ b ∈ kind.owner step,
    ∃ step' ∈ first, rebind step' = some b
  head : ∃ step rest, kind.steps = step :: rest /\ kind.owner step = none

theorem plan_ne_nil {rebind : Step -> Option Nat} (hkind : KindOk kind rebind) (enabled : UInt32) :
    plan kind enabled ≠ [] := by
  obtain ⟨step, rest, hsteps, howner⟩ := hkind.head
  unfold plan
  rw [hsteps, filter_cons_of_pos (by unfold stepEnabled; rw [howner])]
  exact cons_ne_nil _ _

section Histories

variable [DecidableEq Step] {kind : RecreateKind Step} {rebind : Step -> Option Nat}
  (hkind : KindOk kind rebind)

include hkind

/-- At the start of the cleanup exactly what is due is left. -/
theorem left_eq_due {made : List Step} {s1 : Recreate Step} (hs : s.attemptedBackends = 0)
    (hattempted : s1.attemptedBackends = (markAll kind made s).attemptedBackends)
    (hrelease : s1.releaseNext = 0) :
    cleanupStages.left (cleanupOrder kind) s1 = due kind made := by
  unfold Stages.left cleanupOrder due
  rw [filter_append, filter_map, filter_map]
  congr 2
  · refine filter_congr fun i hi => ?_
    have hsmall : i < 32 := (mem_range.mp hi).trans_le hkind.backends_le
    have howner (step : Step) (b : Nat) (h : kind.owner step = some b) : b < 32 :=
      (hkind.owner_lt step b h).trans_le hkind.backends_le
    show (!!hasBit s1.attemptedBackends i) = _
    rw [hattempted, Bool.not_not, Bool.eq_iff_iff, <- not_iff_not, Bool.not_eq_true,
      markAll_bit howner hsmall, hs]
    simp
  · refine filter_eq_self.mpr fun i _ => ?_
    show (!decide (i < s1.releaseNext)) = true
    rw [hrelease]
    rfl

theorem clean_step {call : RecreateCall} (hclean : CleanHistory kind history s)
    (hrun : Run (recreateCode kind s call) trace (ok, s')) :
    CleanHistory kind (history ++ [⟨call, trace⟩]) s' \/
      ∃ f, FailedHistory kind (history ++ [⟨call, trace⟩]) s' f := by
  have hmore {r : RecreateRecord Step} (hr : Harmless kind r) :
      ∀ r' ∈ history ++ [r], Harmless kind r' := by
    intro r' hr'
    rcases mem_append.mp hr' with hr' | hr'
    · exact hclean.harmless r' hr'
    · exact mem_singleton.mp hr' ▸ hr
  have hidle : CleanHistory kind (history ++ [⟨call, []⟩]) s :=
    ⟨hmore (.inl rfl), hclean.failed, hclean.pending, hclean.attempted, hclean.numbered.idle rfl⟩
  cases call with
  | cleanup =>
    have hcode : recreateCode kind s .cleanup = pure (true, s) := by
      unfold recreateCode recreateCleanup
      rw [hclean.pending]
      rfl
    rw [hcode] at hrun
    obtain ⟨rfl, ⟨⟩⟩ := run_ret_iff.mp hrun
    exact .inl hidle
  | run enabled =>
    cases recreateRun_outcome hrun with
    | refused => exact .inl hidle
    | completed _ hlast hgeneration hfailed hpending hattempted =>
      refine .inl ⟨hmore (.inr ⟨enabled, _, rfl, rfl⟩), hfailed, hpending, hattempted, ?_⟩
      rw [hgeneration, toNat_next hlast]
      refine hclean.numbered.run ?_ ?_
      · rw [stepsOf_completed]
        exact fun hnil => plan_ne_nil hkind enabled (map_eq_nil_iff.mp hnil)
      · rw [stepsOf_completed]
        intro entry hentry
        obtain ⟨step, -, rfl⟩ := mem_map.mp hentry
        exact toNat_next hlast
    | @failed first rest step s1 _ ok' cleanup _ hlast hplan hgeneration hfailed hpending
        hrelease hattempted hcleanup =>
        obtain ⟨hattempt, hdone, hgeneration', hfailed', hevents⟩ :=
          cleanup_run hkind.backends_le hpending hcleanup
        rw [left_eq_due hkind (by exact hclean.attempted) hattempted hrelease] at hattempt
        let f : Failure Step := ⟨history, enabled, s.generation + 1, first, step, cleanup, []⟩
        have hcleanups : f.cleanups = cleanup := append_nil _
        refine .inr ⟨f, rfl, hclean.harmless, ⟨rest, hplan⟩, ?_, ?_, hdone, ?_, ?_⟩
        · rw [hcleanups]
          exact hevents
        · exact hfailed'.trans hfailed
        · rw [hcleanups]
          exact (Progress.start _).attempt hattempt
        · rw [hgeneration', hgeneration, toNat_next hlast]
          have hsteps := f.stepsOf_record hevents
          refine hclean.numbered.run (r := f.record) ?_ ?_
          · rw [hsteps]
            exact append_ne_nil_of_right_ne_nil _ (cons_ne_nil _ _)
          · rw [hsteps]
            intro entry hentry
            rw [mem_append, mem_map, mem_singleton] at hentry
            rcases hentry with ⟨made, -, rfl⟩ | rfl
            · exact toNat_next hlast
            · exact toNat_next hlast

/-- After the failure only the cleanup goes on. -/
theorem failed_step {call : RecreateCall} {f : Failure Step}
    (hfailed : FailedHistory kind history s f)
    (hrun : Run (recreateCode kind s call) trace (ok, s')) :
    FailedHistory kind (history ++ [⟨call, trace⟩]) s'
      { f with after := f.after ++ [⟨call, trace⟩] } := by
  have hhistory {r : RecreateRecord Step} : history ++ [r] = f.before ++ f.record ::
      (f.after ++ [r]) := by
    rw [hfailed.history_eq, append_assoc, cons_append]
  have hcleanups : ({ f with after := f.after ++ [⟨call, trace⟩] } : Failure Step).cleanups =
      f.cleanups ++ trace := by
    simp [Failure.cleanups]
  -- a call that makes no request
  have hidle (htrace : trace = []) (hs : s' = s) : FailedHistory kind (history ++ [⟨call, trace⟩])
      s' { f with after := f.after ++ [⟨call, trace⟩] } := by
    subst htrace hs
    rw [append_nil] at hcleanups
    exact ⟨hhistory, hfailed.before, hfailed.plan_eq, hcleanups ▸ hfailed.cleanups,
      hfailed.failed, hfailed.pending, hcleanups ▸ hfailed.progress, hfailed.numbered.idle rfl⟩
  cases call with
  | run enabled =>
    cases recreateRun_outcome hrun with
    | refused => exact hidle rfl rfl
    | completed hok => cases hok.symm.trans hfailed.failed
    | failed hok => cases hok.symm.trans hfailed.failed
  | cleanup =>
    cases hpending : s.cleanupPending with
    | false =>
      have hcode : recreateCode kind s .cleanup = pure (true, s) := by
        unfold recreateCode recreateCleanup
        rw [hpending]
        rfl
      rw [hcode] at hrun
      obtain ⟨rfl, hresult⟩ := run_ret_iff.mp hrun
      exact hidle rfl (Prod.mk.inj hresult).2
    | true =>
      obtain ⟨hattempt, hdone, hgeneration, hstill, hevents⟩ :=
        cleanup_run hkind.backends_le hpending hrun
      refine ⟨hhistory, hfailed.before, hfailed.plan_eq, ?_, hstill.trans hfailed.failed,
        hdone, ?_, ?_⟩
      · rw [hcleanups]
        exact forall_mem_append.mpr ⟨hfailed.cleanups, hevents⟩
      · rw [hcleanups, filterMap_append]
        exact hfailed.progress.attempt hattempt
      · rw [hgeneration]
        exact hfailed.numbered.idle (stepsOf_cleanup hevents)

theorem recreated_history (hrecreated : Recreated (recreateCode kind) history s) :
    CleanHistory kind history s \/ ∃ f, FailedHistory kind history s f := by
  induction hrecreated with
  | zero =>
    refine .inl ⟨nofun, rfl, rfl, rfl, rfl, ?_⟩
    intro k r hr
    cases hr
  | call _ hrun ih =>
    rcases ih with hclean | ⟨f, hfailed⟩
    · exact clean_step hkind hclean hrun
    · exact .inr ⟨_, failed_step hkind hfailed hrun⟩

end Histories

end AgentOs.GuestVmm
