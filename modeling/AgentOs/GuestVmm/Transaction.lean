import AgentOs.GuestVmm.History
import Mathlib.Data.List.Nodup

/-!
# Re-creation is a transaction

After the first step that fails nothing but cleanup happens, however often the cleanup is tried.
-/

namespace AgentOs.GuestVmm

open Library Prog Resumable List Option

variable {Step : Type}

/-! ## The transaction -/

/-- The detaches that succeeded. -/
def detached (trace : Trace (RecreateIo Step)) : List Nat :=
  trace.filterMap fun
    | ⟨.detach i, true⟩ => some i
    | _ => none

/-- The releases that succeeded. -/
def released (trace : Trace (RecreateIo Step)) : List Nat :=
  trace.filterMap fun
    | ⟨.release i, true⟩ => some i
    | _ => none

/-- The services whose rebind was attempted. -/
def rebound (rebind : Step -> Option Nat) (trace : Trace (RecreateIo Step)) : List Nat :=
  (stepsOf trace).filterMap fun entry => rebind entry.1

/-- A step failed. -/
def Fails (r : RecreateRecord Step) : Prop :=
  ∃ step generation, stepEvent generation false step ∈ r.trace

/-- The cleanup after the failed run `r`, with everything requested so far. -/
structure CleansUp (kind : RecreateKind Step) (rebind : Step -> Option Nat)
    (r : RecreateRecord Step) (log : Trace (RecreateIo Step))
    (s : Recreate Step) : Prop where
  detachOnly : ∀ i ok, (⟨.detach i, ok⟩ : Event (RecreateIo Step)) ∈ log -> i ∈ rebound rebind r.trace
  detachOnce : (detached log).Nodup
  releaseAfter : ∀ before i ok after, log = before ++ ⟨.release i, ok⟩ :: after ->
    ∀ b ∈ rebound rebind r.trace, b ∈ detached before
  releaseOnce : ∃ k ≤ kind.releases, released log = range k
  pending : s.cleanupPending = false ↔
    (∀ b ∈ rebound rebind r.trace, b ∈ detached log) /\ released log = range kind.releases

/-- What holds of the calls made so far and of the state after them. -/
structure Transaction (kind : RecreateKind Step) (rebind : Step -> Option Nat)
    (history : List (RecreateRecord Step)) (s : Recreate Step) : Prop where
  publishes : ∀ r ∈ history, publishEvent ∈ r.trace ↔ ∃ enabled generation,
    r.call = .run enabled /\
    r.trace = (plan kind enabled).map (stepEvent generation true) ++ [publishEvent]
  completes : ∀ r ∈ history, ∀ enabled, r.call = .run enabled ->
    (∃ generation, stepsOf r.trace = (plan kind enabled).map (·, generation, true)) ->
    publishEvent ∈ r.trace
  numbered : NumberedRuns history s.generation.toNat
  stops : ∀ first r after, history = first ++ r :: after -> ∀ before step generation rest,
    r.trace = before ++ stepEvent generation false step :: rest ->
    (∀ event ∈ rest, IsCleanup event) /\ ∀ r' ∈ after, ∀ event ∈ r'.trace, IsCleanup event
  cleansUp : ∀ r ∈ history, Fails r ->
    CleansUp kind rebind r (history.flatMap RecreateRecord.trace) s
  untouched : (∀ r ∈ history, ¬Fails r) ->
    s.cleanupPending = false /\ ∀ r ∈ history, ∀ event ∈ r.trace, ¬IsCleanup event

def CleanupStage.backend : CleanupStage -> Option Nat
  | .detach i => some i
  | .release _ => none

def CleanupStage.resource : CleanupStage -> Option Nat
  | .detach _ => none
  | .release i => some i

/-- The detaches and the releases that succeeded are both seen through the stages. -/
theorem cleaned_eq (trace : Trace (RecreateIo Step)) :
    detached trace = (successes (trace.filterMap cleanupView)).filterMap CleanupStage.backend /\
    released trace = (successes (trace.filterMap cleanupView)).filterMap CleanupStage.resource := by
  unfold detached released successes
  simp only [filterMap_filterMap]
  constructor <;> refine filterMap_congr fun event _ => ?_ <;>
    obtain ⟨request, answer⟩ := event
  all_goals
    cases request with
    | detach i => cases answer <;> rfl
    | release i => cases answer <;> rfl
    | _ => rfl

variable {i : Nat}

theorem mem_detached_iff {trace : Trace (RecreateIo Step)} :
    i ∈ detached trace ↔ .detach i ∈ successes (trace.filterMap cleanupView) := by
  rw [(cleaned_eq trace).1, mem_filterMap]
  constructor
  · rintro ⟨stage, hmem, hstage⟩
    cases stage with
    | detach j => exact some.inj hstage ▸ hmem
    | release j => cases hstage
  · exact fun hmem => ⟨_, hmem, rfl⟩

theorem mem_released_iff {trace : Trace (RecreateIo Step)} :
    i ∈ released trace ↔ .release i ∈ successes (trace.filterMap cleanupView) := by
  rw [(cleaned_eq trace).2, mem_filterMap]
  constructor
  · rintro ⟨stage, hmem, hstage⟩
    cases stage with
    | detach j => cases hstage
    | release j => exact some.inj hstage ▸ hmem
  · exact fun hmem => ⟨_, hmem, rfl⟩

section Due

variable [DecidableEq Step] {kind : RecreateKind Step} {made : List Step}

theorem detach_mem_due :
    .detach i ∈ due kind made ↔ i < kind.backends /\ ∃ step ∈ made, kind.owner step = some i := by
  simp [due]

theorem release_mem_due : .release i ∈ due kind made ↔ i < kind.releases := by
  simp [due]

theorem due_sublist : (due kind made).Sublist (cleanupOrder kind) :=
  (filter_sublist.map _).append (List.Sublist.refl _)

theorem due_nodup : (due kind made).Nodup := List.Nodup.sublist due_sublist
    (cleanupOrder_nodup kind)

theorem due_resources : (due kind made).filterMap CleanupStage.resource =
    range kind.releases := by
  unfold due
  rw [filterMap_append, filterMap_map, filterMap_map]
  have hnone : CleanupStage.resource ∘ CleanupStage.detach = fun _ => none := rfl
  have hsome : CleanupStage.resource ∘ CleanupStage.release = some := rfl
  rw [hnone, hsome, filterMap_some]
  simp

/-- Every detach that is due comes before any release. -/
theorem due_split (hi : .release i ∈ due kind made) : ∃ first rest,
    due kind made = first ++ .release i :: rest /\
      ∀ b, .detach b ∈ due kind made -> .detach b ∈ first := by
  obtain ⟨first, rest, hsplit⟩ := append_of_mem hi
  refine ⟨first, rest, hsplit, fun b hb => ?_⟩
  have hpairwise : (due kind made).Pairwise CleanupStage.Before :=
    (cleanupOrder_pairwise kind).sublist due_sublist
  rw [hsplit, pairwise_append, pairwise_cons] at hpairwise
  rw [hsplit, mem_append, mem_cons] at hb
  rcases hb with hb | hb | hb
  · exact hb
  · cases hb
  · exact (hpairwise.2.1.1 _ hb).elim

end Due

theorem tried_mem {stages left : List CleanupStage} {log : List (CleanupStage × Bool)}
    (hprogress : Progress stages log left) {stage : CleanupStage} {ok : Bool}
    (hmem : (stage, ok) ∈ log) : stage ∈ stages := by
  obtain ⟨first, rest, hlog⟩ := append_of_mem hmem
  exact (hprogress.tried first stage ok rest hlog).subset (by simp)

variable {r : RecreateRecord Step} {kind : RecreateKind Step}

theorem harmless_event (hharmless : Harmless kind r) {event : Event (RecreateIo Step)}
    (hmem : event ∈ r.trace) :
    (∃ step generation, event = stepEvent generation true step) \/ event = publishEvent := by
  rcases hharmless with hnil | ⟨enabled, generation, -, htrace⟩
  · rw [hnil] at hmem
    cases hmem
  · rw [htrace, mem_append, List.mem_map, mem_singleton] at hmem
    rcases hmem with ⟨step, -, rfl⟩ | rfl
    · exact .inl ⟨step, generation, rfl⟩
    · exact .inr rfl

theorem harmless_publishes (hharmless : Harmless kind r) :
    publishEvent ∈ r.trace ↔ ∃ enabled generation,
      r.call = .run enabled /\
      r.trace = (plan kind enabled).map (stepEvent generation true) ++ [publishEvent] := by
  constructor
  · intro hmem
    refine hharmless.resolve_left fun hnil => ?_
    rw [hnil] at hmem
    cases hmem
  · rintro ⟨enabled, generation, -, htrace⟩
    rw [htrace]
    exact mem_append_right _ mem_cons_self

theorem harmless_completes {rebind : Step -> Option Nat} (hkind : KindOk kind rebind)
    (hharmless : Harmless kind r) {enabled : UInt32}
    (hsteps : ∃ generation, stepsOf r.trace = (plan kind enabled).map (·, generation, true)) :
    publishEvent ∈ r.trace := by
  refine (harmless_publishes hharmless).mpr (hharmless.resolve_left fun hnil => ?_)
  obtain ⟨generation, hsteps⟩ := hsteps
  rw [hnil] at hsteps
  exact plan_ne_nil hkind enabled (map_eq_nil_iff.mp hsteps.symm)

theorem harmless_not_fails (hharmless : Harmless kind r) : ¬Fails r := by
  rintro ⟨step, generation, hmem⟩
  rcases harmless_event hharmless hmem with ⟨step', generation', heq⟩ | heq
  · cases heq
  · cases heq

theorem harmless_not_cleanup (hharmless : Harmless kind r) :
    ∀ event ∈ r.trace, ¬IsCleanup event := by
  intro event hmem hcleanup
  rcases harmless_event hharmless hmem with ⟨step, generation, rfl⟩ | rfl
  · exact hcleanup
  · exact hcleanup

theorem cleanupView_eq_none {event : Event (RecreateIo Step)} (hevent : ¬IsCleanup event) :
    cleanupView event = none := by
  obtain ⟨request, answer⟩ := event
  cases request with
  | detach i => exact absurd trivial hevent
  | release i => exact absurd trivial hevent
  | _ => rfl

section Failed

variable [DecidableEq Step] {kind : RecreateKind Step} {rebind : Step -> Option Nat}
  {history : List (RecreateRecord Step)} {s : Recreate Step} {f : Failure Step}

variable (hfailed : FailedHistory kind history s f)

include hfailed

theorem FailedHistory.cleanup : ∀ event ∈ f.cleanup, IsCleanup event :=
  fun event hmem => hfailed.cleanups event (mem_append_left _ hmem)

theorem FailedHistory.later : ∀ r ∈ f.after, ∀ event ∈ r.trace, IsCleanup event :=
  fun r hr event hmem =>
    hfailed.cleanups event (mem_append_right _ (mem_flatMap.mpr ⟨r, hr, hmem⟩))

/-- Only the cleanup detaches and releases. -/
theorem FailedHistory.view_log :
    (history.flatMap RecreateRecord.trace).filterMap cleanupView =
      f.cleanups.filterMap cleanupView := by
  have hbefore : (f.before.flatMap RecreateRecord.trace).filterMap cleanupView = [] := by
    refine filterMap_eq_nil_iff.mpr fun event hmem => ?_
    obtain ⟨r, hr, hmem⟩ := mem_flatMap.mp hmem
    exact cleanupView_eq_none (harmless_not_cleanup (hfailed.before r hr) event hmem)
  have hsteps : f.record.trace.filterMap cleanupView = f.cleanup.filterMap cleanupView := by
    have hfirst : (f.first.map (stepEvent f.generation true)).filterMap cleanupView = [] := by
      refine filterMap_eq_nil_iff.mpr fun event hmem => ?_
      obtain ⟨step, -, rfl⟩ := mem_map.mp hmem
      rfl
    unfold Failure.record
    rw [filterMap_append, hfirst]
    rfl
  rw [hfailed.history_eq, flatMap_append, flatMap_cons, filterMap_append,
    filterMap_append, hbefore, hsteps, nil_append]
  exact filterMap_append.symm

theorem FailedHistory.fails_iff (hr : r ∈ history) (hfails : Fails r) : r = f.record := by
  rw [hfailed.history_eq, mem_append, mem_cons] at hr
  rcases hr with hr | hr | hr
  · exact absurd hfails (harmless_not_fails (hfailed.before r hr))
  · exact hr
  · obtain ⟨step, generation, hmem⟩ := hfails
    exact (hfailed.later r hr _ hmem).elim

/-- The services to detach are those whose rebind was attempted. -/
theorem FailedHistory.rebound_iff (hkind : KindOk kind rebind) {b : Nat} :
    b ∈ rebound rebind f.record.trace ↔ .detach b ∈ due kind f.made := by
  have hrebound : rebound rebind f.record.trace = f.made.filterMap rebind := by
    unfold rebound Failure.made
    rw [f.stepsOf_record hfailed.cleanup, filterMap_append, filterMap_append,
      filterMap_map]
    rfl
  rw [hrebound, detach_mem_due, mem_filterMap]
  constructor
  · rintro ⟨step, hstep, hb⟩
    have howner := hkind.rebind_owner step b hb
    exact ⟨hkind.owner_lt step b howner, step, hstep, howner⟩
  · rintro ⟨-, step, hstep, howner⟩
    obtain ⟨rest, hplan⟩ := hfailed.plan_eq
    have hmade : kind.steps.filter (stepEnabled kind f.enabled) = f.made ++ rest := by
      rw [Failure.made, append_assoc, singleton_append]
      exact hplan
    obtain ⟨first, later, hsteps, hfirst, -⟩ := filter_eq_append_iff.mp hmade
    rw [<- hfirst] at hstep ⊢
    obtain ⟨hmem, henabled⟩ := mem_filter.mp hstep
    obtain ⟨step', hmem', hrebind⟩ := hkind.rebind_first first
      ((mem_inits _ _).mpr ⟨later, hsteps.symm⟩) step hmem b howner
    refine ⟨step', mem_filter.mpr ⟨hmem', ?_⟩, hrebind⟩
    -- the steps of one service are enabled together
    unfold stepEnabled at henabled ⊢
    rw [howner] at henabled
    rw [hkind.rebind_owner step' b hrebind]
    exact henabled

theorem FailedHistory.cleansUp (hkind : KindOk kind rebind) :
    CleansUp kind rebind f.record (history.flatMap RecreateRecord.trace) s := by
  have hview := hfailed.view_log
  have hprogress := hfailed.progress
  rw [<- hview] at hprogress
  have hsplit := congrArg (List.filterMap CleanupStage.resource) hprogress.split
  rw [filterMap_append, <- (cleaned_eq _).2, due_resources] at hsplit
  constructor
  · intro i ok hmem
    rw [hfailed.rebound_iff hkind]
    exact tried_mem hprogress (mem_filterMap.mpr ⟨_, hmem, rfl⟩)
  · rw [(cleaned_eq _).1]
    refine List.Nodup.filterMap ?_ (hprogress.nodup due_nodup)
    intro a b i ha hb
    cases a with
    | release j => cases ha
    | detach j =>
      cases b with
      | release k => cases hb
      | detach k => rw [Option.mem_some_iff.mp ha, Option.mem_some_iff.mp hb]
  · intro before i ok after hlog b hb
    have htried : (history.flatMap RecreateRecord.trace).filterMap cleanupView =
        before.filterMap cleanupView ++ (.release i, ok) :: after.filterMap cleanupView := by
      rw [hlog, filterMap_append]
      rfl
    obtain ⟨first, rest, hdue, hdetach⟩ := due_split (tried_mem hprogress
      (htried ▸ mem_append_right _ mem_cons_self))
    rw [mem_detached_iff, hprogress.earlier htried hdue due_nodup]
    exact hdetach b ((hfailed.rebound_iff hkind).mp hb)
  · have hprefix : released (history.flatMap RecreateRecord.trace) <+: range kind.releases :=
      ⟨_, hsplit⟩
    rw [prefix_iff_eq_take, take_range] at hprefix
    exact ⟨_, Nat.min_le_right _ _, hprefix⟩
  · rw [hfailed.pending]
    constructor
    · intro hnil
      rw [hnil, filterMap_nil, append_nil] at hsplit
      refine ⟨fun b hb => ?_, hsplit⟩
      have hall := hprogress.split
      rw [hnil, append_nil] at hall
      rw [mem_detached_iff, hall]
      exact (hfailed.rebound_iff hkind).mp hb
    · rintro ⟨hdetached, hreleased⟩
      refine eq_nil_iff_forall_not_mem.mpr fun stage hleft => ?_
      have hdue : stage ∈ due kind f.made := by
        rw [<- hprogress.split]
        exact mem_append_right _ hleft
      have hnodup : (due kind f.made).Nodup := due_nodup
      rw [<- hprogress.split, nodup_append] at hnodup
      refine hnodup.2.2 stage ?_ stage hleft rfl
      cases stage with
      | detach b => exact mem_detached_iff.mp (hdetached b ((hfailed.rebound_iff hkind).mpr hdue))
      | release i =>
        refine mem_released_iff.mp ?_
        rw [hreleased]
        exact mem_range.mpr (release_mem_due.mp hdue)

theorem FailedHistory.publishes (hr : r ∈ history) (hpublish : publishEvent ∈ r.trace) :
    Harmless kind r := by
  rw [hfailed.history_eq, mem_append, mem_cons] at hr
  rcases hr with hr | rfl | hr
  · exact hfailed.before r hr
  · rcases mem_append.mp hpublish with hmem | hmem
    · obtain ⟨step, -, ⟨⟩⟩ := mem_map.mp hmem
    · rcases mem_cons.mp hmem with heq | hmem
      · cases heq
      · exact (hfailed.cleanup _ hmem).elim
  · exact (hfailed.later r hr _ hpublish).elim

theorem FailedHistory.completes (hkind : KindOk kind rebind) (hr : r ∈ history) {enabled : UInt32}
    (hsteps : ∃ generation, stepsOf r.trace = (plan kind enabled).map (·, generation, true)) :
    publishEvent ∈ r.trace := by
  have hall := hsteps
  obtain ⟨generation, hsteps⟩ := hsteps
  rw [hfailed.history_eq, mem_append, mem_cons] at hr
  rcases hr with hr | rfl | hr
  · exact harmless_completes hkind (hfailed.before r hr) hall
  · have hlast : (f.step, f.generation, false) ∈ stepsOf f.record.trace := by
      rw [f.stepsOf_record hfailed.cleanup]
      exact mem_append_right _ mem_cons_self
    rw [hsteps] at hlast
    obtain ⟨step, -, ⟨⟩⟩ := mem_map.mp hlast
  · rw [stepsOf_cleanup (hfailed.later r hr)] at hsteps
    exact absurd (map_eq_nil_iff.mp hsteps.symm) (plan_ne_nil hkind enabled)

/-- The failing step of the failing run is the last step of all. -/
theorem FailedHistory.stops {first after : List (RecreateRecord Step)}
    (hhistory : history = first ++ r :: after)
    {before rest : Trace (RecreateIo Step)} {step : Step} {generation : UInt32}
    (htrace : r.trace = before ++ stepEvent generation false step :: rest) :
    (∀ event ∈ rest, IsCleanup event) /\ ∀ r' ∈ after, ∀ event ∈ r'.trace, IsCleanup event := by
  have hmem : stepEvent generation false step ∈ r.trace := by
    rw [htrace]
    exact mem_append_right _ mem_cons_self
  have hbefore : r ∉ f.before := fun hr =>
    harmless_not_fails (hfailed.before r hr) ⟨step, generation, hmem⟩
  have hafter : r ∉ f.after := fun hr => hfailed.later r hr _ hmem
  rw [hfailed.history_eq] at hhistory
  obtain ⟨-, rfl, rfl⟩ := (append_cons_inj_of_notMem hbefore hafter).mp hhistory
  refine ⟨?_, hfailed.later⟩
  have hfirst : stepEvent generation false step ∉ f.first.map (stepEvent f.generation true) := by
    intro hstep
    obtain ⟨made, -, ⟨⟩⟩ := mem_map.mp hstep
  have hcleanup : stepEvent generation false step ∉ f.cleanup := fun hstep =>
    hfailed.cleanup _ hstep
  obtain ⟨-, -, rfl⟩ := (append_cons_inj_of_notMem hfirst hcleanup).mp htrace
  exact hfailed.cleanup

theorem FailedHistory.transaction (hkind : KindOk kind rebind) : Transaction kind rebind history s := by
  have hrecord : Fails f.record :=
    ⟨f.step, f.generation, mem_append_right _ mem_cons_self⟩
  have hmem : f.record ∈ history := by
    rw [hfailed.history_eq]
    exact mem_append_right _ mem_cons_self
  constructor
  · intro r hr
    constructor
    · intro hpublish
      exact (harmless_publishes (hfailed.publishes hr hpublish)).mp hpublish
    · rintro ⟨enabled, generation, -, htrace⟩
      rw [htrace]
      exact mem_append_right _ mem_cons_self
  · intro r hr enabled _ hsteps
    exact hfailed.completes hkind hr hsteps
  · exact hfailed.numbered
  · intro first r after hhistory before step generation rest htrace
    exact hfailed.stops hhistory htrace
  · intro r hr hfails
    rw [hfailed.fails_iff hr hfails]
    exact hfailed.cleansUp hkind
  · intro hnone
    exact absurd hrecord (hnone _ hmem)

end Failed

theorem CleanHistory.transaction {rebind : Step -> Option Nat} (hkind : KindOk kind rebind)
    {history : List (RecreateRecord Step)} {s : Recreate Step}
    (hclean : CleanHistory kind history s) : Transaction kind rebind history s := by
  constructor
  · intro r hr
    exact harmless_publishes (hclean.harmless r hr)
  · intro r hr enabled _ hsteps
    exact harmless_completes hkind (hclean.harmless r hr) hsteps
  · exact hclean.numbered
  · intro first r after hhistory before step generation rest htrace
    refine absurd ⟨step, generation, ?_⟩ (harmless_not_fails (hclean.harmless r ?_))
    · rw [hhistory]
      exact mem_append_right _ mem_cons_self
    · rw [htrace]
      exact mem_append_right _ mem_cons_self
  · intro r hr hfails
    exact absurd hfails (harmless_not_fails (hclean.harmless r hr))
  · intro _
    exact ⟨hclean.pending, fun r hr => harmless_not_cleanup (hclean.harmless r hr)⟩

/-! ## The two kinds -/

/-- The graphics service gets its memory when its stage is set up. -/
def armRebind : ArmRecreateStep -> Option Nat
  | .netRebind => some 0
  | .blkRebind => some 1
  | .serialRebind => some 2
  | .inputRebind => some 3
  | .graphicsStage => some 4
  | _ => none

theorem x86Recreate_ok : KindOk x86Recreate x86Recreate.owner where
  backends_le := by decide
  owner_lt step b h := by
    cases step <;> cases h <;> decide
  rebind_owner _ _ h := h
  rebind_first first _ step hstep b hb := ⟨step, hstep, hb⟩
  head := ⟨_, _, rfl, rfl⟩

theorem armRecreate_ok : KindOk armRecreate armRebind where
  backends_le := by decide
  owner_lt step b h := by
    cases step <;> cases h <;> decide
  rebind_owner step b h := by
    cases step <;> cases h <;> rfl
  rebind_first := by decide
  head := ⟨_, _, rfl, rfl⟩

/-- The x86 run takes no mask. -/
def x86RecreateCode (s : Recreate X86RecreateStep) :
    RecreateCall -> RecreateM X86RecreateStep (Bool × Recreate X86RecreateStep)
  | .run _ => aosX86RecreateRun s
  | .cleanup => aosX86RecreateCleanup s

def armRecreateCode (s : Recreate ArmRecreateStep) :
    RecreateCall -> RecreateM ArmRecreateStep (Bool × Recreate ArmRecreateStep)
  | .run enabled => aosArmRecreateRun s enabled
  | .cleanup => aosArmRecreateCleanup s

theorem x86RecreateCode_eq : x86RecreateCode = recreateCode x86Recreate := by
  funext s call
  cases call with
  | run enabled => rfl
  | cleanup => rfl

theorem armRecreateCode_eq : armRecreateCode = recreateCode armRecreate := by
  funext s call
  cases call with
  | run enabled => rfl
  | cleanup => rfl

/-- Re-creation is a transaction, on both architectures, for all histories. -/
theorem recreate_transaction : (∀ history s, Recreated x86RecreateCode history s ->
      Transaction x86Recreate x86Recreate.owner history s) /\
    (∀ history s, Recreated armRecreateCode history s ->
      Transaction armRecreate armRebind history s) := by
  constructor
  · intro history s hrecreated
    rw [x86RecreateCode_eq] at hrecreated
    rcases recreated_history x86Recreate_ok hrecreated with hclean | ⟨f, hfailed⟩
    · exact hclean.transaction x86Recreate_ok
    · exact hfailed.transaction x86Recreate_ok
  · intro history s hrecreated
    rw [armRecreateCode_eq] at hrecreated
    rcases recreated_history armRecreate_ok hrecreated with hclean | ⟨f, hfailed⟩
    · exact hclean.transaction armRecreate_ok
    · exact hfailed.transaction armRecreate_ok

/-- The steps before a rebind succeed; the service cannot be rebound, and at first not be
detached either. -/
def rebindFails (before : List Step) (rebind : Step) (backend : Nat) :
    Trace (RecreateIo Step) :=
  before.map (stepEvent 1 true) ++ [stepEvent 1 false rebind, ⟨.retire, ()⟩, ⟨.detach backend, false⟩]

def cleanupSucceeds (backend : Nat) : Trace (RecreateIo Step) :=
  [⟨.retire, ()⟩, ⟨.detach backend, true⟩] ++ (range 5).map fun i => ⟨.release i, true⟩

def retriedX86 : List (RecreateRecord X86RecreateStep) :=
  [⟨.run 0, rebindFails [.objects, .memory, .nativeState] .netRebind 0⟩,
    ⟨.cleanup, cleanupSucceeds 0⟩]

/-- Only the block service is enabled, so the steps of the network are left out. -/
def retriedArm : List (RecreateRecord ArmRecreateStep) :=
  [⟨.run 2, rebindFails [.paging, .ram, .execution, .images, .nativeState] .blkRebind 1⟩,
    ⟨.cleanup, cleanupSucceeds 1⟩]

theorem retriedX86_recreated :
    Recreated x86RecreateCode retriedX86 ⟨1, 0, 5, some .netRebind, true, false⟩ := by
  have hrun : Run (x86RecreateCode .zero (.run 0))
      (rebindFails [.objects, .memory, .nativeState] .netRebind 0)
      (false, ⟨1, 1, 0, some .netRebind, true, true⟩) :=
    .op (.op (.op (.op (.op (.op (.ret _))))))
  have hcleanup : Run (x86RecreateCode ⟨1, 1, 0, some .netRebind, true, true⟩ .cleanup)
      (cleanupSucceeds 0) (true, ⟨1, 0, 5, some .netRebind, true, false⟩) :=
    .op (.op (.op (.op (.op (.op (.op (.ret _)))))))
  exact .call (.call .zero hrun) hcleanup

theorem retriedArm_recreated :
    Recreated armRecreateCode retriedArm ⟨1, 0, 5, some .blkRebind, true, false⟩ := by
  have hrun : Run (armRecreateCode .zero (.run 2))
      (rebindFails [.paging, .ram, .execution, .images, .nativeState] .blkRebind 1)
      (false, ⟨1, 2, 0, some .blkRebind, true, true⟩) :=
    .op (.op (.op (.op (.op (.op (.op (.op (.ret _))))))))
  have hcleanup : Run (armRecreateCode ⟨1, 2, 0, some .blkRebind, true, true⟩ .cleanup)
      (cleanupSucceeds 1) (true, ⟨1, 0, 5, some .blkRebind, true, false⟩) :=
    .op (.op (.op (.op (.op (.op (.op (.ret _)))))))
  exact .call (.call .zero hrun) hcleanup

theorem recreate_transaction_retried : Transaction x86Recreate x86Recreate.owner retriedX86
      ⟨1, 0, 5, some .netRebind, true, false⟩ /\
    Transaction armRecreate armRebind retriedArm ⟨1, 0, 5, some .blkRebind, true, false⟩ :=
  ⟨recreate_transaction.1 _ _ retriedX86_recreated,
    recreate_transaction.2 _ _ retriedArm_recreated⟩

end AgentOs.GuestVmm
