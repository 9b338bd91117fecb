import AgentOs.GuestVmm.Runtime
import AgentOs.GuestVmm.TeardownOrder

/-!
# The lifecycle over whole runs

The VMM's memory and everything that was stored or called, each with the lifecycle word and the
started flag at that time.  Requests and restarts come in any order, and every call succeeds or
fails as it likes.
-/

namespace AgentOs.GuestVmm

open Library Prog Resumable Ipc List

/-! ## The VMM -/

inductive VmmEvent where
  | setState (next : GuestState)
  | setStarted (next : Bool)
  | start (ok : Bool)
  | suspend (ok : Bool)
  | resume (ok : Bool)
  | quiesceTimer
  | teardown (trace : Trace TeardownIo) (ok : Bool)
  | reset (ok : Bool)

/-- A store or a call, and what the words were at that time. -/
structure VmmEntry where
  state : GuestState
  started : Bool
  event : VmmEvent

structure Vmm where
  state : GuestState
  started : Bool
  teardown : Teardown
  log : List VmmEntry

/-- How initialization leaves the guest: to be booted on request (managed and dual builds),
started at once (the other builds), or neither, when it returns early and the word keeps its
static value. -/
inductive VmmStart where
  | waiting | booted | unfinished
  deriving DecidableEq

def Vmm.init : VmmStart -> Vmm
  | .waiting => ⟨.ready, false, .zero, []⟩
  | .booted => ⟨.running, true, .zero, []⟩
  | .unfinished => ⟨.running, false, .zero, []⟩

def Vmm.note (v : Vmm) (event : VmmEvent) : List VmmEntry := v.log ++ [⟨v.state, v.started, event⟩]

section Exec

variable (runtime : GuestVmmRuntime)

def runTeardown : TeardownCallback -> Teardown -> TeardownM (Bool × Teardown)
  | .control => controlTeardown runtime.build runtime.ramSize
  | .guestVmm => aosGuestTeardownStep runtime.build runtime.ramSize

/-- One of the VMMs clears the flag as soon as the execution pool is gone. -/
def startedAfter : TeardownCallback -> Teardown -> Bool -> Bool
  | .control, _, started => started
  | .guestVmm, teardown, started => started && !teardown.executionReleased

/-- What a load, a store or a callback can do.  A start sets the flag exactly when it
succeeds, and may store the word then; a reset that succeeds begins a new record. -/
inductive VmmExec : (request : RuntimeOp) -> Vmm -> RuntimeAns request -> Vmm -> Prop where
  | state (v : Vmm) : VmmExec .state v v.state v
  | started (v : Vmm) : VmmExec .started v v.started v
  | setState (v : Vmm) (next : GuestState) :
      VmmExec (.setState next) v () { v with state := next, log := v.note (.setState next) }
  | setStarted (v : Vmm) (next : Bool) :
      VmmExec (.setStarted next) v () { v with started := next, log := v.note (.setStarted next) }
  | start (v : Vmm) (ok : Bool) (state : GuestState)
      (hstate : state = v.state \/ ok = true /\ state = .running) :
      VmmExec .start v ok { v with state := state, started := ok, log := v.note (.start ok) }
  | suspend (v : Vmm) (ok : Bool) :
      VmmExec .suspend v ok { v with log := v.note (.suspend ok) }
  | resume (v : Vmm) (ok : Bool) :
      VmmExec .resume v ok { v with log := v.note (.resume ok) }
  | quiesceTimer (v : Vmm) :
      VmmExec .quiesceTimer v () { v with log := v.note .quiesceTimer }
  | teardown (v : Vmm) {callback : TeardownCallback} {trace : Trace TeardownIo} {ok : Bool}
      {teardown : Teardown}
      (hrun : Run (runTeardown runtime callback v.teardown) trace (ok, teardown)) :
      VmmExec (.teardown callback) v ok
        { v with teardown := teardown, started := startedAfter callback teardown v.started,
                 log := v.note (.teardown trace ok) }
  | reset (v : Vmm) (ok : Bool) :
      VmmExec .reset v ok
        { v with teardown := if ok then .zero else v.teardown, log := v.note (.reset ok) }

/-- The states that requests and restarts lead to. -/
inductive VmmReach (start : VmmStart) : Vmm -> Prop where
  | init : VmmReach start (.init start)
  | rpc {v v' : Vmm} {req rep : Sel4Msg} {reply : Option Sel4Msg} :
      VmmReach start v ->
      Executes (VmmExec runtime) (aosGuestVmmLifecycleRpc runtime req rep) v reply v' ->
      VmmReach start v'
  | restart {v v' : Vmm} {result : RestartResult} :
      VmmReach start v -> Executes (VmmExec runtime) (aosGuestVmmRestartStep runtime) v result v' ->
      VmmReach start v'

end Exec

/-! ## What the log shows -/

/-- The requests of the teardown since the last reset. -/
def currentRound (log : List VmmEntry) : Trace TeardownIo :=
  log.foldl (fun round entry => match entry.event with
    | .reset true => []
    | .teardown trace _ => round ++ trace
    | _ => round) []

/-- The stages that succeeded, in order. -/
def teardownDone (build : TeardownBuild) (round : Trace TeardownIo) : List TeardownStage :=
  successes (round.filterMap (teardownView build))

/-- The stages that make requests. -/
def shownOrder (build : TeardownBuild) : List TeardownStage :=
  (teardownOrder build).filter (shownStage build)

/-- A pool or RAM is taken away. -/
def TakesMemory (event : Event TeardownIo) : Prop :=
  (∃ slot, event.request = .revoke slot) \/ ∃ size, event.request = .ramRelease size

structure RoundOk (build : TeardownBuild) (round : Trace TeardownIo) : Prop where
  stoppedFirst : ∀ before event after, round = before ++ event :: after -> TakesMemory event ->
    .quiesce ∈ teardownDone build before /\
    ∀ backend, hasBackend build backend = true -> .detach backend ∈ teardownDone build before
  ramAfterExecution : ∀ before event after size, round = before ++ event :: after ->
    event.request = .ramRelease size -> .execution ∈ teardownDone build before
  once : (teardownDone build round).Nodup
  inOrder : teardownDone build round <+: shownOrder build

/-- A reset succeeded and nothing was stored since. -/
def ResetDone (log : List VmmEntry) : Prop :=
  ∃ first entry rest, log = first ++ entry :: rest /\ entry.event = .reset true /\
    ∀ e ∈ rest, ∀ next, e.event ≠ .setState next

/-- The guest was just suspended. -/
def SuspendDone (log : List VmmEntry) : Prop :=
  ∃ first entry rest, log = first ++ entry :: rest /\ entry.event = .suspend true /\
    ∀ e ∈ rest, e.event = .quiesceTimer

/-- DESTROYING was just stored, by a caller that may. -/
def Stopped (log : List VmmEntry) : Prop :=
  ∃ first entry, log = first ++ [entry] /\ entry.event = .setState .destroying /\
    (entry.state = .suspended \/ entry.state = .destroying \/ SuspendDone first)

/-- An entry after those before it. -/
structure EntryOk (build : TeardownBuild) (before : List VmmEntry) (entry : VmmEntry) : Prop where
  start : ∀ ok, entry.event = .start ok -> entry.state = .ready /\ entry.started = false
  destroying : ∀ next, entry.event = .setState next -> entry.state = .destroying ->
    next = .destroying \/ next = .dead
  dead : ∀ next, entry.event = .setState next -> entry.state = .dead ->
    next = .ready /\ ResetDone before
  stopped : ∀ trace ok, entry.event = .teardown trace ok ->
    entry.state = .destroying /\ Stopped before
  ordered : ∀ trace ok, entry.event = .teardown trace ok ->
    RoundOk build (currentRound before ++ trace)
  complete : ∀ trace, entry.event = .teardown trace true ->
    teardownDone build (currentRound before ++ trace) = shownOrder build

def LifecycleOrder (build : TeardownBuild) (log : List VmmEntry) : Prop :=
  ∀ before entry after, log = before ++ entry :: after -> EntryOk build before entry

/-! ## One round of teardown -/

theorem shownOrder_sorted (build : TeardownBuild) :
    (shownOrder build).Pairwise fun a b => a.rank < b.rank :=
  (teardownOrder_sorted build).sublist filter_sublist

theorem shownOrder_nodup (build : TeardownBuild) : (shownOrder build).Nodup :=
  (teardownOrder_nodup build).sublist filter_sublist

theorem quiesce_mem_shownOrder (build : TeardownBuild) : .quiesce ∈ shownOrder build :=
  mem_filter.mpr ⟨mem_cons_self, rfl⟩

variable {build : TeardownBuild}

theorem detach_mem_shownOrder {backend : Backend} (hbackend : hasBackend build backend = true) :
    .detach backend ∈ shownOrder build := by
  refine mem_filter.mpr ⟨?_, hbackend⟩
  unfold teardownOrder detachOrder
  cases backend <;> simp

theorem execution_mem_shownOrder (build : TeardownBuild) : .execution ∈ shownOrder build :=
  mem_filter.mpr ⟨by simp [teardownOrder], rfl⟩

variable {ok : Bool}

/-- What comes before a stage that was tried has succeeded by then. -/
theorem done_before {before after : Trace TeardownIo} {event : Event TeardownIo}
    {left : List TeardownStage} (hprogress : Progress (shownOrder build)
      ((before ++ event :: after).filterMap (teardownView build)) left)
    {stage earlier : TeardownStage} (hview : teardownView build event = some (stage, ok))
    (hearlier : earlier ∈ shownOrder build) (hrank : earlier.rank < stage.rank) :
    earlier ∈ teardownDone build before := by
  have htried : (before ++ event :: after).filterMap (teardownView build) =
      before.filterMap (teardownView build) ++
        (stage, ok) :: after.filterMap (teardownView build) := by
    rw [filterMap_append, filterMap_cons, hview]
  obtain ⟨rest, hrest⟩ := hprogress.tried _ _ _ _ htried
  rw [append_assoc, singleton_append] at hrest
  exact mem_before_of_sorted (shownOrder_sorted build) Nat.lt_asymm hrest.symm hearlier hrank

/-- Pools and RAM come after everything that stops their users. -/
theorem takesMemory_rank (build : TeardownBuild) {event : Event TeardownIo}
    (htakes : TakesMemory event) :
    ∃ stage ok, teardownView build event = some (stage, ok) /\ 5 < stage.rank := by
  obtain ⟨request, answer⟩ := event
  rcases htakes with ⟨slot, rfl⟩ | ⟨size, rfl⟩
  · refine ⟨poolAt slot, answer, rfl, ?_⟩
    unfold poolAt
    split
    · decide
    · split
      · exact Nat.lt_of_lt_of_le (by decide) (Nat.le_add_right 6 _)
      · exact Nat.lt_of_lt_of_le (by decide) (Nat.le_add_right 16 _)
  · exact ⟨.ram, answer, rfl, by decide⟩

theorem roundOk_of_progress {round : Trace TeardownIo} {left : List TeardownStage}
    (hprogress : Progress (shownOrder build) (round.filterMap (teardownView build)) left) :
    RoundOk build round := by
  constructor
  · rintro before event after rfl htakes
    obtain ⟨stage, ok, hview, hrank⟩ := takesMemory_rank build htakes
    refine ⟨?_, fun backend hbackend => ?_⟩
    · exact done_before hprogress hview (quiesce_mem_shownOrder build) (Nat.zero_lt_of_lt hrank)
    · refine done_before hprogress hview (detach_mem_shownOrder hbackend)
        (Nat.lt_of_le_of_lt ?_ hrank)
      cases backend <;> decide
  · rintro before ⟨request, answer⟩ after size rfl hrequest
    obtain rfl : request = .ramRelease size := hrequest
    have hview : teardownView build ⟨.ramRelease size, answer⟩ = some (.ram, answer) := rfl
    exact done_before hprogress hview (execution_mem_shownOrder build) (by decide)
  · exact hprogress.nodup (shownOrder_nodup build)
  · exact ⟨left, hprogress.split⟩

theorem teardownLeft_zero (build : TeardownBuild) (ramSize : Nat) :
    teardownLeft build ramSize .zero = shownOrder build := by
  unfold teardownLeft Stages.leftShown shownOrder Stages.left
  congr 1
  refine filter_eq_self.mpr fun stage _ => ?_
  cases stage with
  | detach backend => cases backend <;> rfl
  | _ => rfl

/-! ## What each request keeps -/

variable {event : VmmEvent}

theorem lifecycleOrder_note {v : Vmm} (horder : LifecycleOrder build v.log)
    (hentry : EntryOk build v.log ⟨v.state, v.started, event⟩) :
    LifecycleOrder build (v.note event) := by
  intro before entry after hlog
  rcases append_eq_append_iff.mp hlog with ⟨middle, hbefore, hrest⟩ | ⟨middle, hbefore, hrest⟩
  · cases middle with
    | nil =>
      obtain ⟨rfl, -⟩ := List.cons.inj hrest
      rw [hbefore, append_nil]
      exact hentry
    | cons first middle =>
      have hlength := congrArg List.length hrest
      simp at hlength
  · cases middle with
    | nil =>
      obtain ⟨rfl, -⟩ := List.cons.inj hrest
      rw [append_nil] at hbefore
      rw [<- hbefore]
      exact hentry
    | cons first middle =>
      obtain ⟨rfl, -⟩ := List.cons.inj hrest
      exact horder before entry middle hbefore

/-- What holds of the log and the record at all times. -/
structure LogInv (runtime : GuestVmmRuntime) (v : Vmm) : Prop where
  order : LifecycleOrder runtime.build v.log
  progress : Progress (shownOrder runtime.build)
    ((currentRound v.log).filterMap (teardownView runtime.build))
    (teardownLeft runtime.build runtime.ramSize v.teardown)

/-- An event that says nothing about the teardown. -/
def VmmEvent.Plain : VmmEvent -> Prop
  | .teardown _ _ => False
  | .reset ok => ok = false
  | _ => True

theorem currentRound_note {v : Vmm} (hplain : event.Plain) :
    currentRound (v.note event) = currentRound v.log := by
  unfold currentRound Vmm.note
  rw [foldl_append]
  cases event with
  | teardown trace ok => exact hplain.elim
  | reset ok =>
    obtain rfl : ok = false := hplain
    rfl
  | _ => rfl

section Requests

variable {runtime : GuestVmmRuntime} {v : Vmm}

theorem LogInv.note (hinv : LogInv runtime v) (event : VmmEvent) (hplain : event.Plain)
    (hentry : EntryOk runtime.build v.log ⟨v.state, v.started, event⟩) (state : GuestState)
    (started : Bool) : LogInv runtime ⟨state, started, v.teardown, v.note event⟩ := by
  refine ⟨lifecycleOrder_note hinv.order hentry, ?_⟩
  show Progress _ ((currentRound (v.note event)).filterMap _) _
  rw [currentRound_note hplain]
  exact hinv.progress

theorem entryOk_setState {next : GuestState}
    (hdestroying : v.state = .destroying -> next = .destroying \/ next = .dead)
    (hdead : v.state = .dead -> next = .ready /\ ResetDone v.log) :
    EntryOk runtime.build v.log ⟨v.state, v.started, .setState next⟩ where
  start _ h := nomatch h
  destroying next' h := by
    cases h
    exact hdestroying
  dead next' h := by
    cases h
    exact hdead
  stopped _ _ h := nomatch h
  ordered _ _ h := nomatch h
  complete _ h := nomatch h

theorem entryOk_start (hstate : v.state = .ready) (hstarted : v.started = false) :
    EntryOk runtime.build v.log ⟨v.state, v.started, .start ok⟩ where
  start _ _ := ⟨hstate, hstarted⟩
  destroying _ h := nomatch h
  dead _ h := nomatch h
  stopped _ _ h := nomatch h
  ordered _ _ h := nomatch h
  complete _ h := nomatch h

/-- The events that nothing is demanded of. -/
def VmmEvent.Free : VmmEvent -> Prop
  | .setStarted _ => True
  | .suspend _ => True
  | .resume _ => True
  | .quiesceTimer => True
  | .reset _ => True
  | _ => False

theorem entryOk_free (hfree : event.Free) :
    EntryOk runtime.build v.log ⟨v.state, v.started, event⟩ := by
  have hnot {other : VmmEvent} (h : event = other) (hother : ¬other.Free) : False :=
    hother (h ▸ hfree)
  constructor
  · exact fun _ h => (hnot h id).elim
  · exact fun _ h => (hnot h id).elim
  · exact fun _ h => (hnot h id).elim
  · exact fun _ _ h => (hnot h id).elim
  · exact fun _ _ h => (hnot h id).elim
  · exact fun _ h => (hnot h id).elim

/-! ## Loads, stores and callbacks -/

variable {α : Type} {Q : α -> Vmm -> Prop}

theorem establishes_loadState {next : GuestState -> RuntimeM α} :
    Establishes (VmmExec runtime) Q (loadState >>= next) v ↔
      Establishes (VmmExec runtime) Q (next v.state) v := by
  constructor
  · intro h
    exact h _ _ (.state v)
  · rintro h answer v' ⟨⟩
    exact h

theorem establishes_loadStarted {next : Bool -> RuntimeM α} :
    Establishes (VmmExec runtime) Q (loadStarted >>= next) v ↔
      Establishes (VmmExec runtime) Q (next v.started) v := by
  constructor
  · intro h
    exact h _ _ (.started v)
  · rintro h answer v' ⟨⟩
    exact h

theorem establishes_storeState {state : GuestState} {next : Unit -> RuntimeM α} :
    Establishes (VmmExec runtime) Q (storeState state >>= next) v ↔
      Establishes (VmmExec runtime) Q (next ())
        { v with state := state, log := v.note (.setState state) } := by
  constructor
  · intro h
    exact h _ _ (.setState v state)
  · rintro h answer v' ⟨⟩
    exact h

theorem establishes_storeStarted {started : Bool} {next : Unit -> RuntimeM α} :
    Establishes (VmmExec runtime) Q (storeStarted started >>= next) v ↔
      Establishes (VmmExec runtime) Q (next ())
        { v with started := started, log := v.note (.setStarted started) } := by
  constructor
  · intro h
    exact h _ _ (.setStarted v started)
  · rintro h answer v' ⟨⟩
    exact h

theorem SuspendDone.of_suspend : SuspendDone (v.note (.suspend true)) :=
  ⟨v.log, _, [], rfl, rfl, nofun⟩

theorem SuspendDone.quiesceTimer (hdone : SuspendDone v.log) :
    SuspendDone (v.note .quiesceTimer) := by
  obtain ⟨first, entry, rest, hlog, hentry, hrest⟩ := hdone
  refine ⟨first, entry, rest ++ [⟨v.state, v.started, .quiesceTimer⟩], ?_, hentry, ?_⟩
  · unfold Vmm.note
    rw [hlog, append_assoc, cons_append]
  · intro e he
    rcases mem_append.mp he with he | he
    · exact hrest e he
    · rw [mem_singleton.mp he]

theorem callSuspend_spec (hinv : LogInv runtime v) :
    Establishes (VmmExec runtime) (fun ok v' => LogInv runtime v' /\ v'.state = v.state /\
      v'.started = v.started /\ (ok = true -> SuspendDone v'.log)) (callSuspend runtime) v := by
  unfold callSuspend callOrFail
  split
  · rintro ok v' ⟨⟩
    refine ⟨hinv.note (.suspend ok) trivial (entryOk_free trivial) _ _, rfl, rfl, ?_⟩
    rintro rfl
    exact SuspendDone.of_suspend
  · exact ⟨hinv, rfl, rfl, nofun⟩

theorem callQuiesceTimer_spec (hinv : LogInv runtime v) (hdone : SuspendDone v.log) :
    Establishes (VmmExec runtime) (fun _ v' => LogInv runtime v' /\ v'.state = v.state /\
      v'.started = v.started /\ SuspendDone v'.log) (callQuiesceTimer runtime) v := by
  unfold callQuiesceTimer
  split
  · rintro ok v' ⟨⟩
    exact ⟨hinv.note .quiesceTimer trivial (entryOk_free trivial) _ _, rfl, rfl, hdone.quiesceTimer⟩
  · exact ⟨hinv, rfl, rfl, hdone⟩

theorem callResume_spec (hinv : LogInv runtime v) :
    Establishes (VmmExec runtime) (fun _ v' => LogInv runtime v' /\ v'.state = v.state /\
      v'.started = v.started) (callResume runtime) v := by
  unfold callResume callOrFail
  split
  · rintro ok v' ⟨⟩
    exact ⟨hinv.note (.resume ok) trivial (entryOk_free trivial) _ _, rfl, rfl⟩
  · exact ⟨hinv, rfl, rfl⟩

/-- After a successful reset a new round begins. -/
theorem reset_inv (hinv : LogInv runtime v) (ok : Bool) : LogInv runtime
    { v with teardown := if ok then .zero else v.teardown, log := v.note (.reset ok) } := by
  cases ok with
  | false => exact hinv.note (.reset false) rfl (entryOk_free trivial) _ _
  | true =>
    refine ⟨lifecycleOrder_note hinv.order (entryOk_free trivial), ?_⟩
    have hround : currentRound (v.note (.reset true)) = [] := by
      unfold currentRound Vmm.note
      rw [foldl_append]
      rfl
    show Progress _ ((currentRound (v.note _)).filterMap _) (teardownLeft _ _ .zero)
    rw [hround, teardownLeft_zero]
    exact Progress.start _

theorem callStart_spec (hinv : LogInv runtime v) (hstate : v.state = .ready)
    (hstarted : v.started = false) :
    Establishes (VmmExec runtime) (fun ok v' => LogInv runtime v' /\ v'.started = ok /\
      (v'.state = .ready \/ ok = true /\ v'.state = .running)) (callStart runtime) v := by
  unfold callStart callOrFail
  split
  · rintro ok v' ⟨⟩
    rename_i state hnext
    refine ⟨hinv.note (.start ok) trivial (entryOk_start hstate hstarted) _ _, rfl, ?_⟩
    exact hnext.imp_left fun h => h.trans hstate
  · exact ⟨hinv, hstarted, .inl hstate⟩

theorem runTeardown_run {callback : TeardownCallback} {teardown : Teardown}
    {trace : Trace TeardownIo}
    (hrun : Run (runTeardown runtime callback v.teardown) trace (ok, teardown))
    (hinv : LogInv runtime v) :
    Progress (shownOrder runtime.build)
      ((currentRound v.log ++ trace).filterMap (teardownView runtime.build))
      (teardownLeft runtime.build runtime.ramSize teardown) /\
      (ok = true -> teardownLeft runtime.build runtime.ramSize teardown = []) := by
  rw [filterMap_append]
  cases callback with
  | control => exact controlTeardown_run hrun hinv.progress
  | guestVmm => exact aosGuestTeardownStep_run hrun hinv.progress

theorem callTeardown_spec (hinv : LogInv runtime v) (hstate : v.state = .destroying)
    (hstopped : Stopped v.log) :
    Establishes (VmmExec runtime) (fun _ v' => LogInv runtime v' /\ v'.state = .destroying)
      (callTeardown runtime) v := by
  unfold callTeardown
  split
  case h_1 callback _ =>
    rintro ok v' ⟨⟩
    rename_i trace teardown hrun
    obtain ⟨hprogress, hdone⟩ := runTeardown_run hrun hinv
    have hentry : EntryOk runtime.build v.log ⟨v.state, v.started, .teardown trace ok⟩ := by
      constructor
      · exact fun _ h => nomatch h
      · exact fun _ h => nomatch h
      · exact fun _ h => nomatch h
      · exact fun _ _ _ => ⟨hstate, hstopped⟩
      · intro trace' ok' h
        obtain ⟨rfl, rfl⟩ := VmmEvent.teardown.inj h
        exact roundOk_of_progress hprogress
      · intro trace' h
        obtain ⟨rfl, rfl⟩ := VmmEvent.teardown.inj h
        have hsplit := hprogress.split
        rw [hdone rfl, append_nil] at hsplit
        exact hsplit
    refine ⟨⟨lifecycleOrder_note hinv.order hentry, ?_⟩, hstate⟩
    have hround : currentRound (v.note (.teardown trace ok)) = currentRound v.log ++ trace := by
      unfold currentRound Vmm.note
      rw [foldl_append]
      rfl
    show Progress _ ((currentRound (v.note _)).filterMap _) _
    rw [hround]
    exact hprogress
  case h_2 => exact ⟨hinv, hstate⟩

end Requests

end AgentOs.GuestVmm
