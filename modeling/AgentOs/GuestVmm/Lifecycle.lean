import AgentOs.GuestVmm.VmmLog

/-!
# Every request keeps the order

What each lifecycle request does to the word and the flag, by the status of its reply; and so,
for every sequence of requests and restarts, that a VMM does everything in order.
-/

namespace AgentOs.GuestVmm

open Library Prog Resumable Ipc

section Requests

variable {runtime : GuestVmmRuntime} {v : Vmm}

/-! ## The requests -/

inductive LifecycleOp where
  | create | boot | suspend | resume | destroy
  deriving DecidableEq

/-- What a request does to the word and the flag, by the status of its reply. -/
inductive GuestStep : LifecycleOp -> GuestState -> Bool -> UInt32 -> GuestState -> Bool -> Prop where
  | refused {op : LifecycleOp} {state : GuestState} {started : Bool} {status : UInt32} :
      status ≠ guestOk -> GuestStep op state started status state started
  | created {state : GuestState} {started : Bool} : state = .ready \/ state = .dead ->
      GuestStep .create state started guestOk .ready false
  | booted {state : GuestState} {started : Bool} : state = .ready \/ state = .running ->
      GuestStep .boot state started guestOk .running true
  | suspended {state : GuestState} : state = .running \/ state = .suspended ->
      GuestStep .suspend state true guestOk .suspended true
  | resumed {state : GuestState} : state = .running \/ state = .suspended ->
      GuestStep .resume state true guestOk .running true
  | destroying {state : GuestState} {started started' : Bool} {status : UInt32} :
      status ≠ guestOk -> state ≠ .dead ->
      GuestStep .destroy state started status .destroying started'
  | destroyed {state : GuestState} {started : Bool} : state ≠ .dead ->
      GuestStep .destroy state started guestOk .dead false
  | gone {started : Bool} : GuestStep .destroy .dead started guestOk .dead started

/-- How the word and the flag go together between requests. -/
structure WordsOk (state : GuestState) (started : Bool) : Prop where
  running : state = .running \/ state = .suspended -> started = true
  stopped : state = .ready \/ state = .dead -> started = false

variable {op : LifecycleOp} {state state' : GuestState} {started started' : Bool} {status : UInt32}

theorem GuestStep.wordsOk (hstep : GuestStep op state started status state' started')
    (hwords : WordsOk state started) : WordsOk state' started' := by
  cases hstep with
  | refused _ => exact hwords
  | gone => exact hwords
  | created _ => exact ⟨by simp, fun _ => rfl⟩
  | booted _ => exact ⟨fun _ => rfl, by simp⟩
  | suspended _ => exact ⟨fun _ => rfl, by simp⟩
  | resumed _ => exact ⟨fun _ => rfl, by simp⟩
  | destroying _ _ => exact ⟨by simp, by simp⟩
  | destroyed _ => exact ⟨by simp, fun _ => rfl⟩

/-- A guest that is going or gone neither boots nor resumes. -/
theorem GuestStep.refuses (hstep : GuestStep op state started status state' started')
    (hop : op = .boot \/ op = .resume) (hstate : state = .destroying \/ state = .dead) :
    status ≠ guestOk := by
  cases hstep with
  | refused h => exact h
  | booted h => rcases hstate with rfl | rfl <;> rcases h with h | h <;> cases h
  | resumed h => rcases hstate with rfl | rfl <;> rcases h with h | h <;> cases h
  | _ => rcases hop with h | h <;> cases h

/-- Where a request that succeeds leads. -/
def LifecycleOp.target : LifecycleOp -> GuestState
  | .create => .ready
  | .boot => .running
  | .suspend => .suspended
  | .resume => .running
  | .destroy => .dead

theorem GuestStep.target (hstep : GuestStep op state started status state' started')
    (hok : status = guestOk) : state' = op.target := by
  cases hstep with
  | refused h => exact absurd hok h
  | destroying h _ => exact absurd hok h
  | _ => rfl

/-- A request that fails changes nothing, unless it is a DESTROY. -/
theorem GuestStep.unchanged (hstep : GuestStep op state started status state' started')
    (hfail : status ≠ guestOk) (hop : op ≠ .destroy \/ state' ≠ .destroying) :
    state' = state /\ started' = started := by
  cases hstep with
  | refused _ => exact ⟨rfl, rfl⟩
  | destroying _ _ =>
    rcases hop with h | h
    · exact absurd rfl h
    · exact absurd rfl h
  | _ => exact absurd rfl hfail

/-- A request keeps the invariant and makes its step. -/
def StepSpec (runtime : GuestVmmRuntime) (op : LifecycleOp) (v : Vmm) (program : RuntimeM Sel4Msg) :
    Prop :=
  Establishes (VmmExec runtime) (fun reply v' => LogInv runtime v' /\
    GuestStep op v.state v.started reply.opcode v'.state v'.started) program v

theorem guestStep_refused {rep : Sel4Msg} (hstatus : status ≠ guestOk) (hstate : state' = state)
    (hstarted : started' = started) :
    GuestStep op state started (withStatus rep status).opcode state' started' := by
  subst hstate hstarted
  exact .refused hstatus

/-- A request that is refused under a condition. -/
theorem stepSpec_guard {c : Prop} [Decidable c] {rep : Sel4Msg} {program : RuntimeM Sel4Msg}
    (hinv : LogInv runtime v) (hstatus : status ≠ guestOk)
    (hrest : ¬c -> StepSpec runtime op v program) :
    StepSpec runtime op v (if c then pure (withStatus rep status) else program) := by
  split
  · exact ⟨hinv, .refused hstatus⟩
  case isFalse hc => exact hrest hc

theorem LogInv.store (hinv : LogInv runtime v) (hlive : v.state ≠ .destroying /\ v.state ≠ .dead)
    (next : GuestState) :
    LogInv runtime { v with state := next, log := v.note (.setState next) } :=
  hinv.note (.setState next) trivial
    (entryOk_setState (fun h => absurd h hlive.1) fun h => absurd h hlive.2) _ _

theorem startUnless_spec (hinv : LogInv runtime v) (hwords : WordsOk v.state v.started)
    (hstate : v.state = .ready \/ v.state = .running) :
    Establishes (VmmExec runtime) (fun ok v' => LogInv runtime v' /\ v'.started = ok /\
      (v'.state = .ready \/ v'.state = .running) /\
      (ok = false -> v'.state = v.state /\ v.started = false)) (startUnless runtime v.started) v := by
  unfold startUnless
  split
  case isTrue hstarted =>
    exact ⟨hinv, hstarted, hstate, fun h => absurd h.symm Bool.false_ne_true⟩
  case isFalse hstarted =>
    rw [Bool.not_eq_true] at hstarted
    have hready : v.state = .ready := by
      refine hstate.resolve_right fun h => ?_
      cases hstarted.symm.trans (hwords.running (.inl h))
    refine (callStart_spec hinv hready hstarted).mono ?_
    rintro ok v' ⟨hinv', hok, hstate'⟩
    refine ⟨hinv', hok, hstate'.imp_right And.right, ?_⟩
    rintro rfl
    refine ⟨?_, hstarted⟩
    rcases hstate' with h | ⟨h, -⟩
    · rw [h, hready]
    · cases h

theorem guestBoot_spec (hinv : LogInv runtime v) (hwords : WordsOk v.state v.started)
    (req rep : Sel4Msg) : StepSpec runtime .boot v (guestBoot runtime req rep) := by
  unfold guestBoot
  refine stepSpec_guard hinv (by decide) fun _ => ?_
  rw [StepSpec, establishes_loadState]
  refine stepSpec_guard hinv (by decide) fun _ => stepSpec_guard hinv (by decide) fun hstate => ?_
  have hcase : v.state = .ready \/ v.state = .running := by
    simpa [or_iff_not_imp_left] using hstate
  rw [StepSpec, establishes_loadStarted]
  refine (startUnless_spec hinv hwords hcase).bind ?_
  rintro ok v1 ⟨hinv1, hstarted1, hstate1, hfail⟩
  cases ok with
  | false =>
    obtain ⟨hsame, hstarted⟩ := hfail rfl
    exact ⟨hinv1, guestStep_refused (by decide) hsame (hstarted1.trans hstarted.symm)⟩
  | true =>
    rw [if_neg (by decide), establishes_storeState]
    refine ⟨hinv1.store ?_ .running, ?_⟩
    · rcases hstate1 with h | h <;> rw [h] <;> decide
    · show GuestStep .boot v.state v.started guestOk .running v1.started
      rw [hstarted1]
      exact .booted hcase

theorem live_of_started (hstate : state = .running \/ state = .suspended) :
    state ≠ .destroying /\ state ≠ .dead := by
  rcases hstate with rfl | rfl <;> decide

section

variable (hinv : LogInv runtime v)

include hinv

variable (req rep : Sel4Msg)

theorem guestSuspend_spec : StepSpec runtime .suspend v (guestSuspend runtime req rep) := by
  unfold guestSuspend
  refine stepSpec_guard hinv (by decide) fun _ => ?_
  rw [StepSpec, establishes_loadState]
  refine stepSpec_guard hinv (by decide) fun _ => ?_
  rw [StepSpec, establishes_loadStarted]
  refine stepSpec_guard hinv (by decide) fun hguard => ?_
  have hcase : v.started = true /\ (v.state = .running \/ v.state = .suspended) := by
    simpa [or_iff_not_imp_left] using hguard
  split
  · refine (callSuspend_spec hinv).bind ?_
    rintro ok v1 ⟨hinv1, hstate1, hstarted1, hdone⟩
    cases ok with
    | false => exact ⟨hinv1, guestStep_refused (by decide) hstate1 hstarted1⟩
    | true =>
      refine (callQuiesceTimer_spec hinv1 (hdone rfl)).bind ?_
      rintro _ v2 ⟨hinv2, hstate2, hstarted2, -⟩
      rw [establishes_storeState]
      refine ⟨hinv2.store (live_of_started ?_) .suspended, ?_⟩
      · rw [hstate2, hstate1]
        exact hcase.2
      · show GuestStep .suspend v.state v.started guestOk .suspended v2.started
        rw [hstarted2, hstarted1, hcase.1]
        exact .suspended hcase.2
  case isFalse hsuspended =>
    have hstate : v.state = .suspended := by simpa using hsuspended
    refine ⟨hinv, ?_⟩
    show GuestStep .suspend v.state v.started guestOk v.state v.started
    rw [hstate, hcase.1]
    exact .suspended (.inr rfl)

theorem resumeIf_spec (state : GuestState) :
    Establishes (VmmExec runtime) (fun _ v' => LogInv runtime v' /\ v'.state = v.state /\
      v'.started = v.started) (resumeIf runtime state) v := by
  unfold resumeIf
  split
  · exact callResume_spec hinv
  · exact ⟨hinv, rfl, rfl⟩

theorem guestResume_spec : StepSpec runtime .resume v (guestResume runtime req rep) := by
  unfold guestResume
  refine stepSpec_guard hinv (by decide) fun _ => ?_
  rw [StepSpec, establishes_loadState]
  refine stepSpec_guard hinv (by decide) fun _ => ?_
  rw [StepSpec, establishes_loadStarted]
  refine stepSpec_guard hinv (by decide) fun hguard => ?_
  have hcase : v.started = true /\ (v.state = .running \/ v.state = .suspended) := by
    simpa [or_iff_not_imp_left] using hguard
  refine (resumeIf_spec hinv v.state).bind ?_
  rintro ok v1 ⟨hinv1, hstate1, hstarted1⟩
  cases ok with
  | false => exact ⟨hinv1, guestStep_refused (by decide) hstate1 hstarted1⟩
  | true =>
    rw [if_neg (by decide), establishes_storeState]
    refine ⟨hinv1.store (live_of_started (hstate1 ▸ hcase.2)) .running, ?_⟩
    show GuestStep .resume v.state v.started guestOk .running v1.started
    rw [hstarted1, hcase.1]
    exact .resumed hcase.2

/-- The end of a DESTROY, from a state that it may be entered from. -/
theorem guestTeardown_spec (hdead : v.state ≠ .dead) (hstate : state ≠ .dead)
    (hstopped : v.state = .suspended \/ v.state = .destroying \/ SuspendDone v.log) (rep : Sel4Msg) :
    Establishes (VmmExec runtime) (fun reply v' => LogInv runtime v' /\
      GuestStep .destroy state started reply.opcode v'.state v'.started)
      (guestTeardown runtime rep) v := by
  unfold guestTeardown
  rw [establishes_storeState]
  have hinv1 := hinv.note (.setState .destroying) trivial
    (entryOk_setState (fun _ => .inl rfl) fun h => absurd h hdead) .destroying v.started
  refine (callTeardown_spec hinv1 rfl ⟨v.log, _, rfl, rfl, hstopped⟩).bind ?_
  rintro ok v2 ⟨hinv2, hstate2⟩
  cases ok with
  | false =>
    refine ⟨hinv2, ?_⟩
    show GuestStep .destroy state started guestErrNotReady v2.state v2.started
    rw [hstate2]
    exact .destroying (by decide) hstate
  | true =>
    rw [if_neg (by decide), establishes_storeStarted, establishes_storeState]
    have hinv3 := hinv2.note (.setStarted false) trivial (entryOk_free trivial) v2.state false
    refine ⟨hinv3.note (.setState .dead) trivial (entryOk_setState (fun _ => .inr rfl) ?_) _ _, ?_⟩
    · intro h
      have hdestroying : v2.state = .dead := h
      rw [hstate2] at hdestroying
      cases hdestroying
    · exact .destroyed hstate

theorem guestDestroy_spec : StepSpec runtime .destroy v (guestDestroy runtime req rep) := by
  unfold guestDestroy
  refine stepSpec_guard hinv (by decide) fun _ => ?_
  rw [StepSpec, establishes_loadState]
  split
  case isTrue hdead =>
    refine ⟨hinv, ?_⟩
    rw [hdead]
    exact .gone
  case isFalse hdead =>
    split
    · refine (callSuspend_spec hinv).bind ?_
      rintro ok v1 ⟨hinv1, hstate1, hstarted1, hdone⟩
      cases ok with
      | false => exact ⟨hinv1, guestStep_refused (by decide) hstate1 hstarted1⟩
      | true =>
        refine (callQuiesceTimer_spec hinv1 (hdone rfl)).bind ?_
        rintro _ v2 ⟨hinv2, hstate2, hstarted2, hdone2⟩
        refine guestTeardown_spec hinv2 ?_ hdead (.inr (.inr hdone2)) rep
        rw [hstate2, hstate1]
        exact hdead
    case isFalse hstate =>
      have hcase : v.state = .suspended \/ v.state = .destroying := by
        simpa [or_iff_not_imp_left] using hstate
      exact guestTeardown_spec hinv hdead hdead (hcase.imp_right .inl) rep

theorem createReady_spec
    (hsame : v.state = state /\ v.started = started \/ v.state = .ready /\ v.started = false /\
      state = .dead) (rep : Sel4Msg) :
    Establishes (VmmExec runtime) (fun reply v' => LogInv runtime v' /\
      GuestStep .create state started reply.opcode v'.state v'.started)
      (createReady runtime rep) v := by
  unfold createReady
  rw [establishes_loadState, establishes_loadStarted]
  split
  case isTrue hguard =>
    rcases hsame with ⟨hstate, hstarted⟩ | ⟨hstate, hstarted, -⟩
    · exact ⟨hinv, guestStep_refused (by decide) hstate hstarted⟩
    · rw [hstate, hstarted] at hguard
      cases hguard
  case isFalse hguard =>
    have hready : v.state = .ready /\ v.started = false := by simpa using hguard
    refine ⟨hinv, ?_⟩
    rw [hready.1, hready.2]
    refine .created ?_
    rcases hsame with ⟨hstate, -⟩ | ⟨-, -, hdead⟩
    · exact .inl (hstate.symm.trans hready.1)
    · exact .inr hdead

theorem guestCreate_spec : StepSpec runtime .create v (guestCreate runtime req rep) := by
  unfold guestCreate
  refine stepSpec_guard hinv (by decide) fun _ => ?_
  rw [StepSpec, establishes_loadState]
  refine stepSpec_guard hinv (by decide) fun hdestroying => ?_
  unfold StepSpec
  split
  case isTrue hdead =>
    refine stepSpec_guard hinv (by decide) fun _ => ?_
    rintro ok v1 ⟨⟩
    have hinv1 := reset_inv hinv ok
    cases ok with
    | false => exact ⟨hinv1, guestStep_refused (by decide) rfl rfl⟩
    | true =>
      show Establishes _ _ (storeStarted false >>= fun _ => storeState .ready >>= fun _ =>
        createReady runtime rep) _
      rw [establishes_storeStarted, establishes_storeState]
      have hinv2 := hinv1.note (.setStarted false) trivial (entryOk_free trivial) v.state false
      have hreset : ResetDone
          (v.note (.reset true) ++ [⟨v.state, v.started, .setStarted false⟩]) := by
        refine ⟨v.log, ⟨v.state, v.started, .reset true⟩, [_], List.append_assoc .., rfl, ?_⟩
        intro e he next
        rw [List.mem_singleton.mp he]
        exact nofun
      have hinv3 := hinv2.note (.setState .ready) trivial
        (entryOk_setState (fun h => absurd h hdestroying) fun _ => ⟨rfl, hreset⟩) .ready false
      exact createReady_spec hinv3 (.inr ⟨rfl, rfl, hdead⟩) rep
  case isFalse => exact createReady_spec hinv (.inl ⟨rfl, rfl⟩) rep

end

/-- The request that an opcode stands for. -/
def lifecycleOp (req : Sel4Msg) : Option LifecycleOp :=
  if req.opcode = msgGuestCreate then some .create
  else if req.opcode = msgGuestBoot then some .boot
  else if req.opcode = msgGuestSuspend then some .suspend
  else if req.opcode = msgGuestResume then some .resume
  else if req.opcode = msgGuestDestroy then some .destroy
  else none

/-- What a reply says about the step that was made. -/
def Replied (op : Option LifecycleOp) (v : Vmm) (reply : Option Sel4Msg) (v' : Vmm) : Prop :=
  match op, reply with
  | some op, some rep => GuestStep op v.state v.started rep.opcode v'.state v'.started
  | none, none => v' = v
  | _, _ => False

theorem StepSpec.some {program : RuntimeM Sel4Msg} (hspec : StepSpec runtime op v program) :
    Establishes (VmmExec runtime) (fun reply v' => LogInv runtime v' /\ Replied (some op) v reply v')
      (Option.some <$> program) v :=
  hspec.bind fun _ _ h => h

theorem lifecycleRpc_spec (hinv : LogInv runtime v) (hwords : WordsOk v.state v.started)
    (req rep : Sel4Msg) :
    Establishes (VmmExec runtime)
      (fun reply v' => LogInv runtime v' /\ Replied (lifecycleOp req) v reply v')
      (aosGuestVmmLifecycleRpc runtime req rep) v := by
  unfold aosGuestVmmLifecycleRpc lifecycleOp
  split
  · exact (guestCreate_spec hinv req rep).some
  split
  · exact (guestBoot_spec hinv hwords req rep).some
  split
  · exact (guestSuspend_spec hinv req rep).some
  split
  · exact (guestResume_spec hinv req rep).some
  split
  · exact (guestDestroy_spec hinv req rep).some
  · exact ⟨hinv, rfl⟩

theorem Replied.wordsOk {op : Option LifecycleOp} {reply : Option Sel4Msg} {v' : Vmm}
    (hreplied : Replied op v reply v') (hwords : WordsOk v.state v.started) :
    WordsOk v'.state v'.started := by
  cases op with
  | none =>
    cases reply with
    | none =>
      obtain rfl : v' = v := hreplied
      exact hwords
    | some rep => exact hreplied.elim
  | some op =>
    cases reply with
    | none => exact hreplied.elim
    | some rep => exact GuestStep.wordsOk hreplied hwords

/-! ## Restarts -/

/-- What holds between requests. -/
structure VmmInv (runtime : GuestVmmRuntime) (v : Vmm) : Prop where
  log : LogInv runtime v
  words : WordsOk v.state v.started

theorem lifecycleRpc_inv (hinv : VmmInv runtime v) (req rep : Sel4Msg) :
    Establishes (VmmExec runtime) (fun _ v' => VmmInv runtime v')
      (aosGuestVmmLifecycleRpc runtime req rep) v := by
  refine (lifecycleRpc_spec hinv.log hinv.words req rep).mono ?_
  rintro reply v' ⟨hlog, hreplied⟩
  exact ⟨hlog, hreplied.wordsOk hinv.words⟩

theorem restartBoot_inv (hinv : VmmInv runtime v) (length : UInt32) (rep : Sel4Msg) :
    Establishes (VmmExec runtime) (fun _ v' => VmmInv runtime v')
      (restartBoot runtime length rep) v := by
  unfold restartBoot
  rw [establishes_loadState]
  split
  · exact hinv
  refine (lifecycleRpc_inv hinv _ rep).bind fun reply v' hinv' => ?_
  split
  · exact hinv'
  rw [establishes_loadState, establishes_loadStarted]
  split <;> exact hinv'

theorem restartCreate_inv (hinv : VmmInv runtime v) (rep : Sel4Msg) :
    Establishes (VmmExec runtime) (fun _ v' => VmmInv runtime v')
      (restartCreate runtime rep) v := by
  unfold restartCreate
  rw [establishes_loadState]
  split
  · refine (lifecycleRpc_inv hinv _ rep).bind fun reply v' hinv' => ?_
    cases reply with
    | none => exact hinv'
    | some rep' =>
      dsimp only
      split
      · exact restartBoot_inv hinv' 4 rep'
      · exact hinv'
  · exact restartBoot_inv hinv 8 rep

theorem restartStep_inv (hinv : VmmInv runtime v) :
    Establishes (VmmExec runtime) (fun _ v' => VmmInv runtime v')
      (aosGuestVmmRestartStep runtime) v := by
  unfold aosGuestVmmRestartStep
  split
  · exact hinv
  rw [establishes_loadState]
  split
  · refine (lifecycleRpc_inv hinv _ emptyMsg).bind fun reply v' hinv' => ?_
    cases reply with
    | none => exact hinv'
    | some rep =>
      dsimp only
      split
      · exact restartCreate_inv hinv' rep
      · exact hinv'
  · exact restartCreate_inv hinv emptyMsg

variable {start : VmmStart}

theorem VmmInv.init (runtime : GuestVmmRuntime) (hstart : start ≠ .unfinished) :
    VmmInv runtime (.init start) := by
  have hlog (state : GuestState) (started : Bool) :
      LogInv runtime ⟨state, started, .zero, []⟩ := by
    refine ⟨fun before entry after hlog => ?_, ?_⟩
    · cases before <;> cases hlog
    · show Progress _ [] (teardownLeft _ _ .zero)
      rw [teardownLeft_zero]
      exact Progress.start _
  cases start with
  | waiting => exact ⟨hlog _ _, by simp [Vmm.init], fun _ => rfl⟩
  | booted => exact ⟨hlog _ _, fun _ => rfl, by simp [Vmm.init]⟩
  | unfinished => exact absurd rfl hstart

theorem vmmReach_inv (hstart : start ≠ .unfinished) (hreach : VmmReach runtime start v) :
    VmmInv runtime v := by
  induction hreach with
  | init => exact .init runtime hstart
  | rpc _ hrun ih => exact (lifecycleRpc_inv ih _ _).executes hrun
  | restart _ hrun ih => exact (restartStep_inv ih).executes hrun

/-- Unless initialization returned early, every store and every call of every run is in order,
and a guest that is being destroyed or is dead neither boots nor resumes. -/
theorem guest_lifecycle (runtime : GuestVmmRuntime) (hstart : start ≠ .unfinished) (v : Vmm)
    (hreach : VmmReach runtime start v) :
    LifecycleOrder runtime.build v.log /\
    ∀ req rep reply v', Executes (VmmExec runtime) (aosGuestVmmLifecycleRpc runtime req rep) v
      (some reply) v' -> (req.opcode = msgGuestBoot \/ req.opcode = msgGuestResume) ->
      (v.state = .destroying \/ v.state = .dead) -> reply.opcode ≠ guestOk := by
  have hinv := vmmReach_inv hstart hreach
  refine ⟨hinv.log.order, ?_⟩
  intro req rep reply v' hrun hop hstate
  obtain ⟨-, hreplied⟩ := (lifecycleRpc_spec hinv.log hinv.words req rep).executes hrun
  rcases hop with hop | hop
  · have hboot : lifecycleOp req = some .boot := by
      unfold lifecycleOp
      rw [hop]
      rfl
    rw [hboot] at hreplied
    exact GuestStep.refuses hreplied (.inl rfl) hstate
  · have hresume : lifecycleOp req = some .resume := by
      unfold lifecycleOp
      rw [hop]
      rfl
    rw [hresume] at hreplied
    exact GuestStep.refuses hreplied (.inr rfl) hstate

/-- A guest of the x86 firmware. -/
def firmwareRuntime : GuestVmmRuntime :=
  ⟨1, 0, true, true, true, false, some .control, true, ⟨false, false, true⟩, 1⟩

/-- After an early return the word says RUNNING: a BOOT then calls `start` in that state. -/
theorem unfinished_starts : ∃ v, VmmReach firmwareRuntime .unfinished v /\
    ¬LifecycleOrder firmwareRuntime.build v.log := by
  have hrun : Executes (VmmExec firmwareRuntime)
      (aosGuestVmmLifecycleRpc firmwareRuntime ⟨msgGuestBoot, 4, fun _ => 0⟩ emptyMsg)
      (.init .unfinished) (some (withStatus emptyMsg guestErrNotReady))
      ⟨.running, false, .zero, [⟨.running, false, .start false⟩]⟩ :=
    .op (.state _) (.op (.started _) (.op (.start _ false .running (.inl rfl)) (.ret _ _)))
  refine ⟨_, .rpc .init hrun, fun horder => ?_⟩
  cases ((horder [] _ [] rfl).start false rfl).1

/-- A teardown that stops at the block backend, and one that goes on from there. -/
def stoppedTrace : Trace TeardownIo :=
  [⟨.controlTransition, true⟩, ⟨.quiesce, ⟨true, true, true⟩⟩, ⟨.detach .network, true⟩,
    ⟨.detach .block, false⟩]

def retriedTrace : Trace TeardownIo :=
  [⟨.controlTransition, true⟩, ⟨.detach .block, true⟩, ⟨.detach .serial, true⟩, ⟨.revoke 465, true⟩,
    ⟨.revoke 466, true⟩, ⟨.revoke 467, true⟩, ⟨.revoke 461, true⟩, ⟨.ramRelease 1, true⟩,
    ⟨.retire, ()⟩]

/-- The guest between the two. -/
def stoppedVmm : Vmm :=
  ⟨.destroying, true, { Teardown.zero with devicesQuiesced := true, networkDetached := true },
    [⟨.running, true, .suspend true⟩, ⟨.running, true, .setState .destroying⟩,
      ⟨.destroying, true, .teardown stoppedTrace false⟩]⟩

def destroyReq : Sel4Msg := ⟨msgGuestDestroy, 4, fun _ => 0⟩

theorem guest_lifecycle_retried : ∃ v, VmmReach firmwareRuntime .booted v /\
    v.log.map VmmEntry.event = [.suspend true, .setState .destroying, .teardown stoppedTrace false,
      .setState .destroying, .teardown retriedTrace true, .setStarted false, .setState .dead] /\
    LifecycleOrder firmwareRuntime.build v.log := by
  have hstopped : Run (runTeardown firmwareRuntime .control .zero) stoppedTrace
      (false, stoppedVmm.teardown) := .op (.op (.op (.op (.ret _))))
  have hrun : Executes (VmmExec firmwareRuntime)
      (aosGuestVmmLifecycleRpc firmwareRuntime destroyReq emptyMsg) (.init .booted)
      (some (withStatus emptyMsg guestErrNotReady)) stoppedVmm :=
    .op (.state _) (.op (.suspend _ true) (.op (.setState _ _) (.op (.teardown _ hstopped)
      (.ret _ _))))
  have hretried : Run (runTeardown firmwareRuntime .control stoppedVmm.teardown) retriedTrace
      (true, ⟨true, true, true, true, true, true, 3, 0, true, true, true⟩) :=
    .op (.op (.op (.op (.op (.op (.op (.op (.op (.ret _)))))))))
  have hagain : Executes (VmmExec firmwareRuntime)
      (aosGuestVmmLifecycleRpc firmwareRuntime destroyReq emptyMsg) stoppedVmm
      (some (withStatus emptyMsg guestOk)) _ :=
    .op (.state _) (.op (.setState _ _) (.op (.teardown _ hretried) (.op (.setStarted _ _)
      (.op (.setState _ _) (.ret _ _)))))
  have hreach := VmmReach.rpc (.rpc .init hrun) hagain
  exact ⟨_, hreach, rfl, (guest_lifecycle firmwareRuntime (by decide) _ hreach).1⟩

end Requests

end AgentOs.GuestVmm
