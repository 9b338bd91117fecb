import AgentOs.GuestVmm.Lifecycle
import AgentOs.VmManager.Manager

/-!
# The manager and its VMMs

The manager relays requests, the VMMs answer them, and a guest may restart itself in between.
Which answers the VMMs' callbacks may give is a parameter.
-/

namespace AgentOs.VmManager

open Library Prog Ipc GuestVmm

/-! ## The system -/

@[simp]
def guestErrProtocolViolation : UInt32 := 12

/-- How a VMM answers a call. -/
def vmmServe (runtime : GuestVmmRuntime) (req : Sel4Msg) : RuntimeM Sel4Msg := do
  let reply <- aosGuestVmmLifecycleRpc runtime req emptyMsg
  match reply with
  | some rep => pure rep
  | none => pure (withStatus emptyMsg guestErrProtocolViolation)

/-- Which answers the callbacks may give. -/
abbrev Answers := (request : RuntimeOp) -> RuntimeAns request -> Prop

def anyAnswers : Answers := fun _ _ => True

/-- A VMM whose callbacks give these answers. -/
def AnsweringExec (answers : Answers) (runtime : GuestVmmRuntime) (request : RuntimeOp) (v : Vmm)
    (answer : RuntimeAns request) (v' : Vmm) : Prop :=
  VmmExec runtime request v answer v' /\ answers request answer

structure System where
  manager : Manager
  vmm : VmmPd -> Vmm

/-- How the VMMs are built and initialized, and the answers in a request and in a restart. -/
structure Environment where
  runtime : VmmPd -> GuestVmmRuntime
  start : VmmPd -> VmmStart
  onRequest : Answers
  onRestart : Answers

/-- The VMMs answer the manager's calls; the preparation succeeds or fails. -/
inductive CallExec (env : Environment) :
    (request : ManagerOp) -> (VmmPd -> Vmm) -> ManagerAns request -> (VmmPd -> Vmm) -> Prop where
  | call {vmms : VmmPd -> Vmm} {ep : VmmPd} {msg rep : Sel4Msg} {v' : Vmm}
      (hserve : Executes (AnsweringExec env.onRequest (env.runtime ep))
        (vmmServe (env.runtime ep) msg) (vmms ep) rep v') :
      CallExec env (.call ep msg) vmms rep (Function.update vmms ep v')
  | gicPrepare (vmms : VmmPd -> Vmm) (client : Nat) (ok : Bool) :
      CallExec env (.gicPrepare client) vmms ok vmms
  | schedulingConfigure (vmms : VmmPd -> Vmm) (client : Nat) (ok : Bool) :
      CallExec env (.schedulingConfigure client) vmms ok vmms

/-- One message to the manager, or one step of a restart that a running guest asked for. -/
inductive SystemStep (build : ManagerBuild) (env : Environment) : System -> System -> Prop where
  | message {manager manager' : Manager} {vmms vmms' : VmmPd -> Vmm} {req rep : Sel4Msg} :
      Executes (CallExec env) (serveMessage build manager req) vmms (rep, manager') vmms' ->
      SystemStep build env ⟨manager, vmms⟩ ⟨manager', vmms'⟩
  | restart {manager : Manager} {vmms : VmmPd -> Vmm} {pd : VmmPd} {v' : Vmm}
      {result : RestartResult} : (vmms pd).state = .running \/ (vmms pd).state = .destroying ->
      Executes (AnsweringExec env.onRestart (env.runtime pd))
        (aosGuestVmmRestartStep (env.runtime pd)) (vmms pd) result v' ->
      SystemStep build env ⟨manager, vmms⟩ ⟨manager, Function.update vmms pd v'⟩

inductive SystemReach (build : ManagerBuild) (env : Environment) : System -> Prop where
  | init : SystemReach build env ⟨.init, fun pd => .init (env.start pd)⟩
  | step {s s' : System} : SystemReach build env s -> SystemStep build env s s' ->
      SystemReach build env s'

/-- No teardown fails. -/
def teardownSucceeds : Answers
  | .teardown _, ok => ok = true
  | _, _ => True

/-- Nothing fails once the guest is stopped. -/
def restartSucceeds : Answers
  | .teardown _, ok => ok = true
  | .reset, ok => ok = true
  | .start, ok => ok = true
  | _, _ => True

/-! ## VMMs whose callbacks oblige -/

section Obliging

abbrev Answering (answers : Answers) (runtime : GuestVmmRuntime) {α : Type}
    (Q : α -> Vmm -> Prop) (program : RuntimeM α) (v : Vmm) : Prop :=
  Establishes (AnsweringExec answers runtime) Q program v

variable {runtime : GuestVmmRuntime} {v : Vmm} {α : Type} {answers : Answers} {Q : α -> Vmm -> Prop}

theorem establishes_answering {program : RuntimeM α}
    (hprogram : Establishes (VmmExec runtime) Q program v) :
    Answering answers runtime Q program v :=
  hprogram.restrict fun _ _ _ _ h => h.1

theorem answering_loadState {next : GuestState -> RuntimeM α}
    (hnext : Answering answers runtime Q (next v.state) v) :
    Answering answers runtime Q (loadState >>= next) v := by
  rintro _ _ ⟨⟨⟩, -⟩
  exact hnext

theorem answering_loadStarted {next : Bool -> RuntimeM α}
    (hnext : Answering answers runtime Q (next v.started) v) :
    Answering answers runtime Q (loadStarted >>= next) v := by
  rintro _ _ ⟨⟨⟩, -⟩
  exact hnext

theorem lifecycleRpc_answering (answers : Answers) (hinv : VmmInv runtime v) (req rep : Sel4Msg) :
    Answering answers runtime
      (fun reply v' => VmmInv runtime v' /\ Replied (lifecycleOp req) v reply v')
      (aosGuestVmmLifecycleRpc runtime req rep) v := by
  refine (establishes_answering (lifecycleRpc_spec hinv.log hinv.words req rep)).mono ?_
  rintro reply v' ⟨hlog, hreplied⟩
  exact ⟨⟨hlog, hreplied.wordsOk hinv.words⟩, hreplied⟩

/-- Answers that let every teardown succeed. -/
def NoTeardownFails (answers : Answers) : Prop :=
  ∀ callback ok, answers (.teardown callback) ok -> ok = true

theorem guestTeardown_obliging (hanswers : NoTeardownFails answers) (rep : Sel4Msg) :
    Answering answers runtime (fun reply _ => reply.opcode = guestOk)
      (guestTeardown runtime rep) v := by
  have hteardown (v : Vmm) : Answering answers runtime (fun ok _ => ok = true)
      (callTeardown runtime) v := by
    unfold callTeardown
    split
    case h_1 => exact fun ok _ hexec => hanswers _ ok hexec.2
    case h_2 => exact rfl
  unfold guestTeardown
  intro _ v1 _
  refine (hteardown v1).bind ?_
  rintro ok v2 rfl
  exact fun _ _ _ _ _ _ => rfl

/-- Then a DESTROY succeeds or changes nothing. -/
theorem guestDestroy_obliging (hanswers : NoTeardownFails answers) (hinv : VmmInv runtime v)
    (req rep : Sel4Msg) :
    Answering answers runtime
      (fun reply v' => reply.opcode = guestOk \/ v'.state = v.state)
      (guestDestroy runtime req rep) v := by
  unfold guestDestroy
  split
  · exact .inr rfl
  refine answering_loadState ?_
  split
  · exact .inl rfl
  split
  · refine (establishes_answering (callSuspend_spec hinv.log)).bind ?_
    rintro ok v1 ⟨hlog1, hstate1, -, hdone⟩
    cases ok with
    | false => exact .inr hstate1
    | true =>
      refine (establishes_answering (callQuiesceTimer_spec hlog1 (hdone rfl))).bind ?_
      rintro _ v2 -
      exact (guestTeardown_obliging hanswers rep).mono fun _ _ h => .inl h
  · exact (guestTeardown_obliging hanswers rep).mono fun _ _ h => .inl h

def lifecycleOpcode : LifecycleOp -> UInt32
  | .create => msgGuestCreate
  | .boot => msgGuestBoot
  | .suspend => msgGuestSuspend
  | .resume => msgGuestResume
  | .destroy => msgGuestDestroy

variable {req : Sel4Msg} {op : LifecycleOp}

theorem lifecycleOp_opcode (hop : req.opcode = lifecycleOpcode op) : lifecycleOp req = some op := by
  unfold lifecycleOp
  rw [hop]
  cases op <;> rfl

/-- A request leads where it should, or changes nothing. -/
def Outcome (runtime : GuestVmmRuntime) (op : LifecycleOp) (v : Vmm) (rep : Sel4Msg) (v' : Vmm) :
    Prop :=
  VmmInv runtime v' /\ (rep.opcode = guestOk /\ v'.state = op.target \/
    rep.opcode ≠ guestOk /\ v'.state = v.state)

theorem lifecycleRpc_outcome (hanswers : NoTeardownFails answers) (hinv : VmmInv runtime v)
    (hop : req.opcode = lifecycleOpcode op) (rep : Sel4Msg) :
    Answering answers runtime
      (fun reply v' => ∃ rep', reply = some rep' /\ Outcome runtime op v rep' v')
      (aosGuestVmmLifecycleRpc runtime req rep) v := by
  have hspec := lifecycleRpc_answering answers hinv req rep
  rw [lifecycleOp_opcode hop] at hspec
  have hdestroy : Answering answers runtime
      (fun reply v' => op = .destroy -> ∀ rep', reply = some rep' -> rep'.opcode = guestOk \/
        v'.state = v.state) (aosGuestVmmLifecycleRpc runtime req rep) v := by
    cases op with
    | destroy =>
      have hrpc : aosGuestVmmLifecycleRpc runtime req rep =
          some <$> guestDestroy runtime req rep := by
        unfold aosGuestVmmLifecycleRpc
        rw [hop]
        rfl
      rw [hrpc]
      refine (guestDestroy_obliging hanswers hinv req rep).bind ?_
      rintro reply v' hreply - rep' hrep
      cases hrep
      exact hreply
    | _ => exact hspec.mono fun _ _ _ h => nomatch h
  refine (hspec.and hdestroy).mono ?_
  rintro reply v' ⟨⟨hinv', hreplied⟩, hobliging⟩
  cases reply with
  | none => exact hreplied.elim
  | some rep' =>
    refine ⟨rep', rfl, hinv', ?_⟩
    by_cases hok : rep'.opcode = guestOk
    · exact .inl ⟨hok, GuestStep.target hreplied hok⟩
    · refine .inr ⟨hok, ?_⟩
      by_cases hop' : op = .destroy
      · exact (hobliging hop' rep' rfl).resolve_left hok
      · exact (GuestStep.unchanged hreplied hok (.inl hop')).1

/-! ## Restarts that succeed -/

theorem guestCreate_obliging (hdead : v.state = .dead) (hreset : runtime.reset = true)
    (hos : requestedOs req = runtime.osType) (rep : Sel4Msg) :
    Establishes (AnsweringExec restartSucceeds runtime) (fun reply _ => reply.opcode = guestOk)
      (guestCreate runtime req rep) v := by
  unfold guestCreate
  rw [if_neg (by simp [hos])]
  refine answering_loadState ?_
  rw [hdead, if_neg (by decide), if_pos rfl, if_neg (by simp [hreset])]
  rintro ok _ ⟨⟨⟩, hok⟩
  obtain rfl : ok = true := hok
  rintro _ _ ⟨⟨⟩, -⟩ _ _ ⟨⟨⟩, -⟩ _ _ ⟨⟨⟩, -⟩ _ _ ⟨⟨⟩, -⟩
  exact rfl

theorem guestBoot_obliging (hready : v.state = .ready) (hstart : runtime.start = true)
    (hid : validGuestId runtime req = true) (rep : Sel4Msg) :
    Establishes (AnsweringExec restartSucceeds runtime) (fun reply _ => reply.opcode = guestOk)
      (guestBoot runtime req rep) v := by
  have hstarts (v : Vmm) (started : Bool) : Establishes (AnsweringExec restartSucceeds runtime)
      (fun ok _ => ok = true) (startUnless runtime started) v := by
    unfold startUnless callStart callOrFail
    rw [if_pos hstart]
    split
    · exact rfl
    · exact fun ok _ hexec => hexec.2
  unfold guestBoot
  rw [if_neg (by simp [hid])]
  refine answering_loadState ?_
  rw [hready, if_neg (by decide), if_neg (by decide)]
  refine answering_loadStarted ((hstarts _ _).bind ?_)
  rintro ok _ rfl _ _ ⟨⟨⟩, -⟩
  exact rfl

theorem validGuestId_restart (opcode : UInt32) {length : UInt32} (hlength : 4 <= length) :
    validGuestId runtime (restartMsg opcode length runtime.guestId) = true := by
  simp [validGuestId, restartMsg, hlength]

theorem rpc_target {rep : Sel4Msg} {handler : RuntimeM Sel4Msg} (hinv : VmmInv runtime v)
    (hop : lifecycleOp req = some op)
    (hrpc : aosGuestVmmLifecycleRpc runtime req rep = some <$> handler)
    (hok : Answering answers runtime (fun reply _ => reply.opcode = guestOk)
      handler v) :
    Answering answers runtime
      (fun reply v' => VmmInv runtime v' /\ succeeded reply = true /\ v'.state = op.target)
      (aosGuestVmmLifecycleRpc runtime req rep) v := by
  have hsucceeds : Answering answers runtime
      (fun reply _ => succeeded reply = true) (aosGuestVmmLifecycleRpc runtime req rep) v := by
    rw [hrpc]
    exact hok.bind fun reply v' h => beq_iff_eq.mpr h
  refine ((lifecycleRpc_answering answers hinv req rep).and hsucceeds).mono ?_
  rintro reply v' ⟨⟨hinv', hreplied⟩, hsuccess⟩
  rw [hop] at hreplied
  cases reply with
  | none => exact hreplied.elim
  | some rep' => exact ⟨hinv', hsuccess, GuestStep.target hreplied (beq_iff_eq.mp hsuccess)⟩

theorem restartBoot_obliging (hinv : VmmInv runtime v) (hready : v.state = .ready)
    (hstart : runtime.start = true) {length : UInt32} (hlength : 4 <= length) (rep : Sel4Msg) :
    Establishes (AnsweringExec restartSucceeds runtime) (fun _ v' => v'.state = .running)
      (restartBoot runtime length rep) v := by
  unfold restartBoot
  refine answering_loadState ?_
  rw [hready, if_neg (by decide)]
  have hboot := guestBoot_obliging hready hstart (validGuestId_restart msgGuestBoot hlength) rep
  refine (rpc_target hinv rfl rfl hboot).bind ?_
  rintro reply v' ⟨-, hsuccess, hrunning⟩
  rw [hsuccess, if_neg (by decide)]
  refine answering_loadState (answering_loadStarted ?_)
  split <;> exact hrunning

theorem restartCreate_obliging (hinv : VmmInv runtime v) (hdead : v.state = .dead)
    (hreset : runtime.reset = true) (hstart : runtime.start = true) (rep : Sel4Msg) :
    Establishes (AnsweringExec restartSucceeds runtime) (fun _ v' => v'.state = .running)
      (restartCreate runtime rep) v := by
  unfold restartCreate
  refine answering_loadState ?_
  rw [if_pos hdead]
  have hos : requestedOs (restartMsg msgGuestCreate 4 runtime.osType) = runtime.osType := by
    simp [requestedOs, restartMsg]
  refine (rpc_target hinv rfl rfl (guestCreate_obliging hdead hreset hos rep)).bind ?_
  rintro reply v' ⟨hinv', hsuccess, hready⟩
  cases reply with
  | none => cases hsuccess
  | some rep' =>
    dsimp only
    rw [if_pos (show (rep'.opcode == guestOk) = true from hsuccess)]
    exact restartBoot_obliging hinv' hready hstart (by decide) rep'

/-- A restart in which nothing fails once the guest is stopped leaves the guest running. -/
theorem restartStep_obliging (hinv : VmmInv runtime v) (hrunning : v.state = .running) :
    Establishes (AnsweringExec restartSucceeds runtime) (fun _ v' => v'.state = .running)
      (aosGuestVmmRestartStep runtime) v := by
  unfold aosGuestVmmRestartStep
  split
  · exact hrunning
  rename_i hpresent
  have hcallbacks : runtime.reset = true /\ runtime.start = true := by
    simp only [Bool.or_eq_true, not_or, Bool.not_eq_true, Bool.not_eq_false'] at hpresent
    exact ⟨hpresent.1.2, hpresent.2⟩
  refine answering_loadState ?_
  rw [if_pos (.inl hrunning)]
  have hop : (restartMsg msgGuestDestroy 8 runtime.guestId).opcode = lifecycleOpcode .destroy := rfl
  refine (lifecycleRpc_outcome (fun _ _ h => h) hinv hop emptyMsg).bind ?_
  rintro reply v' ⟨rep', rfl, hinv', ⟨hok, hdead⟩ | ⟨hfail, hsame⟩⟩
  · dsimp only
    rw [if_pos (beq_iff_eq.mpr hok)]
    exact restartCreate_obliging hinv' hdead hcallbacks.1 hcallbacks.2 rep'
  · dsimp only
    rw [if_neg (by simpa using hfail)]
    exact hsame.trans hrunning

end Obliging

end AgentOs.VmManager
