import AgentOs.Serial.Rebind

/-!
# Detach and rebind separate the guests' bytes

What the invariant says about the sections, the queues and the reads of one client.
-/

namespace AgentOs.Serial

open Library Threads Prog

/-! ## Calls of the service -/

section Calls

variable {strict : Prop} {condition : SerialThread -> SerialOp -> SerialState -> Prop}
  {service : SerialService} {s s0 : SerialState} {badge : UInt64} {request : Option SerialAttachReq}
  {length : UInt32}

/-- A guest that is retired cannot be attached. -/
theorem attach_knows (hknows : ServiceKnows service s) :
    ServiceKnows (aosSerialVirtAttach service badge request length).2 s := by
  cases request with
  | none => exact hknows
  | some request =>
    unfold aosSerialVirtAttach
    dsimp only
    split
    · exact hknows
    split
    · exact hknows
    split
    · exact hknows
    split
    · split
      case isTrue => exact hknows
      rename_i hfree
      rw [Bool.or_eq_true, not_or, Bool.not_eq_true, Bool.not_eq_true] at hfree
      refine ⟨hknows.frontend, hknows.retired, hknows.guest, fun c hretired => ?_⟩
      have hc : c ≠ request.client := by
        rintro rfl
        cases hfree.2.symm.trans hretired
      show Function.update service.guestAttached request.client true c = false
      rw [Function.update_of_ne hc]
      exact hknows.attached c hretired
    · split
      case isTrue => exact hknows
      case isFalse => exact ⟨hknows.frontend, hknows.retired, hknows.guest, hknows.attached⟩

theorem detachClient_error {status : SerialStatus}
    (herror : detachClient badge request length = .error status) : status ≠ .ok := by
  cases request with
  | none =>
    cases herror
    decide
  | some r =>
    simp only [detachClient] at herror
    split at herror
    · cases herror
      decide
    · split at herror
      case isTrue =>
        cases herror
        decide
      case isFalse =>
        split at herror
        · cases herror
          decide
        · cases herror

theorem finish_detach_error {status : SerialStatus} {frame : Nat} (hne : status ≠ .ok) :
    serialFinish .service (.detach badge request length) (status, frame) s = s := by
  cases status with
  | ok => exact absurd rfl hne
  | _ => cases request <;> rfl

theorem within_detach (hs : ServiceIdle strict service s) :
    Keeping strict condition .service
      (fun s0 result s => ServiceReturns strict s0 result.2
        (serialFinish .service (.detach badge request length) (result.1, 0) s))
      (aosSerialVirtDetach service badge request length) s s := by
  unfold aosSerialVirtDetach
  split
  case h_1 status herror =>
    show ServiceReturns strict s service _
    rw [finish_detach_error (detachClient_error herror)]
    exact ⟨step_refl hs.1, hs⟩
  case h_2 c hok =>
    obtain ⟨r, rfl, rfl⟩ := detachClient_ok hok
    split
    case isTrue hretired =>
      -- noting a detached client as detached changes nothing
      have hsame : s.noteDetached r.client = s := by
        have hold : Function.update s.detached r.client true = s.detached := by
          rw [<- (hs.2.retired r.client).symm.trans hretired, Function.update_eq_self]
        unfold SerialState.noteDetached
        rw [hold]
      show ServiceReturns strict s service (s.noteDetached r.client)
      rw [hsame]
      exact ⟨step_refl hs.1, hs⟩
    case isFalse =>
      rw [hs.2.frontend]
      refine (within_closeChannel hs).mono ?_
      rintro s0 ⟨status, service'⟩ s hreturns
      by_cases hstatus : status = .ok
      · subst hstatus
        exact hreturns
      · rw [if_neg hstatus] at hreturns
        show ServiceReturns strict s0 service' _
        rw [finish_detach_error hstatus]
        exact hreturns

/-- Every call of the service keeps the contract, from whatever it finds when idle. -/
theorem within_service (call : ServiceCall) (hquiet : OpensQuietly strict condition)
    (hs : ServiceIdle strict service s) :
    Keeping strict condition .service
      (fun s0 result s => ServiceReturns strict s0 result.2
        (serialFinish .service call result.1 s)) (serviceCode service call) s s := by
  cases call with
  | attach badge request length =>
    exact ⟨step_refl hs.1, hs.1, attach_knows hs.2⟩
  | detach badge request length =>
    exact within_bind ((within_detach hs).mono fun _ _ _ hreturns => hreturns)
  | rebind badge request => exact within_rebindQueue hquiet hs
  | pump budget =>
    refine within_bind ((within_pumpClients (step_refl hs.1) ⟨hs, rfl, rfl⟩).mono ?_)
    rintro s0 - s ⟨hstep, hpumping⟩
    exact ⟨hstep, hpumping.1⟩

end Calls

/-! ## All threads together -/

section Runs

variable {strict : Prop} {condition : SerialThread -> SerialOp -> SerialState -> Prop}

/-- What each thread can rely on between its calls. -/
def serialIdle (strict : Prop) : (t : SerialThread) -> SerialOwn t -> SerialState -> Prop
  | .service, service => ServiceIdle strict service
  | .frontend c i, _ => Outside strict c i
  | .vmm _ _, _ => SerialInv strict

theorem stable_serialIdle (t : SerialThread) (own : SerialOwn t) :
    Stable (contract strict) t (serialIdle strict t own) := by
  cases t with
  | service => exact stable_serviceIdle
  | frontend c i => exact stable_outside_inv
  | vmm c frame => exact stable_inv _

variable {c : UInt32} {cells : List Cell} {s : SerialState}

theorem SerialInv.noteReturned (hs : SerialInv strict s)
    (hcells : ∀ cell ∈ cells, CellOk (s.epoch c) cell) :
    SerialInv strict (s.noteReturned c cells) := by
  refine ⟨hs.gate, hs.detached, hs.resetting, hs.front, hs.guest,
    hs.blank_of_mem rfl,
    hs.frame_lt, fun r hr => ?_, hs.uart⟩
  rcases List.mem_cons.mp hr with rfl | hr
  · exact hcells
  · exact hs.returned r hr

theorem FrontendReturns.noted {s0 : SerialState} {i : Nat}
    (hreturns : FrontendReturns strict c i s0 cells s) :
    (contract strict).step (.frontend c i) s0 (s.noteReturned c cells) /\
      Outside strict c i (s.noteReturned c cells) := by
  obtain ⟨⟨hmoves, hinv⟩, houtside, hcells⟩ := hreturns
  have hinv' := hinv.noteReturned hcells
  refine ⟨⟨⟨⟨hmoves.kept.detached, hmoves.kept.resetting, hmoves.kept.epoch, hmoves.kept.frame,
    hmoves.kept.frames⟩, hmoves.inside, hmoves.shut, fun page hpage => ?_⟩, hinv'⟩, hinv',
    houtside.2⟩
  have hsame := hmoves.pages page hpage
  exact ⟨hsame.head, hsame.tail, hsame.data⟩

theorem VmmReturns.noted {s0 : SerialState} {frame : Nat}
    (hreturns : VmmReturns strict c frame s0 cells s) :
    (contract strict).step (.vmm c frame) s0 (s.noteReturned c cells) := by
  obtain ⟨⟨hmoves, hinv⟩, hcells⟩ := hreturns
  refine ⟨⟨⟨hmoves.kept.detached, hmoves.kept.resetting, hmoves.kept.epoch, hmoves.kept.frame,
    hmoves.kept.frames⟩, hmoves.inside, hmoves.gate, hmoves.active, fun page hpage => ?_⟩,
    hinv.noteReturned hcells⟩
  have hsame := hmoves.pages page hpage
  exact ⟨hsame.head, hsame.tail, hsame.data⟩

theorem within_serial (hquiet : OpensQuietly strict condition) (t : SerialThread)
    (own : SerialOwn t) (call : SerialCall t) (s : SerialState) (hs : serialIdle strict t own s)
    (henter : (serial.restrict condition).enter t own call s) :
    Keeping strict condition t
      (Returns (serial.restrict condition) (contract strict) (serialIdle strict) t call)
      ((serial.restrict condition).code t own call) s s := by
  cases t with
  | service => exact within_service call hquiet hs
  | frontend c i => exact (within_frontend call hs).mono fun _ _ _ hreturns => hreturns.noted
  | vmm c frame =>
    have hframe : s.frame c = frame := beq_iff_eq.mp henter
    exact (within_vmm call hs hframe).mono fun _ _ _ hreturns => ⟨hreturns.noted, hreturns.noted.2⟩

theorem serialInv_start : SerialInv strict serialStateStart where
  gate _ := .inl ⟨.inl rfl, fun _ => rfl⟩
  detached _ := nofun
  resetting _ := nofun
  front _ _ _ _ := cellOk_zero _
  guest _ _ _ _ := cellOk_zero _
  blank _ _ _ := ⟨fun _ => rfl, fun _ => rfl, fun _ _ => rfl⟩
  frame_lt _ := Nat.zero_lt_one
  returned _ := nofun
  uart _ _ _ := ⟨nofun, nofun⟩

theorem serialIdle_start (t : SerialThread) :
    serialIdle strict t (serialOwnStart t) serialStateStart := by
  cases t with
  | service =>
    exact ⟨serialInv_start, fun _ => rfl, fun _ => rfl, fun _ _ => rfl, fun _ _ => rfl⟩
  | frontend c i => exact ⟨serialInv_start, rfl⟩
  | vmm c frame => exact serialInv_start

/-- The invariant in every reachable state, with every thread's own argument at hand. -/
theorem serial_reach (hquiet : OpensQuietly strict condition)
    {config : Acts SerialIo SerialOwn SerialCall SerialRes × SerialState}
    (hreach : (serial.restrict condition).Reach serialStart config) :
    SerialInv strict config.2 /\ ∀ t, Covered (serial.restrict condition) (contract strict)
      (serialIdle strict) t (config.1 t) config.2 := by
  obtain ⟨hsteps, hcovered⟩ := reach_covered stable_serialIdle (within_serial hquiet) hreach
    serialIdle_start
  refine ⟨steps_keep (K := contract strict) ?_ hsteps serialInv_start, hcovered⟩
  intro t s s' hstep _
  exact hstep.2

/-- Whoever moves, a client's epoch changes only by a rebind, and that resets both
channels. -/
theorem serialMoves_epoch {t : SerialThread} {s' : SerialState} (hmoves : SerialMoves t s s')
    (hepoch : s'.epoch c ≠ s.epoch c) : ResetDone c s' := by
  cases t with
  | service =>
    rcases hmoves.epochs c with ⟨hsame, -⟩ | ⟨-, -, hreset⟩
    · exact absurd hsame hepoch
    · exact hreset
  | frontend c' i => exact absurd (congrFun hmoves.kept.epoch c) hepoch
  | vmm c' frame => exact absurd (congrFun hmoves.kept.epoch c) hepoch

/-- A frontend about to use a queue is inside a section of that queue's client. -/
theorem serialMay_inside {i : Nat} {access : QueueOp Ptr Cell}
    (hmay : SerialMay strict (.frontend c i) (.queue access) s) :
    access.page = .front c /\ s.inside c i = true := by
  cases access with
  | storeByte data index cell => exact ⟨hmay.1, hmay.2.1⟩
  | _ => exact hmay

end Runs

/-- No admitted section overlaps the reset, no frontend is about to use a queue of a detached
client, the step that completes a rebind leaves the frontend's and the fresh guest's queues empty
and the frontend's data zero, and whatever a queue read returned was written in the same epoch.
-/
theorem serial_separation {acts : Acts SerialIo SerialOwn SerialCall SerialRes}
    {s : SerialState} (hreach : serial.Reach serialStart (acts, s)) (c : UInt32) :
    (s.resetting c = true -> ∀ i, s.inside c i = false) /\
    (∀ c' i call access next,
      acts (.frontend c' i) = .running call (.op (.queue access) next) ->
      access.page = .front c -> s.detached c = false) /\
    (∀ config, serial.Step (acts, s) config -> config.2.epoch c ≠ s.epoch c -> ResetDone c config.2) /\
    (∀ r ∈ s.returned, r.client = c -> ∀ cell ∈ r.cells, ∀ k, cell.written = some k ->
      k = r.epoch) := by
  have hquiet : OpensQuietly False fun _ _ _ => True := False.elim
  have hfree : (serial.restrict fun _ _ _ => True).Reach serialStart (acts, s) :=
    reach_restrict (fun _ _ _ => trivial) hreach
  obtain ⟨hinv, hcovered⟩ := serial_reach hquiet hfree
  refine ⟨fun hresetting => hinv.outside (hinv.resetting c hresetting), ?_, ?_, ?_⟩
  · intro c' i call access next hrunning hpage
    have hown := hcovered (.frontend c' i)
    simp only [hrunning] at hown
    obtain ⟨hown, hinside⟩ := serialMay_inside hown.may
    obtain rfl := Page.front.inj (hown.symm.trans hpage)
    exact hinv.not_detached hinside
  · intro config hstep hepoch
    obtain ⟨⟨t, hmoves, -⟩, -⟩ := covered_step stable_serialIdle (within_serial hquiet)
      (step_restrict (fun _ _ _ => trivial) hstep) hcovered
    exact serialMoves_epoch hmoves hepoch
  · rintro r hr - cell hcell
    exact hinv.returned r hr cell hcell

/-- The first guest and its frontend attach, the guest sends one byte, the service pumps it,
and the UART frontend takes it while the UART is not ready. -/
def latchSchedule : List SerialTurn :=
  callTurns .service
    (.attach (Ipc.virtClientBadge 0) (some ⟨serialVirtContractVersion, 0, serialVirtRoleVmm⟩)
      serialRequestSize) 0 0 ++
  callTurns .service
    (.attach serialVirtFrontendBadge
      (some ⟨serialVirtContractVersion, 0, serialVirtRoleFrontend⟩) serialRequestSize) 0 0 ++
  callTurns (.vmm 0 0) (.write (some fun _ => 65) 1) 4 0 ++
  callTurns .service (.pump 16) 15 0 ++
  callTurns (.frontend 0 0) (.uartStep true) 9 0

/-- And the guest is detached. -/
def staleSchedule : List SerialTurn :=
  latchSchedule ++
  callTurns .service
    (.detach (Ipc.virtClientBadge 0) (some ⟨serialVirtContractVersion, 0, serialVirtRoleVmm⟩)
      serialRequestSize) 2 0

/-! ## A rebind that nobody interrupts -/

def serviceHandler (request : SerialIo.Op) (s : SerialState) : SerialIo.Ans request × SerialState :=
  s.perform (willing 0) .service request

/-- The service has no latches, and epochs change only when a call returns. -/
theorem service_keeps {α : Type} (program : SerialM α) (s : SerialState) :
    (program.eval serviceHandler s).2.uart = s.uart /\
      (program.eval serviceHandler s).2.epoch = s.epoch := by
  induction program generalizing s with
  | ret value => exact ⟨rfl, rfl⟩
  | op request next ih =>
    have hone : (serviceHandler request s).2.uart = s.uart /\
        (serviceHandler request s).2.epoch = s.epoch := by
      cases request with
      | queue access => cases access <;> exact ⟨rfl, rfl⟩
      | clearByte data index => rcases data with ⟨_ | _, _⟩ <;> exact ⟨rfl, rfl⟩
      | clearQueue queue => rcases queue with ⟨_ | _, _⟩ <;> exact ⟨rfl, rfl⟩
      | compareExchangeGate page expected desired =>
        simp only [serviceHandler, SerialState.perform]
        split <;> exact ⟨rfl, rfl⟩
      | _ => exact ⟨rfl, rfl⟩
    obtain ⟨huart, hepoch⟩ := ih (serviceHandler request s).1 (serviceHandler request s).2
    exact ⟨huart.trans hone.1, hepoch.trans hone.2⟩

/-- What a rebind is checked for before it resets the channel. -/
def rebindChecks (service : SerialService) (badge : UInt64) (request : SerialRebindReq) :
    SerialM Bool := do
  let first <- aosSerialVirtRebindValidate service badge request serialRequestSize
  let (_, frame) <- perform (I := SerialIo) (.retypeFrame request.client)
  let second <- aosSerialVirtRebindValidate service badge request serialRequestSize
  let front := service.frontend request.client
  let accepted <- freshAccepted (aosSerialChannelAt (.guest request.client frame)) front
  pure (first = .ok /\ second = .ok /\ accepted.isSome /\
    front.metaPage = some (.front request.client))

theorem evalsTo_resetChannel {page : Page} {front : FrontPointers} {s : SerialState} :
    (resetChannel page front).EvalsTo serviceHandler (fun _ s' => s'.gate page = 0) s := by
  unfold resetChannel
  rw [evalsTo_bind, evalsTo_bind]
  exact Function.update_self ..

/-- A rebind that passes its checks succeeds and opens the gate. -/
theorem evalsTo_rebindQueue {service : SerialService} {badge : UInt64} {request : SerialRebindReq}
    {s : SerialState} (hchecks : ((rebindChecks service badge request).eval serviceHandler s).1) :
    (rebindQueue service badge request).EvalsTo serviceHandler
      (fun result s' => result.1.1 = .ok /\ s'.gate (.front request.client) = 0) s := by
  have hdelete (s : SerialState) : eval serviceHandler
      (perform (I := SerialIo) (.deleteFrame request.client)) s = (.noError, s) := rfl
  have hretype (s : SerialState) : eval serviceHandler
      (perform (I := SerialIo) (.retypeFrame request.client)) s =
        ((.noError, s.frames request.client), (serviceHandler (.retypeFrame request.client) s).2) :=
    rfl
  have hmap (frame : Nat) (s : SerialState) : eval serviceHandler
      (perform (I := SerialIo) (.mapFrame request.client frame)) s = (.noError, s) := rfl
  unfold rebindChecks at hchecks
  rw [eval_bind, eval_bind, hretype] at hchecks
  dsimp only at hchecks
  rw [eval_bind, eval_bind] at hchecks
  obtain ⟨hfirst, hsecond, haccepted, hpage⟩ := of_decide_eq_true hchecks
  obtain ⟨pointers, hpointers⟩ := Option.isSome_iff_exists.mp haccepted
  unfold rebindQueue
  rw [evalsTo_bind, if_neg fun h => h hfirst, evalsTo_bind, hdelete, if_neg fun h => h rfl,
    evalsTo_bind, hretype]
  dsimp only
  rw [if_neg fun h => h rfl, evalsTo_bind, hmap, if_neg fun h => h rfl]
  refine EvalsTo.bind (Q := fun result s' => result.1 = .ok /\
    s'.gate (.front request.client) = 0) ?_ fun result s' hresult => ?_
  · unfold aosSerialVirtRebindCommit
    dsimp only
    rw [evalsTo_bind, if_neg fun h => h hsecond, evalsTo_bind, hpointers, hpage]
    dsimp only
    exact evalsTo_resetChannel.bind fun _ _ hgate => ⟨rfl, hgate⟩
  · obtain ⟨hok, hgate⟩ := hresult
    rw [if_neg fun h => h hok]
    exact ⟨hok, hgate⟩

/-- The request that follows `staleSchedule`. -/
def staleRebind : SerialRebindReq := ⟨serialVirtRebindVersion, 0, 1⟩

/-- The client is detached and can be rebound, and the latch holds a byte. -/
def staleTest (config : Acts SerialIo SerialOwn SerialCall SerialRes × SerialState) : Bool :=
  match config.1 .service, config.1 (.frontend 0 0) with
  | .idle service, .idle _ =>
    ((rebindChecks service (Ipc.virtClientBadge 0) staleRebind).eval serviceHandler config.2).1 &&
      decide (config.2.epoch 0 = 0 /\ (config.2.uart 0 0).txPending = true /\
        (config.2.uart 0 0).tx.seen = some 0)
  | _, _ => false

/-- The rebind follows the detach at once. -/
theorem rebound_reach : ∃ acts s, serial.Reach serialStart (acts, s) /\
    acts (.frontend 0 0) = .idle () /\ s.gate (.front 0) = 0 /\ s.epoch 0 = 1 /\
      (s.uart 0 0).txPending = true /\ (s.uart 0 0).tx.seen = some 0 := by
  have hplay : (serial.play serialAnswer serialMayEnter staleSchedule serialStart).any
      staleTest = true := by decide +kernel
  obtain ⟨⟨acts, s⟩, hreach, htest⟩ := serial_play_any hplay
  unfold staleTest at htest
  split at htest
  case h_2 => cases htest
  case h_1 service own hservice hfrontend =>
    obtain ⟨hchecks, hlatch⟩ := Bool.and_eq_true_iff.mp htest
    obtain ⟨hepoch, hlatch⟩ := of_decide_eq_true hlatch
    obtain ⟨result, s', ⟨⟨hok, hgate⟩, huart, hsame⟩, hrebind⟩ :=
      reach_call (T := serial) (i := .service) serviceHandler (fun request s => ⟨willing 0, rfl⟩)
        (ServiceCall.rebind (Ipc.virtClientBadge 0) staleRebind) hservice rfl
        (Q := fun result s' => (result.1.1 = .ok /\ s'.gate (.front 0) = 0) /\
          s'.uart = s.uart /\ s'.epoch = s.epoch)
        ⟨evalsTo_rebindQueue hchecks, service_keeps _ s⟩
    obtain ⟨⟨status, frame⟩, service'⟩ := result
    obtain rfl : status = .ok := hok
    refine ⟨_, _, hreach.trans hrebind, ?_, hgate, ?_, ?_⟩
    · rw [Function.update_of_ne (by decide)]
      exact hfrontend
    · show Function.update s'.epoch 0 (s'.epoch 0 + 1) 0 = 1
      rw [Function.update_self, hsame, hepoch]
    · rw [<- huart] at hlatch
      exact hlatch

theorem serial_separation_detached :
    (∃ acts s, serial.Reach serialStart (acts, s) /\ s.detached 0 = true /\
      (∃ r ∈ s.returned, r.cells ≠ []) /\
      ∀ c i call access next, acts (.frontend c i) = .running call (.op (.queue access) next) ->
        access.page ≠ .front 0) /\
    ∃ acts s config, serial.Reach serialStart (acts, s) /\ serial.Step (acts, s) config /\
      config.2.epoch 0 ≠ s.epoch 0 /\ ResetDone 0 config.2 := by
  constructor
  · have hplay : (serial.play serialAnswer serialMayEnter staleSchedule serialStart).any
        (fun config => decide (config.2.detached 0 = true /\
          ∃ r ∈ config.2.returned, r.cells ≠ [])) = true := by decide +kernel
    obtain ⟨⟨acts, s⟩, hreach, htest⟩ := serial_play_any hplay
    obtain ⟨hdetached, hreturned⟩ := of_decide_eq_true htest
    refine ⟨acts, s, hreach, hdetached, hreturned, fun c i call access next hrunning hpage => ?_⟩
    have hopen := (serial_separation hreach 0).2.1 c i call access next hrunning hpage
    cases hopen.symm.trans hdetached
  · obtain ⟨acts, s, hreach, -, -, hepoch, -⟩ := rebound_reach
    have hfirst : s.epoch 0 ≠ serialStart.2.epoch 0 := by rw [hepoch]; decide
    obtain ⟨⟨acts, s⟩, config, hbefore, hstep, hne⟩ :=
      exists_step_of_ne (fun config => config.2.epoch 0) hreach hfirst
    exact ⟨acts, s, config, hbefore, hstep, hne, (serial_separation hbefore 0).2.2.1 config hstep hne⟩

end AgentOs.Serial
