import AgentOs.Serial.Separation

/-!
# Bytes in the latches of the UART frontend

The UART frontend forgets its two latches only when it runs while the gate is closed, so a
rebind that follows the detach at once leaves the latch as it was.
-/

open Function (update_self)

namespace AgentOs.Serial

open Library Threads Prog

/-- The byte that a request puts into a queue or sends to the UART. -/
def SerialOp.passedCell : SerialOp -> Option Cell
  | .queue (.storeByte _ _ cell) => some cell
  | .uartWrite _ cell => some cell
  | _ => none

/-- The service opens a gate only when the latches of the client's frontends are empty. -/
def ReopensQuietly (t : SerialThread) (request : SerialOp) (s : SerialState) : Prop :=
  match t, request with
  | .service, .storeGate (.front c) _ =>
    ∀ i, (s.uart c i).txPending = false /\ (s.uart c i).rxPending = false
  | _, _ => True

variable {s : SerialState}

theorem serialMay_passed {c : UInt32} {i : Nat} {request : SerialOp} {cell : Cell}
    (hmay : SerialMay True (.frontend c i) request s) (hpassed : request.passedCell = some cell) :
      SeenOk (s.epoch c) cell := by
  cases request with
  | queue access =>
    cases access with
    | storeByte data index stored =>
      cases hpassed
      exact hmay.2.2 trivial
    | _ => cases hpassed
  | uartWrite offset value =>
    cases hpassed
    exact hmay trivial
  | _ => cases hpassed

/-- When rebinds reopen quietly, a frontend passes on only bytes that it took since the
client's last rebind. -/
theorem uart_bytes_stay {acts : Acts SerialIo SerialOwn SerialCall SerialRes} {s : SerialState}
    (hreach : (serial.restrict ReopensQuietly).Reach serialStart (acts, s)) {c : UInt32} {i : Nat}
    {call : FrontendCall} {request : SerialOp}
    {next : SerialAns request -> SerialM (List Cell × Unit)}
    (hrunning : acts (.frontend c i) = .running call (.op request next)) {cell : Cell}
    (hpassed : request.passedCell = some cell) {k : Nat} (hseen : cell.seen = some k) :
    k = s.epoch c := by
  have hquiet : OpensQuietly True ReopensQuietly := fun _ c s hcondition => hcondition
  obtain ⟨-, hcovered⟩ := serial_reach hquiet hreach
  have hown := hcovered (.frontend c i)
  simp only [hrunning] at hown
  exact serialMay_passed hown.may hpassed k hseen

/-- A restricted run takes no step that reopens a gate. -/
def quietAnswer (oracle : SerialOracle) (t : SerialThread) (request : SerialOp)
    (s : SerialState) : Option (SerialAns request × SerialState) :=
  match request with
  | .storeGate _ _ => none
  | request => serialAnswer oracle t request s

theorem quietAnswer_exec {oracle : SerialOracle} {t : SerialThread} {request : SerialOp}
    {s' : SerialState} {answer : SerialAns request}
    (hanswer : quietAnswer oracle t request s = some (answer, s')) :
    (serial.restrict ReopensQuietly).exec t request s answer s' := by
  cases request with
  | storeGate page value => cases hanswer
  | _ => exact ⟨by cases t <;> trivial, oracle, hanswer⟩

/-- The UART frontend sends a byte that it took in the same epoch. -/
def sendsTaken (config : Acts SerialIo SerialOwn SerialCall SerialRes × SerialState) : Bool :=
  match config.1 (.frontend 0 0) with
  | .running _ (.op (.uartWrite _ cell) _) => decide (cell.seen = some 0)
  | _ => false

theorem uart_bytes_stay_sent : ∃ acts s call offset cell next,
      (serial.restrict ReopensQuietly).Reach serialStart (acts, s) /\
      acts (.frontend 0 0) = .running call (.op (.uartWrite offset cell) next) /\
      cell.seen = some (s.epoch 0) := by
  have hplay : ((serial.restrict ReopensQuietly).play quietAnswer serialMayEnter
      (latchSchedule ++ callTurns (.frontend 0 0) (.uartStep true) 3 0x20) serialStart).any
      sendsTaken = true := by decide +kernel
  obtain ⟨⟨acts, s⟩, hreach, htest⟩ := reach_of_play_any (T := serial.restrict ReopensQuietly)
    (fun _ _ _ _ _ _ hanswer => quietAnswer_exec hanswer) (fun _ _ _ _ hmay => hmay) hplay
  unfold sendsTaken at htest
  split at htest
  case h_1 call offset cell next hrunning =>
    have hseen := of_decide_eq_true htest
    refine ⟨acts, s, call, offset, cell, next, hreach, hrunning, ?_⟩
    rw [hseen, <- uart_bytes_stay hreach hrunning rfl hseen]
  case h_2 => cases htest

/-- A step of the UART frontend that finds the gate open, the latch full and the UART ready
sends what the latch holds. -/
theorem reach_uartWrite {acts : Acts SerialIo SerialOwn SerialCall SerialRes} {c : UInt32} {i : Nat}
    (hidle : acts (.frontend c i) = .idle ()) (hgate : s.gate (.front c) = 0)
    (hpending : (s.uart c i).txPending = true) :
    ∃ acts' s' next, serial.Reach (acts, s) (acts', s') /\ s'.epoch = s.epoch /\
      acts' (.frontend c i) = .running (.uartStep true)
        (.op (.uartWrite 0 (s.uart c i).tx) next) := by
  -- the gate is free, so the compare-exchange finds zero and the frontend is inside
  have hbegin : serial.exec (.frontend c i)
      (.compareExchangeGate (.front c) 0 aosSerialFrontendBusy) s (0 : UInt32)
      ((s.setGate (.front c) aosSerialFrontendBusy).setInside (.frontend c i) true) := by
    refine ⟨willing 0, congrArg some (Prod.ext hgate ?_)⟩
    exact if_pos hgate
  have hget : serial.exec (.frontend c i) .getUart
      ((s.setGate (.front c) aosSerialFrontendBusy).setInside (.frontend c i) true) (s.uart c i)
      ((s.setGate (.front c) aosSerialFrontendBusy).setInside (.frontend c i) true) :=
    ⟨willing 0, rfl⟩
  have hstatus : serial.exec (.frontend c i) (.uartRead 5)
      ((s.setGate (.front c) aosSerialFrontendBusy).setInside (.frontend c i) true)
      (some ⟨0x20, none, some (s.epoch c)⟩)
      ((s.setGate (.front c) aosSerialFrontendBusy).setInside (.frontend c i) true) :=
    ⟨willing 0x20, rfl⟩
  have hdequeue : uartDequeue (aosSerialChannelAt (.front c)) (s.uart c i) =
      pure (true, s.uart c i, []) := if_pos hpending
  have htransmit : uartTransmit (s.uart c i) 0x20 = (do
      let sent <- uartWrite 0 (s.uart c i).tx
      if !sent then pure (false, s.uart c i)
      else do
        putUart { s.uart c i with txPending := false }
        pure (true, { s.uart c i with txPending := false })) :=
    if_pos ⟨hpending, by decide⟩
  have hstart : serial.Reach (acts, s) (serial.resume acts (.frontend c i) (.uartStep true)
      (serial.code (.frontend c i) () (.uartStep true)) s) := .single (.start hidle rfl)
  have hinside := (hstart.trans (reach_resume hbegin)).trans (reach_resume hget)
  change serial.Reach _ (serial.resume _ _ _ (((uartDequeue _ (s.uart c i) >>= _) >>= _) >>= _) _)
    at hinside
  rw [hdequeue] at hinside
  have hready := hinside.trans (reach_resume hstatus)
  dsimp only [Prog.bind] at hready
  rw [if_neg (by decide), htransmit] at hready
  exact ⟨_, _, _, hready, rfl, update_self ..⟩

/-- A byte that the UART frontend took from a guest before its detach is sent after the
rebind. -/
theorem uart_byte_crosses : ∃ acts s i call cell next, serial.Reach serialStart (acts, s) /\
      acts (.frontend 0 i) = .running call (.op (.uartWrite 0 cell) next) /\
      cell.seen = some 0 /\ s.epoch 0 = 1 := by
  obtain ⟨acts, s, hreach, hidle, hgate, hepoch, hpending, hseen⟩ := rebound_reach
  obtain ⟨acts', s', next, hwrite, hsame, hrunning⟩ := reach_uartWrite hidle hgate hpending
  exact ⟨acts', s', 0, .uartStep true, _, next, hreach.trans hwrite, hrunning, hseen,
    (congrFun hsame 0).trans hepoch⟩

end AgentOs.Serial
