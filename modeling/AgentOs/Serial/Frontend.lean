import AgentOs.Serial.Channel

/-!
# Serial frontends

A frontend enters a section of a channel through the gate, uses the queues, and leaves.
The UART frontend keeps one byte for each direction in a latch of its own when the UART or
the queue cannot take it.
-/

namespace AgentOs.Serial

open Library

/-! ## Sections -/

/-- The compare-exchange answers with the word it found. -/
def aosSerialFrontendBegin (channel : Channel) : SerialM PumpStatus :=
  match channel.metaPage with
  | none => pure .invalid
  | some page => do
    let found <- compareExchangeGate page 0 aosSerialFrontendBusy
    if found = 0 then pure .ok
    else if found &&& aosSerialFrontendClosed ≠ 0 then pure .invalid
    else pure .full

def aosSerialFrontendEnd (channel : Channel) : SerialM Unit :=
  match channel.metaPage with
  | none => pure ()
  | some page => do
    let _ <- fetchAndGate page (~~~aosSerialFrontendBusy)
    pure ()

/-- One call on a queue of the channel: the status and the bytes it returned. -/
inductive QueueAccess where
  | write (bytes : Option (Nat -> UInt8)) (length : UInt32)
  | read (bytes : Bool) (capacity : UInt32) (length : Bool)

def frontendAccess (channel : Channel) : QueueAccess -> SerialM (PumpStatus × List Cell)
  | .write bytes length => do
    let status <- onQueue (aosSerialQueueWrite (some channel.toGuest)
      (bytes.map fun bytes i => Cell.new (bytes i)) length)
    pure (status, [])
  | .read bytes capacity length =>
    onQueue (aosSerialQueueRead (some channel.fromGuest) bytes capacity length)

/-- Accesses in order; all that was returned. -/
def frontendAccesses (channel : Channel) :
    List QueueAccess -> PumpStatus -> List Cell -> SerialM (PumpStatus × List Cell)
  | [], status, cells => pure (status, cells)
  | access :: rest, _, cells => do
    let (status, more) <- frontendAccess channel access
    frontendAccesses channel rest status (cells ++ more)

def frontendSection (channel : Channel) (accesses : List QueueAccess) :
    SerialM (PumpStatus × List Cell) := do
  let admission <- aosSerialFrontendBegin channel
  if admission ≠ .ok then pure (admission, [])
  else do
    let result <- frontendAccesses channel accesses .ok []
    aosSerialFrontendEnd channel
    pure result

def aosSerialFrontendWrite (channel : Channel) (bytes : Option (Nat -> UInt8))
    (length : UInt32) : SerialM (PumpStatus × List Cell) :=
  frontendSection channel [.write bytes length]

def aosSerialFrontendRead (channel : Channel) (bytes : Bool) (capacity : UInt32)
    (length : Bool) : SerialM (PumpStatus × List Cell) :=
  if !length then pure (.invalid, [])
  else frontendSection channel [.read bytes capacity length]

/-! ## The UART frontend -/

/-- What a step returns, with the bytes that its queue read returned. -/
structure UartResult where
  ok : Bool
  changed : Bool
  dequeued : List Cell

/-- Refill the transmit latch from the queue. -/
def uartDequeue (channel : Channel) (uart : Uart) : SerialM (Bool × Uart × List Cell) :=
  if uart.txPending then pure (true, uart, [])
  else do
    let (status, bytes) <- onQueue (aosSerialQueueRead (some channel.fromGuest) true 1 true)
    if status ≠ .ok then pure (false, uart, bytes)
    else
      let uart := match bytes with
        | [] => uart
        | byte :: _ => { uart with tx := byte, txPending := true }
      do
        putUart uart
        pure (true, uart, bytes)

/-- Send the latched byte when the UART is ready. -/
def uartTransmit (uart : Uart) (status : UInt8) : SerialM (Bool × Uart) :=
  if uart.txPending /\ status &&& 0x20 ≠ 0 then do
    let sent <- uartWrite 0 uart.tx
    if !sent then pure (false, uart)
    else do
      let uart := { uart with txPending := false }
      putUart uart
      pure (true, uart)
  else pure (true, uart)

/-- Take a byte from the UART when the latch is free. -/
def uartReceive (uart : Uart) (status : UInt8) : SerialM (Bool × Uart) :=
  if !uart.rxPending /\ status &&& 1 ≠ 0 then do
    let byte <- uartRead 0
    match byte with
    | none => pure (false, uart)
    | some byte => do
      let uart := { uart with rx := byte, rxPending := true }
      putUart uart
      pure (true, uart)
  else pure (true, uart)

/-- Put the latched byte into the queue. -/
def uartEnqueue (channel : Channel) (uart : Uart) (changed : Bool) : SerialM (Bool × Bool) :=
  if !uart.rxPending then pure (true, changed)
  else do
    let result <- onQueue (aosSerialQueueWrite (some channel.toGuest) (some fun _ => uart.rx) 1)
    match result with
    | .invalid => pure (false, changed)
    | .full => pure (true, changed)
    | .ok => do
      putUart { uart with rxPending := false }
      pure (true, true)

def uartStepAdmitted (channel : Channel) : SerialM UartResult := do
  let uart <- getUart
  let wasPending := uart.txPending
  let (ok, uart, dequeued) <- uartDequeue channel uart
  if !ok then pure ⟨false, false, dequeued⟩
  else do
    let changed := !wasPending && uart.txPending
    let status <- uartRead 5
    match status with
    | none => pure ⟨false, changed, dequeued⟩
    | some status =>
      if status.byte &&& 0x1e ≠ 0 then pure ⟨false, changed, dequeued⟩
      else do
        let (ok, uart) <- uartTransmit uart status.byte
        if !ok then pure ⟨false, changed, dequeued⟩
        else do
          let (ok, uart) <- uartReceive uart status.byte
          if !ok then pure ⟨false, changed, dequeued⟩
          else do
            let (ok, changed) <- uartEnqueue channel uart changed
            pure ⟨ok, changed, dequeued⟩

/-- The flag says that no argument is null. -/
def aosSerialUartStep (channel : Channel) (present : Bool) : SerialM UartResult :=
  match present, channel.metaPage with
  | true, some page => do
    let admission <- aosSerialFrontendBegin channel
    if admission ≠ .ok then do
      let gate <- loadGate page
      if gate &&& aosSerialFrontendClosed ≠ 0 then do
        dropPending
        pure ⟨true, false, []⟩
      else pure ⟨true, false, []⟩
    else do
      let result <- uartStepAdmitted channel
      aosSerialFrontendEnd channel
      pure result
  | _, _ => pure ⟨false, false, []⟩

end AgentOs.Serial
