import AgentOs.Library.Threads
import AgentOs.Serial.Frontend
import AgentOs.Serial.QueueEnds
import AgentOs.Serial.Service

/-!
# The serial system

The service thread, any number of frontend threads on each client's channel, and the monitors,
each of which works on the frame it was given until it is no longer the client's.  Every access
is one step.  The state also keeps what no code reads: who is inside a section, whether the
client is detached or being reset, how often it was rebound, and what queue reads returned.
-/

open Function (update)

namespace AgentOs.Serial

open Library Threads Sel4

inductive SerialThread where
  | service
  | frontend (client : UInt32) (i : Nat)
  | vmm (client : UInt32) (frame : Nat)
  deriving DecidableEq

/-- The bytes of one completed call, with the rebinds of the client so far. -/
structure Returned where
  client : UInt32
  epoch : Nat
  cells : List Cell

structure SerialState where
  mem : QueueMem Ptr Cell
  signalled : Ptr -> UInt32
  word : Page -> MetaField -> UInt32
  gate : Page -> UInt32
  uart : UInt32 -> Nat -> Uart
  frame : UInt32 -> Nat
  frames : UInt32 -> Nat
  inside : UInt32 -> Nat -> Bool
  detached : UInt32 -> Bool
  resetting : UInt32 -> Bool
  epoch : UInt32 -> Nat
  returned : List Returned

/-- Everything zero, as the root task retypes it; each client has its first frame. -/
def serialStateStart : SerialState where
  mem := ⟨fun _ => 0, fun _ => 0, fun _ _ => Cell.zero⟩
  signalled _ := 0
  word _ _ := 0
  gate _ := 0
  uart _ _ := emptyUart
  frame _ := 0
  frames _ := 1
  inside _ _ := false
  detached _ := false
  resetting _ := false
  epoch _ := 0
  returned := []

/-! ## Accesses -/

/-- What a byte is marked with when a thread takes it. -/
def SerialState.taken (s : SerialState) : SerialThread -> Cell -> Cell
  | .frontend client _, cell => { cell with seen := some (s.epoch client) }
  | _, cell => cell

/-- What a byte is marked with when a thread puts it into a queue.  The service only moves
bytes. -/
def SerialState.put (s : SerialState) : SerialThread -> Cell -> Cell
  | .service, cell => cell
  | .frontend client _, cell => { cell with written := some (s.epoch client) }
  | .vmm client _, cell => { cell with written := some (s.epoch client) }

/-- The client whose frontend page is reset through a pointer. -/
def SerialState.startReset (s : SerialState) : Page -> SerialState
  | .front client => { s with resetting := update s.resetting client true }
  | .guest _ _ => s

def SerialState.setGate (s : SerialState) (page : Page) (value : UInt32) : SerialState :=
  { s with gate := update s.gate page value }

def SerialState.setInside (s : SerialState) (t : SerialThread) (value : Bool) : SerialState :=
  match t with
  | .frontend client i =>
    { s with inside := update s.inside client
               (update (s.inside client) i value) }
  | _ => s

/-- The latches of a frontend are its own. -/
def SerialState.uartOf (s : SerialState) : SerialThread -> Uart
  | .frontend client i => s.uart client i
  | _ => emptyUart

def SerialState.setUart (s : SerialState) (t : SerialThread) (change : Uart -> Uart) : SerialState :=
  match t with
  | .frontend client i =>
    { s with uart := update s.uart client
               (update (s.uart client) i (change (s.uart client i))) }
  | _ => s

def SerialState.accessQueue (s : SerialState) (t : SerialThread) :
    (access : QueueOp Ptr Cell) -> QueueAns access × SerialState
  | .loadHead queue => (s.mem.head queue, s)
  | .loadTail queue => (s.mem.tail queue, s)
  | .storeHead queue head =>
    ((), { s with mem := (QueueMem.access (.storeHead queue head) s.mem).2 })
  | .storeTail queue tail =>
    ((), { s with mem := (QueueMem.access (.storeTail queue tail) s.mem).2 })
  | .loadByte data index => (s.taken t (s.mem.data data index), s)
  | .storeByte data index cell =>
    ((), { s with mem := (QueueMem.access (.storeByte data index (s.put t cell)) s.mem).2 })

/-- What the UART and the kernel answer. -/
structure SerialOracle where
  uartByte : Option UInt8
  uartSent : Bool
  kernel : Sel4Error

def SerialState.perform (s : SerialState) (oracle : SerialOracle) (t : SerialThread) :
    (request : SerialOp) -> SerialAns request × SerialState
  | .queue access => s.accessQueue t access
  | .loadSignalled queue => (s.signalled queue, s)
  | .clearByte data index =>
    ((), { s with mem := (QueueMem.access (.storeByte data index Cell.zero) s.mem).2 }.startReset
      data.1)
  | .clearQueue queue =>
    ((), { s with
            mem := { s.mem with
              head := update s.mem.head queue 0
              tail := update s.mem.tail queue 0 }
            signalled := update s.signalled queue 0 }.startReset queue.1)
  | .loadMeta page field => (s.word page field, s)
  | .storeMeta page field value =>
    ((), { s with word := update s.word page
                    (update (s.word page) field value) })
  | .loadGate page => (s.gate page, s)
  | .storeGate page value => ((), s.setGate page value)
  | .fetchOrGate page bits => (s.gate page, s.setGate page (s.gate page ||| bits))
  | .fetchAndGate page bits =>
    (s.gate page, (s.setGate page (s.gate page &&& bits)).setInside t false)
  | .compareExchangeGate page expected desired =>
    (s.gate page, if s.gate page = expected then (s.setGate page desired).setInside t true else s)
  | .getUart => (s.uartOf t, s)
  | .putUart uart => ((), s.setUart t fun _ => uart)
  | .dropPending =>
    ((), s.setUart t fun uart => { uart with txPending := false, rxPending := false })
  | .uartRead _ => (oracle.uartByte.map fun byte => s.taken t (Cell.new byte), s)
  | .uartWrite _ _ => (oracle.uartSent, s)
  | .deleteFrame _ => (oracle.kernel, s)
  | .retypeFrame client =>
    ((oracle.kernel, s.frames client),
      { s with frames := update s.frames client (s.frames client + 1) })
  | .mapFrame _ _ => (oracle.kernel, s)

/-- A monitor can only use the client's present frame. -/
def SerialState.mayAccess (s : SerialState) : SerialThread -> Bool
  | .vmm client frame => s.frame client == frame
  | _ => true

def serialAnswer (oracle : SerialOracle) (t : SerialThread) (request : SerialOp)
    (s : SerialState) : Option (SerialAns request × SerialState) :=
  if s.mayAccess t then some (s.perform oracle t request) else none

/-! ## Calls -/

inductive ServiceCall where
  | attach (badge : UInt64) (request : Option SerialAttachReq) (length : UInt32)
  | detach (badge : UInt64) (request : Option SerialAttachReq) (length : UInt32)
  | rebind (badge : UInt64) (request : SerialRebindReq)
  | pump (budget : UInt32)

inductive FrontendCall where
  | write (bytes : Option (Nat -> UInt8)) (length : UInt32)
  | read (bytes : Bool) (capacity : UInt32) (length : Bool)
  | accesses (accesses : List QueueAccess)
  | uartStep (present : Bool)

inductive VmmCall where
  | write (bytes : Option (Nat -> UInt8)) (length : UInt32)
  | read (bytes : Bool) (capacity : UInt32) (length : Bool)
  | setState (value : UInt32)

abbrev SerialOwn : SerialThread -> Type
  | .service => SerialService
  | .frontend _ _ => Unit
  | .vmm _ _ => Unit

abbrev SerialCall : SerialThread -> Type
  | .service => ServiceCall
  | .frontend _ _ => FrontendCall
  | .vmm _ _ => VmmCall

/-- The service returns a status and, from a rebind, the frame; a frontend and a monitor
return the bytes they read. -/
abbrev SerialRes : SerialThread -> Type
  | .service => SerialStatus × Nat
  | .frontend _ _ => List Cell
  | .vmm _ _ => List Cell

def serviceCode (service : SerialService) :
    ServiceCall -> SerialM ((SerialStatus × Nat) × SerialService)
  | .attach badge request length =>
    let (status, service) := aosSerialVirtAttach service badge request length
    pure ((status, 0), service)
  | .detach badge request length => do
    let (status, service) <- aosSerialVirtDetach service badge request length
    pure ((status, 0), service)
  | .rebind badge request => rebindQueue service badge request
  | .pump budget => do
    let _ <- aosSerialVirtServicePump service budget
    pure ((.ok, 0), service)

def frontendCode (client : UInt32) : FrontendCall -> SerialM (List Cell × Unit)
  | .write bytes length => do
    let (_, cells) <- aosSerialFrontendWrite (aosSerialChannelAt (.front client)) bytes length
    pure (cells, ())
  | .read bytes capacity length => do
    let (_, cells) <- aosSerialFrontendRead (aosSerialChannelAt (.front client)) bytes capacity
      length
    pure (cells, ())
  | .accesses accesses => do
    let (_, cells) <- frontendSection (aosSerialChannelAt (.front client)) accesses
    pure (cells, ())
  | .uartStep present => do
    let result <- aosSerialUartStep (aosSerialChannelAt (.front client)) present
    pure (result.dequeued, ())

def vmmCode (client : UInt32) (frame : Nat) : VmmCall -> SerialM (List Cell × Unit)
  | .write bytes length => do
    let _ <- onQueue (aosSerialQueueWrite
      (some (aosSerialChannelAt (.guest client frame)).fromGuest)
      (bytes.map fun bytes i => Cell.new (bytes i)) length)
    pure ([], ())
  | .read bytes capacity length => do
    let (_, cells) <- onQueue (aosSerialQueueRead
      (some (aosSerialChannelAt (.guest client frame)).toGuest) bytes capacity length)
    pure (cells, ())
  | .setState value => do
    storeMeta (.guest client frame) .guestState value
    pure ([], ())

def serialCode : (t : SerialThread) -> SerialOwn t -> SerialCall t -> SerialM (SerialRes t × SerialOwn t)
  | .service, service, call => serviceCode service call
  | .frontend client _, _, call => frontendCode client call
  | .vmm client frame, _, call => vmmCode client frame call

/-! ## What is noted when a call returns -/

def SerialState.noteDetached (s : SerialState) (client : UInt32) : SerialState :=
  { s with detached := update s.detached client true }

def SerialState.noteRebound (s : SerialState) (client : UInt32) (frame : Nat) : SerialState :=
  { s with
    detached := update s.detached client false
    resetting := update s.resetting client false
    epoch := update s.epoch client (s.epoch client + 1)
    frame := update s.frame client frame }

def SerialState.noteReturned (s : SerialState) (client : UInt32) (cells : List Cell) :
    SerialState :=
  { s with returned := ⟨client, s.epoch client, cells⟩ :: s.returned }

def serialFinish : (t : SerialThread) -> SerialCall t -> SerialRes t -> SerialState -> SerialState
  | .service, .detach _ (some request) _, (.ok, _), s => s.noteDetached request.client
  | .service, .rebind _ request, (.ok, frame), s => s.noteRebound request.client frame
  | .service, _, _, s => s
  | .frontend client _, _, cells, s => s.noteReturned client cells
  | .vmm client _, _, cells, s => s.noteReturned client cells

def serial : Threads SerialIo SerialThread SerialOwn SerialCall SerialRes SerialState where
  exec t request s answer s' := ∃ oracle, serialAnswer oracle t request s = some (answer, s')
  enter t _ _ s := s.mayAccess t = true
  code := serialCode
  finish := serialFinish

def serialOwnStart : (t : SerialThread) -> SerialOwn t
  | .service => serialServiceStart
  | .frontend _ _ => ()
  | .vmm _ _ => ()

def serialStart : Acts SerialIo SerialOwn SerialCall SerialRes × SerialState :=
  (fun t => .idle (serialOwnStart t), serialStateStart)

/-! ## Schedules -/

/-- The kernel refuses nothing, and the UART holds and takes what is asked. -/
def willing (byte : UInt8) : SerialOracle := ⟨some byte, true, .noError⟩

abbrev SerialTurn := Turn SerialThread SerialCall SerialOracle

/-- A call and as many steps of its thread, with one answer of the outside for all. -/
def callTurns (t : SerialThread) (call : SerialCall t) (n : Nat) (byte : UInt8) : List SerialTurn :=
  .start t call :: List.replicate n (.op t (willing byte))

def serialMayEnter (t : SerialThread) (_ : SerialOwn t) (_ : SerialCall t) (s : SerialState) :
    Bool :=
  s.mayAccess t

theorem serial_play_any {turns : List SerialTurn}
    {test : Acts SerialIo SerialOwn SerialCall SerialRes × SerialState -> Bool}
    (hplay : (serial.play serialAnswer serialMayEnter turns serialStart).any test = true) :
    ∃ config, serial.Reach serialStart config /\ test config = true :=
  reach_of_play_any (T := serial) (fun oracle _ _ _ _ _ hanswer => ⟨oracle, hanswer⟩)
    (fun _ _ _ _ hmay => hmay) hplay

end AgentOs.Serial
