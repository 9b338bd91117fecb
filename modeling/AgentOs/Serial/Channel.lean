import AgentOs.Sel4.Kernel
import AgentOs.Serial.Queue

/-!
# Serial channels

A channel is the pair of queues between a frontend and a guest, with its control words.  Each
client has a channel in the frontend page, and one in the frame that its monitor maps; a rebind
replaces the frame.  A byte carries two marks that no code looks at: the generation in which it
was put into a queue of the client, and the one in which a frontend took it.
-/

namespace AgentOs.Serial

open Library Prog Sel4

inductive Page where
  | front (client : UInt32)
  | guest (client : UInt32) (frame : Nat)
  deriving DecidableEq

inductive Direction where
  | toGuest | fromGuest
  deriving DecidableEq

/-- A queue, and its data region. -/
abbrev Ptr := Page × Direction

structure Cell where
  byte : UInt8
  written : Option Nat
  seen : Option Nat

def Cell.zero : Cell := ⟨0, none, none⟩

/-- A byte that comes from outside. -/
def Cell.new (byte : UInt8) : Cell := ⟨byte, none, none⟩

def aosSerialRxCapacity : UInt32 := 4096
def aosSerialTxCapacity : UInt32 := 65536

structure Channel where
  toGuest : QueueHandle Ptr
  fromGuest : QueueHandle Ptr
  metaPage : Option Page

def aosSerialChannelAt (page : Page) : Channel where
  toGuest := ⟨some (page, .toGuest), some (page, .toGuest), aosSerialRxCapacity⟩
  fromGuest := ⟨some (page, .fromGuest), some (page, .fromGuest), aosSerialTxCapacity⟩
  metaPage := some page

def nullChannel : Channel := ⟨⟨none, none, 0⟩, ⟨none, none, 0⟩, none⟩

/-! ## Control words -/

def aosSerialFrontendClosed : UInt32 := 1
def aosSerialFrontendBusy : UInt32 := 2

/-- The words of `aos_serial_channel_meta_t` but the gate. -/
inductive MetaField where
  | guestState | attached
  deriving DecidableEq

/-- What `aos_serial_uart_t` holds apart from its channel. -/
structure Uart where
  tx : Cell
  rx : Cell
  txPending : Bool
  rxPending : Bool

def emptyUart : Uart := ⟨Cell.zero, Cell.zero, false, false⟩

/-! ## Requests -/

inductive SerialOp where
  | queue (access : QueueOp Ptr Cell)
  | loadSignalled (queue : Ptr)
  | clearByte (data : Ptr) (index : UInt32)
  | clearQueue (queue : Ptr)
  | loadMeta (page : Page) (field : MetaField)
  | storeMeta (page : Page) (field : MetaField) (value : UInt32)
  | loadGate (page : Page)
  | storeGate (page : Page) (value : UInt32)
  | fetchOrGate (page : Page) (bits : UInt32)
  | fetchAndGate (page : Page) (bits : UInt32)
  | compareExchangeGate (page : Page) (expected desired : UInt32)
  | getUart
  | putUart (uart : Uart)
  | dropPending
  | uartRead (offset : UInt32)
  | uartWrite (offset : UInt32) (value : Cell)
  | deleteFrame (client : UInt32)
  | retypeFrame (client : UInt32)
  | mapFrame (client : UInt32) (frame : Nat)

/-- An atomic update answers with the value before it.  A retype answers with the number of
the new frame. -/
abbrev SerialAns : SerialOp -> Type
  | .queue access => QueueAns access
  | .loadSignalled _ => UInt32
  | .clearByte _ _ => Unit
  | .clearQueue _ => Unit
  | .loadMeta _ _ => UInt32
  | .storeMeta _ _ _ => Unit
  | .loadGate _ => UInt32
  | .storeGate _ _ => Unit
  | .fetchOrGate _ _ => UInt32
  | .fetchAndGate _ _ => UInt32
  | .compareExchangeGate _ _ _ => UInt32
  | .getUart => Uart
  | .putUart _ => Unit
  | .dropPending => Unit
  | .uartRead _ => Option Cell
  | .uartWrite _ _ => Bool
  | .deleteFrame _ => Sel4Error
  | .retypeFrame _ => Sel4Error × Nat
  | .mapFrame _ _ => Sel4Error

abbrev SerialIo : Interface := ⟨SerialOp, SerialAns⟩

abbrev SerialM := Prog SerialIo

def onQueue {α : Type} (program : QueueM Ptr Cell α) : SerialM α :=
  program.lift (J := SerialIo) .queue fun _ answer => answer

abbrev loadSignalled (queue : Ptr) : SerialM UInt32 :=
  perform (I := SerialIo) (.loadSignalled queue)
abbrev clearByte (data : Ptr) (index : UInt32) : SerialM Unit :=
  perform (I := SerialIo) (.clearByte data index)
abbrev clearQueue (queue : Ptr) : SerialM Unit := perform (I := SerialIo) (.clearQueue queue)
abbrev loadMeta (page : Page) (field : MetaField) : SerialM UInt32 :=
  perform (I := SerialIo) (.loadMeta page field)
abbrev storeMeta (page : Page) (field : MetaField) (value : UInt32) : SerialM Unit :=
  perform (I := SerialIo) (.storeMeta page field value)
abbrev loadGate (page : Page) : SerialM UInt32 := perform (I := SerialIo) (.loadGate page)
abbrev storeGate (page : Page) (value : UInt32) : SerialM Unit :=
  perform (I := SerialIo) (.storeGate page value)
abbrev fetchOrGate (page : Page) (bits : UInt32) : SerialM UInt32 :=
  perform (I := SerialIo) (.fetchOrGate page bits)
abbrev fetchAndGate (page : Page) (bits : UInt32) : SerialM UInt32 :=
  perform (I := SerialIo) (.fetchAndGate page bits)
abbrev compareExchangeGate (page : Page) (expected desired : UInt32) : SerialM UInt32 :=
  perform (I := SerialIo) (.compareExchangeGate page expected desired)
abbrev getUart : SerialM Uart := perform (I := SerialIo) .getUart
abbrev putUart (uart : Uart) : SerialM Unit := perform (I := SerialIo) (.putUart uart)
abbrev dropPending : SerialM Unit := perform (I := SerialIo) .dropPending
abbrev uartRead (offset : UInt32) : SerialM (Option Cell) :=
  perform (I := SerialIo) (.uartRead offset)
abbrev uartWrite (offset : UInt32) (value : Cell) : SerialM Bool :=
  perform (I := SerialIo) (.uartWrite offset value)

end AgentOs.Serial
