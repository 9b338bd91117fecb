import AgentOs.Library.Program
import AgentOs.BlkVirt.Layout

/-!
# Requests of the block virtualizer

Every access to memory that another party can see is one request, and so is every call to the
driver and to the kernel.  Two requests have no effect: they mark the call through the backend
pointer and the point of a pass at which all suppression words are cleared.
-/

open Function (update)

namespace AgentOs.BlkVirt

open Library

/-- The two rings of a client. -/
inductive RingKind where
  | req
  | resp
  deriving DecidableEq

inductive RingEnd where
  | head
  | tail
  deriving DecidableEq

inductive InfoField where
  | serialNumber (i : Nat)
  | readOnly
  | ready
  | sectorSize
  | blockSize
  | queueDepth
  | capacity

abbrev InfoField.Val : InfoField -> Type
  | .serialNumber _ => UInt8
  | .readOnly => Bool
  | .ready => Bool
  | .sectorSize => UInt16
  | .blockSize => UInt16
  | .queueDepth => UInt16
  | .capacity => UInt64

/-- A typed location.  The whole-record cells are the targets of the bytewise
clears. -/
inductive Cell where
  | index (kind : RingKind) (side : RingEnd) (q : BlkPtr)
  | reqBuffer (q : BlkPtr) (i : Nat)
  | respBuffer (q : BlkPtr) (i : Nat)
  | ringZero (kind : RingKind) (q : BlkPtr)
  | infoZero (p : BlkPtr)
  | info (p : BlkPtr) (field : InfoField)
  | signalWord (p : BlkPtr)
  | signalReserved (p : BlkPtr)
  | byte (p : BlkPtr)

abbrev Cell.Val : Cell -> Type
  | .index _ _ _ => UInt32
  | .reqBuffer _ _ => BlkReq
  | .respBuffer _ _ => BlkResp
  | .ringZero _ _ => Unit
  | .infoZero _ => Unit
  | .info _ field => field.Val
  | .signalWord _ => UInt32
  | .signalReserved _ => UInt32
  | .byte _ => UInt8

/-- Message registers of a driver call; the remaining three are zero. -/
structure HostCall where
  mr0 : UInt64
  mr1 : UInt64
  mr2 : UInt64
  mr3 : UInt64
  mr4 : UInt64

/-- Length and message registers of a driver reply. -/
structure HostReply where
  length : UInt64
  mr1 : UInt64
  mr2 : UInt64
  mr3 : UInt64
  mr4 : UInt64

inductive BlkOp where
  | load (cell : Cell)
  | store (cell : Cell) (value : cell.Val)
  | fence
  | hostCall (call : HostCall)
  | signal (cap : UInt64)
  | cnodeDelete (slot : Nat)
  | untypedRetype (slot : Nat)
  | pageMap (slot va : Nat)
  | backendCall (req : BlkReq)
  | wordsCleared (passesLeft : Nat) (attached : Nat -> Bool)

/-- Kernel calls answer whether they returned `seL4_NoError`. -/
abbrev BlkOp.Ans : BlkOp -> Type
  | .load cell => cell.Val
  | .store _ _ => Unit
  | .fence => Unit
  | .hostCall _ => HostReply
  | .signal _ => Unit
  | .cnodeDelete _ => Bool
  | .untypedRetype _ => Bool
  | .pageMap _ _ => Bool
  | .backendCall _ => Unit
  | .wordsCleared _ _ => Unit

abbrev BlkIo : Interface := ⟨BlkOp, BlkOp.Ans⟩

abbrev BlkM := Prog BlkIo

def load (cell : Cell) : BlkM cell.Val := Prog.perform (I := BlkIo) (.load cell)

def store (cell : Cell) (value : cell.Val) : BlkM Unit :=
  Prog.perform (I := BlkIo) (.store cell value)

def aosFence : BlkM Unit := Prog.perform (I := BlkIo) .fence

/-! ## Footprints -/

def InfoField.span (p : BlkPtr) : InfoField -> Span Region
  | .serialNumber i => ⟨p + i, 1⟩
  | .readOnly => ⟨p + 64, 1⟩
  | .ready => ⟨p + 65, 1⟩
  | .sectorSize => ⟨p + 66, 2⟩
  | .blockSize => ⟨p + 68, 2⟩
  | .queueDepth => ⟨p + 70, 2⟩
  | .capacity => ⟨p + 80, 8⟩

/-- The bytes of a cell: record sizes and field offsets of the queue ABI. -/
def Cell.span : Cell -> Span Region
  | .index _ .head q => ⟨q, 4⟩
  | .index _ .tail q => ⟨q + 4, 4⟩
  | .reqBuffer q i => ⟨q + (16 + 32 * i), 32⟩
  | .respBuffer q i => ⟨q + (8 + 12 * i), 12⟩
  | .ringZero _ q => ⟨q, aosBlkQueueBytes⟩
  | .infoZero p => ⟨p, 88⟩
  | .info p field => field.span p
  | .signalWord p => ⟨p, 4⟩
  | .signalReserved p => ⟨p + 4, 4⟩
  | .byte p => ⟨p, 1⟩

/-! ## A memory that answers loads -/

structure RingIndices where
  head : UInt32
  tail : UInt32

structure BlkHeap where
  ring : RingKind -> BlkPtr -> RingIndices
  reqBuf : BlkPtr -> Nat -> BlkReq
  respBuf : BlkPtr -> Nat -> BlkResp
  info : BlkPtr -> StorageInfo
  signal : BlkPtr -> UInt32
  byte : BlkPtr -> UInt8

def StorageInfo.zero : StorageInfo where
  serialNumber := fun _ => 0
  readOnly := false
  ready := false
  sectorSize := 0
  blockSize := 0
  queueDepth := 0
  capacity := 0

def BlkReq.zero : BlkReq := ⟨0, 0, 0, 0, 0⟩

def BlkResp.zero : BlkResp := ⟨.ok, 0, 0⟩

def StorageInfo.get (info : StorageInfo) : (field : InfoField) -> field.Val
  | .serialNumber i => info.serialNumber i
  | .readOnly => info.readOnly
  | .ready => info.ready
  | .sectorSize => info.sectorSize
  | .blockSize => info.blockSize
  | .queueDepth => info.queueDepth
  | .capacity => info.capacity

def StorageInfo.set (info : StorageInfo) : (field : InfoField) -> field.Val -> StorageInfo
  | .serialNumber i, v => { info with serialNumber := update info.serialNumber i v }
  | .readOnly, v => { info with readOnly := v }
  | .ready, v => { info with ready := v }
  | .sectorSize, v => { info with sectorSize := v }
  | .blockSize, v => { info with blockSize := v }
  | .queueDepth, v => { info with queueDepth := v }
  | .capacity, v => { info with capacity := v }

def RingIndices.get (r : RingIndices) : RingEnd -> UInt32
  | .head => r.head
  | .tail => r.tail

def RingIndices.set (r : RingIndices) (v : UInt32) : RingEnd -> RingIndices
  | .head => { r with head := v }
  | .tail => { r with tail := v }

namespace BlkHeap

def setRing (h : BlkHeap) (kind : RingKind) (q : BlkPtr) (r : RingIndices) : BlkHeap :=
  { h with ring := fun kind' q' => if kind' = kind /\ q' = q then r else h.ring kind' q' }

def load (h : BlkHeap) : (cell : Cell) -> cell.Val
  | .index kind side q => (h.ring kind q).get side
  | .reqBuffer q i => h.reqBuf q i
  | .respBuffer q i => h.respBuf q i
  | .ringZero _ _ => ()
  | .infoZero _ => ()
  | .info p field => (h.info p).get field
  | .signalWord p => h.signal p
  | .signalReserved _ => (0 : UInt32)
  | .byte p => h.byte p

def store (h : BlkHeap) : (cell : Cell) -> cell.Val -> BlkHeap
  | .index kind side q, v => h.setRing kind q ((h.ring kind q).set v side)
  | .reqBuffer q i, v =>
    { h with reqBuf := update h.reqBuf q (update (h.reqBuf q) i v) }
  | .respBuffer q i, v =>
    { h with respBuf := update h.respBuf q (update (h.respBuf q) i v) }
  | .ringZero .req q, _ =>
    { h.setRing .req q ⟨0, 0⟩ with
      reqBuf := update h.reqBuf q (fun _ => BlkReq.zero) }
  | .ringZero .resp q, _ =>
    { h.setRing .resp q ⟨0, 0⟩ with
      respBuf := update h.respBuf q (fun _ => BlkResp.zero) }
  | .infoZero p, _ => { h with info := update h.info p StorageInfo.zero }
  | .info p field, v => { h with info := update h.info p ((h.info p).set field v) }
  | .signalWord p, v => { h with signal := update h.signal p v }
  | .signalReserved _, _ => h
  | .byte p, v => { h with byte := update h.byte p v }

/-- Loads are answered from this memory; nothing is assumed of other answers. -/
def Agrees (h : BlkHeap) : (request : BlkOp) -> BlkOp.Ans request -> Prop
  | .load cell, value => value = h.load cell
  | _, _ => True

/-- One request against a memory that other parties share.  The driver may change
data bytes during a call and answer anything. -/
def Exec : (request : BlkOp) -> BlkHeap -> BlkOp.Ans request -> BlkHeap -> Prop
  | .load cell, h, value, h' => value = h.load cell /\ h' = h
  | .store cell value, h, _, h' => h' = h.store cell value
  | .hostCall _, h, _, h' => ∃ byte, h' = { h with byte := byte }
  | _, h, _, h' => h' = h

def zero : BlkHeap where
  ring := fun _ _ => ⟨0, 0⟩
  reqBuf := fun _ _ => .zero
  respBuf := fun _ _ => .zero
  info := fun _ => .zero
  signal := fun _ => 0
  byte := fun _ => 0

def ringLen (h : BlkHeap) (kind : RingKind) (q : BlkPtr) : UInt32 :=
  (h.ring kind q).tail - (h.ring kind q).head

end BlkHeap

/-- The driver as the virtualizer sees it: a reply and its effect on the shared
memory and on its own state. -/
abbrev Driver (μ : Type) := HostCall -> BlkHeap -> μ -> HostReply × BlkHeap × μ

/-- No medium is present. -/
def noDriver : Driver Unit := fun _ h m => (⟨0, 0, 0, 0, 0⟩, h, m)

/-- Sequential answers: memory that nobody else touches, kernel calls that succeed. -/
def handler {μ : Type} (driver : Driver μ) :
    (request : BlkOp) -> BlkHeap × μ -> BlkOp.Ans request × (BlkHeap × μ)
  | .load cell, s => (s.1.load cell, s)
  | .store cell value, s => ((), (s.1.store cell value, s.2))
  | .fence, s => ((), s)
  | .hostCall call, s => driver call s.1 s.2
  | .signal _, s => ((), s)
  | .cnodeDelete _, s => (true, s)
  | .untypedRetype _, s => (true, s)
  | .pageMap _ _, s => (true, s)
  | .backendCall _, s => ((), s)
  | .wordsCleared _ _, s => ((), s)

/-- Without a medium the sequential answers are among those a shared memory may give. -/
theorem handler_exec (request : BlkOp) (h : BlkHeap) :
    BlkHeap.Exec request h (handler noDriver request (h, ())).1
      (handler noDriver request (h, ())).2.1 := by
  cases request with
  | load cell => exact ⟨rfl, rfl⟩
  | hostCall call => exact ⟨h.byte, rfl⟩
  | _ => exact rfl

end AgentOs.BlkVirt
