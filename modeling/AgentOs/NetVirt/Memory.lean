import AgentOs.Library.Program
import AgentOs.NetVirt.Layout

/-!
# Requests of the network virtualizer

Every access to memory that another party can see is one request, and so is every call to the
driver and to the kernel.  Two requests have no effect: one marks an iteration of a loop that
drains a ring, the other the point of a pass at which all TX suppression words are cleared.
-/

open Function (update)

namespace AgentOs.NetVirt

open Library Ipc

inductive NetEnd where
  | head
  | tail
  deriving DecidableEq

/-- A typed location.  `queueZero` is the target of the bytewise clear of a queue
page. -/
inductive NetCell where
  | index (side : NetEnd) (q : NetPtr)
  | signalled (q : NetPtr)
  | buffer (q : NetPtr) (i : Nat)
  | queueZero (q : NetPtr)
  | byte (p : NetPtr)

abbrev NetCell.Val : NetCell -> Type
  | .index _ _ => UInt16
  | .signalled _ => UInt32
  | .buffer _ _ => NetBuffDesc
  | .queueZero _ => Unit
  | .byte _ => UInt8

/-- The bytes of a cell: `tail`, `head`, `consumer_signalled`, then the descriptors. -/
def NetCell.span : NetCell -> Span NetRegion
  | .index .tail q => ⟨q, 2⟩
  | .index .head q => ⟨q + 2, 2⟩
  | .signalled q => ⟨q + 4, 4⟩
  | .buffer q i => ⟨q + (8 + 16 * i), 16⟩
  | .queueZero q => ⟨q, aosNetQueueBytes⟩
  | .byte p => ⟨p, 1⟩

inductive NetOp where
  | load (cell : NetCell)
  | store (cell : NetCell) (value : cell.Val)
  | fence
  | netCall (opcode arg0 arg1 : UInt32)
  | signal (cap : UInt64)
  | cnodeDelete (slot : Nat)
  | untypedRetype (slot : Nat)
  | pageMap (slot va : Nat)
  | attempt (q : NetPtr)
  | wordsCleared (passesLeft : Nat) (clients : NvTable)

/-- A driver call answers a message; kernel calls answer whether they returned
`seL4_NoError`. -/
abbrev NetOp.Ans : NetOp -> Type
  | .load cell => cell.Val
  | .store _ _ => Unit
  | .fence => Unit
  | .netCall _ _ _ => Sel4Msg
  | .signal _ => Unit
  | .cnodeDelete _ => Bool
  | .untypedRetype _ => Bool
  | .pageMap _ _ => Bool
  | .attempt _ => Unit
  | .wordsCleared _ _ => Unit

abbrev NetIo : Interface := ⟨NetOp, NetOp.Ans⟩

abbrev NetM := Prog NetIo

def load (cell : NetCell) : NetM cell.Val := Prog.perform (I := NetIo) (.load cell)

def store (cell : NetCell) (value : cell.Val) : NetM Unit :=
  Prog.perform (I := NetIo) (.store cell value)

def aosNetFence : NetM Unit := Prog.perform (I := NetIo) .fence

def attempt (q : NetPtr) : NetM Unit := Prog.perform (I := NetIo) (.attempt q)

/-! ## A memory that answers loads -/

structure NetIndices where
  head : UInt16
  tail : UInt16

def NetIndices.get (r : NetIndices) : NetEnd -> UInt16
  | .head => r.head
  | .tail => r.tail

def NetIndices.set (r : NetIndices) (v : UInt16) : NetEnd -> NetIndices
  | .head => { r with head := v }
  | .tail => { r with tail := v }

structure NetHeap where
  index : NetPtr -> NetIndices
  signalled : NetPtr -> UInt32
  buffer : NetPtr -> Nat -> NetBuffDesc
  byte : NetPtr -> UInt8

def NetBuffDesc.zero : NetBuffDesc := ⟨0, 0⟩

namespace NetHeap

def load (h : NetHeap) : (cell : NetCell) -> cell.Val
  | .index side q => (h.index q).get side
  | .signalled q => h.signalled q
  | .buffer q i => h.buffer q i
  | .queueZero _ => ()
  | .byte p => h.byte p

def store (h : NetHeap) : (cell : NetCell) -> cell.Val -> NetHeap
  | .index side q, v => { h with index := update h.index q ((h.index q).set v side) }
  | .signalled q, v => { h with signalled := update h.signalled q v }
  | .buffer q i, v =>
    { h with buffer := update h.buffer q (update (h.buffer q) i v) }
  | .queueZero q, _ =>
    { h with
      index := update h.index q ⟨0, 0⟩
      signalled := update h.signalled q 0
      buffer := update h.buffer q fun _ => .zero }
  | .byte p, v => { h with byte := update h.byte p v }

/-- The number of descriptors in a queue. -/
def len (h : NetHeap) (q : NetPtr) : UInt16 := (h.index q).tail - (h.index q).head

def zero : NetHeap where
  index := fun _ => ⟨0, 0⟩
  signalled := fun _ => 0
  buffer := fun _ _ => .zero
  byte := fun _ => 0

end NetHeap

/-- The driver as the virtualizer sees it: a reply and its effect on the bytes of the
region and on its own state. -/
abbrev NetDriver (μ : Type) :=
  (opcode arg0 arg1 : UInt32) -> (NetPtr -> UInt8) -> μ -> Sel4Msg × (NetPtr -> UInt8) × μ

/-- Sequential answers: memory that no client touches, kernel calls that succeed. -/
def handler {μ : Type} (driver : NetDriver μ) :
    (request : NetOp) -> NetHeap × μ -> NetOp.Ans request × (NetHeap × μ)
  | .load cell, s => (s.1.load cell, s)
  | .store cell value, s => ((), (s.1.store cell value, s.2))
  | .fence, s => ((), s)
  | .netCall opcode arg0 arg1, s =>
    ((driver opcode arg0 arg1 s.1.byte s.2).1,
      ({ s.1 with byte := (driver opcode arg0 arg1 s.1.byte s.2).2.1 },
        (driver opcode arg0 arg1 s.1.byte s.2).2.2))
  | .signal _, s => ((), s)
  | .cnodeDelete _, s => (true, s)
  | .untypedRetype _, s => (true, s)
  | .pageMap _ _, s => (true, s)
  | .attempt _, s => ((), s)
  | .wordsCleared _ _, s => ((), s)

end AgentOs.NetVirt
