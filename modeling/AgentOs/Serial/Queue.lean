import AgentOs.Library.Program
import AgentOs.Library.Ring
import Mathlib.Data.Nat.Bitwise

/-!
# Serial byte queues

The queues between the serial frontend, `serial_virt` and the monitors.  Each has one producer
and one consumer; head and tail run freely over 32 bits and a byte lives at its index masked
with the capacity.  Every access is a request, so the other end may move between any two.  The
code is generic in pointers and bytes.
-/

namespace AgentOs.Serial

open Library Prog

variable {P β : Type}

inductive PumpStatus where
  | ok | invalid | full
  deriving DecidableEq

/-- `aos_serial_queue_handle_t`; a null pointer is `none`. -/
structure QueueHandle (P : Type) where
  queue : Option P
  data : Option P
  capacity : UInt32

/-- A handle that passed `valid_handle`. -/
structure ValidHandle (P : Type) where
  queue : P
  data : P
  capacity : UInt32
  capacity_ne : capacity ≠ 0
  capacity_mask : capacity &&& (capacity - 1) = 0

def validHandle : Option (QueueHandle P) -> Option (ValidHandle P)
  | some ⟨some queue, some data, capacity⟩ =>
    if h : capacity ≠ 0 /\ capacity &&& (capacity - 1) = 0 then
      some ⟨queue, data, capacity, h.1, h.2⟩
    else none
  | _ => none

def ValidHandle.toHandle (h : ValidHandle P) : QueueHandle P :=
  ⟨some h.queue, some h.data, h.capacity⟩

@[simp]
theorem validHandle_toHandle (h : ValidHandle P) : validHandle (some h.toHandle) = some h :=
  dif_pos ⟨h.capacity_ne, h.capacity_mask⟩

/-! ## Requests -/

inductive QueueOp (P β : Type) where
  | loadHead (queue : P)
  | loadTail (queue : P)
  | storeHead (queue : P) (head : UInt32)
  | storeTail (queue : P) (tail : UInt32)
  | loadByte (data : P) (index : UInt32)
  | storeByte (data : P) (index : UInt32) (byte : β)

abbrev QueueAns : QueueOp P β -> Type
  | .loadHead _ => UInt32
  | .loadTail _ => UInt32
  | .storeHead _ _ => Unit
  | .storeTail _ _ => Unit
  | .loadByte _ _ => β
  | .storeByte _ _ _ => Unit

abbrev QueueIo (P β : Type) : Interface := ⟨QueueOp P β, QueueAns⟩

abbrev QueueM (P β : Type) := Prog (QueueIo P β)

abbrev loadHead (queue : P) : QueueM P β UInt32 := perform (I := QueueIo P β) (.loadHead queue)
abbrev loadTail (queue : P) : QueueM P β UInt32 := perform (I := QueueIo P β) (.loadTail queue)
abbrev storeHead (queue : P) (head : UInt32) : QueueM P β Unit :=
  perform (I := QueueIo P β) (.storeHead queue head)
abbrev storeTail (queue : P) (tail : UInt32) : QueueM P β Unit :=
  perform (I := QueueIo P β) (.storeTail queue tail)

/-- Masked position of a free-running index. -/
def ValidHandle.at (h : ValidHandle P) (index : UInt32) : UInt32 := index &&& (h.capacity - 1)

abbrev loadByte (h : ValidHandle P) (index : UInt32) : QueueM P β β :=
  perform (I := QueueIo P β) (.loadByte h.data (h.at index))
abbrev storeByte (h : ValidHandle P) (index : UInt32) (byte : β) : QueueM P β Unit :=
  perform (I := QueueIo P β) (.storeByte h.data (h.at index) byte)

/-! ## Write -/

/-- The caller's bytes; a null pointer is accepted for an empty message only. -/
def message (bytes : Option (Nat -> β)) (length : UInt32) : Option (List β) :=
  match bytes with
  | some bytes => some ((List.range length.toNat).map bytes)
  | none => if length = 0 then some [] else none

def storeBytes (h : ValidHandle P) (tail : UInt32) : UInt32 -> List β -> QueueM P β Unit
  | _, [] => pure ()
  | i, byte :: rest => do
    storeByte h (tail + i) byte
    storeBytes h tail (i + 1) rest

def publishBytes (h : ValidHandle P) (tail : UInt32) (bytes : List β) (length : UInt32) :
    QueueM P β PumpStatus := do
  storeBytes h tail 0 bytes
  if length = 0 then pure .ok
  else do
    storeTail h.queue (tail + length)
    pure .ok

def writeMessage (h : ValidHandle P) (bytes : List β) (length : UInt32) :
    QueueM P β PumpStatus := do
  let tail <- loadTail h.queue
  let head <- loadHead h.queue
  let occupied := tail - head
  if occupied > h.capacity then pure .invalid
  else if length > h.capacity - occupied then pure .full
  else publishBytes h tail bytes length

def aosSerialQueueWrite (handle : Option (QueueHandle P)) (bytes : Option (Nat -> β))
    (length : UInt32) : QueueM P β PumpStatus :=
  match validHandle handle, message bytes length with
  | some h, some bytes => writeMessage h bytes length
  | _, _ => pure .invalid

/-! ## Read -/

def loadBytes (h : ValidHandle P) (head : UInt32) : UInt32 -> Nat -> QueueM P β (List β)
  | _, 0 => pure []
  | i, n + 1 => do
    let byte <- loadByte h (head + i)
    let rest <- loadBytes h head (i + 1) n
    pure (byte :: rest)

def takeBytes (h : ValidHandle P) (head count : UInt32) : QueueM P β (PumpStatus × List β) := do
  let bytes <- loadBytes h head 0 count.toNat
  if count = 0 then pure (.ok, bytes)
  else do
    storeHead h.queue (head + count)
    pure (.ok, bytes)

def readMessage (h : ValidHandle P) (capacity : UInt32) : QueueM P β (PumpStatus × List β) := do
  let head <- loadHead h.queue
  let tail <- loadTail h.queue
  let available := tail - head
  if available > h.capacity then pure (.invalid, [])
  else takeBytes h head (if available < capacity then available else capacity)

/-- The flags say whether the two result pointers are set.  The bytes are those stored
through the first, as many as stored through the second. -/
def aosSerialQueueRead (handle : Option (QueueHandle P)) (bytes : Bool) (capacity : UInt32)
    (length : Bool) : QueueM P β (PumpStatus × List β) :=
  if !length then pure (.invalid, [])
  else match validHandle handle with
    | none => pure (.invalid, [])
    | some h => if !bytes /\ capacity ≠ 0 then pure (.invalid, []) else readMessage h capacity

/-! ## Transfer -/

def copyBytes (source destination : ValidHandle P) (sourceHead destinationTail : UInt32) :
    UInt32 -> Nat -> QueueM P β Unit
  | _, 0 => pure ()
  | i, n + 1 => do
    let byte <- loadByte source (sourceHead + i)
    storeByte destination (destinationTail + i) byte
    copyBytes source destination sourceHead destinationTail (i + 1) n

/-- Space, what is there and the budget, whichever is least. -/
def transferCount (space available budget : UInt32) : UInt32 :=
  let count := if space > available then available else space
  if count > budget then budget else count

def moveBytes (source destination : ValidHandle P) (sourceHead destinationTail count : UInt32) :
    QueueM P β (PumpStatus × UInt32) := do
  copyBytes source destination sourceHead destinationTail 0 count.toNat
  if count = 0 then pure (.ok, count)
  else do
    storeTail destination.queue (destinationTail + count)
    storeHead source.queue (sourceHead + count)
    pure (.ok, count)

def transferBytes (source destination : ValidHandle P) (budget : UInt32) :
    QueueM P β (PumpStatus × UInt32) := do
  let sourceHead <- loadHead source.queue
  let sourceTail <- loadTail source.queue
  let destinationTail <- loadTail destination.queue
  let destinationHead <- loadHead destination.queue
  let available := sourceTail - sourceHead
  let occupied := destinationTail - destinationHead
  if available > source.capacity \/ occupied > destination.capacity then pure (.invalid, 0)
  else
    let count := transferCount (destination.capacity - occupied) available budget
    moveBytes source destination sourceHead destinationTail count

def aosSerialVirtTransfer [DecidableEq P] (source destination : Option (QueueHandle P))
    (budget : UInt32) (transferred : Bool) : QueueM P β (PumpStatus × UInt32) :=
  if !transferred then pure (.invalid, 0)
  else match validHandle source, validHandle destination with
    | some source, some destination =>
      if source.queue = destination.queue \/ source.data = destination.data then
        pure (.invalid, 0)
      else transferBytes source destination budget
    | _, _ => pure (.invalid, 0)

/-! ## Indices -/

namespace ValidHandle

theorem exists_two_pow (h : ValidHandle P) : ∃ k, h.capacity.toNat = 2 ^ k := by
  have hne : h.capacity.toNat ≠ 0 := fun hzero => h.capacity_ne (UInt32.toNat_inj.mp hzero)
  have hle : (1 : UInt32) <= h.capacity := UInt32.le_iff_toNat_le.mpr (Nat.pos_of_ne_zero hne)
  have hmask := congrArg UInt32.toNat h.capacity_mask
  rw [UInt32.toNat_and, UInt32.toNat_sub_of_le _ _ hle] at hmask
  exact (Nat.ne_zero_and_sub_one_eq_zero_iff_isPowerOfTwo.mp ⟨hne, hmask⟩)

theorem capacity_dvd (h : ValidHandle P) : h.capacity.toNat ∣ 2 ^ 32 := by
  obtain ⟨k, hk⟩ := h.exists_two_pow
  have hlt : 2 ^ k < 2 ^ 32 := hk ▸ h.capacity.toNat_lt
  rw [hk]
  exact Nat.pow_dvd_pow 2 ((Nat.pow_lt_pow_iff_right (by decide)).mp hlt).le

theorem toNat_at (h : ValidHandle P) (index : UInt32) :
    (h.at index).toNat = index.toNat % h.capacity.toNat := by
  obtain ⟨k, hk⟩ := h.exists_two_pow
  have hle : (1 : UInt32) <= h.capacity := UInt32.le_iff_toNat_le.mpr (hk ▸ Nat.two_pow_pos k)
  unfold ValidHandle.at
  rw [UInt32.toNat_and, UInt32.toNat_sub_of_le _ _ hle, hk]
  exact Nat.and_two_pow_sub_one_eq_mod _ k

/-- The `j`-th byte from an index lives where the ring has it, also past a wrap. -/
theorem toNat_at_add (h : ValidHandle P) (index : UInt32) (j : Nat) :
    (h.at (index + UInt32.ofNat j)).toNat = (index.toNat + j) % h.capacity.toNat := by
  rw [toNat_at, UInt32.toNat_add, UInt32.toNat_ofNat', Nat.add_mod_mod,
    Nat.mod_mod_of_dvd _ h.capacity_dvd]

theorem at_add_eq (h : ValidHandle P) (index : UInt32) (j : Nat) :
    h.at (index + UInt32.ofNat j) = .ofNat ((index.toNat + j) % h.capacity.toNat) := by
  rw [<- toNat_at_add, UInt32.ofNat_toNat]

end ValidHandle

end AgentOs.Serial
