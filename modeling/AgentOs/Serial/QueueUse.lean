import AgentOs.Serial.QueueEnds

/-!
# What the queue calls use

Every call stays on the queues it was given and within their capacity; the bytes it stores
are the caller's or ones it loaded, and the bytes it returns are ones it loaded.
-/

namespace AgentOs.Serial

open Library Prog List

variable {P β : Type}

/-- An access to one queue, which stores only bytes with the property. -/
def OnHandle (h : ValidHandle P) (R : β -> Prop) : QueueOp P β -> Prop
  | .loadHead queue => queue = h.queue
  | .loadTail queue => queue = h.queue
  | .storeHead queue _ => queue = h.queue
  | .storeTail queue _ => queue = h.queue
  | .loadByte data index => data = h.data /\ index < h.capacity
  | .storeByte data index byte => data = h.data /\ index < h.capacity /\ R byte

/-- Bytes that are loaded have the property. -/
def LoadsOk (R : β -> Prop) : (request : QueueOp P β) -> QueueAns request -> Prop
  | .loadByte _ _, byte => R byte
  | _, _ => True

theorem ValidHandle.at_lt (h : ValidHandle P) (index : UInt32) : h.at index < h.capacity := by
  rw [UInt32.lt_iff_toNat_lt, h.toNat_at]
  exact Nat.mod_lt _ (Nat.pos_of_ne_zero fun hzero => h.capacity_ne (UInt32.toNat_inj.mp hzero))

variable {h : ValidHandle P} {R S : β -> Prop}

theorem ensures_storeBytes {tail i : UInt32} {bytes : List β} (hbytes : ∀ byte ∈ bytes, S byte) :
    Ensures (LoadsOk R) (OnHandle h S) (fun _ => True) (storeBytes h tail i bytes) := by
  induction bytes generalizing i with
  | nil => trivial
  | cons byte rest ih =>
    obtain ⟨hbyte, hrest⟩ := forall_mem_cons.mp hbytes
    exact ⟨⟨rfl, h.at_lt _, hbyte⟩, fun _ _ => ih hrest⟩

theorem ensures_write {bytes : Option (Nat -> β)} {length : UInt32}
    (hbytes : ∀ bytes', bytes = some bytes' -> ∀ i, S (bytes' i)) :
    Ensures (LoadsOk R) (OnHandle h S) (fun _ => True)
      (aosSerialQueueWrite (some h.toHandle) bytes length) := by
  unfold aosSerialQueueWrite
  rw [validHandle_toHandle]
  cases hmessage : message bytes length with
  | none => trivial
  | some list =>
    have hlist : ∀ byte ∈ list, S byte := by
      cases bytes with
      | none =>
        rw [message] at hmessage
        split at hmessage
        · cases hmessage
          exact fun _ hmem => absurd hmem not_mem_nil
        · cases hmessage
      | some bytes =>
        cases hmessage
        intro byte hmem
        obtain ⟨i, -, rfl⟩ := mem_map.mp hmem
        exact hbytes bytes rfl i
    refine ⟨rfl, fun tail _ => ⟨rfl, fun head _ => ?_⟩⟩
    show Ensures _ _ _ (if tail - head > h.capacity then _ else _)
    split
    · trivial
    split
    · trivial
    refine Ensures.bind (ensures_storeBytes hlist) fun _ _ => ?_
    split
    · trivial
    · exact ⟨rfl, fun _ _ => trivial⟩

theorem ensures_loadBytes {head i : UInt32} {n : Nat} :
    Ensures (LoadsOk R) (OnHandle h S) (fun bytes => ∀ byte ∈ bytes, R byte)
      (loadBytes h head i n) := by
  induction n generalizing i with
  | zero => exact nofun
  | succ n ih =>
    refine ⟨⟨rfl, h.at_lt _⟩, fun byte hbyte => ?_⟩
    show Ensures _ _ _ (loadBytes h head (i + 1) n >>= fun rest => pure (byte :: rest))
    refine Ensures.bind ih fun rest hrest => ?_
    exact forall_mem_cons.mpr ⟨hbyte, hrest⟩

theorem ensures_takeBytes {head count : UInt32} :
    Ensures (LoadsOk R) (OnHandle h S) (fun result => ∀ byte ∈ result.2, R byte)
      (takeBytes h head count) := by
  refine Ensures.bind ensures_loadBytes fun list hlist => ?_
  split
  · exact hlist
  · exact ⟨rfl, fun _ _ => hlist⟩

theorem ensures_read {bytes length : Bool} {capacity : UInt32} :
    Ensures (LoadsOk R) (OnHandle h S) (fun result => ∀ byte ∈ result.2, R byte)
      (aosSerialQueueRead (some h.toHandle) bytes capacity length) := by
  have hnone (status : PumpStatus) :
      Ensures (LoadsOk R) (OnHandle h S) (fun result => ∀ byte ∈ result.2, R byte)
        (.ret (status, []) : QueueM P β (PumpStatus × List β)) :=
    nofun
  unfold aosSerialQueueRead
  rw [validHandle_toHandle]
  split
  · exact hnone _
  dsimp only
  split
  · exact hnone _
  refine ⟨rfl, fun head _ => ⟨rfl, fun tail _ => ?_⟩⟩
  show Ensures _ _ _ (if tail - head > h.capacity then _ else _)
  split
  · exact hnone _
  · exact ensures_takeBytes

section Transfer

variable {source destination : ValidHandle P}

theorem ensures_copyBytes {head tail i : UInt32} {n : Nat} :
    Ensures (LoadsOk R) (fun request => OnHandle source R request \/ OnHandle destination R request)
      (fun _ => True) (copyBytes source destination head tail i n) := by
  induction n generalizing i with
  | zero => trivial
  | succ n ih =>
    refine ⟨.inl ⟨rfl, source.at_lt _⟩, fun byte hbyte => ?_⟩
    exact ⟨.inr ⟨rfl, destination.at_lt _, hbyte⟩, fun _ _ => ih⟩

theorem ensures_transfer [DecidableEq P] {budget : UInt32} {transferred : Bool} :
    Ensures (LoadsOk R) (fun request => OnHandle source R request \/ OnHandle destination R request)
      (fun _ => True)
      (aosSerialVirtTransfer (some source.toHandle) (some destination.toHandle) budget
        transferred) := by
  unfold aosSerialVirtTransfer
  rw [validHandle_toHandle, validHandle_toHandle]
  split
  · trivial
  dsimp only
  split
  · trivial
  refine ⟨.inl rfl, fun sourceHead _ => ⟨.inl rfl, fun sourceTail _ => ?_⟩⟩
  refine ⟨.inr rfl, fun destinationTail _ => ⟨.inr rfl, fun destinationHead _ => ?_⟩⟩
  show Ensures _ _ _ (if sourceTail - sourceHead > source.capacity \/
    destinationTail - destinationHead > destination.capacity then _ else _)
  split
  · trivial
  refine Ensures.bind ensures_copyBytes fun _ _ => ?_
  split
  · trivial
  · exact ⟨.inr rfl, fun _ _ => ⟨.inl rfl, fun _ _ => trivial⟩⟩

end Transfer

end AgentOs.Serial
