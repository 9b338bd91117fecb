import AgentOs.NetVirt.Service

/-!
# What every run of the data path does

One rule per function of the hub pump and of the driver path, for any assumption on the answers
and any predicate on the requests that permits the rings and data areas the function was given.
-/

namespace AgentOs.NetVirt

open Library Prog Ipc

/-- The requests the ring operations and the initialisation make for one queue. -/
structure QueuePermits (P : NetOp -> Prop) (q : NetPtr) (capacity : UInt32) : Prop where
  fence : P .fence
  loadIndex : ∀ side, P (.load (.index side q))
  storeIndex : ∀ side value, P (.store (.index side q) value)
  loadBuffer : ∀ i, i < capacity.toNat -> P (.load (.buffer q i))
  storeBuffer : ∀ i, i < capacity.toNat -> ∀ buf, P (.store (.buffer q i) buf)
  clear : P (.store (.queueZero q) ())

/-- Every byte of a run may be read and written. -/
def BytesPermitted (P : NetOp -> Prop) (p : NetPtr) (n : Nat) : Prop :=
  ∀ k, k < n -> P (.load (.byte (p + k))) /\ ∀ value, P (.store (.byte (p + k)) value)

/-- The rings and buffers a client sends from. -/
structure TxPermits (P : NetOp -> Prop) (q : NetVirtClient) : Prop where
  active : QueuePermits P q.txActive q.capacity
  free : QueuePermits P q.txFree q.capacity
  data : BytesPermitted P q.txData 65536

/-- The rings and buffers a client receives into. -/
structure RxPermits (P : NetOp -> Prop) (q : NetVirtClient) : Prop where
  active : QueuePermits P q.rxActive q.capacity
  free : QueuePermits P q.rxFree q.capacity
  data : BytesPermitted P q.rxData 65536

/-- Every access to memory is permitted. -/
structure MemoryPermits (P : NetOp -> Prop) : Prop where
  load : ∀ cell, P (.load cell)
  store : ∀ cell value, P (.store cell value)
  fence : P .fence

variable {P : NetOp -> Prop}

theorem MemoryPermits.queue (h : MemoryPermits P) (q : NetPtr) (capacity : UInt32) :
    QueuePermits P q capacity :=
  ⟨h.fence, fun _ => h.load _, fun _ _ => h.store _ _, fun _ _ => h.load _,
    fun _ _ _ => h.store _ _, h.store _ _⟩

theorem MemoryPermits.bytes (h : MemoryPermits P) (p : NetPtr) (n : Nat) : BytesPermitted P p n :=
  fun _ _ => ⟨h.load _, fun _ => h.store _ _⟩

theorem MemoryPermits.tx (h : MemoryPermits P) (q : NetVirtClient) : TxPermits P q :=
  ⟨h.queue _ _, h.queue _ _, h.bytes _ _⟩

theorem MemoryPermits.rx (h : MemoryPermits P) (q : NetVirtClient) : RxPermits P q :=
  ⟨h.queue _ _, h.queue _ _, h.bytes _ _⟩

section Rings

variable {A : (request : NetOp) -> NetOp.Ans request -> Prop} {P : NetOp -> Prop} {q : NetPtr}
  {capacity : UInt32}

theorem ensures_load {cell : NetCell} (hload : P (.load cell)) :
    Ensures A P (fun _ => True) (load cell) :=
  ⟨hload, fun _ _ => trivial⟩

theorem ensures_netPdCall {opcode arg0 arg1 : UInt32} (hcall : P (.netCall opcode arg0 arg1)) :
    Ensures A P (fun _ => True) (netPdCall opcode arg0 arg1) :=
  ⟨hcall, fun _ _ => trivial⟩

theorem ensures_aosNetQueueLength (hload : ∀ side, P (.load (.index side q))) :
    Ensures A P (fun _ => True) (aosNetQueueLength q) :=
  ⟨hload .tail, fun _ _ => ⟨hload .head, fun _ _ => trivial⟩⟩

theorem ringIndex_lt {index : UInt16} (hcapacity : capacity ≠ 0) :
    (index.toUInt32 % capacity).toNat < capacity.toNat := by
  rw [UInt32.toNat_mod]
  exact Nat.mod_lt _ (Nat.pos_of_ne_zero fun h => hcapacity (UInt32.toNat_inj.mp h))

theorem ensures_aosNetQueueDequeue (hp : QueuePermits P q capacity) :
    Ensures A P (fun _ => True) (aosNetQueueDequeue q capacity) := by
  unfold aosNetQueueDequeue
  split
  · trivial
  rename_i hguard
  simp only [Bool.or_eq_true, not_or, beq_iff_eq] at hguard
  refine (ensures_load (hp.loadIndex .tail)).bind fun tail _ => ?_
  refine (ensures_load (hp.loadIndex .head)).bind fun head _ => ?_
  dsimp only
  split
  · trivial
  · refine ⟨hp.fence, fun _ _ => ⟨hp.loadBuffer _ (ringIndex_lt hguard.1.2), fun out _ => ?_⟩⟩
    exact ⟨hp.fence, fun _ _ => ⟨hp.storeIndex .head _, fun _ _ => trivial⟩⟩

theorem ensures_aosNetQueueEnqueue (hp : QueuePermits P q capacity) (buf : NetBuffDesc) :
    Ensures A P (fun _ => True) (aosNetQueueEnqueue q capacity buf) := by
  unfold aosNetQueueEnqueue
  split
  · trivial
  rename_i hguard
  simp only [Bool.or_eq_true, not_or, beq_iff_eq] at hguard
  refine (ensures_load (hp.loadIndex .tail)).bind fun tail _ => ?_
  refine (ensures_load (hp.loadIndex .head)).bind fun head _ => ?_
  dsimp only
  split
  · trivial
  · refine ⟨hp.storeBuffer _ (ringIndex_lt hguard.1.2) buf, fun _ _ => ?_⟩
    exact ⟨hp.fence, fun _ _ => ⟨hp.storeIndex .tail _, fun _ _ => trivial⟩⟩

end Rings

/-! ## Copies -/

section Copies

variable {A : (request : NetOp) -> NetOp.Ans request -> Prop} {P : NetOp -> Prop}

theorem BytesPermitted.sub {p : NetPtr} {offset n size : Nat} (h : BytesPermitted P p size)
    (hfits : offset + n <= size) : BytesPermitted P (p + offset) n := by
  intro k hk
  rw [Ptr.add_add]
  exact h (offset + k) (by omega)

theorem ensures_copyBytes {dst src : NetPtr} {n : Nat} (hdst : BytesPermitted P dst n)
    (hsrc : BytesPermitted P src n) : Ensures A P (fun _ => True) (copyBytes dst src n) := by
  induction n generalizing dst src with
  | zero => trivial
  | succ n ih =>
    have hfirst := hsrc 0 (Nat.zero_lt_succ n)
    have hinto := hdst 0 (Nat.zero_lt_succ n)
    rw [Ptr.add_zero] at hfirst hinto
    refine ⟨hfirst.1, fun b _ => ⟨hinto.2 b, fun _ _ => ?_⟩⟩
    exact ih (hdst.sub (by omega)) (hsrc.sub (by omega))

theorem BytesPermitted.buffer {p : NetPtr} (h : BytesPermitted P p 65536) {offset : UInt64}
    {length : UInt32} (hvalid : aosNetBufferValid offset length = true) :
    BytesPermitted P (p + offset.toUInt32.toNat) length.toNat := by
  obtain ⟨hrange, haligned, hlength⟩ := aosNetBufferValid_iff.mp hvalid
  rw [bufferOffset_toNat hvalid]
  exact h.sub (by omega)

end Copies

/-! ## The hub pump -/

section Hub

variable {A : (request : NetOp) -> NetOp.Ans request -> Prop} {P : NetOp -> Prop} {len : UInt16}

theorem ensures_deliverOne {dst : NetVirtClient} {src : NetPtr} (hp : RxPermits P dst)
    (hsrc : BytesPermitted P src len.toUInt32.toNat) :
    Ensures A P (fun _ => True) (deliverOne dst src len) := by
  refine (ensures_aosNetQueueDequeue hp.free).bind fun free _ => ?_
  cases free with
  | none => trivial
  | some rx =>
    dsimp only
    split
    · trivial
    rename_i hvalid
    simp only [Bool.or_eq_true, not_or, Bool.not_eq_true, Bool.not_eq_false'] at hvalid
    refine (ensures_copyBytes (hp.data.buffer hvalid.1) hsrc).bind fun _ _ => ?_
    refine (ensures_aosNetQueueEnqueue hp.active _).bind fun queued _ => ?_
    cases queued with
    | true => trivial
    | false => exact (ensures_aosNetQueueEnqueue hp.free _).bind fun _ _ => trivial

variable {srcI : Nat}

theorem ensures_deliverOthers {payload : NetPtr}
    (hsrc : BytesPermitted P payload len.toUInt32.toNat) {clients : List NetVirtClient}
    {dstI : Nat} (hp : ∀ j dst, clients[j]? = some dst -> dstI + j ≠ srcI -> RxPermits P dst)
    (delivered : Bool) :
    Ensures A P (fun _ => True) (deliverOthers srcI payload len clients dstI delivered) := by
  induction clients generalizing dstI delivered with
  | nil => trivial
  | cons dst rest ih =>
    have hrest : ∀ j c, rest[j]? = some c -> dstI + 1 + j ≠ srcI -> RxPermits P c := by
      intro j c hc hne
      refine hp (j + 1) c ?_ (by omega)
      rw [List.getElem?_cons_succ]
      exact hc
    unfold deliverOthers
    split
    · exact ih hrest delivered
    · rename_i hne
      have hdst : RxPermits P dst := hp 0 dst rfl fun h => hne (beq_iff_eq.mpr h)
      exact (ensures_deliverOne hdst hsrc).bind fun arrived _ => ih hrest _

/-- The clients a sender's frames reach. -/
def Receives (v : AosNetVirt) (srcI : Nat) (src dst : NetVirtClient) : Prop :=
  (v.clients.length = 1 /\ dst = src) \/ ∃ j, v.clients[j]? = some dst /\ j ≠ srcI

theorem ensures_deliverFrame {v : AosNetVirt} {src : NetVirtClient} {payload : NetPtr}
    (hp : ∀ dst, Receives v srcI src dst -> RxPermits P dst)
    (hsrc : BytesPermitted P payload len.toUInt32.toNat) :
    Ensures A P (fun _ => True) (deliverFrame v srcI src payload len) := by
  unfold deliverFrame
  split
  · rename_i hone
    exact ensures_deliverOne (hp src (Or.inl ⟨beq_iff_eq.mp hone, rfl⟩)) hsrc
  · refine ensures_deliverOthers hsrc (fun j dst hj hne => ?_) false
    rw [Nat.zero_add] at hne
    exact hp dst (Or.inr ⟨j, hj, hne⟩)

theorem ensures_pumpFrames {v : AosNetVirt} {src : NetVirtClient}
    (hattempt : P (.attempt src.txActive)) (htx : TxPermits P src)
    (hrx : ∀ dst, Receives v srcI src dst -> RxPermits P dst) (left : Nat) (forwarded : UInt32) :
    Ensures A P (fun _ => True) (pumpFrames v srcI src left forwarded) := by
  induction left generalizing forwarded with
  | zero => trivial
  | succ left ih =>
    refine ⟨hattempt, fun _ _ => ?_⟩
    refine (ensures_aosNetQueueDequeue htx.active).bind fun dequeued _ => ?_
    cases dequeued with
    | none => trivial
    | some tx =>
      dsimp only
      split
      · exact ih forwarded
      rename_i hvalid
      simp only [Bool.or_eq_true, not_or, Bool.not_eq_true, Bool.not_eq_false'] at hvalid
      refine (ensures_deliverFrame hrx (htx.data.buffer hvalid.1)).bind fun delivered _ => ?_
      exact (ensures_aosNetQueueEnqueue htx.free _).bind fun _ _ => ih _

end Hub

/-! ## The driver path -/

/-- A record without what the data path may change. -/
def NvClient.binding (c : NvClient) : NvClient :=
  { c with rxPending := false, txMarked := false, rxMarked := false, rxTotal := 0, txTotal := 0 }

/-- Records with one binding agree on every other field. -/
theorem eq_of_binding {α : Type} (field : NvClient -> α) {c c' : NvClient}
    (hsame : c'.binding = c.binding)
    (hfield : ∀ c, field c.binding = field c := by intro; rfl) : field c' = field c := by
  rw [<- hfield c', <- hfield c, hsame]

/-- What a client with hardware uses besides its rings and buffers. -/
structure DriverPermits (P : NetOp -> Prop) (c : NvClient) : Prop where
  fence : P .fence
  word : ∀ value, P (.store (.signalled c.q.rxFree) value)
  send : ∀ len, P (.netCall netSvcOpRawSend c.handle len)
  recv : P (.netCall netSvcOpRawRecv c.handle netSvcMaxFrameBytes)
  slot : BytesPermitted P (nvTxDst c) netSvcMaxFrameBytes.toNat
  transfer : BytesPermitted P (shmem + netSvcSlotBase.toNat) 0x200000

theorem DriverPermits.of_binding {c c' : NvClient} (h : DriverPermits P c)
    (hsame : c'.binding = c.binding) : DriverPermits P c' := by
  have hfields : DriverPermits P c'.binding := by
    rw [hsame]
    exact ⟨h.fence, h.word, h.send, h.recv, h.slot, h.transfer⟩
  exact ⟨hfields.fence, hfields.word, hfields.send, hfields.recv, hfields.slot, hfields.transfer⟩

section Driver

variable {A : (request : NetOp) -> NetOp.Ans request -> Prop} {P : NetOp -> Prop} {c : NvClient}
  {buf : NetBuffDesc}

theorem ensures_nvSendFrame (hp : DriverPermits P c) (htx : TxPermits P c.q)
    (hvalid : aosNetBufferValid buf.ioOrOffset buf.len.toUInt32 = true)
    (hlen : buf.len.toUInt32 <= netSvcMaxFrameBytes) :
    Ensures A P (fun result => result.2.binding = c.binding) (nvSendFrame c buf) := by
  have hslot : BytesPermitted P (nvTxDst c) buf.len.toUInt32.toNat := by
    have hsub : BytesPermitted P (nvTxDst c + 0) buf.len.toUInt32.toNat :=
      hp.slot.sub (by rw [Nat.zero_add]; exact UInt32.le_iff_toNat_le.mp hlen)
    rw [Ptr.add_zero] at hsub
    exact hsub
  refine (ensures_copyBytes hslot (htx.data.buffer hvalid)).bind fun _ _ => ?_
  refine ⟨hp.fence, fun _ _ => (ensures_netPdCall (hp.send _)).bind fun rep _ => ?_⟩
  split <;> rfl

theorem ensures_nvTxLoop (hattempt : ∀ q, P (.attempt q)) (hp : DriverPermits P c)
    (htx : TxPermits P c.q) (left : Nat) (sent : UInt32) :
    Ensures A P (fun result => result.2.binding = c.binding) (nvTxLoop left sent c) := by
  induction left generalizing sent c with
  | zero => rfl
  | succ left ih =>
    refine ⟨hattempt _, fun _ _ => ?_⟩
    refine (ensures_aosNetQueueDequeue htx.active).bind fun dequeued _ => ?_
    cases dequeued with
    | none => rfl
    | some buf =>
      dsimp only
      split
      · exact ih hp htx sent
      rename_i hvalid
      simp only [Bool.or_eq_true, not_or, Bool.not_eq_true, Bool.not_eq_false',
        decide_eq_false_iff_not] at hvalid
      refine (ensures_nvSendFrame hp htx hvalid.1.1 (UInt32.not_lt.mp hvalid.2)).bind
        fun result hresult => ?_
      have hq : result.2.q = c.q := eq_of_binding NvClient.q hresult
      have htx' : TxPermits P result.2.q := by rw [hq]; exact htx
      refine (ensures_aosNetQueueEnqueue htx'.free _).bind fun _ _ => ?_
      exact (ih (hp.of_binding hresult) htx' _).weaken fun _ h => h.trans hresult

theorem ensures_nvTxToNetPd (hattempt : ∀ q, P (.attempt q)) (hp : DriverPermits P c)
    (htx : TxPermits P c.q) :
    Ensures A P (fun result => result.2.binding = c.binding) (nvTxToNetPd c) :=
  ensures_nvTxLoop hattempt hp htx _ _

theorem ensures_nvRecycleRx (hrx : RxPermits P c.q) (buf : NetBuffDesc) :
    Ensures A P (fun _ => True) (nvRecycleRx c buf) :=
  (ensures_aosNetQueueEnqueue hrx.free buf).bind fun _ _ => trivial

/-- An accepted RX reply names bytes of the transfer page and fits its buffer. -/
theorem nvRxRejected_eq_false {len off : UInt32} (haccepted : nvRxRejected buf len off = false) :
    0x600000 <= off.toNat /\ off.toNat + len.toNat <= 0x800000 /\ len.toNat <= 1514 /\
      aosNetBufferValid buf.ioOrOffset len = true := by
  simp only [nvRxRejected, Bool.or_eq_false_iff, decide_eq_false_iff_not, UInt32.not_lt,
    UInt32.le_iff_toNat_le, Bool.not_eq_false'] at haccepted
  obtain ⟨⟨⟨⟨⟨hframe, _⟩, hlow⟩, hhigh⟩, hroom⟩, hvalid⟩ := haccepted
  have hsize : agentosNetSharedSize.toNat = 0x800000 := rfl
  have hbase : netSvcSlotBase.toNat = 0x600000 := rfl
  have hmax : netSvcMaxFrameBytes.toNat = 1514 := rfl
  rw [UInt32.toNat_sub_of_le _ _ (UInt32.le_iff_toNat_le.mpr hhigh)] at hroom
  exact ⟨by omega, by omega, by omega, hvalid⟩

theorem ensures_nvPublishRx (hp : DriverPermits P c) (hrx : RxPermits P c.q) {len off : UInt32}
    (haccepted : nvRxRejected buf len off = false) :
    Ensures A P (fun result => result.2.binding = c.binding) (nvPublishRx c buf len off) := by
  obtain ⟨hlow, hhigh, _, hvalid⟩ := nvRxRejected_eq_false haccepted
  have hsrc : BytesPermitted P (shmem + off.toNat) len.toNat := by
    have hbase : netSvcSlotBase.toNat = 0x600000 := rfl
    have hsub : BytesPermitted P (shmem + netSvcSlotBase.toNat + (off.toNat - 0x600000))
        len.toNat := hp.transfer.sub (by omega)
    rw [Ptr.add_add, hbase, Nat.add_sub_cancel' hlow] at hsub
    exact hsub
  refine ⟨hp.fence, fun _ _ => ?_⟩
  refine (ensures_copyBytes (hrx.data.buffer hvalid) hsrc).bind fun _ _ => ?_
  refine (ensures_aosNetQueueEnqueue hrx.active _).bind fun queued _ => ?_
  cases queued with
  | true => rfl
  | false => exact (ensures_nvRecycleRx hrx _).bind fun _ _ => rfl

theorem ensures_nvReceiveInto (hp : DriverPermits P c) (hrx : RxPermits P c.q) (buf : NetBuffDesc) :
    Ensures A P (fun result => result.2.binding = c.binding) (nvReceiveInto c buf) := by
  refine (ensures_netPdCall hp.recv).bind fun rep _ => ?_
  split
  · exact (ensures_nvRecycleRx hrx buf).bind fun _ _ => rfl
  split
  · exact (ensures_nvRecycleRx hrx buf).bind fun _ _ => rfl
  split
  · exact (ensures_nvRecycleRx hrx buf).bind fun _ _ => rfl
  · rename_i haccepted
    exact ensures_nvPublishRx hp hrx (Bool.not_eq_true _ ▸ haccepted)

theorem ensures_nvRxLoop (hattempt : ∀ q, P (.attempt q)) (hp : DriverPermits P c)
    (hrx : RxPermits P c.q) (left : Nat) (received : UInt32) :
    Ensures A P (fun result => result.2.binding = c.binding) (nvRxLoop left received c) := by
  induction left generalizing received c with
  | zero => rfl
  | succ left ih =>
    refine ⟨hattempt _, fun _ _ => ?_⟩
    refine (ensures_aosNetQueueDequeue hrx.free).bind fun dequeued _ => ?_
    cases dequeued with
    | none => exact ⟨hp.word 0, fun _ _ => ⟨hp.fence, fun _ _ => rfl⟩⟩
    | some buf =>
      dsimp only
      split
      · exact ih hp hrx received
      refine (ensures_nvReceiveInto hp hrx buf).bind fun result hresult => ?_
      obtain ⟨arrived, c'⟩ := result
      cases arrived with
      | false => exact hresult
      | true =>
        have hq : c'.q = c.q := eq_of_binding NvClient.q hresult
        have hrx' : RxPermits P c'.q := by rw [hq]; exact hrx
        exact (ih (hp.of_binding hresult) hrx' _).weaken fun _ h => h.trans hresult

theorem ensures_nvRxFromNetPd (hattempt : ∀ q, P (.attempt q)) (hp : DriverPermits P c)
    (hrx : RxPermits P c.q) :
    Ensures A P (fun result => result.2.binding = c.binding) (nvRxFromNetPd c) :=
  ⟨hp.word 1, fun _ _ => ⟨hp.fence, fun _ _ => ensures_nvRxLoop hattempt hp hrx _ _⟩⟩

end Driver

end AgentOs.NetVirt
