import AgentOs.BlkVirt.Lifecycle

/-!
# Isolation of block clients

Nothing is assumed about the shared memory: each load may return any value.
-/

namespace AgentOs.BlkVirt

open Library Prog List

/-- The memory a client's requests are served from. -/
inductive Area where
  | info
  | req
  | resp
  | data
  | disk
  | window
  deriving DecidableEq

/-- The bytes of an area.  The RAM disk counts the blocks of the medium, the window
the sectors of one chunk. -/
def Area.span (i : Nat) (q : BlkVirtClient) : Area -> Span Region
  | .info => ⟨clientPage shmem (.ofNat i) + aosBlkStorageInfoOff, 88⟩
  | .req => ⟨clientPage shmem (.ofNat i) + aosBlkReqQueueOff, aosBlkQueueBytes⟩
  | .resp => ⟨clientPage shmem (.ofNat i) + aosBlkRespQueueOff, aosBlkQueueBytes⟩
  | .data => ⟨clientPage shmem (.ofNat i) + aosBlkDataOff, aosBlkDataBytes.toNat⟩
  | .disk => ⟨gRamDisk (.ofNat i), q.mediaBlocks.toNat * 4096⟩
  | .window => ⟨hostDma (.ofNat i),
      (agentosBlkMediaDmaMaxSectors (.ofNat i)).toNat * 512⟩

/-- A client is served from its RAM disk or through its driver window, not both. -/
def Area.InUse (hw : Bool) : Area -> Prop
  | .disk => hw = false
  | .window => hw = true
  | _ => True

/-- The cells an area is made of: a ring of its indices and records, the storage info of its
fields, the data cells and the medium of bytes. -/
def Area.Holds : Area -> Cell -> Prop
  | .info, .info _ _ => True
  | .req, .index .req _ _ => True
  | .req, .reqBuffer _ _ => True
  | .resp, .index .resp _ _ => True
  | .resp, .respBuffer _ _ => True
  | .data, .byte _ => True
  | .disk, .byte _ => True
  | .window, .byte _ => True
  | _, _ => False

/-- Everything that belongs to a slot: its page, its RAM disk and its DMA window. -/
def slotSpans (j : Nat) : List (Span Region) :=
  [⟨clientPage shmem (.ofNat j), aosBlkClientStride⟩,
    ⟨gRamDisk (.ofNat j), aosBlkDiskBytes⟩,
    ⟨⟨.blkShared, agentosBlkMediaDmaOff (.ofNat j)⟩, agentosBlkMediaDmaSize (.ofNat j)⟩]

/-- The cell lies in the area of slot `i` that such cells belong to and in nothing of any
other slot. -/
def OwnCell (i : Nat) (c : BvClient) (cell : Cell) : Prop :=
  (∃ area : Area, area.InUse c.hw /\ area.Holds cell /\ cell.span.Within (area.span i c.q)) /\
    ∀ j, j < aosBlkMaxClients -> j ≠ i -> ∀ foreign ∈ slotSpans j, cell.span.Apart foreign

/-- The driver call is about the client's own medium: a flush, or a transfer of
sectors of its blocks that fits its window. -/
def OwnCall (i : Nat) (c : BvClient) (call : HostCall) : Prop :=
  c.hw = true /\ call.mediaId = .ofNat i /\
    (call.op = aosHostBlkOpFlush \/
      ((call.op = aosHostBlkOpRead \/ call.op = aosHostBlkOpWrite) /\
        call.sector.toNat + call.count.toNat <= c.q.mediaBlocks.toNat * 8 /\
        call.count.toNat <= (agentosBlkMediaDmaMaxSectors (.ofNat i)).toNat /\
        agentosBlkSharedDmaDataOff + call.count.toNat * 512 <=
          agentosBlkMediaDmaSize (.ofNat i)))

/-- What the pump may ask for on behalf of a client. -/
def Isolated (i : Nat) (c : BvClient) : BlkOp -> Prop
  | .load cell => OwnCell i c cell
  | .store cell _ => OwnCell i c cell
  | .hostCall call => OwnCall i c call
  | .fence => True
  | .backendCall _ => True
  | _ => False

/-! ## Layout facts -/

theorem windowSize (i : Nat) (hi : i < aosBlkMaxClients) :
    agentosBlkSharedDmaDataOff + (agentosBlkMediaDmaMaxSectors (.ofNat i)).toNat * 512 <=
      agentosBlkMediaDmaSize (.ofNat i) := by
  simp only [aosBlkMaxClients] at hi
  interval_cases i <;> decide

variable {i : Nat}

theorem area_within_slot {c : BvClient} (hbound : Bound i c) {area : Area} (huse : area.InUse c.hw)
    : ∃ own ∈ slotSpans i, (area.span i c.q).Within own := by
  have hpage : ∀ offset len, offset + len <= aosBlkClientStride ->
      ∃ own ∈ slotSpans i,
        (⟨clientPage shmem (.ofNat i) + offset, len⟩ : Span Region).Within own := by
    intro offset len hfits
    exact ⟨_, mem_cons_self, Span.within_add _ hfits⟩
  cases area with
  | info => exact hpage _ _ (by decide)
  | req => exact hpage _ _ (by decide)
  | resp => exact hpage _ _ (by decide)
  | data => exact hpage _ _ (by decide)
  | disk =>
    refine ⟨_, mem_cons_of_mem _ mem_cons_self, rfl, Nat.le_refl _, ?_⟩
    rcases hbound.medium with ⟨hhw, _⟩ | ⟨_, _, hdisk⟩
    · cases huse.symm.trans hhw
    · have hblocks : c.q.mediaBlocks = aosBlkDiskBlocks := by
        rw [hdisk]
        rfl
      simp only [Area.span, hblocks]
      exact Nat.le_refl _
  | window =>
    refine ⟨_, mem_cons_of_mem _ (mem_cons_of_mem _ mem_cons_self), rfl, ?_, ?_⟩
    · simp only [Area.span, hostDma, Ptr.add_off]
      omega
    · have hsize := windowSize i hbound.slot
      simp only [Area.span, hostDma, Ptr.add_off]
      omega

theorem slotSpans_apart {j : Nat} (hi : i < aosBlkMaxClients) (hj : j < aosBlkMaxClients)
    (hne : j ≠ i) {own foreign : Span Region} (hown : own ∈ slotSpans i)
    (hforeign : foreign ∈ slotSpans j) : own.Apart foreign := by
  simp only [aosBlkMaxClients] at hi hj
  have hcase : (i = 0 /\ j = 1) \/ (i = 1 /\ j = 0) := by omega
  simp only [slotSpans, mem_cons, not_mem_nil, or_false] at hown hforeign
  rcases hcase with ⟨rfl, rfl⟩ | ⟨rfl, rfl⟩ <;>
    rcases hown with rfl | rfl | rfl <;> rcases hforeign with rfl | rfl | rfl <;>
    intro hregion <;> first | exact absurd hregion (by decide) | decide

theorem ownCell_of_within {c : BvClient} (hbound : Bound i c) {cell : Cell} (area : Area)
    (huse : area.InUse c.hw) (hholds : area.Holds cell)
    (hwithin : cell.span.Within (area.span i c.q)) : OwnCell i c cell := by
  refine ⟨⟨area, huse, hholds, hwithin⟩, fun j hj hne foreign hforeign => ?_⟩
  obtain ⟨own, hown, harea⟩ := area_within_slot hbound huse
  exact (hwithin.trans harea).apart (slotSpans_apart hbound.slot hj hne hown hforeign)

/-! ## The pump of a bound client -/

section Bound

variable {A : (request : BlkOp) -> BlkOp.Ans request -> Prop} {i : Nat} {c : BvClient}

theorem Bound.fields (h : Bound i c) :
    c.q.info = clientPage shmem (.ofNat i) + aosBlkStorageInfoOff /\
      c.q.signal = clientPage shmem (.ofNat i) + aosBlkSignalOff /\
      c.q.req = clientPage shmem (.ofNat i) + aosBlkReqQueueOff /\
      c.q.resp = clientPage shmem (.ofNat i) + aosBlkRespQueueOff /\
      c.q.data = clientPage shmem (.ofNat i) + aosBlkDataOff /\
      c.q.capacity = aosBlkQueueCapacity := by
  have hq := h.queue
  rw [clientBind_not_null h.slot] at hq
  exact ⟨(congrArg BlkVirtClient.info hq).symm, (congrArg BlkVirtClient.signal hq).symm,
    (congrArg BlkVirtClient.req hq).symm, (congrArg BlkVirtClient.resp hq).symm,
    (congrArg BlkVirtClient.data hq).symm, (congrArg BlkVirtClient.capacity hq).symm⟩

/-- The area of a ring. -/
def RingKind.area : RingKind -> Area
  | .req => .req
  | .resp => .resp

section

variable (h : Bound i c)

include h

theorem Bound.ring_area (kind : RingKind) :
    (⟨c.q.ring kind, aosBlkQueueBytes⟩ : Span Region) = kind.area.span i c.q := by
  obtain ⟨_, _, hreq, hresp, _, _⟩ := h.fields
  cases kind with
  | req => simp only [BlkVirtClient.ring, RingKind.area, Area.span, hreq]
  | resp => simp only [BlkVirtClient.ring, RingKind.area, Area.span, hresp]

theorem Bound.ringCell (kind : RingKind) {cell : Cell} (hholds : kind.area.Holds cell)
    {offset len : Nat} (hspan : cell.span = ⟨c.q.ring kind + offset, len⟩)
    (hfits : offset + len <= aosBlkQueueBytes) : OwnCell i c cell := by
  have huse : kind.area.InUse c.hw := by cases kind <;> trivial
  refine ownCell_of_within h kind.area huse hholds ?_
  rw [hspan, <- h.ring_area kind]
  exact Span.within_add _ hfits

theorem Bound.ringPermits : RingPermits (Isolated i c) c.q := by
  obtain ⟨_, _, _, _, _, hcapacity⟩ := h.fields
  have hcap : c.q.capacity.toNat = 128 := by
    rw [hcapacity]
    rfl
  have hindex : ∀ kind side, OwnCell i c (.index kind side (c.q.ring kind)) := by
    intro kind side
    have hholds : kind.area.Holds (.index kind side (c.q.ring kind)) := by cases kind <;> trivial
    cases side with
    | head => exact h.ringCell kind hholds rfl (by decide : 0 + 4 <= aosBlkQueueBytes)
    | tail => exact h.ringCell kind hholds rfl (by decide : 4 + 4 <= aosBlkQueueBytes)
  refine ⟨trivial, hindex, fun kind side _ => hindex kind side, ?_, ?_⟩
  · intro k hk
    exact h.ringCell .req trivial rfl (by simp only [aosBlkQueueBytes]; omega)
  · intro k hk r
    exact h.ringCell .resp trivial rfl (by simp only [aosBlkQueueBytes]; omega)

theorem Bound.areaBytes {area : Area} (huse : area.InUse c.hw) {p : BlkPtr}
    {n : Nat} (hholds : ∀ p, area.Holds (.byte p))
    (harea : (⟨p, n⟩ : Span Region) = area.span i c.q) :
    BytesPermitted (Isolated i c) p n := by
  intro k hk
  have hown : OwnCell i c (.byte (p + k)) := by
    refine ownCell_of_within h area huse (hholds _) ?_
    rw [<- harea]
    exact Span.within_add _ hk
  exact ⟨hown, fun _ => hown⟩

theorem Bound.dataBytes : BytesPermitted (Isolated i c) c.q.data aosBlkDataBytes.toNat := by
  obtain ⟨_, _, _, _, hdata, _⟩ := h.fields
  have huse : Area.data.InUse c.hw := trivial
  refine h.areaBytes huse (fun _ => trivial) ?_
  rw [hdata]
  rfl

theorem Bound.diskBytes (hnone : c.virt.backend = none) :
    BytesPermitted (Isolated i c) c.q.disk (c.q.mediaBlocks.toNat * 4096) := by
  rcases h.medium with ⟨_, hfn⟩ | ⟨hhw, _, hdisk⟩
  · exact absurd (hfn.symm.trans hnone) (by simp)
  · have huse : Area.disk.InUse c.hw := hhw
    refine h.areaBytes huse (fun _ => trivial) ?_
    have hstart : c.q.disk = gRamDisk (.ofNat i) := by
      rw [hdisk]
      rfl
    rw [hstart]
    rfl

theorem Bound.infoCell : OwnCell i c (.info c.q.info .readOnly) := by
  obtain ⟨hinfo, _⟩ := h.fields
  refine ownCell_of_within h .info trivial trivial ?_
  simp only [Cell.span, InfoField.span, Area.span, hinfo]
  exact Span.within_add _ (by decide)

theorem Bound.hostPermits (hhw : c.hw = true) :
    HostPermits (Isolated i c) (.ofNat i) c.q where
  fence := trivial
  window := by
    have huse : Area.window.InUse c.hw := hhw
    exact h.areaBytes huse (fun _ => trivial) rfl
  data := h.dataBytes
  transfer op sector count hop hsectors hcount := by
    have hsize := windowSize i h.slot
    refine ⟨hhw, hostCallWords_mediaId _ _ _ _, Or.inr ⟨?_, ?_, ?_, ?_⟩⟩
    · rw [hostCallWords_op]
      exact hop
    · rw [hostCallWords_sector, hostCallWords_count]
      exact hsectors
    · rw [hostCallWords_count]
      exact hcount
    · rw [hostCallWords_count]
      exact (Nat.add_le_add_left (Nat.mul_le_mul_right 512 hcount) _).trans hsize
  flush := ⟨hhw, hostCallWords_mediaId _ _ _ _, Or.inl (hostCallWords_op _ _ _ _)⟩

theorem Bound.hw_of_backend {fn : BackendFn} (hfn : c.virt.backend = some fn) : c.hw = true := by
  rcases h.medium with ⟨hhw, _⟩ | ⟨_, hnone, _⟩
  · exact hhw
  · exact absurd (hnone.symm.trans hfn) (by simp)

theorem Bound.servePermits :
    ServePermits A (Isolated i c) (fun ctx => ctx.binding = c.binding) c.virt c.q callBackend where
  loadReadOnly := h.infoCell
  backend fn hfn ctx req hctx haccepted := by
    cases fn
    have hmedia : ctx.mediaId = .ofNat i :=
      (eq_of_binding BvClient.mediaId hctx).trans h.mediaId
    refine ⟨trivial, ?_⟩
    have hpermits := h.hostPermits (h.hw_of_backend hfn)
    rw [<- hmedia] at hpermits
    exact (ensures_hostBlkBackend haccepted.1 hpermits).weaken fun _ hresult => hresult.trans hctx
  ram hnone req haccepted := ensures_serveRam haccepted.1 h.dataBytes (h.diskBytes hnone)

theorem Bound.ensures_pump : Ensures A (Isolated i c) (fun result => result.2.binding = c.binding)
      (aosBlkVirtPump callBackend c.virt c) := by
  have hclient : ∀ q ∈ c.virt.clients, q = c.q := by
    intro q hq
    rw [h.clients] at hq
    exact mem_singleton.mp hq
  refine ensures_aosBlkVirtPump (R := fun ctx : BvClient => ctx.binding = c.binding) ?_ ?_ rfl
  · intro q hq
    rw [hclient q hq]
    exact h.ringPermits
  · intro q hq
    rw [hclient q hq]
    exact h.servePermits

end

end Bound

/-- Whatever the shared memory and the driver answer, the pump for an attached client reads and
writes bytes only in that client's data cells and medium, ring records and info fields only in
their own places, every driver call transfers sectors of its own blocks that fit its window, and
no byte of another client is touched. -/
theorem blkVirt_isolation {build : Build} {s : BvState} (hs : Reachable build s) {i : Nat}
    (hattached : (s.clients i).attached = true) {trace : Trace BlkIo}
    {result : UInt32 × BvClient}
    (hrun : Run (aosBlkVirtPump callBackend (s.clients i).virt (s.clients i)) trace result) :
    ∀ event ∈ trace, Isolated i (s.clients i) event.request :=
  ((hs.tableOk i).of_attached hattached).ensures_pump.requests hrun

/-- A memory in which the primary guest has published one two-block read. -/
def readPublished : BlkHeap :=
  let req := clientPage shmem 0 + aosBlkReqQueueOff
  (BlkHeap.zero.store (.reqBuffer req 0) ⟨aosBlkReqRead, 4096, 3, 2, 7⟩).store
    (.index .req .tail req) (1 : UInt32)

theorem blkVirt_isolation_read : ∃ trace result,
      Run (aosBlkVirtPump callBackend (primaryAttached.clients 0).virt
        (primaryAttached.clients 0)) trace result /\
      ∀ event ∈ trace, Isolated 0 (primaryAttached.clients 0) event.request := by
  obtain ⟨trace, hrun⟩ := run_eval (handler noDriver)
    (aosBlkVirtPump callBackend (primaryAttached.clients 0).virt (primaryAttached.clients 0))
    (readPublished, ())
  exact ⟨trace, _, hrun, blkVirt_isolation primaryAttached_reachable (by decide +kernel) hrun⟩

end AgentOs.BlkVirt
