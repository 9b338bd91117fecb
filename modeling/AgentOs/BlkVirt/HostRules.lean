import AgentOs.BlkVirt.PumpRules

/-!
# What every run of a medium does

Rules for both backends.  They rest on what an accepted request guarantees about its block range
and its data cells.
-/

namespace AgentOs.BlkVirt

open Library Prog

/-! ## Accepted requests -/

theorem transferBytes_toNat (count : UInt16) :
    (count.toUInt32 * aosBlkTransferSize).toNat = count.toNat * 4096 := by
  have hcount := UInt16.toNat_lt count
  simp only [aosBlkTransferSize, UInt32.toNat_mul, UInt16.toNat_toUInt32, UInt32.toNat_ofNat]
  omega

variable {c : BlkVirtClient} {req : BlkReq}

/-- An accepted transfer names blocks of the medium and cells of the data area. -/
theorem requestValid_transfer (hvalid : requestValid c req = true)
    (hcode : req.code = aosBlkReqRead \/ req.code = aosBlkReqWrite) :
    0 < req.count.toNat /\ req.blockNumber.toNat + req.count.toNat <= c.mediaBlocks.toNat /\
      req.ioOrOffset.toNat + req.count.toNat * 4096 <= aosBlkDataBytes.toNat := by
  have hguard : (req.code == aosBlkReqRead || req.code == aosBlkReqWrite) = true := by
    simpa using hcode
  unfold requestValid at hvalid
  rw [if_pos hguard] at hvalid
  split at hvalid
  · exact absurd hvalid (by simp)
  rename_i hrange
  simp only [Bool.or_eq_true, beq_iff_eq, decide_eq_true_eq, not_or] at hrange
  simp only [Bool.and_eq_true, decide_eq_true_eq] at hvalid
  obtain ⟨⟨⟨hcount, _⟩, hblock⟩, hlength⟩ := hrange
  obtain ⟨hoffset, hbytes⟩ := hvalid
  have hblock' : req.blockNumber <= c.mediaBlocks.toUInt64 := UInt64.not_lt.mp hblock
  have hlength' := UInt64.not_lt.mp hlength
  rw [UInt64.le_iff_toNat_le, UInt64.toNat_sub_of_le _ _ hblock'] at hlength'
  rw [UInt64.le_iff_toNat_le, UInt64.toNat_sub_of_le _ _ hoffset, UInt32.toNat_toUInt64,
    transferBytes_toNat] at hbytes
  rw [UInt64.le_iff_toNat_le] at hblock' hoffset
  have hpos : req.count.toNat ≠ 0 := fun h => hcount (UInt16.toNat_inj.mp h)
  simp only [UInt32.toNat_toUInt64, UInt16.toNat_toUInt64] at hblock' hlength' hoffset hbytes
  omega

theorem requestValid_code (hvalid : requestValid c req = true) :
    (req.code = aosBlkReqRead \/ req.code = aosBlkReqWrite) \/
      req.code = aosBlkReqFlush \/ req.code = aosBlkReqBarrier := by
  unfold requestValid at hvalid
  split at hvalid
  · rename_i hcode
    exact Or.inl (by simpa using hcode)
  · split at hvalid
    · rename_i hcode
      exact Or.inr (by simpa using hcode)
    · exact absurd hvalid (by simp)

/-- Offsets within the data area survive the truncation to 32 bits. -/
theorem dataOffset_toNat (offset : UInt64) (hoffset : offset.toNat <= aosBlkDataBytes.toNat) :
    offset.toUInt32.toNat = offset.toNat := by
  rw [UInt64.toNat_toUInt32]
  have hbound : aosBlkDataBytes.toNat < 2 ^ 32 := UInt32.toNat_lt _
  omega

/-- Where an accepted transfer starts on a medium, in bytes and in sectors, and how
many sectors it takes. -/
theorem requestValid_start (hvalid : requestValid c req = true)
    (hcode : req.code = aosBlkReqRead \/ req.code = aosBlkReqWrite) :
    (req.blockNumber * aosBlkTransferSize.toUInt64).toNat = req.blockNumber.toNat * 4096 /\
      (req.blockNumber * (aosBlkTransferSize / aosHostBlkSectorSize).toUInt64).toNat =
        req.blockNumber.toNat * 8 /\
      ((req.count.toUInt32 * aosBlkTransferSize) / aosHostBlkSectorSize).toNat =
        req.count.toNat * 8 := by
  obtain ⟨_, hblocks, _⟩ := requestValid_transfer hvalid hcode
  have hmedia := UInt32.toNat_lt c.mediaBlocks
  have hunit : aosBlkTransferSize.toUInt64.toNat = 4096 := by decide
  have hratio : (aosBlkTransferSize / aosHostBlkSectorSize).toUInt64.toNat = 8 := by decide
  have hsize : aosHostBlkSectorSize.toNat = 512 := rfl
  rw [UInt64.toNat_mul, UInt64.toNat_mul, UInt32.toNat_div, transferBytes_toNat, hunit, hratio,
    hsize]
  omega

/-! ## Copies -/

variable {A : (request : BlkOp) -> BlkOp.Ans request -> Prop} {P : BlkOp -> Prop}

/-- Bytes a copy may read or write. -/
def BytesPermitted (P : BlkOp -> Prop) (p : BlkPtr) (n : Nat) : Prop :=
  ∀ k, k < n -> P (.load (.byte (p + k))) /\ ∀ b, P (.store (.byte (p + k)) b)

theorem BytesPermitted.sub {p : BlkPtr} {n offset len : Nat} (hp : BytesPermitted P p n)
    (hfits : offset + len <= n) : BytesPermitted P (p + offset) len := by
  intro k hk
  rw [Ptr.add_add]
  exact hp (offset + k) (by omega)

theorem ensures_copyBytes {dst src : BlkPtr} {n : Nat} (hdst : BytesPermitted P dst n)
    (hsrc : BytesPermitted P src n) : Ensures A P (fun _ => True) (copyBytes dst src n) := by
  induction n generalizing dst src with
  | zero => trivial
  | succ n ih =>
    refine ⟨(hsrc 0 (by omega)).1, fun b _ => ⟨(hdst 0 (by omega)).2 b, fun _ _ => ?_⟩⟩
    exact ih (hdst.sub (by omega)) (hsrc.sub (by omega))

/-! ## RAM image -/

theorem ensures_serveRam (hvalid : requestValid c req = true)
    (hdata : BytesPermitted P c.data aosBlkDataBytes.toNat)
    (hdisk : BytesPermitted P c.disk (c.mediaBlocks.toNat * 4096)) :
    Ensures A P (fun _ => True) (serveRam c req) := by
  have hserve : ∀ writing, req.code = aosBlkReqRead \/ req.code = aosBlkReqWrite ->
      Ensures A P (fun _ => True) (serveRw c req writing) := by
    intro writing hcode
    obtain ⟨_, hblocks, hcells⟩ := requestValid_transfer hvalid hcode
    have hoffset := dataOffset_toNat req.ioOrOffset (by omega)
    obtain ⟨hstart, _, _⟩ := requestValid_start hvalid hcode
    have hcopyData : BytesPermitted P (c.data + req.ioOrOffset.toUInt32.toNat)
        (req.count.toUInt32 * aosBlkTransferSize).toNat :=
      hdata.sub (by rw [hoffset, transferBytes_toNat]; exact hcells)
    have hcopyDisk : BytesPermitted P
        (c.disk + (req.blockNumber * aosBlkTransferSize.toUInt64).toNat)
        (req.count.toUInt32 * aosBlkTransferSize).toNat :=
      hdisk.sub (by rw [hstart, transferBytes_toNat]; omega)
    unfold serveRw
    dsimp only
    split
    · trivial
    · cases writing with
      | true => exact (ensures_copyBytes hcopyDisk hcopyData).bind fun _ _ => trivial
      | false => exact (ensures_copyBytes hcopyData hcopyDisk).bind fun _ _ => trivial
  unfold serveRam
  split
  · rename_i hcode
    exact hserve false (Or.inl (by simpa using hcode))
  · split
    · rename_i hcode
      exact hserve true (Or.inr (by simpa using hcode))
    · split <;> trivial

/-! ## Host backend -/

/-- The requests the host backend makes for one client. -/
structure HostPermits (P : BlkOp -> Prop) (mediaId : UInt32) (client : BlkVirtClient) : Prop where
  fence : P .fence
  window : BytesPermitted P (hostDma mediaId) ((agentosBlkMediaDmaMaxSectors mediaId).toNat * 512)
  data : BytesPermitted P client.data aosBlkDataBytes.toNat
  transfer : ∀ op sector count, op = aosHostBlkOpRead \/ op = aosHostBlkOpWrite ->
    sector.toNat + count.toNat <= client.mediaBlocks.toNat * 8 ->
    count.toNat <= (agentosBlkMediaDmaMaxSectors mediaId).toNat ->
    P (.hostCall (hostCallWords mediaId op sector count))
  flush : P (.hostCall (hostCallWords mediaId aosHostBlkOpFlush 0 0))

theorem agentosBlkMediaDmaMaxSectors_le (mediaId : UInt32) :
    (agentosBlkMediaDmaMaxSectors mediaId).toNat <= 2047 := by
  unfold agentosBlkMediaDmaMaxSectors
  split <;> decide

theorem chunkBytes_toNat (mediaId sectorsLeft : UInt32) :
    (chunkSectors mediaId sectorsLeft * aosHostBlkSectorSize).toNat =
      (chunkSectors mediaId sectorsLeft).toNat * 512 := by
  have hchunk := (chunkSectors_le mediaId sectorsLeft).2
  have hmax := agentosBlkMediaDmaMaxSectors_le mediaId
  simp only [aosHostBlkSectorSize, UInt32.toNat_mul, UInt32.toNat_ofNat]
  omega

variable {op : UInt32}

theorem ensures_hostBlkCallStatus {mediaId : UInt32} {sector : UInt64} {count : UInt32}
    (hcall : P (.hostCall (hostCallWords mediaId op sector count))) :
    Ensures A P (fun _ => True) (hostBlkCallStatus mediaId op sector count) :=
  ⟨hcall, fun _ _ => trivial⟩

variable {data : BlkPtr}

theorem ensures_stageWrite {dma : BlkPtr} {bytes : UInt32} (hfence : P .fence)
    (hdma : BytesPermitted P dma bytes.toNat) (hdata : BytesPermitted P data bytes.toNat) :
    Ensures A P (fun _ => True) (stageWrite op dma data bytes) := by
  unfold stageWrite
  split
  · exact (ensures_copyBytes hdma hdata).bind fun _ _ => ⟨hfence, fun _ _ => trivial⟩
  · trivial

theorem ensures_collectRead {dma : BlkPtr} {bytes : UInt32} (hfence : P .fence)
    (hdma : BytesPermitted P dma bytes.toNat) (hdata : BytesPermitted P data bytes.toNat) :
    Ensures A P (fun _ => True) (collectRead op dma data bytes) := by
  unfold collectRead
  split
  · exact ⟨hfence, fun _ _ => (ensures_copyBytes hdata hdma).weaken fun _ _ => trivial⟩
  · trivial

/-- The loop stays within the sectors and the bytes it was given. -/
theorem ensures_hostTransferLoop {mediaId : UInt32} {client : BlkVirtClient}
    (hp : HostPermits P mediaId client) (hop : op = aosHostBlkOpRead \/ op = aosHostBlkOpWrite)
    {total : Nat} (hdata : BytesPermitted P data total) (htotal : total < 2 ^ 32)
    {sector : UInt64} {byteOffset sectorsLeft : UInt32}
    (hbytes : byteOffset.toNat + sectorsLeft.toNat * 512 <= total)
    (hsectors : sector.toNat + sectorsLeft.toNat <= client.mediaBlocks.toNat * 8) :
    Ensures A P (fun _ => True)
      (hostTransferLoop mediaId op data sector byteOffset sectorsLeft) := by
  induction hleft : sectorsLeft.toNat using Nat.strong_induction_on
    generalizing sector byteOffset sectorsLeft with
  | _ left ih =>
    rw [hostTransferLoop]
    split
    · trivial
    rename_i hne
    obtain ⟨hchunk, hmax⟩ := chunkSectors_le mediaId sectorsLeft
    have hpos := chunkSectors_pos mediaId hne
    have hchunkBytes := chunkBytes_toNat mediaId sectorsLeft
    have hmedia := UInt32.toNat_lt client.mediaBlocks
    have hwindow : BytesPermitted P (hostDma mediaId)
        (chunkSectors mediaId sectorsLeft * aosHostBlkSectorSize).toNat := by
      exact hp.window.sub (by omega : 0 + _ <= _)
    have hcells : BytesPermitted P (data + byteOffset.toNat)
        (chunkSectors mediaId sectorsLeft * aosHostBlkSectorSize).toNat :=
      hdata.sub (by omega)
    refine (ensures_stageWrite hp.fence hwindow hcells).bind fun _ _ => ?_
    refine (ensures_hostBlkCallStatus
      (hp.transfer op sector _ hop (by omega) hmax)).bind fun rc _ => ?_
    split
    · trivial
    refine (ensures_collectRead hp.fence hwindow hcells).bind fun _ _ => ?_
    have hnext : (byteOffset +
        chunkSectors mediaId sectorsLeft * aosHostBlkSectorSize).toNat =
        byteOffset.toNat + (chunkSectors mediaId sectorsLeft).toNat * 512 := by
      rw [UInt32.toNat_add, hchunkBytes]
      omega
    have hsector : (sector + (chunkSectors mediaId sectorsLeft).toUInt64).toNat =
        sector.toNat + (chunkSectors mediaId sectorsLeft).toNat := by
      rw [UInt64.toNat_add, UInt32.toNat_toUInt64]
      omega
    have hrest := chunkSectors_left mediaId sectorsLeft
    exact ih _ (by omega) (by omega) (by omega) rfl

/-- The record of a client without its counters and log marks. -/
def BvClient.binding (c : BvClient) : BvClient :=
  { c with pumpedMarked := false, readMarked := false, requests := 0, responses := 0 }

theorem ensures_hostBlkBackend {c : BvClient} {client : BlkVirtClient}
    (hvalid : requestValid client req = true) (hp : HostPermits P c.mediaId client) :
    Ensures A P (fun result => result.2.binding = c.binding) (hostBlkBackend c client req) := by
  have htransfer : ∀ op, op = aosHostBlkOpRead \/ op = aosHostBlkOpWrite ->
      req.code = aosBlkReqRead \/ req.code = aosBlkReqWrite ->
      Ensures A P (fun _ => True)
        (hostBlkTransfer c.mediaId op
          (req.blockNumber * (aosBlkTransferSize / aosHostBlkSectorSize).toUInt64)
          (client.data + req.ioOrOffset.toUInt32.toNat)
          (req.count.toUInt32 * aosBlkTransferSize)) := by
    intro op hop hcode
    obtain ⟨_, hblocks, hcells⟩ := requestValid_transfer hvalid hcode
    have hoffset := dataOffset_toNat req.ioOrOffset (by omega)
    have hcount := UInt16.toNat_lt req.count
    have hdata : BytesPermitted P (client.data + req.ioOrOffset.toUInt32.toNat)
        (req.count.toNat * 4096) := hp.data.sub (by omega)
    obtain ⟨_, hsector, hsectors⟩ := requestValid_start hvalid hcode
    refine ensures_hostTransferLoop hp hop hdata (by omega) ?_ ?_
    · simp only [UInt32.toNat_ofNat, hsectors]
      omega
    · rw [hsector, hsectors]
      omega
  unfold hostBlkBackend
  dsimp only
  split
  · rfl
  split
  · rename_i hcode
    refine (htransfer _ (Or.inl rfl) (Or.inl (by simpa using hcode))).bind fun rc _ => ?_
    simp only [pure_eq_ret, ensures_ret]
    split <;> rfl
  · split
    · rename_i hcode
      exact (htransfer _ (Or.inr rfl) (Or.inr (by simpa using hcode))).bind fun rc _ => rfl
    · split
      · exact (ensures_hostBlkCallStatus hp.flush).bind fun rc _ => rfl
      · rfl

end AgentOs.BlkVirt
