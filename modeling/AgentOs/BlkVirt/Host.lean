import AgentOs.BlkVirt.Pump

/-!
# The host media backend

`host_blk_call`, `host_blk_transfer` and `host_blk_backend` of `blk_virt.c`: one queue request
becomes driver calls that move at most one window of sectors each through the shared frame.
-/

namespace AgentOs.BlkVirt

open Library

/-- `bv_client_t`. -/
structure BvClient where
  attached : Bool
  retired : Bool
  hw : Bool
  pumpedMarked : Bool
  readMarked : Bool
  clientId : UInt32
  mediaId : UInt32
  vmmNotify : UInt64
  requests : UInt32
  responses : UInt32
  q : BlkVirtClient
  virt : AosBlkVirt

def BvClient.zero : BvClient where
  attached := false
  retired := false
  hw := false
  pumpedMarked := false
  readMarked := false
  clientId := 0
  mediaId := 0
  vmmNotify := 0
  requests := 0
  responses := 0
  q := .zero
  virt := ⟨[], none⟩

def hostDma (mediaId : UInt32) : BlkPtr :=
  (⟨.blkShared, 0⟩ : BlkPtr) + (agentosBlkMediaDmaOff mediaId + agentosBlkSharedDmaDataOff)

/-- The registers of one driver call: the sector is split over two words. -/
def hostCallWords (mediaId op : UInt32) (sector : UInt64) (count : UInt32) : HostCall where
  mr0 := op.toUInt64
  mr1 := 20
  mr2 := op.toUInt64 ||| (sector.toUInt32.toUInt64 <<< 32)
  mr3 := (sector >>> 32).toUInt32.toUInt64 ||| (count.toUInt64 <<< 32)
  mr4 := mediaId.toUInt64

/-! The driver reads the same words back as 32-bit fields of its payload. -/

def HostCall.op (call : HostCall) : UInt32 := call.mr2.toUInt32

def HostCall.sector (call : HostCall) : UInt64 :=
  (call.mr3.toUInt32.toUInt64 <<< 32) ||| (call.mr2 >>> 32).toUInt32.toUInt64

def HostCall.count (call : HostCall) : UInt32 := (call.mr3 >>> 32).toUInt32

def HostCall.mediaId (call : HostCall) : UInt32 := call.mr4.toUInt32

section Decode

variable (mediaId op : UInt32) (sector : UInt64) (count : UInt32)

@[simp]
theorem hostCallWords_op : (hostCallWords mediaId op sector count).op = op := Ipc.word_low op _

@[simp]
theorem hostCallWords_sector : (hostCallWords mediaId op sector count).sector = sector := by
  simp only [HostCall.sector, hostCallWords, Ipc.word_low, Ipc.word_high, Ipc.word_join]

@[simp]
theorem hostCallWords_count : (hostCallWords mediaId op sector count).count = count :=
  Ipc.word_high _ count

@[simp]
theorem hostCallWords_mediaId : (hostCallWords mediaId op sector count).mediaId = mediaId := by
  apply UInt32.toNat_inj.mp
  have hmedia := UInt32.toNat_lt mediaId
  simp only [HostCall.mediaId, hostCallWords, UInt64.toNat_toUInt32, UInt32.toNat_toUInt64]
  omega

end Decode

/-- What an `INFO` call reports through its out-parameters. -/
structure HostInfo where
  capacity : UInt64
  readOnly : Bool

/-- The status of a reply, and the out-parameters as far as it carries them. -/
def hostBlkReply (reply : HostReply) (out : HostInfo) : UInt32 × HostInfo :=
  if decide (reply.length < 3) || decide (reply.mr1 < 4) then
    (aosHostBlkErrNodev, out)
  else
    (reply.mr2.toUInt32,
      { capacity :=
          if reply.mr2.toUInt32 == aosHostBlkOk && decide (reply.mr1 >= 16) &&
              decide (reply.length >= 4) then
            (reply.mr3.toUInt32.toUInt64 <<< 32) ||| (reply.mr2 >>> 32).toUInt32.toUInt64
          else
            out.capacity
        readOnly :=
          if reply.mr2.toUInt32 == aosHostBlkOk && decide (reply.mr1 >= 20) &&
              decide (reply.length >= 5) then
            (reply.mr4.toUInt32 &&& aosHostBlkInfoReadOnly) != 0
          else
            out.readOnly })

def hostBlkCall (mediaId op : UInt32) (sector : UInt64) (count : UInt32) (out : HostInfo) :
    BlkM (UInt32 × HostInfo) := do
  let reply <- Prog.perform (I := BlkIo) (.hostCall (hostCallWords mediaId op sector count))
  return hostBlkReply reply out

/-- A call whose out-parameters are null. -/
def hostBlkCallStatus (mediaId op : UInt32) (sector : UInt64) (count : UInt32) : BlkM UInt32 := do
  let (rc, _) <- hostBlkCall mediaId op sector count ⟨0, false⟩
  return rc

def bvCopy (dst src : BlkPtr) (n : UInt32) : BlkM Unit := copyBytes dst src n.toNat

def bvFence : BlkM Unit := aosFence

/-- The size of the next chunk. -/
def chunkSectors (mediaId sectorsLeft : UInt32) : UInt32 :=
  if sectorsLeft > agentosBlkMediaDmaMaxSectors mediaId then
    agentosBlkMediaDmaMaxSectors mediaId
  else
    sectorsLeft

variable (mediaId : UInt32)

theorem agentosBlkMediaDmaMaxSectors_pos : 0 < (agentosBlkMediaDmaMaxSectors mediaId).toNat := by
  unfold agentosBlkMediaDmaMaxSectors
  split <;> decide

theorem chunkSectors_le (sectorsLeft : UInt32) :
    (chunkSectors mediaId sectorsLeft).toNat <= sectorsLeft.toNat /\
      (chunkSectors mediaId sectorsLeft).toNat <= (agentosBlkMediaDmaMaxSectors mediaId).toNat := by
  unfold chunkSectors
  split
  · rename_i hmore
    exact ⟨Nat.le_of_lt (UInt32.lt_iff_toNat_lt.mp hmore), Nat.le_refl _⟩
  · rename_i hfits
    exact ⟨Nat.le_refl _, Nat.le_of_not_lt fun h => hfits (UInt32.lt_iff_toNat_lt.mpr h)⟩

theorem chunkSectors_pos {sectorsLeft : UInt32} (hleft : sectorsLeft ≠ 0) :
    0 < (chunkSectors mediaId sectorsLeft).toNat := by
  unfold chunkSectors
  split
  · exact agentosBlkMediaDmaMaxSectors_pos mediaId
  · exact Nat.pos_of_ne_zero fun h => hleft (UInt32.toNat_inj.mp h)

theorem chunkSectors_left (sectorsLeft : UInt32) :
    (sectorsLeft - chunkSectors mediaId sectorsLeft).toNat =
      sectorsLeft.toNat - (chunkSectors mediaId sectorsLeft).toNat :=
  UInt32.toNat_sub_of_le _ _ (UInt32.le_iff_toNat_le.mpr (chunkSectors_le _ _).1)

/-- Fill the window before a write. -/
def stageWrite (op : UInt32) (dma data : BlkPtr) (bytes : UInt32) : BlkM Unit :=
  if op == aosHostBlkOpWrite then do
    bvCopy dma data bytes
    bvFence
  else
    return ()

/-- Empty the window after a read. -/
def collectRead (op : UInt32) (dma data : BlkPtr) (bytes : UInt32) : BlkM Unit :=
  if op == aosHostBlkOpRead then do
    bvFence
    bvCopy data dma bytes
  else
    return ()

def hostTransferLoop (mediaId op : UInt32) (clientData : BlkPtr) (sector : UInt64)
    (byteOffset sectorsLeft : UInt32) : BlkM UInt32 :=
  if sectorsLeft = 0 then
    return aosHostBlkOk
  else do
    let sectors := chunkSectors mediaId sectorsLeft
    let bytes := sectors * aosHostBlkSectorSize
    stageWrite op (hostDma mediaId) (clientData + byteOffset.toNat) bytes
    let rc <- hostBlkCallStatus mediaId op sector sectors
    if rc != aosHostBlkOk then
      return rc
    else do
      collectRead op (hostDma mediaId) (clientData + byteOffset.toNat) bytes
      hostTransferLoop mediaId op clientData (sector + sectors.toUInt64)
        (byteOffset + bytes) (sectorsLeft - sectors)
termination_by sectorsLeft.toNat
decreasing_by
  rename_i hleft
  have hpos := chunkSectors_pos mediaId hleft
  have hle := (chunkSectors_le mediaId sectorsLeft).1
  rw [chunkSectors_left]
  omega

def hostBlkTransfer (mediaId op : UInt32) (sector : UInt64) (clientData : BlkPtr)
    (nbytes : UInt32) : BlkM UInt32 :=
  hostTransferLoop mediaId op clientData sector 0 (nbytes / aosHostBlkSectorSize)

/-- Queue status of a driver status. -/
def hostStatus (rc : UInt32) : BlkRespStatus :=
  if rc == aosHostBlkOk then .ok
  else if rc == aosHostBlkErrNodev then .errNoDevice
  else if rc == aosHostBlkErrOob then .errInvalidParam
  else .errIo

/-- The pump backend: the context is the record of the client being served. -/
def hostBlkBackend (c : BvClient) (client : BlkVirtClient) (req : BlkReq) :
    BlkM (BlkRespStatus × BvClient) :=
  let nbytes := req.count.toUInt32 * aosBlkTransferSize
  let dataEnd := req.ioOrOffset + nbytes.toUInt64
  let sector := req.blockNumber * (aosBlkTransferSize / aosHostBlkSectorSize).toUInt64
  let c := { c with requests := c.requests + 1 }
  if dataEnd > aosBlkDataBytes.toUInt64 then
    return (.errInvalidParam, c)
  else if req.code == aosBlkReqRead then do
    let rc <- hostBlkTransfer c.mediaId aosHostBlkOpRead sector
      (client.data + req.ioOrOffset.toUInt32.toNat) nbytes
    return (hostStatus rc, if rc == aosHostBlkOk then { c with readMarked := true } else c)
  else if req.code == aosBlkReqWrite then do
    let rc <- hostBlkTransfer c.mediaId aosHostBlkOpWrite sector
      (client.data + req.ioOrOffset.toUInt32.toNat) nbytes
    return (hostStatus rc, c)
  else if req.code == aosBlkReqFlush || req.code == aosBlkReqBarrier then do
    let rc <- hostBlkCallStatus c.mediaId aosHostBlkOpFlush 0 0
    return (hostStatus rc, c)
  else
    return (.errInvalidParam, c)

/-- The call through the backend pointer. -/
def callBackend : BackendFn -> BvClient -> BlkVirtClient -> BlkReq -> BlkM (BlkRespStatus × BvClient)
  | .hostBlkBackend, c, client, req => hostBlkBackend c client req

end AgentOs.BlkVirt
