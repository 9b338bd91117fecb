import AgentOs.BlkVirt.Memory

/-!
# The block request pump

`blk_virt_pump.c` and the client helpers of `blk_virt_pump.h`.  Each volatile index access is
its own request, so two reads may differ.  The request and response variants of a ring operation
are one definition.
-/

namespace AgentOs.BlkVirt

open Library

/-! ## Ring operations -/

def ringLen (kind : RingKind) (q : BlkPtr) : BlkM UInt32 := do
  let tail <- load (.index kind .tail q)
  let head <- load (.index kind .head q)
  return tail - head

def reqLen (q : BlkPtr) : BlkM UInt32 := ringLen .req q

def respLen (q : BlkPtr) : BlkM UInt32 := ringLen .resp q

def ringLength (kind : RingKind) (q : BlkPtr) : BlkM UInt32 :=
  if isNull q then return 0 else ringLen kind q

def aosBlkQueueReqLength (q : BlkPtr) : BlkM UInt32 := ringLength .req q

def aosBlkQueueRespLength (q : BlkPtr) : BlkM UInt32 := ringLength .resp q

def ringValid (kind : RingKind) (q : BlkPtr) (capacity : UInt32) : BlkM Bool :=
  if !isNull q && capacity != 0 && decide (capacity <= aosBlkQueueCapacity) then do
    let len <- ringLen kind q
    return decide (len <= capacity)
  else
    return false

def aosBlkQueueReqValid (q : BlkPtr) (capacity : UInt32) : BlkM Bool := ringValid .req q capacity

def aosBlkQueueRespValid (q : BlkPtr) (capacity : UInt32) : BlkM Bool := ringValid .resp q capacity

/-- Discard the contents of a ring. -/
def resetRing (kind : RingKind) (q : BlkPtr) : BlkM Unit := do
  let tail <- load (.index kind .tail q)
  aosFence
  store (.index kind .head q) tail
  aosFence

def resetReqQueue (q : BlkPtr) : BlkM Unit := resetRing .req q

def resetRespQueue (q : BlkPtr) : BlkM Unit := resetRing .resp q

def reqEmpty (q : BlkPtr) : BlkM Bool := do
  let len <- reqLen q
  return len == 0

def respFull (q : BlkPtr) (capacity : UInt32) : BlkM Bool := do
  let len <- respLen q
  return decide (len >= capacity)

def dequeueReq (q : BlkPtr) (capacity : UInt32) : BlkM (Option BlkReq) := do
  let valid <- aosBlkQueueReqValid q capacity
  if valid then do
    let empty <- reqEmpty q
    if empty then
      return none
    else do
      aosFence
      let head <- load (.index .req .head q)
      let out <- load (.reqBuffer q (head % capacity).toNat)
      aosFence
      let head <- load (.index .req .head q)
      store (.index .req .head q) (head + 1)
      return some out
  else
    return none

/-- The result says whether the response was posted. -/
def enqueueResp (q : BlkPtr) (capacity : UInt32) (r : BlkResp) : BlkM Bool := do
  let valid <- aosBlkQueueRespValid q capacity
  if valid then do
    let full <- respFull q capacity
    if full then
      return false
    else do
      let tail <- load (.index .resp .tail q)
      store (.respBuffer q (tail % capacity).toNat) r
      aosFence
      let tail <- load (.index .resp .tail q)
      store (.index .resp .tail q) (tail + 1)
      aosFence
      return true
  else
    return false

/-! ## Virtualizer state -/

def aosBlkVirtReset : AosBlkVirt := ⟨[], none⟩

/-- Both rings of every client are valid and empty. -/
def detachReady : List BlkVirtClient -> BlkM Bool
  | [] => return true
  | c :: rest => do
    let reqValid <- aosBlkQueueReqValid c.req c.capacity
    if reqValid then do
      let respValid <- aosBlkQueueRespValid c.resp c.capacity
      if respValid then do
        let pending <- reqLen c.req
        if pending != 0 then
          return false
        else do
          let unread <- respLen c.resp
          if unread != 0 then return false else detachReady rest
      else
        return false
    else
      return false

/-- The new virtualizer state, or nothing when detaching is refused. -/
def aosBlkVirtDetach (v : AosBlkVirt) : BlkM (Option AosBlkVirt) :=
  if v.clients.length > aosBlkMaxClients then
    return none
  else do
    let ready <- detachReady v.clients
    if ready then return some aosBlkVirtReset else return none

/-- `"aos-ram0"`. -/
def ramSerial : List UInt8 := [0x61, 0x6f, 0x73, 0x2d, 0x72, 0x61, 0x6d, 0x30]

def storeSerial (info : BlkPtr) : List UInt8 -> Nat -> BlkM Unit
  | [], _ => return ()
  | ch :: rest, i => do
    store (.info info (.serialNumber i)) ch
    storeSerial info rest (i + 1)

def aosBlkStorageInit (info : BlkPtr) (diskBlocks : UInt32) : BlkM Unit :=
  if isNull info then
    return ()
  else do
    store (.infoZero info) ()
    storeSerial info ramSerial 0
    store (.info info .readOnly) false
    store (.info info .sectorSize) aosBlkSectorSize.toUInt16
    store (.info info .blockSize) (1 : UInt16)
    store (.info info .queueDepth) aosBlkQueueCapacity.toUInt16
    store (.info info .capacity) diskBlocks.toUInt64
    store (.info info .ready) true

/-- The unchanged state when the client is refused. -/
def aosBlkVirtAddClient (v : AosBlkVirt) (c : BlkVirtClient) : AosBlkVirt :=
  if isNull c.info || isNull c.req || isNull c.resp || isNull c.data || c.capacity == 0 ||
      decide (c.capacity > aosBlkQueueCapacity) || c.mediaBlocks == 0 ||
      decide (v.clients.length >= aosBlkMaxClients) then
    v
  else
    { v with clients := v.clients ++ [c] }

def aosBlkClientSetMedia (c : BlkVirtClient) (mediaBlocks : UInt32) : BlkVirtClient :=
  { c with mediaBlocks := mediaBlocks }

def aosBlkClientSetRamDisk (c : BlkVirtClient) (disk : BlkPtr) (diskBlocks : UInt32) :
    BlkVirtClient :=
  { c with disk := disk, diskBlocks := diskBlocks, mediaBlocks := diskBlocks }

def aosBlkVirtSetBackend (v : AosBlkVirt) (backend : BackendFn) : AosBlkVirt :=
  { v with backend := some backend }

/-- The page of a client in the shared region. -/
def clientPage (region : BlkPtr) (index : UInt32) : BlkPtr :=
  region + (aosBlkClientBase + index.toNat * aosBlkClientStride)

def aosBlkClientBind (region : BlkPtr) (index : UInt32) (out : BlkVirtClient) : BlkVirtClient :=
  if isNull region || decide (index.toNat >= aosBlkMaxClients) then
    out
  else
    { out with
      info := clientPage region index + aosBlkStorageInfoOff
      signal := clientPage region index + aosBlkSignalOff
      req := clientPage region index + aosBlkReqQueueOff
      resp := clientPage region index + aosBlkRespQueueOff
      data := clientPage region index + aosBlkDataOff
      capacity := aosBlkQueueCapacity }

/-- The two rings are cleared byte by byte in step; nothing reads them meanwhile. -/
def aosBlkClientInitQueues (c : BlkVirtClient) : BlkM Unit :=
  if isNull c.req || isNull c.resp then
    return ()
  else do
    store (.ringZero .req c.req) ()
    store (.ringZero .resp c.resp) ()
    if isNull c.signal then
      aosFence
    else do
      store (.signalWord c.signal) (0 : UInt32)
      store (.signalReserved c.signal) (0 : UInt32)
      aosFence

/-! ## Serving one request -/

def requestValid (c : BlkVirtClient) (req : BlkReq) : Bool :=
  if req.code == aosBlkReqRead || req.code == aosBlkReqWrite then
    if req.count == 0 || c.mediaBlocks == 0 ||
        decide (req.blockNumber > c.mediaBlocks.toUInt64) ||
        decide (req.count.toUInt64 > c.mediaBlocks.toUInt64 - req.blockNumber) then
      false
    else
      decide (req.ioOrOffset <= aosBlkDataBytes.toUInt64) &&
        decide ((req.count.toUInt32 * aosBlkTransferSize).toUInt64 <=
          aosBlkDataBytes.toUInt64 - req.ioOrOffset)
  else if req.code == aosBlkReqFlush || req.code == aosBlkReqBarrier then
    req.ioOrOffset == 0 && req.blockNumber == 0 && req.count == 0
  else
    false

/-- Both copy loops of the source move bytes in ascending order. -/
def copyBytes (dst src : BlkPtr) : Nat -> BlkM Unit
  | 0 => return ()
  | n + 1 => do
    let b <- load (.byte src)
    store (.byte dst) b
    copyBytes (dst + 1) (src + 1) n

def aosCopy (dst src : BlkPtr) (n : UInt32) : BlkM Unit := copyBytes dst src n.toNat

def serveRw (c : BlkVirtClient) (req : BlkReq) (writing : Bool) : BlkM BlkRespStatus :=
  let nbytes := req.count.toUInt32 * aosBlkTransferSize
  let diskOffset := req.blockNumber * aosBlkTransferSize.toUInt64
  if isNull c.disk || decide (c.diskBlocks < c.mediaBlocks) then
    return .errNoDevice
  else if writing then do
    aosCopy (c.disk + diskOffset.toNat) (c.data + req.ioOrOffset.toUInt32.toNat) nbytes
    return .ok
  else do
    aosCopy (c.data + req.ioOrOffset.toUInt32.toNat) (c.disk + diskOffset.toNat) nbytes
    return .ok

/-- The pump without a backend: the selected RAM image. -/
def serveRam (c : BlkVirtClient) (req : BlkReq) : BlkM BlkRespStatus :=
  if req.code == aosBlkReqRead then serveRw c req false
  else if req.code == aosBlkReqWrite then serveRw c req true
  else if req.code == aosBlkReqFlush || req.code == aosBlkReqBarrier then return .ok
  else return .errInvalidParam

/-- `success_count` of a request that reached a medium. -/
def successCount (req : BlkReq) (status : BlkRespStatus) : UInt16 :=
  if status == .ok && (req.code == aosBlkReqRead || req.code == aosBlkReqWrite) then
    req.count
  else
    0

/-- The policy bit is read from the client's storage-info page, for a write only. -/
def writeRefused (c : BlkVirtClient) (req : BlkReq) : BlkM Bool :=
  if req.code == aosBlkReqWrite then load (.info c.info .readOnly) else return false

section Pump

variable {γ : Type} (call : BackendFn -> γ -> BlkVirtClient -> BlkReq -> BlkM (BlkRespStatus × γ))

/-- The response to one request, and the backend context after it. -/
def serveRequest (v : AosBlkVirt) (c : BlkVirtClient) (req : BlkReq) (ctx : γ) :
    BlkM (BlkResp × γ) :=
  if requestValid c req then do
    let refused <- writeRefused c req
    if refused then
      return (⟨.errIo, 0, req.id⟩, ctx)
    else
      match v.backend with
      | some fn => do
        Prog.perform (I := BlkIo) (.backendCall req)
        let (status, ctx) <- call fn ctx c req
        return (⟨status, successCount req status, req.id⟩, ctx)
      | none => do
        let status <- serveRam c req
        return (⟨status, successCount req status, req.id⟩, ctx)
  else
    return (⟨.errInvalidParam, 0, req.id⟩, ctx)

/-- The bounded loop over one client's request ring. -/
def pumpLoop (v : AosBlkVirt) (c : BlkVirtClient) : Nat -> UInt32 -> γ -> BlkM (UInt32 × γ)
  | 0, completed, ctx => return (completed, ctx)
  | budget + 1, completed, ctx => do
    let empty <- reqEmpty c.req
    if empty then
      return (completed, ctx)
    else do
      let full <- respFull c.resp c.capacity
      if full then
        return (completed, ctx)
      else do
        let dequeued <- dequeueReq c.req c.capacity
        match dequeued with
        | none => return (completed, ctx)
        | some req => do
          let (resp, ctx) <- serveRequest call v c req ctx
          let posted <- enqueueResp c.resp c.capacity resp
          if posted then pumpLoop v c budget (completed + 1) ctx
          else return (completed, ctx)

def pumpClient (v : AosBlkVirt) (c : BlkVirtClient) (completed : UInt32) (ctx : γ) :
    BlkM (UInt32 × γ) :=
  if isNull c.info || isNull c.req || isNull c.resp || isNull c.data || c.capacity == 0 ||
      decide (c.capacity > aosBlkQueueCapacity) then
    return (completed, ctx)
  else do
    let respValid <- aosBlkQueueRespValid c.resp c.capacity
    if respValid then do
      let reqValid <- aosBlkQueueReqValid c.req c.capacity
      if reqValid then
        pumpLoop call v c c.capacity.toNat completed ctx
      else do
        resetReqQueue c.req
        return (completed, ctx)
    else do
      resetRespQueue c.resp
      return (completed, ctx)

def pumpClients (v : AosBlkVirt) : List BlkVirtClient -> UInt32 -> γ -> BlkM (UInt32 × γ)
  | [], completed, ctx => return (completed, ctx)
  | c :: rest, completed, ctx => do
    let (completed, ctx) <- pumpClient call v c completed ctx
    pumpClients v rest completed ctx

/-- The number of responses produced. -/
def aosBlkVirtPump (v : AosBlkVirt) (ctx : γ) : BlkM (UInt32 × γ) :=
  pumpClients call v v.clients 0 ctx

end Pump

end AgentOs.BlkVirt
