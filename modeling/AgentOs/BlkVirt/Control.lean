import AgentOs.BlkVirt.Service

/-!
# Client lifecycle messages

ATTACH, DETACH and REBIND of `blk_virt.c` and the body of its receive loop.  The
diagnostics are left out.
-/

open Function (update)

namespace AgentOs.BlkVirt

open Library Ipc

@[simp]
def blkVirtContractVersion : UInt32 := 5

@[simp]
def blkVirtRebindVersion : UInt32 := 2

@[simp]
def blkVirtOpAttach : UInt64 := 0x2C01

@[simp]
def blkVirtOpDetach : UInt64 := 0x2C02

@[simp]
def blkVirtOpRebind : UInt64 := 0x2C03

@[simp]
def blkVirtEventKick : UInt64 := 0x2C10

@[simp]
def blkVirtOk : UInt32 := 0

@[simp]
def blkVirtErrVersion : UInt32 := 1

@[simp]
def blkVirtErrBadClient : UInt32 := 2

@[simp]
def blkVirtErrBusy : UInt32 := 3

@[simp]
def blkVirtErrResource : UInt32 := 5

@[simp]
def blkVirtHwNone : UInt32 := 0

@[simp]
def blkVirtHwVirtioBlk : UInt32 := 1

@[simp]
def attachReqBytes : UInt32 := 16

@[simp]
def attachReplyBytes : UInt32 := 24

@[simp]
def rebindReplyBytes : UInt32 := 16

@[simp]
def aosBlkShmemVa : Nat := 0x28000000

/-- The shared block region as the virtualizer sees it. -/
def shmem : BlkPtr := ⟨.shmem, 0⟩

def gRamDisk (clientId : UInt32) : BlkPtr :=
  (⟨.gRamDisk, 0⟩ : BlkPtr) + clientId.toNat * aosBlkDiskBytes

/-- Which guests the image was built with. -/
structure Build where
  primary : Bool
  secondary : Bool

/-- `g_clients` and `g_generation`. -/
structure BvState where
  clients : BvTable
  generation : Nat -> UInt32

def BvState.zero : BvState := ⟨fun _ => .zero, fun _ => 0⟩

def vmmNotifyForSlot (build : Build) (vmmSlot : UInt32) : UInt64 :=
  if build.primary && vmmSlot == 0 then 27
  else if build.secondary && vmmSlot == 1 then 28
  else 0

/-! ## ATTACH -/

def attachStatus (build : Build) (badge : UInt64) (req : Sel4Msg) (g : BvTable) : UInt32 :=
  let clientId := rd32 req.data 4
  let vmmSlot := rd32 req.data 8
  let mediaId := rd32 req.data 12
  if rd32 req.data 0 != blkVirtContractVersion || decide (req.length < 16) then
    blkVirtErrVersion
  else if !virtMediaAuthorized badge clientId vmmSlot mediaId ||
      decide (clientId.toNat >= aosBlkMaxClients) ||
      decide (mediaId >= aosHostBlkMediaCount) || vmmNotifyForSlot build vmmSlot == 0 then
    blkVirtErrBadClient
  else if (g clientId.toNat).attached || (g clientId.toNat).retired then
    blkVirtErrBusy
  else
    blkVirtOk

/-- Host capacity in transfer units. -/
def hostBlocks (sectors : UInt64) : UInt64 :=
  let blocks := sectors / (aosBlkTransferSize / aosHostBlkSectorSize).toUInt64
  if blocks > 0xFFFFFFFF then 0xFFFFFFFF else blocks

/-- Bind to the probed host medium. -/
def attachHost (c : BvClient) (host : HostInfo) : BlkM (BvClient × UInt64) := do
  let blocks := hostBlocks host.capacity
  aosBlkStorageInit c.q.info blocks.toUInt32
  store (.info c.q.info .readOnly) host.readOnly
  store (.info c.q.info .sectorSize) aosHostBlkSectorSize.toUInt16
  store (.info c.q.info .blockSize) (0 : UInt16)
  return ({ c with
    q := aosBlkClientSetMedia c.q blocks.toUInt32
    virt := aosBlkVirtSetBackend c.virt .hostBlkBackend
    hw := true }, blocks)

/-- Bind to the client's RAM disk. -/
def attachRam (c : BvClient) (clientId : UInt32) : BlkM (BvClient × UInt64) := do
  aosBlkStorageInit c.q.info aosBlkDiskBlocks
  return ({ c with q := aosBlkClientSetRamDisk c.q (gRamDisk clientId) aosBlkDiskBlocks },
    aosBlkDiskBlocks.toUInt64)

/-- The record before its medium is known. -/
def bindSlot (clientId mediaId : UInt32) (vmmNotify : UInt64) (c : BvClient) : BvClient :=
  { c with
    clientId := clientId
    mediaId := mediaId
    vmmNotify := vmmNotify
    hw := false
    q := aosBlkClientBind shmem clientId c.q
    virt := aosBlkVirtReset }

/-- Hand the bound queues to the pump and mark the client attached. -/
def finishAttach (c : BvClient) : BvClient :=
  { c with virt := aosBlkVirtAddClient c.virt c.q, attached := true }

/-- Serve the host medium when the driver has one, and the RAM disk otherwise. -/
def selectMedium (c : BvClient) (clientId rc : UInt32) (host : HostInfo) :
    BlkM (BvClient × UInt64) :=
  if rc == aosHostBlkOk &&
      decide (host.capacity >= (aosBlkTransferSize / aosHostBlkSectorSize).toUInt64) then
    attachHost c host
  else
    attachRam c clientId

/-- The record of an accepted client and the capacity it was given. -/
def attachClient (clientId mediaId : UInt32) (vmmNotify : UInt64) (c : BvClient) :
    BlkM (BvClient × UInt64) := do
  let c := bindSlot clientId mediaId vmmNotify c
  let (rc, host) <- hostBlkCall mediaId aosHostBlkOpInfo 0 0 ⟨0, true⟩
  let (c, capacity) <- selectMedium c clientId rc host
  store (.signalWord c.q.signal) (0 : UInt32)
  bvFence
  return (finishAttach c, capacity)

def attachReply (status hwState : UInt32) (capacity : UInt64) (rep : Sel4Msg) : Sel4Msg where
  opcode := sel4ErrOk
  length := attachReplyBytes
  data :=
    wr32 (wr32 (wr32 (wr32 (wr32 (wr32 rep.data 0 status) 4 blkVirtContractVersion) 8 hwState)
      12 0) 16 capacity.toUInt32) 20 (capacity >>> 32).toUInt32

def handleAttach (build : Build) (badge : UInt64) (req : Sel4Msg) (rep : Sel4Msg)
    (g : BvTable) : BlkM (BvTable × Sel4Msg) :=
  let clientId := rd32 req.data 4
  let status := attachStatus build badge req g
  if status == blkVirtOk then do
    let (c, capacity) <- attachClient clientId (rd32 req.data 12)
      (vmmNotifyForSlot build (rd32 req.data 8)) (g clientId.toNat)
    let hwState := if c.hw then blkVirtHwVirtioBlk else blkVirtHwNone
    return (update g clientId.toNat c, attachReply status hwState capacity rep)
  else
    return (g, attachReply status blkVirtHwNone 0 rep)

/-! ## DETACH -/

def retiredClient : BvClient := { BvClient.zero with retired := true }

/-- The status of a DETACH, and the table after it. -/
def detachClient (client : Nat) (g : BvTable) : BlkM (BvTable × UInt32) :=
  if (g client).attached then do
    let detached <- aosBlkVirtDetach (g client).virt
    match detached with
    | none => return (g, blkVirtErrBusy)
    | some _ => return (update g client retiredClient, blkVirtOk)
  else
    return (update g client retiredClient, blkVirtOk)

def detachRequest (build : Build) (badge : UInt64) (req : Sel4Msg) (g : BvTable) :
    BlkM (BvTable × UInt32) :=
  let client := rd32 req.data 4
  let slot := rd32 req.data 8
  let media := rd32 req.data 12
  if req.length != attachReqBytes || rd32 req.data 0 != blkVirtContractVersion then
    return (g, blkVirtErrVersion)
  else if !virtMediaAuthorized badge client slot media ||
      decide (client.toNat >= aosBlkMaxClients) ||
      decide (media >= aosHostBlkMediaCount) || vmmNotifyForSlot build slot == 0 then
    return (g, blkVirtErrBadClient)
  else
    detachClient client.toNat g

def handleDetach (build : Build) (badge : UInt64) (req : Sel4Msg) (rep : Sel4Msg)
    (g : BvTable) : BlkM (BvTable × Sel4Msg) := do
  let (g, status) <- detachRequest build badge req g
  return (g, shortReply status blkVirtContractVersion attachReplyBytes rep)

/-! ## REBIND -/

def aosBlkRebindQueueVa (client : UInt32) : Nat :=
  if client.toNat < aosBlkMaxClients then
    aosBlkShmemVa + aosBlkClientBase + client.toNat * aosBlkClientStride
  else
    0

def aosBlkRebindValidate (badge : UInt64) (req : RebindReq) (attached retired : Bool)
    (generation : UInt32) : UInt32 :=
  if req.version != blkVirtRebindVersion then
    blkVirtErrVersion
  else if !virtMediaAuthorized badge req.client req.client req.client then
    blkVirtErrBadClient
  else if attached || !retired || generation == 0xFFFFFFFF || req.generation == 0 ||
      req.generation != generation + 1 then
    blkVirtErrBusy
  else
    blkVirtOk

/-- The ATTACH message that a REBIND sends to itself. -/
def rebindAttachMsg (client : UInt32) : Sel4Msg where
  opcode := 0
  length := attachReqBytes
  data :=
    wr32 (wr32 (wr32 (wr32 (fun _ => 0) 0 blkVirtContractVersion) 4 client) 8 client) 12 client

/-- Attach the fresh queue: `retired` is cleared around the nested ATTACH. -/
def rebindAttach (build : Build) (badge : UInt64) (req : RebindReq) (s : BvState) :
    BlkM (BvState × UInt32) := do
  let client := req.client.toNat
  aosBlkClientInitQueues (aosBlkClientBind shmem req.client .zero)
  let g := update s.clients client { s.clients client with retired := false }
  let (g, reply) <- handleAttach build badge (rebindAttachMsg req.client) emptyMsg g
  let status := replyStatus reply
  if status == blkVirtOk then
    return (⟨g, update s.generation client req.generation⟩, status)
  else
    return ({ s with clients := update g client retiredClient }, status)

def cnodeDelete (slot : Nat) : BlkM Bool := Prog.perform (I := BlkIo) (.cnodeDelete slot)

def untypedRetype (slot : Nat) : BlkM Bool := Prog.perform (I := BlkIo) (.untypedRetype slot)

def pageMap (slot va : Nat) : BlkM Bool := Prog.perform (I := BlkIo) (.pageMap slot va)

/-- Map the new frame and attach it. -/
def rebindMapped (build : Build) (badge : UInt64) (req : RebindReq) (mapped : Bool)
    (s : BvState) : BlkM (BvState × UInt32) :=
  if mapped then rebindAttach build badge req s else return (s, blkVirtErrResource)

/-- Drop the new frame again when the rebind failed. -/
def dropFrame (frame : Nat) (status : UInt32) : BlkM Unit :=
  if status != blkVirtOk then do
    let _ <- cnodeDelete frame
    return ()
  else
    return ()

def rebindQueue (build : Build) (badge : UInt64) (req : RebindReq) (s : BvState) :
    BlkM (BvState × UInt32) :=
  if !virtMediaAuthorized badge req.client req.client req.client then
    return (s, blkVirtErrBadClient)
  else
    let client := req.client.toNat
    let status := aosBlkRebindValidate badge req (s.clients client).attached
      (s.clients client).retired (s.generation client)
    if status != blkVirtOk then
      return (s, status)
    else do
      let frame := aosQueueServiceFrameBase + client
      let deleted <- cnodeDelete frame
      if !deleted then
        return (s, blkVirtErrResource)
      else do
        let retyped <- untypedRetype frame
        if !retyped then
          return (s, blkVirtErrResource)
        else do
          let mapped <- pageMap frame (aosBlkRebindQueueVa req.client)
          let (s, status) <- rebindMapped build badge req mapped s
          dropFrame frame status
          return (s, status)

/-! ## Receive loop -/

def rebindReply (status generation hwState : UInt32) : Sel4Msg where
  opcode := sel4ErrOk
  length := rebindReplyBytes
  data :=
    wr32 (wr32 (wr32 (wr32 (fun _ => 0) 0 status) 4 blkVirtRebindVersion) 8 generation)
      12 hwState

def isControl (label : UInt64) : Bool :=
  label == blkVirtOpAttach || label == blkVirtOpDetach || label == blkVirtOpRebind

def handleRebind (build : Build) (msg : Incoming) (req : Sel4Msg) (s : BvState) :
    BlkM (BvState × Reply) :=
  match rebindRequest msg req with
  | none => return (s, ⟨rebindReply blkVirtErrVersion 0 blkVirtHwNone, none⟩)
  | some rebind => do
    let (s, status) <- rebindQueue build msg.badge rebind s
    let rebound := status == blkVirtOk
    let hwState :=
      if rebound && (s.clients rebind.client.toNat).hw then blkVirtHwVirtioBlk
      else blkVirtHwNone
    return (s, ⟨rebindReply status rebind.generation hwState,
      if rebound then some (aosQueueServiceFrameBase + rebind.client.toNat) else none⟩)

/-- ATTACH or DETACH, by label. -/
def handleQueueOp (build : Build) (msg : Incoming) (req : Sel4Msg) (g : BvTable) :
    BlkM (BvTable × Sel4Msg) :=
  if msg.label == blkVirtOpAttach then handleAttach build msg.badge req emptyMsg g
  else handleDetach build msg.badge req emptyMsg g

/-- One lifecycle message: the state after it and its reply. -/
def blkVirtControl (build : Build) (msg : Incoming) (s : BvState) : BlkM (BvState × Reply) :=
  let req := sel4MrsToMsg msg.mrs
  if msg.label == blkVirtOpRebind then
    handleRebind build msg req s
  else if msgValid msg req && msg.extraCaps == 0 && req.length == attachReqBytes then do
    let (g, rep) <- handleQueueOp build msg req s.clients
    return ({ s with clients := g }, ⟨rep, none⟩)
  else
    return (s,
      ⟨shortReply blkVirtErrVersion blkVirtContractVersion attachReplyBytes emptyMsg, none⟩)

def blkVirtServiceNotification (badge : UInt64) : Bool := badge != 0 && (badge &&& ~~~3) == 0

def serviceState (s : BvState) : BlkM BvState := do
  let g <- bvService s.clients
  return { s with clients := g }

/-- The work a received message asks for. -/
def blkVirtHandle (build : Build) (msg : Incoming) (s : BvState) : BlkM (BvState × Option Reply) :=
  if blkVirtServiceNotification msg.badge then do
    let s <- serviceState s
    return (s, none)
  else if isControl msg.label then do
    let (s, reply) <- blkVirtControl build msg s
    let s <- serviceState s
    return (s, some reply)
  else if msg.label == blkVirtEventKick then do
    let s <- serviceState s
    return (s, none)
  else
    return (s, none)

/-- One turn of the receive loop, from a received message to the next receive. -/
def blkVirtRun (build : Build) (msg : Incoming) (s : BvState) : BlkM (BvState × Option Reply) := do
  let result <- blkVirtHandle build msg s
  let _ <- cnodeDelete aosQueueServiceReceive
  return result

end AgentOs.BlkVirt
