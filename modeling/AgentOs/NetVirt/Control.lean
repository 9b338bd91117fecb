import AgentOs.NetVirt.Service

/-!
# Client lifecycle messages

ATTACH, DETACH and REBIND of `net_virt.c` and the body of its receive loop.  The
diagnostics are left out.
-/

open Function (update)

namespace AgentOs.NetVirt

open Library Ipc

@[simp]
def netVirtContractVersion : UInt32 := 6

@[simp]
def netVirtRebindVersion : UInt32 := 1

@[simp]
def netVirtOpAttach : UInt64 := 0x2201

@[simp]
def netVirtOpDetach : UInt64 := 0x2202

@[simp]
def netVirtOpRebind : UInt64 := 0x2203

@[simp]
def netVirtEventKick : UInt64 := 0x2210

@[simp]
def netVirtOk : UInt32 := 0

@[simp]
def netVirtErrVersion : UInt32 := 1

@[simp]
def netVirtErrBadClient : UInt32 := 2

@[simp]
def netVirtErrBusy : UInt32 := 3

@[simp]
def netVirtErrUnavailable : UInt32 := 4

@[simp]
def netVirtErrResource : UInt32 := 5

@[simp]
def netVirtHwNone : UInt32 := 0

@[simp]
def netVirtHwNetPd : UInt32 := 1

@[simp]
def attachReqBytes : UInt32 := 12

@[simp]
def attachReplyBytes : UInt32 := 20

@[simp]
def rebindReplyBytes : UInt32 := 24

/-- Which clients the image was built with. -/
structure NetBuild where
  native : Bool
  primary : Bool
  secondary : Bool

def vmmEpForSlot (build : NetBuild) (vmmSlot : UInt32) : UInt64 :=
  if build.native && vmmSlot == 2 then pdCnodeSlotNetNativeNotify
  else if build.primary && vmmSlot == 0 then 43
  else if build.secondary && vmmSlot == 1 then 44
  else 0

/-! ## ATTACH -/

/-- What a client learns about its backend. -/
structure Attachment where
  hwState : UInt32
  mac : Nat -> UInt8

def Attachment.none : Attachment := ⟨netVirtHwNone, fun _ => 0⟩

def attachStatus (build : NetBuild) (badge : UInt64) (req : Sel4Msg) (g : NvTable) : UInt32 :=
  let clientId := rd32 req.data 4
  let vmmSlot := rd32 req.data 8
  if rd32 req.data 0 != netVirtContractVersion || decide (req.length < 12) then
    netVirtErrVersion
  else if !virtNetAuthorized badge clientId vmmSlot ||
      decide (clientId.toNat >= aosNetQueueClients) || vmmEpForSlot build vmmSlot == 0 then
    netVirtErrBadClient
  else if (g clientId.toNat).attached || (g clientId.toNat).retired then
    netVirtErrBusy
  else
    netVirtOk

/-- The record before the driver is asked. -/
def bindSlot (clientId : UInt32) (vmmEp : UInt64) (c : NvClient) : NvClient :=
  { c with
    clientId := clientId
    vmmEp := vmmEp
    hw := false
    q := aosNetClientBind shmem clientId c.q }

def slotAccepted (slot : UInt32) : Bool :=
  decide (slot >= netSvcSlotBase) && decide (slot + netSvcSlotSize <= agentosNetSharedSize)

/-- Ask the driver whether its link is up. -/
def probeLink (c : NvClient) (mac : Nat -> UInt8) : NetM (NvClient × Attachment) := do
  let rep <- netPdCall netSvcOpRawStatus c.handle 0
  if netPdOk rep && rd32 rep.data 4 != 0 then
    return ({ c with hw := true }, ⟨netVirtHwNetPd, mac⟩)
  else
    return (c, ⟨netVirtHwNone, mac⟩)

/-- Open a driver session.  It is recorded even when its slot is refused. -/
def openRaw (c : NvClient) : NetM (NvClient × Attachment) := do
  let rep <- netPdCall netSvcOpRawOpen c.clientId 0
  if netPdOk rep && decide (rep.length >= 18) then
    let c := { c with handle := rd32 rep.data 4, rawOpen := true }
    if slotAccepted (rd32 rep.data 8) then
      probeLink { c with slotOff := rd32 rep.data 8 } fun i => rep.data (12 + i)
    else
      return (c, .none)
  else
    return (c, .none)

/-- Clients without hardware join the hub; the result of the call is ignored. -/
def joinHub (hub : AosNetVirt) (c : NvClient) : AosNetVirt :=
  if c.hw then hub else (aosNetVirtAddClient hub c.q).getD hub

def attachClient (clientId : UInt32) (vmmEp : UInt64) (c : NvClient) :
    NetM (NvClient × Attachment) := do
  let (c, attachment) <- openRaw (bindSlot clientId vmmEp c)
  store (.signalled c.q.txActive) (0 : UInt32)
  store (.signalled c.q.rxFree) (1 : UInt32)
  nvFence
  return ({ c with attached := true }, attachment)

/-- The six bytes of a MAC address at an offset. -/
def putMac (data : Payload) (off : Nat) (mac : Nat -> UInt8) : Payload :=
  fun i => if off <= i /\ i < off + 6 then mac (i - off) else data i

def attachReply (status : UInt32) (attachment : Attachment) (rep : Sel4Msg) : Sel4Msg where
  opcode := sel4ErrOk
  length := attachReplyBytes
  data :=
    putMac (wr32 (wr32 (wr32 rep.data 0 status) 4 netVirtContractVersion) 8 attachment.hwState)
      12 attachment.mac

def handleAttach (build : NetBuild) (badge : UInt64) (req : Sel4Msg) (rep : Sel4Msg)
    (s : NvState) : NetM (NvState × Sel4Msg) :=
  let clientId := rd32 req.data 4
  let status := attachStatus build badge req s.clients
  if status == netVirtOk then do
    let (c, attachment) <- attachClient clientId (vmmEpForSlot build (rd32 req.data 8))
      (s.clients clientId.toNat)
    return ({ s with
      clients := update s.clients clientId.toNat c
      hub := joinHub s.hub c }, attachReply status attachment rep)
  else
    return (s, attachReply status .none rep)

/-! ## DETACH -/

def retiredClient : NvClient := { NvClient.zero with retired := true }

/-- Whether the driver session of a client is closed, or was never there. -/
def closeRaw (c : NvClient) : NetM Bool :=
  if c.attached && c.rawOpen then do
    let rep <- netPdCall netSvcOpRawClose c.handle 0
    return netPdOk rep
  else
    return true

/-- The state after the driver session is gone. -/
def leaveHub (client : Nat) (s : NvState) : NvState × UInt32 :=
  let c := s.clients client
  if c.attached && !c.hw then
    match aosNetVirtRemoveClient s.hub c.q with
    | none =>
      ({ s with clients := update s.clients client { c with rawOpen := false } },
        netVirtErrUnavailable)
    | some hub =>
      ({ s with clients := update s.clients client retiredClient, hub := hub }, netVirtOk)
  else
    ({ s with clients := update s.clients client retiredClient }, netVirtOk)

def detachClient (client : Nat) (s : NvState) : NetM (NvState × UInt32) := do
  let closed <- closeRaw (s.clients client)
  if closed then
    return leaveHub client s
  else
    return (s, netVirtErrUnavailable)

def detachRequest (build : NetBuild) (badge : UInt64) (req : Sel4Msg) (s : NvState) :
    NetM (NvState × UInt32) :=
  let clientId := rd32 req.data 4
  let slot := rd32 req.data 8
  if req.length != attachReqBytes || rd32 req.data 0 != netVirtContractVersion then
    return (s, netVirtErrVersion)
  else if !virtNetAuthorized badge clientId slot ||
      decide (clientId.toNat >= aosNetQueueClients) || vmmEpForSlot build slot == 0 then
    return (s, netVirtErrBadClient)
  else
    detachClient clientId.toNat s

def handleDetach (build : NetBuild) (badge : UInt64) (req : Sel4Msg) (rep : Sel4Msg)
    (s : NvState) : NetM (NvState × Sel4Msg) := do
  let (s, status) <- detachRequest build badge req s
  return (s, shortReply status netVirtContractVersion attachReplyBytes rep)

/-! ## REBIND -/

def aosNetRebindQueueVa (client : UInt32) : Nat :=
  if client.toNat < aosNetGuestClients then
    aosNetShmemVa + client.toNat * aosNetClientStride
  else
    0

def aosNetRebindValidate (badge : UInt64) (req : RebindReq) (attached retired : Bool)
    (generation : UInt32) : UInt32 :=
  if req.version != netVirtRebindVersion then
    netVirtErrVersion
  else if !virtClientAuthorized badge req.client req.client then
    netVirtErrBadClient
  else if attached || !retired || generation == 0xFFFFFFFF || req.generation == 0 ||
      req.generation != generation + 1 then
    netVirtErrBusy
  else
    netVirtOk

/-- The ATTACH message that a REBIND sends to itself. -/
def rebindAttachMsg (client : UInt32) : Sel4Msg where
  opcode := 0
  length := attachReqBytes
  data := wr32 (wr32 (wr32 (fun _ => 0) 0 netVirtContractVersion) 4 client) 8 client

def replyAttachment (reply : Sel4Msg) : Attachment :=
  ⟨rd32 reply.data 8, fun i => reply.data (12 + i)⟩

/-- The result of a REBIND: the state, the status, and the new backend. -/
structure Rebound where
  state : NvState
  status : UInt32
  attachment : Attachment

/-- Attach the fresh queue: `retired` is cleared around the nested ATTACH. -/
def rebindAttach (build : NetBuild) (badge : UInt64) (req : RebindReq) (s : NvState) :
    NetM Rebound := do
  let client := req.client.toNat
  aosNetClientInitBuffers (aosNetClientBind shmem req.client .zero)
  let g := update s.clients client { s.clients client with retired := false }
  let (t, reply) <- handleAttach build badge (rebindAttachMsg req.client) emptyMsg
    { s with clients := g }
  if replyStatus reply == netVirtOk then
    return ⟨{ t with generation := update t.generation client req.generation },
      replyStatus reply, replyAttachment reply⟩
  else
    return ⟨{ t with clients := update t.clients client retiredClient }, replyStatus reply, .none⟩

def cnodeDelete (slot : Nat) : NetM Bool := Prog.perform (I := NetIo) (.cnodeDelete slot)

def untypedRetype (slot : Nat) : NetM Bool := Prog.perform (I := NetIo) (.untypedRetype slot)

def pageMap (slot va : Nat) : NetM Bool := Prog.perform (I := NetIo) (.pageMap slot va)

/-- Map the new frame and attach it. -/
def rebindMapped (build : NetBuild) (badge : UInt64) (req : RebindReq) (mapped : Bool)
    (s : NvState) : NetM Rebound :=
  if mapped then rebindAttach build badge req s else return ⟨s, netVirtErrResource, .none⟩

/-- Drop the new frame again when the rebind failed. -/
def dropFrame (frame : Nat) (status : UInt32) : NetM Unit :=
  if status != netVirtOk then do
    let _ <- cnodeDelete frame
    return ()
  else
    return ()

def rebindQueue (build : NetBuild) (badge : UInt64) (req : RebindReq) (s : NvState) :
    NetM Rebound :=
  if !virtClientAuthorized badge req.client req.client then
    return ⟨s, netVirtErrBadClient, .none⟩
  else
    let client := req.client.toNat
    let status := aosNetRebindValidate badge req (s.clients client).attached
      (s.clients client).retired (s.generation client)
    if status != netVirtOk then
      return ⟨s, status, .none⟩
    else if (s.clients client).rawOpen then
      return ⟨s, netVirtErrBusy, .none⟩
    else do
      let frame := aosQueueServiceFrameBase + client
      let deleted <- cnodeDelete frame
      if !deleted then
        return ⟨s, netVirtErrResource, .none⟩
      else do
        let retyped <- untypedRetype frame
        if !retyped then
          return ⟨s, netVirtErrResource, .none⟩
        else do
          let mapped <- pageMap frame (aosNetRebindQueueVa req.client)
          let rebound <- rebindMapped build badge req mapped s
          dropFrame frame rebound.status
          return rebound

/-! ## Receive loop -/

def rebindReply (status generation : UInt32) (attachment : Attachment) : Sel4Msg where
  opcode := sel4ErrOk
  length := rebindReplyBytes
  data :=
    putMac (wr32 (wr32 (wr32 (wr32 (fun _ => 0) 0 status) 4 netVirtRebindVersion) 8 generation)
      12 attachment.hwState) 16 attachment.mac

def isControl (label : UInt64) : Bool :=
  label == netVirtOpAttach || label == netVirtOpDetach || label == netVirtOpRebind

def handleRebind (build : NetBuild) (msg : Incoming) (req : Sel4Msg) (s : NvState) :
    NetM (NvState × Reply) :=
  match rebindRequest msg req with
  | none => return (s, ⟨rebindReply netVirtErrVersion 0 .none, none⟩)
  | some rebind => do
    let rebound <- rebindQueue build msg.badge rebind s
    return (rebound.state, ⟨rebindReply rebound.status rebind.generation rebound.attachment,
      if rebound.status == netVirtOk then some (aosQueueServiceFrameBase + rebind.client.toNat)
      else none⟩)

/-- ATTACH or DETACH, by label. -/
def handleQueueOp (build : NetBuild) (msg : Incoming) (req : Sel4Msg) (s : NvState) :
    NetM (NvState × Sel4Msg) :=
  if msg.label == netVirtOpAttach then handleAttach build msg.badge req emptyMsg s
  else handleDetach build msg.badge req emptyMsg s

/-- One lifecycle message: the state after it and its reply. -/
def netVirtControl (build : NetBuild) (msg : Incoming) (s : NvState) : NetM (NvState × Reply) :=
  let req := sel4MrsToMsg msg.mrs
  if msg.label == netVirtOpRebind then
    handleRebind build msg req s
  else if msgValid msg req && msg.extraCaps == 0 && req.length == attachReqBytes then do
    let (s, rep) <- handleQueueOp build msg req s
    return (s, ⟨rep, none⟩)
  else
    return (s,
      ⟨shortReply netVirtErrVersion netVirtContractVersion attachReplyBytes emptyMsg, none⟩)

/-- `NET_VIRT_NATIVE_WAKE_BADGE` and `NET_VIRT_GUEST_WAKE_MASK`. -/
def netVirtServiceNotification (badge : UInt64) : Bool :=
  badge != 0 && (badge &&& ~~~(0x40000000 ||| 3)) == 0

/-- The work a received message asks for.  A lifecycle message is not followed by a
service round. -/
def netVirtHandle (build : NetBuild) (msg : Incoming) (s : NvState) :
    NetM (NvState × Option Reply) :=
  if netVirtServiceNotification msg.badge then do
    let s <- nvService s
    return (s, none)
  else if isControl msg.label then do
    let (s, reply) <- netVirtControl build msg s
    return (s, some reply)
  else if msg.label == netVirtEventKick || msg.label == netSvcEventRxReady then do
    let s <- nvService s
    return (s, none)
  else
    return (s, none)

/-- One turn of the receive loop, from a received message to the next receive. -/
def netVirtRun (build : NetBuild) (msg : Incoming) (s : NvState) :
    NetM (NvState × Option Reply) := do
  let result <- netVirtHandle build msg s
  let _ <- cnodeDelete aosQueueServiceReceive
  return result

end AgentOs.NetVirt
