import AgentOs.NetVirt.Pump

/-!
# The service round

`nv_service` of `net_virt.c`: up to four passes.  Each drains the TX rings towards the driver or
the hub and the driver towards the RX rings, with TX kicks suppressed, and then looks once more.
-/

namespace AgentOs.NetVirt

open Library Ipc

/-- `g_clients`, `g_generation`, `g_hub` and `g_hub_marked`. -/
structure NvState where
  clients : NvTable
  generation : Nat -> UInt32
  hub : AosNetVirt
  hubMarked : Bool

def NvState.zero : NvState := ⟨fun _ => .zero, fun _ => 0, aosNetVirtReset, false⟩

/-- The order in which every loop of the source visits the client array. -/
def slots : List Nat := List.range aosNetQueueClients

@[simp]
def pdCnodeSlotNetNativeNotify : UInt64 := 23

def nvFence : NetM Unit := Prog.perform (I := NetIo) .fence

def nvCopy (dst src : NetPtr) (n : UInt32) : NetM Unit := copyBytes dst src n.toNat

/-! ## Driver calls -/

def netPdCall (opcode arg0 arg1 : UInt32) : NetM Sel4Msg :=
  Prog.perform (I := NetIo) (.netCall opcode arg0 arg1)

/-- The result of `net_pd_call`. -/
def netPdOk (rep : Sel4Msg) : Bool :=
  decide (rep.length >= 4) && rep.opcode == sel4ErrOk && rd32 rep.data 0 == netSvcRawOk

/-! ## TX: guest to driver -/

def nvTxDst (c : NvClient) : NetPtr := shmem + c.slotOff.toNat + netSvcTxOffset

/-- Stage one frame in the driver's slot and send it. -/
def nvSendFrame (c : NvClient) (buf : NetBuffDesc) : NetM (Bool × NvClient) := do
  nvCopy (nvTxDst c) (c.q.txData + buf.ioOrOffset.toUInt32.toNat) buf.len.toUInt32
  nvFence
  let rep <- netPdCall netSvcOpRawSend c.handle buf.len.toUInt32
  if netPdOk rep then
    return (true, { c with txTotal := c.txTotal + 1, txMarked := true })
  else
    return (false, c)

def nvTxLoop : Nat -> UInt32 -> NvClient -> NetM (UInt32 × NvClient)
  | 0, sent, c => return (sent, c)
  | left + 1, sent, c => do
    attempt c.q.txActive
    let dequeued <- aosNetQueueDequeue c.q.txActive c.q.capacity
    match dequeued with
    | none => return (sent, c)
    | some buf =>
      if !aosNetBufferValid buf.ioOrOffset buf.len.toUInt32 || buf.len == 0 ||
          decide (buf.len.toUInt32 > netSvcMaxFrameBytes) then
        nvTxLoop left sent c
      else do
        let (accepted, c) <- nvSendFrame c buf
        let _ <- aosNetQueueEnqueue c.q.txFree c.q.capacity { buf with len := 0 }
        nvTxLoop left (if accepted then sent + 1 else sent) c

def nvTxToNetPd (c : NvClient) : NetM (UInt32 × NvClient) := nvTxLoop c.q.capacity.toNat 0 c

/-! ## RX: driver to guest -/

/-- The bounds an RX reply must meet. -/
def nvRxRejected (buf : NetBuffDesc) (len off : UInt32) : Bool :=
  decide (len > netSvcMaxFrameBytes) || decide (len > aosNetBufferSize) ||
    decide (off < netSvcSlotBase) || decide (off > agentosNetSharedSize) ||
    decide (len > agentosNetSharedSize - off) || !aosNetBufferValid buf.ioOrOffset len

def nvRecycleRx (c : NvClient) (buf : NetBuffDesc) : NetM Unit := do
  let _ <- aosNetQueueEnqueue c.q.rxFree c.q.capacity buf
  return ()

/-- Copy a frame out of the driver's slot and publish it. -/
def nvPublishRx (c : NvClient) (buf : NetBuffDesc) (len off : UInt32) : NetM (Bool × NvClient) := do
  nvFence
  nvCopy (c.q.rxData + buf.ioOrOffset.toUInt32.toNat) (shmem + off.toNat) len
  let queued <- aosNetQueueEnqueue c.q.rxActive c.q.capacity { buf with len := len.toUInt16 }
  if queued then
    return (true, { c with rxTotal := c.rxTotal + 1, rxMarked := true })
  else do
    nvRecycleRx c { buf with len := 0 }
    return (false, c)

/-- Receive one frame into a reserved buffer; the result says whether the loop goes
on. -/
def nvReceiveInto (c : NvClient) (buf : NetBuffDesc) : NetM (Bool × NvClient) := do
  let rep <- netPdCall netSvcOpRawRecv c.handle netSvcMaxFrameBytes
  if !netPdOk rep || decide (rep.length < 12) then do
    nvRecycleRx c buf
    return (false, { c with rxPending := false })
  else if rd32 rep.data 4 == 0 then do
    nvRecycleRx c buf
    return (false, { c with rxPending := false })
  else if nvRxRejected buf (rd32 rep.data 4) (rd32 rep.data 8) then do
    nvRecycleRx c buf
    return (false, c)
  else
    nvPublishRx c buf (rd32 rep.data 4) (rd32 rep.data 8)

def nvRxLoop : Nat -> UInt32 -> NvClient -> NetM (UInt32 × NvClient)
  | 0, received, c => return (received, c)
  | left + 1, received, c => do
    attempt c.q.rxFree
    let dequeued <- aosNetQueueDequeue c.q.rxFree c.q.capacity
    match dequeued with
    | none => do
      store (.signalled c.q.rxFree) (0 : UInt32)
      nvFence
      return (received, c)
    | some buf =>
      if !aosNetBufferValid buf.ioOrOffset 0 then
        nvRxLoop left received c
      else do
        let (arrived, c) <- nvReceiveInto c buf
        if arrived then nvRxLoop left (received + 1) c else return (received, c)

def nvRxFromNetPd (c : NvClient) : NetM (UInt32 × NvClient) := do
  store (.signalled c.q.rxFree) (1 : UInt32)
  nvFence
  nvRxLoop aosNetCapacity.toNat 0 c

/-! ## One pass -/

def nvNotifyVmm (c : NvClient) : NetM Unit :=
  if c.clientId == aosNetNativeClient then
    Prog.perform (I := NetIo) (.signal pdCnodeSlotNetNativeNotify)
  else if c.vmmEp != 0 then
    Prog.perform (I := NetIo) (.signal c.vmmEp)
  else
    return ()

/-- Whether one attached client has TX work, or RX work and a buffer for it. -/
def clientNeedsRescan (c : NvClient) : NetM Bool := do
  let pending <- aosNetQueueLength c.q.txActive
  if pending != 0 then
    return true
  else if c.hw && c.rxPending then do
    let free <- aosNetQueueLength c.q.rxFree
    return free != 0
  else
    return false

def rescanFrom (g : NvTable) : List Nat -> NetM Bool
  | [] => return false
  | i :: rest =>
    if (g i).attached then do
      let needed <- clientNeedsRescan (g i)
      if needed then return true else rescanFrom g rest
    else
      rescanFrom g rest

def nvRescanNeeded (g : NvTable) : NetM Bool := rescanFrom g slots

/-- Write the TX suppression word of every attached client. -/
def setTxWords (g : NvTable) (value : UInt32) : List Nat -> NetM Unit
  | [] => return ()
  | i :: rest =>
    if (g i).attached then do
      store (.signalled (g i).q.txActive) value
      setTxWords g value rest
    else
      setTxWords g value rest

/-- The locals of a pass next to the client array. -/
structure PassState where
  clients : NvTable
  deliver : Nat -> UInt32
  anyHub : Bool

/-- A hardware client always probes the driver once: an event that came while the
virtualizer was busy is dropped. -/
def serviceHw (i : Nat) (p : PassState) : NetM PassState := do
  let (_, c) <- nvTxToNetPd (p.clients i)
  let (received, c) <- nvRxFromNetPd { c with rxPending := true }
  return { p with
    clients := Function.update p.clients i c
    deliver := Function.update p.deliver i received }

def serviceClients : List Nat -> PassState -> NetM PassState
  | [], p => return p
  | i :: rest, p =>
    if (p.clients i).attached then
      if (p.clients i).hw then do
        let p <- serviceHw i p
        serviceClients rest p
      else
        serviceClients rest { p with anyHub := true }
    else
      serviceClients rest p

/-- Hub clients with frames to read are told. -/
def markDelivered (g : NvTable) : List Nat -> (Nat -> UInt32) -> NetM (Nat -> UInt32)
  | [], deliver => return deliver
  | i :: rest, deliver =>
    if (g i).attached && !(g i).hw then do
      let unread <- aosNetQueueLength (g i).q.rxActive
      markDelivered g rest (if unread != 0 then Function.update deliver i 1 else deliver)
    else
      markDelivered g rest deliver

def pumpHub (s : NvState) (p : PassState) : NetM (NvState × (Nat -> UInt32)) :=
  if p.anyHub then do
    let moved <- aosNetVirtPump s.hub
    let deliver <- markDelivered p.clients slots p.deliver
    return ({ s with clients := p.clients, hubMarked := s.hubMarked || decide (moved > 0) },
      deliver)
  else
    return ({ s with clients := p.clients }, p.deliver)

def notifyDelivered (g : NvTable) (deliver : Nat -> UInt32) : List Nat -> NetM Unit
  | [] => return ()
  | i :: rest =>
    if deliver i != 0 then do
      nvNotifyVmm (g i)
      notifyDelivered g deliver rest
    else
      notifyDelivered g deliver rest

/-- A pass up to the point where it asks for kicks again. -/
def nvPass (s : NvState) : NetM NvState := do
  setTxWords s.clients 1 slots
  nvFence
  let p <- serviceClients slots ⟨s.clients, fun _ => 0, false⟩
  let (s, deliver) <- pumpHub s p
  notifyDelivered s.clients deliver slots
  return s

def nvServiceFrom : Nat -> NvState -> NetM NvState
  | 0, s => return s
  | passesLeft + 1, s => do
    let s <- nvPass s
    setTxWords s.clients 0 slots
    nvFence
    Prog.perform (I := NetIo) (.wordsCleared passesLeft s.clients)
    let needed <- nvRescanNeeded s.clients
    if needed then nvServiceFrom passesLeft s else return s

def nvService (s : NvState) : NetM NvState := nvServiceFrom 4 s

end AgentOs.NetVirt
