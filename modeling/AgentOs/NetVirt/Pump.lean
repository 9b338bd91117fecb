import AgentOs.NetVirt.Memory

/-!
# The hub pump

`net_virt_pump.c` and the client helpers of `net_virt_pump.h`.  Each volatile index
access is its own request.
-/

namespace AgentOs.NetVirt

open Library

/-! ## Ring operations -/

def aosNetQueueLength (q : NetPtr) : NetM UInt16 := do
  let tail <- load (.index .tail q)
  let head <- load (.index .head q)
  return tail - head

def aosNetQueueDequeue (q : NetPtr) (capacity : UInt32) : NetM (Option NetBuffDesc) :=
  if isNull q || capacity == 0 || decide (capacity > aosNetCapacity) then
    return none
  else do
    let tail <- load (.index .tail q)
    let head <- load (.index .head q)
    let length : UInt16 := tail - head
    if length == 0 || decide (length.toUInt32 > capacity) then
      return none
    else do
      aosNetFence
      let out <- load (.buffer q (UInt16.toUInt32 head % capacity).toNat)
      aosNetFence
      store (.index .head q) (head + 1)
      return some out

/-- The result says whether the descriptor was queued. -/
def aosNetQueueEnqueue (q : NetPtr) (capacity : UInt32) (buf : NetBuffDesc) : NetM Bool :=
  if isNull q || capacity == 0 || decide (capacity > aosNetCapacity) then
    return false
  else do
    let tail <- load (.index .tail q)
    let head <- load (.index .head q)
    let length : UInt16 := tail - head
    if length.toUInt32 >= capacity then
      return false
    else do
      store (.buffer q (UInt16.toUInt32 tail % capacity).toNat) buf
      aosNetFence
      store (.index .tail q) (tail + 1)
      return true

/-! ## Clients of the hub -/

def aosNetVirtReset : AosNetVirt := ⟨[]⟩

/-- The new hub, or nothing when the client is refused. -/
def aosNetVirtAddClient (v : AosNetVirt) (c : NetVirtClient) : Option AosNetVirt :=
  if decide (v.clients.length >= aosNetMaxClients) || isNull c.rxFree || isNull c.rxActive ||
      isNull c.txFree || isNull c.txActive || isNull c.rxData || isNull c.txData ||
      c.capacity == 0 || decide (c.capacity > aosNetCapacity) then
    none
  else
    some ⟨v.clients ++ [c]⟩

/-- Every entry with the client's TX ring goes, and the later ones move up. -/
def aosNetVirtRemoveClient (v : AosNetVirt) (c : NetVirtClient) : Option AosNetVirt :=
  if isNull c.txActive || decide (v.clients.length > aosNetMaxClients) then
    none
  else
    some ⟨v.clients.filter fun entry => entry.txActive != c.txActive⟩

def clientBase (region : NetPtr) (index : UInt32) : NetPtr :=
  region + index.toNat * aosNetClientStride

def aosNetClientBind (region : NetPtr) (index : UInt32) (out : NetVirtClient) : NetVirtClient :=
  if isNull region || decide (index.toNat >= aosNetMaxClients) then
    out
  else
    { rxFree := clientBase region index + aosNetRxFreeOff
      rxActive := clientBase region index + aosNetRxActiveOff
      txFree := clientBase region index + aosNetTxFreeOff
      txActive := clientBase region index + aosNetTxActiveOff
      rxData := clientBase region index + aosNetRxDataOff
      txData := clientBase region index + aosNetTxDataOff
      capacity := aosNetCapacity }

/-- Buffer `i` of each direction goes into slot `i` of its free ring. -/
def fillFreeRings (c : NetVirtClient) : List Nat -> NetM Unit
  | [] => return ()
  | i :: rest => do
    let buf : NetBuffDesc := ⟨UInt64.ofNat i * aosNetBufferSize.toUInt64, 0⟩
    store (.buffer c.rxFree i) buf
    store (.buffer c.txFree i) buf
    fillFreeRings c rest

/-- The four queue pages are cleared byte by byte in step; nothing reads them
meanwhile. -/
def aosNetClientInitBuffers (c : NetVirtClient) : NetM Unit :=
  if isNull c.rxFree || isNull c.txFree then
    return ()
  else do
    store (.queueZero c.rxFree) ()
    store (.queueZero c.rxActive) ()
    store (.queueZero c.txFree) ()
    store (.queueZero c.txActive) ()
    fillFreeRings c (List.range c.capacity.toNat)
    aosNetFence
    store (.index .tail c.rxFree) c.capacity.toUInt16
    store (.index .tail c.txFree) c.capacity.toUInt16
    aosNetFence

/-! ## Forwarding -/

/-- Both copy loops of the source move bytes in ascending order. -/
def copyBytes (dst src : NetPtr) : Nat -> NetM Unit
  | 0 => return ()
  | n + 1 => do
    let b <- load (.byte src)
    store (.byte dst) b
    copyBytes (dst + 1) (src + 1) n

def aosCopy (dst src : NetPtr) (n : UInt32) : NetM Unit := copyBytes dst src n.toNat

/-- Put one frame into the RX ring of a client; the result says whether it arrived. -/
def deliverOne (dst : NetVirtClient) (src : NetPtr) (len : UInt16) : NetM Bool := do
  let free <- aosNetQueueDequeue dst.rxFree dst.capacity
  match free with
  | none => return false
  | some rx =>
    if !aosNetBufferValid rx.ioOrOffset len.toUInt32 || len == 0 then
      return false
    else do
      aosCopy (dst.rxData + rx.ioOrOffset.toUInt32.toNat) src len.toUInt32
      let queued <- aosNetQueueEnqueue dst.rxActive dst.capacity { rx with len := len }
      if queued then
        return true
      else do
        let _ <- aosNetQueueEnqueue dst.rxFree dst.capacity { rx with len := 0 }
        return false

/-- Every client but the sender, in the order of the array. -/
def deliverOthers (srcI : Nat) (payload : NetPtr) (len : UInt16) :
    List NetVirtClient -> Nat -> Bool -> NetM Bool
  | [], _, delivered => return delivered
  | dst :: rest, dstI, delivered =>
    if dstI == srcI then
      deliverOthers srcI payload len rest (dstI + 1) delivered
    else do
      let arrived <- deliverOne dst payload len
      deliverOthers srcI payload len rest (dstI + 1) (delivered || arrived)

/-- One client: loopback.  Several: a hub. -/
def deliverFrame (v : AosNetVirt) (srcI : Nat) (src : NetVirtClient) (payload : NetPtr)
    (len : UInt16) : NetM Bool :=
  if v.clients.length == 1 then deliverOne src payload len
  else deliverOthers srcI payload len v.clients 0 false

/-- The bounded loop over the TX ring of one client. -/
def pumpFrames (v : AosNetVirt) (srcI : Nat) (src : NetVirtClient) : Nat -> UInt32 -> NetM UInt32
  | 0, forwarded => return forwarded
  | left + 1, forwarded => do
    attempt src.txActive
    let dequeued <- aosNetQueueDequeue src.txActive src.capacity
    match dequeued with
    | none => return forwarded
    | some tx =>
      if !aosNetBufferValid tx.ioOrOffset tx.len.toUInt32 || tx.len == 0 then
        pumpFrames v srcI src left forwarded
      else do
        let delivered <- deliverFrame v srcI src
          (src.txData + tx.ioOrOffset.toUInt32.toNat) tx.len
        let _ <- aosNetQueueEnqueue src.txFree src.capacity { tx with len := 0 }
        pumpFrames v srcI src left (if delivered then forwarded + 1 else forwarded)

def pumpSources (v : AosNetVirt) : List NetVirtClient -> Nat -> UInt32 -> NetM UInt32
  | [], _, forwarded => return forwarded
  | src :: rest, srcI, forwarded => do
    let forwarded <- pumpFrames v srcI src src.capacity.toNat forwarded
    pumpSources v rest (srcI + 1) forwarded

/-- The number of frames forwarded. -/
def aosNetVirtPump (v : AosNetVirt) : NetM UInt32 := pumpSources v v.clients 0 0

end AgentOs.NetVirt
