import AgentOs.BlkVirt.Host

/-!
# The service round

`bv_service` of `blk_virt.c`: up to four passes of draining every attached client
with kicks suppressed, asking for kicks again, and looking once more.
-/

namespace AgentOs.BlkVirt

open Library

/-- `g_clients`: slots past the array are never attached. -/
abbrev BvTable := Nat -> BvClient

/-- The order in which every loop of the source visits the client array. -/
def slots : List Nat := List.range aosBlkMaxClients

def bvNotifyVmm (c : BvClient) : BlkM Unit :=
  if c.vmmNotify != 0 then Prog.perform (I := BlkIo) (.signal c.vmmNotify) else return ()

/-- Whether one attached client has a malformed ring, or requests that can be
answered. -/
def clientNeedsScan (q : BlkVirtClient) : BlkM Bool := do
  let reqValid <- aosBlkQueueReqValid q.req q.capacity
  if reqValid then do
    let respValid <- aosBlkQueueRespValid q.resp q.capacity
    if respValid then do
      let pending <- aosBlkQueueReqLength q.req
      if pending != 0 then do
        let unread <- aosBlkQueueRespLength q.resp
        return decide (unread < q.capacity)
      else
        return false
    else
      return true
  else
    return true

def rescanFrom (g : BvTable) : List Nat -> BlkM Bool
  | [] => return false
  | i :: rest =>
    if (g i).attached then do
      let needed <- clientNeedsScan (g i).q
      if needed then return true else rescanFrom g rest
    else
      rescanFrom g rest

def bvRescanNeeded (g : BvTable) : BlkM Bool := rescanFrom g slots

/-- Write the suppression word of every attached client. -/
def setWords (g : BvTable) (value : UInt32) : List Nat -> BlkM Unit
  | [] => return ()
  | i :: rest =>
    if (g i).attached then do
      store (.signalWord (g i).q.signal) value
      setWords g value rest
    else
      setWords g value rest

/-- Account for the responses of one pump call and tell the VMM. -/
def reportPumped (c : BvClient) (n : UInt32) : BlkM BvClient :=
  if n > 0 then do
    bvNotifyVmm c
    return { c with responses := c.responses + n, pumpedMarked := true }
  else
    return c

def pumpAttached : List Nat -> BvTable -> BlkM BvTable
  | [], g => return g
  | i :: rest, g =>
    if (g i).attached then do
      let (n, c) <- aosBlkVirtPump callBackend (g i).virt (g i)
      let c <- reportPumped c n
      pumpAttached rest (Function.update g i c)
    else
      pumpAttached rest g

def bvServiceFrom : Nat -> BvTable -> BlkM BvTable
  | 0, g => return g
  | passesLeft + 1, g => do
    setWords g 1 slots
    bvFence
    let g <- pumpAttached slots g
    setWords g 0 slots
    bvFence
    Prog.perform (I := BlkIo) (.wordsCleared passesLeft fun i => (g i).attached)
    let needed <- bvRescanNeeded g
    if needed then bvServiceFrom passesLeft g else return g

def bvService (g : BvTable) : BlkM BvTable := bvServiceFrom 4 g

end AgentOs.BlkVirt
