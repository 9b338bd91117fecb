import AgentOs.Framebuffer.Client
import AgentOs.Library.Program

/-!
# Rebinding a framebuffer client

After a terminal detach the owner of a client hands over thirteen pools, one by one; the service
maps a frame of each and attaches the client when all are there.  The kernel holds the frames,
the service a counter that shadows them.
-/

namespace AgentOs.Framebuffer

open Library Ipc

def fbRebindVersion : UInt32 := 1

def fbRebindStage : UInt32 := 1

def fbRebindCommit : UInt32 := 2

def fbRebindAbort : UInt32 := 3

def fbRebindFrames : UInt32 := 13

/-- `fb_rebind_req_t`. -/
structure FbRebindReq where
  version : UInt32
  client : UInt32
  generation : UInt32
  index : UInt32

/-- `aos_fb_rebind_t`: the shadow of a client's staged frames. -/
structure FbRebind where
  generation : UInt32 := 0
  nextFrame : UInt32 := 0

inductive FbRebindStatus where
  | ok
  | badRequest
  | denied
  | badState
  | resource
  deriving DecidableEq

/-- A request as the endpoint receives it. -/
structure RebindCall where
  badge : UInt64
  op : UInt32
  q : FbRebindReq

/-- The callers always pass the size of the request as its length. -/
def aosFbRebindValidate (c : FbClient) (s : FbRebind) (badge : UInt64) (op : UInt32)
    (q : FbRebindReq) : FbRebindStatus :=
  if q.version ≠ fbRebindVersion \/ op < fbRebindStage \/ fbRebindAbort < op then .badRequest
  else if aosFbClients <= q.client.toNat \/ virtClientAuthorized badge q.client q.client = false then
    .denied
  else if op = fbRebindAbort /\ q.index = 0 /\ q.generation ≠ 0 /\ c.retired = true /\
      c.region = 0 /\ s.nextFrame = 0 /\ s.generation = 0 /\ q.generation = c.generation then .ok
  else if c.region ≠ 0 \/ c.retired = false \/ c.generation = 0xffffffff \/ q.generation = 0 \/
      q.generation ≠ c.generation + 1 \/ (s.nextFrame ≠ 0 /\ s.generation ≠ q.generation) \/
      (s.nextFrame = 0 /\ s.generation ≠ 0) then .badState
  else if op = fbRebindStage then
    if q.index < fbRebindFrames /\ q.index = s.nextFrame then .ok else .badState
  else if q.index ≠ 0 then .badRequest
  else if op = fbRebindCommit then
    if s.nextFrame = fbRebindFrames then .ok else .badState
  else if s.nextFrame <= fbRebindFrames then .ok else .badState

def aosFbRebindStaged (c : FbClient) (s : FbRebind) (badge : UInt64) (q : FbRebindReq) :
    FbRebindStatus × FbRebind :=
  match aosFbRebindValidate c s badge fbRebindStage q with
  | .ok => (.ok, ⟨q.generation, s.nextFrame + 1⟩)
  | status => (status, s)

def aosFbRebindAborted (c : FbClient) (s : FbRebind) (badge : UInt64) (q : FbRebindReq) :
    FbRebindStatus × FbClient × FbRebind :=
  match aosFbRebindValidate c s badge fbRebindAbort q with
  | .ok => (.ok, { c with generation := q.generation }, {})
  | status => (status, c, s)

/-- What the handler asks of the kernel, and its reading of the new region. -/
inductive RebindOp where
  | cnodeDelete (slot : Nat)
  | untypedRetype (slot : Nat)
  | pageMap (slot : Nat) (address : UInt64)
  | loadRegion (region : UInt64)

/-- A kernel call answers whether it returned `seL4_NoError`. -/
@[reducible]
def RebindIo : Interface where
  Op := RebindOp
  Ans
    | .loadRegion _ => RegionWords
    | _ => Bool

abbrev RebindM := Prog RebindIo

def cnodeDelete (slot : Nat) : RebindM Bool := Prog.perform (I := RebindIo) (.cnodeDelete slot)

def aosFbRebindCommit (c : FbClient) (s : FbRebind) (badge : UInt64) (q : FbRebindReq)
    (region arena : UInt64) : RebindM (FbRebindStatus × FbClient × FbRebind) :=
  match aosFbRebindValidate c s badge fbRebindCommit q with
  | .ok => do
    let r <- Prog.perform (I := RebindIo) (.loadRegion region)
    match aosFbClientRebind c region arena aosFbArenaBytes q.generation r with
    | none => pure (.resource, c, s)
    | some fresh => pure (.ok, fresh, {})
  | status => pure (status, c, s)

/-- The service's own state: its clients and the static `pending`. -/
structure FbService where
  clients : Fin aosFbClients -> FbClient
  pending : Fin aosFbClients -> FbRebind

def FbService.put (v : FbService) (n : Fin aosFbClients) (c : FbClient) (s : FbRebind) :
    FbService :=
  ⟨Function.update v.clients n c, Function.update v.pending n s⟩

def frameSlot (client index : Nat) : Nat :=
  aosQueueServiceFrameBase + client * fbRebindFrames.toNat + index

def queueAddress (client : Nat) : UInt64 := 0x2c000000 + client.toUInt64 * 0x200000

def arenaAddress (client : Nat) : UInt64 := 0x30000000 + client.toUInt64 * aosFbArenaBytes

def frameAddress (client index : Nat) : UInt64 :=
  if index ≠ 0 then arenaAddress client + (index - 1).toUInt64 * 0x200000
  else queueAddress client

/-- The loop of an abort, over the frames still to delete. -/
def deleteFrames (client : Nat) : List Nat -> RebindM Bool
  | [] => pure true
  | index :: rest => do
    if <- cnodeDelete (frameSlot client index) then deleteFrames client rest else pure false

/-- The end of `execute`: one pool becomes a mapped frame. -/
def stageFrame (c : FbClient) (s : FbRebind) (badge : UInt64) (q : FbRebindReq) :
    RebindM (FbRebindStatus × FbRebind) := do
  let frame := frameSlot q.client.toNat q.index.toNat
  let address := frameAddress q.client.toNat q.index.toNat
  if <- cnodeDelete frame then
    if <- Prog.perform (I := RebindIo) (.untypedRetype frame) then
      let mapped <- Prog.perform (I := RebindIo) (.pageMap frame address)
      let (status, s') := if mapped then aosFbRebindStaged c s badge q else (.resource, s)
      if status ≠ .ok then
        let _ <- cnodeDelete frame
        pure (status, s')
      else
        pure (status, s')
    else
      pure (.resource, s)
  else
    pure (.resource, s)

/-- `execute` once the request is found valid for client `n`. -/
def executeValid (v : FbService) (n : Fin aosFbClients) (call : RebindCall) :
    RebindM (FbRebindStatus × FbService) :=
  let c := v.clients n
  let s := v.pending n
  if call.op = fbRebindCommit then do
    let (status, c', s') <-
      aosFbRebindCommit c s call.badge call.q (queueAddress n) (arenaAddress n)
    pure (status, v.put n c' s')
  else if call.op = fbRebindAbort then do
    if <- deleteFrames n (List.range s.nextFrame.toNat) then
      let (status, c', s') := aosFbRebindAborted c s call.badge call.q
      pure (status, v.put n c' s')
    else
      pure (.resource, v)
  else do
    let (status, s') <- stageFrame c s call.badge call.q
    pure (status, v.put n c s')

def execute (v : FbService) (call : RebindCall) : RebindM (FbRebindStatus × FbService) :=
  if h : call.q.client.toNat < aosFbClients then
    let n : Fin aosFbClients := ⟨call.q.client.toNat, h⟩
    let status := aosFbRebindValidate (v.clients n) (v.pending n) call.badge call.op call.q
    if status ≠ .ok then pure (status, v) else executeValid v n call
  else
    pure (.denied, v)

end AgentOs.Framebuffer
