import Mathlib.Data.Fintype.Basic
import AgentOs.Ipc.Message

/-!
# The input virtualizer

`service.c` and `rebind_service.c`: batches of input events from the console go to the event
queue of one client's device, a release request releases what is held there, and a client that
detaches is not served until a new generation is bound.  One pass of the pump is one step; the
VMMs write the client pages as well.
-/

open Function (update)

namespace AgentOs.InputVirt

open Ipc

/-! ## State -/

@[simp]
def aosInputVersion : UInt32 := 1

@[simp]
def aosInputReleaseVersion : UInt32 := 2

def aosInputClients : Nat := 2

def aosInputDevices : Nat := 2

@[simp]
def aosInputBatchEvents : UInt32 := 64

@[simp]
def aosInputEventCapacity : UInt32 := 256

@[simp]
def aosInputRequestCapacity : UInt32 := 16

abbrev ClientId := Fin aosInputClients

abbrev DeviceId := Fin aosInputDevices

/-- `AOS_INPUT_KEYBOARD`; the other device is the pointer. -/
def keyboard : DeviceId := ⟨0, by decide⟩

/-- `enum aos_input_status`. -/
inductive InputStatus where
  | ok | badRequest | denied | wouldBlock
  deriving DecidableEq

structure InputEvent where
  type : UInt16
  code : UInt16
  value : Int32

structure EventQueue where
  head : UInt32
  tail : UInt32
  events : Nat -> InputEvent

structure Detach where
  version : UInt32
  request : UInt32
  ack : UInt32

/-- `aos_input_client_region_t`. -/
structure ClientRegion where
  devices : DeviceId -> EventQueue
  detach : Detach

structure InputRequest where
  version : UInt32
  id : UInt32
  client : UInt32
  device : UInt32
  count : UInt32
  reserved0 : UInt32
  reserved1 : UInt32
  reserved2 : UInt32
  events : Nat -> InputEvent

structure InputResponse where
  version : UInt32
  id : UInt32
  status : InputStatus
  accepted : UInt32

/-- `aos_input_frontend_t`. -/
structure Frontend where
  reqHead : UInt32
  reqTail : UInt32
  respHead : UInt32
  respTail : UInt32
  requests : Nat -> InputRequest
  responses : Nat -> InputResponse

/-- `aos_input_service_t`: the masks are sets of clients and devices, `held` is the set of
keys and buttons that are down, and `attached` says which pointers to client pages are set. -/
structure InputService where
  allowed : ClientId -> Bool
  retired : ClientId -> Bool
  attached : ClientId -> Bool
  held : ClientId -> DeviceId -> Nat -> Bool
  releasing : ClientId -> DeviceId -> Bool
  generation : ClientId -> UInt32

/-- The virtualizer and its shared pages. -/
structure VirtState where
  service : InputService
  frontend : Frontend
  regions : ClientId -> ClientRegion

def emptyEvent : InputEvent := ⟨0, 0, 0⟩

def emptyQueue : EventQueue := ⟨0, 0, fun _ => emptyEvent⟩

def emptyRegion : ClientRegion := ⟨fun _ => emptyQueue, ⟨0, 0, 0⟩⟩

def emptyRequest : InputRequest := ⟨0, 0, 0, 0, 0, 0, 0, 0, fun _ => emptyEvent⟩

def emptyFrontend : Frontend := ⟨0, 0, 0, 0, fun _ => emptyRequest, fun _ => ⟨0, 0, .ok, 0⟩⟩

/-- `aos_input_service_init` with a mask of all clients, on zeroed pages. -/
def VirtState.init : VirtState where
  service := ⟨fun _ => true, fun _ => false, fun _ => true, fun _ _ _ => false, fun _ _ => false,
    fun _ => 0⟩
  frontend := emptyFrontend
  regions _ := emptyRegion

/-! ## The frontend's rings -/

def ringIndex (cursor : UInt32) : Nat := (cursor % aosInputRequestCapacity).toNat

def aosInputSubmit (f : Frontend) (q : InputRequest) : Option Frontend :=
  if f.reqTail - f.reqHead >= aosInputRequestCapacity then none
  else some { f with
    requests := update f.requests (ringIndex f.reqTail) q
    reqTail := f.reqTail + 1 }

def aosInputReceive (f : Frontend) : Option (InputResponse × Frontend) :=
  if f.respTail = f.respHead \/ f.respTail - f.respHead > aosInputRequestCapacity then none
  else some (f.responses (ringIndex f.respHead), { f with respHead := f.respHead + 1 })

/-! ## Delivery -/

def eventIndex (cursor : UInt32) : Nat := (cursor % aosInputEventCapacity).toNat

def validEvent (device : DeviceId) (last : Bool) (e : InputEvent) : Bool :=
  if last then e.type == 0 && e.code == 0 && e.value == 0
  else if device = keyboard then
    e.type == 1 && e.code != 0 && e.code <= 255 && 0 <= e.value && e.value <= 2
  else if e.type = 1 then 0x110 <= e.code && e.code <= 0x117 && 0 <= e.value && e.value <= 1
  else e.type == 2 && (e.code == 0 || e.code == 1 || e.code == 6 || e.code == 8)

def noReserved (q : InputRequest) : Bool := q.reserved0 == 0 && q.reserved1 == 0 && q.reserved2 == 0

/-- The client and the device that a number names. -/
def clientOf (word : UInt32) : Option ClientId :=
  if h : word.toNat < aosInputClients then some ⟨word.toNat, h⟩ else none

def deviceOf (word : UInt32) : Option DeviceId :=
  if h : word.toNat < aosInputDevices then some ⟨word.toNat, h⟩ else none

def validBatch (q : InputRequest) : Bool :=
  match deviceOf q.device with
  | none => false
  | some device =>
    q.version == aosInputVersion && q.count != 0 && q.count <= aosInputBatchEvents &&
      noReserved q && (List.range q.count.toNat).all fun i =>
        validEvent device (i == q.count.toNat - 1) (q.events i)

def isRelease (q : InputRequest) : Bool :=
  q.version == aosInputReleaseVersion && q.count == 0 && (deviceOf q.device).isSome && noReserved q

/-- The bit of a key or a button. -/
def heldIndex (device : DeviceId) (e : InputEvent) : Nat :=
  if device = keyboard then e.code.toNat else (e.code - 0x110).toNat

def holdEvent (device : DeviceId) (held : Nat -> Bool) (e : InputEvent) : Nat -> Bool :=
  if e.type != 1 || e.value == 2 then held
  else update held (heldIndex device e) (e.value != 0)

def setDevice {α : Type} (table : ClientId -> DeviceId -> α) (client : ClientId)
    (device : DeviceId) (value : α) : ClientId -> DeviceId -> α :=
  update table client (update (table client) device value)

def setQueue (regions : ClientId -> ClientRegion) (client : ClientId) (device : DeviceId)
    (queue : EventQueue) : ClientId -> ClientRegion :=
  update regions client
    { regions client with devices := update (regions client).devices device queue }

def pushEvents (queue : EventQueue) (q : InputRequest) : EventQueue :=
  { queue with
    events := (List.range q.count.toNat).foldl (fun events i =>
      update events (eventIndex (queue.tail + UInt32.ofNat i)) (q.events i)) queue.events
    tail := queue.tail + q.count }

def hasRoom (queue : EventQueue) (count : UInt32) : Bool :=
  queue.tail - queue.head <= aosInputEventCapacity &&
    count <= aosInputEventCapacity - (queue.tail - queue.head)

/-- A batch for a client that is served. -/
def deliverBatch (v : VirtState) (client : ClientId) (device : DeviceId) (q : InputRequest) :
    InputStatus × VirtState :=
  if v.service.releasing client device then (.wouldBlock, v)
  else if !hasRoom ((v.regions client).devices device) q.count then (.wouldBlock, v)
  else (.ok, { v with
    regions := setQueue v.regions client device
      (pushEvents ((v.regions client).devices device) q)
    service := { v.service with
      held := setDevice v.service.held client device
        (((List.range q.count.toNat).map q.events).foldl (holdEvent device)
          (v.service.held client device)) } })

def deliver (v : VirtState) (q : InputRequest) : InputStatus × VirtState :=
  if !isRelease q && !validBatch q then (.badRequest, v)
  else
    match clientOf q.client, deviceOf q.device with
    | some client, some device =>
      if !v.service.allowed client then (.denied, v)
      else if isRelease q then
        (.ok, { v with service := { v.service with
          releasing := setDevice v.service.releasing client device true } })
      else deliverBatch v client device q
    | _, _ => (.denied, v)

/-! ## Releases -/

/-- The loop over the 256 keys of a device. -/
structure ReleaseScan where
  count : UInt32
  left : Bool
  held : Nat -> Bool
  events : Nat -> InputEvent

def releaseKey (device : DeviceId) (tail room : UInt32) (scan : ReleaseScan) (index : Nat) :
    ReleaseScan :=
  if !scan.held index then scan
  else if scan.count + 1 >= room || scan.count >= aosInputBatchEvents - 1 then
    { scan with left := true }
  else
    { scan with
      count := scan.count + 1
      held := update scan.held index false
      events := update scan.events (eventIndex (tail + scan.count))
        ⟨1, UInt16.ofNat (if device = keyboard then index else index + 0x110), 0⟩ }

def releaseScan (device : DeviceId) (queue : EventQueue) (held : Nat -> Bool) : ReleaseScan :=
  (List.range 256).foldl
    (releaseKey device queue.tail (aosInputEventCapacity - (queue.tail - queue.head)))
    ⟨0, false, held, queue.events⟩

/-- A report ends the keys that were released. -/
def closeReport (queue : EventQueue) (scan : ReleaseScan) : EventQueue :=
  if scan.count = 0 then queue
  else { queue with
    events := update scan.events (eventIndex (queue.tail + scan.count)) emptyEvent
    tail := queue.tail + scan.count + 1 }

def releaseDevice (v : VirtState) (client : ClientId) (device : DeviceId) : VirtState :=
  let queue := (v.regions client).devices device
  if !v.service.releasing client device || queue.tail - queue.head > aosInputEventCapacity then v
  else
    let scan := releaseScan device queue (v.service.held client device)
    { v with
      regions := setQueue v.regions client device (closeReport queue scan)
      service := { v.service with
        held := setDevice v.service.held client device scan.held
        releasing := setDevice v.service.releasing client device scan.left } }

def allDevices : List (ClientId × DeviceId) :=
  (List.finRange aosInputClients).flatMap fun client =>
    (List.finRange aosInputDevices).map fun device => (client, device)

def releasePending (v : VirtState) : VirtState :=
  allDevices.foldl (fun v pair => releaseDevice v pair.1 pair.2) v

/-! ## Detach -/

@[simp]
def aosInputDetachVersion : UInt32 := 1

/-- The client's page asks for a detach, and is still served. -/
def wantsDetach (v : VirtState) (client : ClientId) : Bool :=
  v.service.allowed client && (v.regions client).detach.request == 1 &&
    (v.regions client).detach.version == aosInputDetachVersion

def ackDetach (regions : ClientId -> ClientRegion) (client : ClientId) : ClientId -> ClientRegion :=
  update regions client
    { regions client with detach := { (regions client).detach with ack := 1 } }

/-- The client is not served any more; the acknowledgment is the last access to its page. -/
def retireClient (v : VirtState) (client : ClientId) : VirtState where
  service :=
    { v.service with
      allowed := update v.service.allowed client false
      retired := update v.service.retired client true
      attached := update v.service.attached client false
      held := update v.service.held client fun _ _ => false
      releasing := update v.service.releasing client fun _ => false }
  frontend := v.frontend
  regions := ackDetach v.regions client

def detachClient (v : VirtState) (client : ClientId) : VirtState :=
  if wantsDetach v client then retireClient v client else v

def detachPending (v : VirtState) : VirtState :=
  (List.finRange aosInputClients).foldl detachClient v

/-! ## The pump -/

def responseFor (q : InputRequest) (status : InputStatus) : InputResponse where
  version := if q.version == aosInputReleaseVersion && q.count == 0 then aosInputReleaseVersion
    else aosInputVersion
  id := q.id
  status := status
  accepted := if status = .ok then q.count else 0

def pushResponse (f : Frontend) (response : InputResponse) : Frontend :=
  { f with
    responses := update f.responses (ringIndex f.respTail) response
    respTail := f.respTail + 1
    reqHead := f.reqHead + 1 }

/-- The loop over the requests that were there when the pass began. -/
def serveRequests : Nat -> VirtState -> VirtState
  | 0, v => v
  | n + 1, v =>
    if v.frontend.respTail - v.frontend.respHead >= aosInputRequestCapacity then v
    else
      let q := v.frontend.requests (ringIndex v.frontend.reqHead)
      let (status, v) := deliver v q
      serveRequests n { v with frontend := pushResponse v.frontend (responseFor q status) }

def aosInputPump (v : VirtState) : VirtState :=
  let v := detachPending v
  let pending := v.frontend.reqTail - v.frontend.reqHead
  if pending > aosInputRequestCapacity then v
  else releasePending (serveRequests pending.toNat v)

/-! ## Generations -/

structure RebindRequest where
  version : UInt32
  client : UInt32
  generation : UInt32

@[simp]
def inputVirtRebindVersion : UInt32 := 1

def authorized (badge : UInt64) (q : RebindRequest) : Option ClientId :=
  if virtClientAuthorized badge q.client q.client then clientOf q.client else none

def aosInputRebindRetire (v : VirtState) (badge : UInt64) (q : RebindRequest) :
    InputStatus × VirtState :=
  if q.version != inputVirtRebindVersion || q.generation == 0 then (.badRequest, v)
  else
    match authorized badge q with
    | none => (.denied, v)
    | some client =>
      if !v.service.allowed client then
        if !v.service.attached client && v.service.retired client &&
            (q.generation == v.service.generation client ||
              (v.service.generation client != 0xffffffff &&
                q.generation == v.service.generation client + 1)) then (.ok, v)
        else (.denied, v)
      else if q.generation != v.service.generation client || !v.service.attached client then
        (.denied, v)
      else (.ok, retireClient v client)

def aosInputRebindValidate (v : VirtState) (badge : UInt64) (q : RebindRequest) : InputStatus :=
  if q.version != inputVirtRebindVersion then .badRequest
  else
    match authorized badge q with
    | none => .denied
    | some client =>
      if v.service.allowed client || !v.service.retired client || v.service.attached client ||
          v.service.generation client == 0xffffffff || q.generation == 0 ||
          q.generation != v.service.generation client + 1 then .wouldBlock
      else if v.frontend.reqHead != v.frontend.reqTail then .wouldBlock
      else .ok

def freshRegion (region : ClientRegion) : Bool :=
  region.detach.version == 0 && region.detach.request == 0 && region.detach.ack == 0 &&
    (List.finRange aosInputDevices).all fun device =>
      (region.devices device).head == 0 && (region.devices device).tail == 0

/-- The new page is mapped where the old one was. -/
def aosInputRebindCommit (v : VirtState) (badge : UInt64) (q : RebindRequest)
    (fresh : ClientRegion) : InputStatus × VirtState :=
  match aosInputRebindValidate v badge q with
  | .ok =>
    if !freshRegion fresh then (.badRequest, v)
    else
      match clientOf q.client with
      | none => (.denied, v)
      | some client =>
        (.ok, { v with
          regions := update v.regions client fresh
          service := { v.service with
            attached := update v.service.attached client true
            generation := update v.service.generation client q.generation
            retired := update v.service.retired client false
            allowed := update v.service.allowed client true } })
  | status => (status, v)

/-- `rebind`: the capability operations before the commit may fail. -/
def rebind (v : VirtState) (badge : UInt64) (q : RebindRequest) (mapped : Bool)
    (fresh : ClientRegion) : InputStatus × VirtState :=
  match aosInputRebindValidate v badge q with
  | .ok => if mapped then aosInputRebindCommit v badge q fresh else (.badRequest, v)
  | status => (status, v)

end AgentOs.InputVirt
