import AgentOs.Ipc.Message
import AgentOs.Serial.Channel

/-!
# The serial service

`serial_virt` runs in one thread: it attaches and detaches guests, replaces the frame of a
detached guest, and pumps bytes between the two channels of each attached client.
-/

open Function (update)

namespace AgentOs.Serial

open Library Sel4 Ipc

inductive SerialStatus where
  | ok | version | authority | busy | protocol | resource
  deriving DecidableEq

def serialVirtContractVersion : UInt32 := 4
def serialVirtRebindVersion : UInt32 := 1
def serialVirtRoleVmm : UInt32 := 0
def serialVirtRoleFrontend : UInt32 := 1
def serialVirtRoleOperator : UInt32 := 2
def serialVirtOperatorClient : UInt32 := 2
def serialVirtOperatorBadge : UInt64 := 0xa0510101
def serialVirtFrontendBadge : UInt64 := 0xa0510100

structure SerialAttachReq where
  version : UInt32
  client : UInt32
  role : UInt32

structure SerialRebindReq where
  version : UInt32
  client : UInt32
  generation : UInt32

/-- Both requests are three packed words. -/
def serialRequestSize : UInt32 := 12

def serialVirtAuthorized (badge : UInt64) (client role : UInt32) : Bool :=
  if client >= 3 then false
  else if role = serialVirtRoleOperator then
    client == serialVirtOperatorClient && badge == serialVirtOperatorBadge
  else if role = serialVirtRoleVmm then
    decide (client < 2) && virtClientAuthorized badge client client
  else role == serialVirtRoleFrontend && badge == serialVirtFrontendBadge

/-- The arrays of the service, by client. -/
structure SerialService where
  guest : UInt32 -> Channel
  frontend : UInt32 -> Channel
  guestAttached : UInt32 -> Bool
  frontendAttached : UInt32 -> Bool
  guestRetired : UInt32 -> Bool
  guestGeneration : UInt32 -> UInt32

/-- As `pd_main` sets it up. -/
def serialServiceStart : SerialService where
  guest client := aosSerialChannelAt (.guest client 0)
  frontend client := aosSerialChannelAt (.front client)
  guestAttached _ := false
  frontendAttached _ := false
  guestRetired _ := false
  guestGeneration _ := 0

/-! ## Attach and detach -/

def aosSerialVirtAttach (service : SerialService) (badge : UInt64)
    (request : Option SerialAttachReq) (length : UInt32) : SerialStatus × SerialService :=
  match request with
  | none => (.protocol, service)
  | some request =>
    if length ≠ serialRequestSize then (.protocol, service)
    else if request.version ≠ serialVirtContractVersion then (.version, service)
    else if !serialVirtAuthorized badge request.client request.role then (.authority, service)
    else if request.role ≠ serialVirtRoleFrontend then
      if service.guestAttached request.client || service.guestRetired request.client then
        (.busy, service)
      else (.ok, { service with
        guestAttached := update service.guestAttached request.client true })
    else if service.frontendAttached request.client || service.guestRetired request.client then
      (.busy, service)
    else (.ok, { service with
      frontendAttached := update service.frontendAttached request.client true })

/-- The service drops its pointers to the guest page. -/
def SerialService.retire (service : SerialService) (client : UInt32) : SerialService :=
  { service with
    guestAttached := update service.guestAttached client false
    guest := update service.guest client nullChannel
    guestRetired := update service.guestRetired client true }

/-- The checks before the gate is touched; the client to detach. -/
def detachClient (badge : UInt64) (request : Option SerialAttachReq) (length : UInt32) :
    Except SerialStatus UInt32 :=
  match request with
  | none => .error .protocol
  | some request =>
    if length ≠ serialRequestSize then .error .protocol
    else if request.version ≠ serialVirtContractVersion then .error .version
    else if request.role ≠ serialVirtRoleVmm \/
        !serialVirtAuthorized badge request.client request.role then .error .authority
    else .ok request.client

def closeChannel (service : SerialService) (client : UInt32) (page : Page) :
    SerialM (SerialStatus × SerialService) := do
  let gate <- fetchOrGate page aosSerialFrontendClosed
  if gate &&& aosSerialFrontendBusy ≠ 0 then pure (.busy, service)
  else if service.frontendAttached client then do
    storeMeta page .attached 0
    pure (.ok, service.retire client)
  else pure (.ok, service.retire client)

def aosSerialVirtDetach (service : SerialService) (badge : UInt64)
    (request : Option SerialAttachReq) (length : UInt32) :
    SerialM (SerialStatus × SerialService) :=
  match detachClient badge request length with
  | .error status => pure (status, service)
  | .ok client =>
    if service.guestRetired client then pure (.ok, service)
    else match (service.frontend client).metaPage with
      | none => pure (.protocol, service)
      | some page => closeChannel service client page

/-! ## Rebind -/

def aosSerialVirtRebindValidate (service : SerialService) (badge : UInt64)
    (request : SerialRebindReq) (length : UInt32) : SerialM SerialStatus :=
  if length ≠ serialRequestSize then pure .protocol
  else if request.version ≠ serialVirtRebindVersion then pure .version
  else if !serialVirtAuthorized badge request.client serialVirtRoleVmm then pure .authority
  else if request.generation = 0 \/ service.guestGeneration request.client = 0xffffffff \/
      request.generation ≠ service.guestGeneration request.client + 1 then pure .protocol
  else if !service.guestRetired request.client || service.guestAttached request.client then
    pure .busy
  else match (service.frontend request.client).metaPage with
    | none => pure .protocol
    | some page => do
      let gate <- loadGate page
      if gate ≠ aosSerialFrontendClosed then pure .busy else pure .ok

/-- The control words of the fresh channel are there, elsewhere than the frontend's, and
zero. -/
def freshMeta (fresh front : Channel) : SerialM Bool :=
  match fresh.metaPage with
  | none => pure false
  | some page =>
    if some page = front.metaPage then pure false
    else do
      let guestState <- loadMeta page .guestState
      if guestState ≠ 0 then pure false
      else do
        let attached <- loadMeta page .attached
        if attached ≠ 0 then pure false
        else do
          let gate <- loadGate page
          pure (decide (gate = 0))

def emptyQueue (handle : QueueHandle Ptr) (capacity : UInt32) : SerialM Bool :=
  match handle.queue, handle.data with
  | some queue, some _ =>
    if handle.capacity ≠ capacity then pure false
    else do
      let head <- onQueue (loadHead queue)
      if head ≠ 0 then pure false
      else do
        let tail <- onQueue (loadTail queue)
        if tail ≠ 0 then pure false
        else do
          let signalled <- loadSignalled queue
          pure (decide (signalled = 0))
  | _, _ => pure false

/-- The pointers that the reset goes through. -/
structure FrontPointers where
  toGuestQueue : Ptr
  toGuestData : Ptr
  fromGuestQueue : Ptr
  fromGuestData : Ptr

/-- The queues differ, and those of the frontend have the fixed layout. -/
def resettable (fresh front : Channel) : Option FrontPointers :=
  if fresh.toGuest.queue = front.toGuest.queue \/ fresh.fromGuest.queue = front.fromGuest.queue \/
      front.toGuest.capacity ≠ aosSerialRxCapacity \/
      front.fromGuest.capacity ≠ aosSerialTxCapacity then none
  else match front.toGuest.queue, front.toGuest.data, front.fromGuest.queue,
      front.fromGuest.data with
    | some toGuestQueue, some toGuestData, some fromGuestQueue, some fromGuestData =>
      some ⟨toGuestQueue, toGuestData, fromGuestQueue, fromGuestData⟩
    | _, _, _, _ => none

/-- All that is asked of the two channels, in the order of the source. -/
def freshAccepted (fresh front : Channel) : SerialM (Option FrontPointers) := do
  let cleanMeta <- freshMeta fresh front
  if !cleanMeta then pure none
  else do
    let emptyTo <- emptyQueue fresh.toGuest aosSerialRxCapacity
    if !emptyTo then pure none
    else do
      let emptyFrom <- emptyQueue fresh.fromGuest aosSerialTxCapacity
      if !emptyFrom then pure none else pure (resettable fresh front)

def clearBytes (data : Ptr) : UInt32 -> Nat -> SerialM Unit
  | _, 0 => pure ()
  | i, n + 1 => do
    clearByte data i
    clearBytes data (i + 1) n

def SerialService.rebind (service : SerialService) (request : SerialRebindReq)
    (fresh : Channel) : SerialService :=
  { service with
    guest := update service.guest request.client fresh
    guestAttached := update service.guestAttached request.client true
    guestRetired := update service.guestRetired request.client false
    guestGeneration := update service.guestGeneration request.client
      request.generation }

/-- The gate opens last. -/
def resetChannel (page : Page) (front : FrontPointers) : SerialM Unit := do
  clearBytes front.toGuestData 0 aosSerialRxCapacity.toNat
  clearBytes front.fromGuestData 0 aosSerialTxCapacity.toNat
  clearQueue front.toGuestQueue
  clearQueue front.fromGuestQueue
  storeMeta page .guestState 0
  storeMeta page .attached 0
  storeGate page 0

def aosSerialVirtRebindCommit (service : SerialService) (badge : UInt64)
    (request : SerialRebindReq) (length : UInt32) (fresh : Channel) :
    SerialM (SerialStatus × SerialService) := do
  let status <- aosSerialVirtRebindValidate service badge request length
  if status ≠ .ok then pure (status, service)
  else do
    let front := service.frontend request.client
    let accepted <- freshAccepted fresh front
    match accepted, front.metaPage with
    | some pointers, some page => do
      resetChannel page pointers
      pure (.ok, service.rebind request fresh)
    | _, _ => pure (.protocol, service)

/-- The old frame goes, a new one is retyped from what the caller granted, and its channel
takes the guest's place.  The frame is part of the reply. -/
def rebindQueue (service : SerialService) (badge : UInt64) (request : SerialRebindReq) :
    SerialM ((SerialStatus × Nat) × SerialService) := do
  let status <- aosSerialVirtRebindValidate service badge request serialRequestSize
  if status ≠ .ok then pure ((status, 0), service)
  else do
    let err <- Prog.perform (I := SerialIo) (.deleteFrame request.client)
    if err ≠ .noError then pure ((.resource, 0), service)
    else do
      let (err, frame) <- Prog.perform (I := SerialIo) (.retypeFrame request.client)
      if err ≠ .noError then pure ((.resource, 0), service)
      else do
        let err <- Prog.perform (I := SerialIo) (.mapFrame request.client frame)
        if err ≠ .noError then do
          let _ <- Prog.perform (I := SerialIo) (.deleteFrame request.client)
          pure ((.resource, 0), service)
        else do
          let (status, service) <- aosSerialVirtRebindCommit service badge request
            serialRequestSize (aosSerialChannelAt (.guest request.client frame))
          if status ≠ .ok then do
            let _ <- Prog.perform (I := SerialIo) (.deleteFrame request.client)
            pure ((status, 0), service)
          else pure ((status, frame), service)

/-! ## Pump -/

structure SerialPumpResult where
  wakeVmm : UInt32
  frontendChanged : UInt32
  invalidClients : UInt32
  bytes : UInt32
  inputClients : UInt32
  outputClients : UInt32

def setIf (condition : Bool) (bits i : UInt32) : UInt32 :=
  if condition then bits ||| (1 <<< i) else bits

/-- What two transfers add to the result. -/
def SerialPumpResult.add (result : SerialPumpResult) (i : UInt32)
    (out inp : PumpStatus × UInt32) : SerialPumpResult where
  wakeVmm := setIf (inp.2 != 0 || out.2 != 0) result.wakeVmm i
  frontendChanged := setIf (inp.2 != 0 || out.2 != 0) result.frontendChanged i
  invalidClients := setIf (out.1 != .ok || inp.1 != .ok) result.invalidClients i
  bytes := result.bytes + (inp.2 + out.2)
  inputClients := setIf (inp.2 != 0) result.inputClients i
  outputClients := setIf (out.2 != 0) result.outputClients i

/-- An attached client has both channels; the guest state is mirrored, then output goes to
the frontend and input to the guest. -/
def pumpClient (service : SerialService) (budget i : UInt32) (result : SerialPumpResult) :
    SerialM SerialPumpResult :=
  if !service.guestAttached i || !service.frontendAttached i then pure result
  else
    let guest := service.guest i
    let front := service.frontend i
    match guest.metaPage, front.metaPage with
    | some guestPage, some frontPage => do
      let state <- loadMeta guestPage .guestState
      storeMeta frontPage .guestState state
      storeMeta frontPage .attached 1
      let out <- onQueue (aosSerialVirtTransfer (some guest.fromGuest) (some front.fromGuest)
        budget true)
      let inp <- onQueue (aosSerialVirtTransfer (some front.toGuest) (some guest.toGuest)
        budget true)
      pure (result.add i out inp)
    | _, _ => pure result

def pumpClients (service : SerialService) (budget : UInt32) :
    List UInt32 -> SerialPumpResult -> SerialM SerialPumpResult
  | [], result => pure result
  | i :: rest, result => do
    let result <- pumpClient service budget i result
    pumpClients service budget rest result

def aosSerialVirtServicePump (service : SerialService) (budget : UInt32) :
    SerialM SerialPumpResult :=
  pumpClients service budget [0, 1, 2] ⟨0, 0, 0, 0, 0, 0⟩

end AgentOs.Serial
