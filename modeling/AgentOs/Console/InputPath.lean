import AgentOs.Console.Guests
import AgentOs.InputVirt.Service

/-!
# Console input and disconnects

The input path of `cc_pd.c` together with the input virtualizer.  An accepted batch marks its
client and device; when the connection closes, every mark becomes a release that the console has
to get through before it serves anyone again.  The virtualizer refuses a release for a client
that has detached, so a guest that is destroyed after a key press blocks the console for good.
-/

namespace AgentOs.Console

open Library Prog InputVirt

/-! ## The console's side -/

/-- What the console waits for: nothing, or the response to a request. -/
inductive InputWait where
  | idle
  | submit (q : InputRequest)
  | release (q : InputRequest) (client : ClientId) (device : DeviceId)

structure InputConsole where
  nextId : UInt32
  touched : ClientId -> DeviceId -> Bool
  releasePending : ClientId -> DeviceId -> Bool
  wait : InputWait

structure InputSystem where
  console : InputConsole
  virt : VirtState

def InputSystem.init : InputSystem := ⟨⟨0, fun _ _ => false, fun _ _ => false, .idle⟩, .init⟩

/-- `handle_input_submit` takes a batch, or a release of version 2. -/
def isReleaseQuery (query : InputRequest) : Bool :=
  query.version == aosInputReleaseVersion && query.count == 0

def validQuery (mr1 mr2 : UInt32) (query : InputRequest) : Bool :=
  !(mr1 != 0 || mr2 != 0 || (!isReleaseQuery query && query.version != aosInputVersion) ||
    query.id != 0 || query.client != 0 || query.reserved0 != 0 || query.reserved1 != 0 ||
    query.reserved2 != 0 || query.device >= .ofNat aosInputDevices ||
    (!isReleaseQuery query && query.count == 0) || query.count > aosInputBatchEvents)

/-- The loop has no break: the last entry of the handle. -/
def lastEntry (c : VmClient) (handle : UInt32) : Option VmEntry :=
  (List.finRange ccVmClientSlots).foldl (fun entry i =>
    if (c.entries i).active && (c.entries i).handle == handle then some (c.entries i) else entry)
    none

/-- The client of the guest that the handle names. -/
def ccInputClient (build : ConsoleBuild) (s : ConsoleState) (handle : UInt32) :
    ConsoleM (Option UInt32) :=
  if handle = ccBootGuestHandle then
    if !s.bootGuestPresent || s.bootGuestState == guestStateDead then pure none
    else pure (some (bootSerialSlot build))
  else
    match lastEntry s.client handle with
    | none => pure none
    | some entry =>
      if entry.slot >= .ofNat aosInputClients then pure none
      else do
        let (rc, status) <- viaVm (ccVmStatus build.arch s.client handle)
        if rc != ccOk || status.state == guestStateDead then pure none
        else pure (some entry.slot)

def withTarget (query : InputRequest) (id client : UInt32) : InputRequest :=
  { query with id := id, client := client }

/-- A release of one device. -/
def releaseQuery (id : UInt32) (client : ClientId) (device : DeviceId) : InputRequest :=
  { emptyRequest with
    version := aosInputReleaseVersion
    id := id
    client := .ofNat client
    device := .ofNat device }

/-- The first of the bits that are pending. -/
def firstPending (console : InputConsole) : Option (ClientId × DeviceId) :=
  allDevices.find? fun pair => console.releasePending pair.1 pair.2

/-- A response to a submission: `status` is never beyond WOULD_BLOCK. -/
def submitMatches (q : InputRequest) (response : InputResponse) : Bool :=
  response.version == q.version && response.id == q.id &&
    response.accepted == if response.status = .ok then q.count else 0

def touch (console : InputConsole) (q : InputRequest) : InputConsole :=
  match clientOf q.client, deviceOf q.device with
  | some client, some device =>
    { console with touched := setDevice console.touched client device true }
  | _, _ => console

def finishSubmit (console : InputConsole) (q : InputRequest) (response : InputResponse) :
    InputConsole :=
  if submitMatches q response && !isReleaseQuery q && response.status == .ok then
    touch { console with wait := .idle } q
  else { console with wait := .idle }

def releaseMatches (q : InputRequest) (response : InputResponse) : Bool :=
  response.version == q.version && response.id == q.id && response.status == .ok &&
    response.accepted == 0

def finishRelease (console : InputConsole) (q : InputRequest) (client : ClientId)
    (device : DeviceId) (response : InputResponse) : InputConsole :=
  if releaseMatches q response then
    { console with
      releasePending := setDevice console.releasePending client device false, wait := .idle }
  else { console with wait := .idle }

/-- The connection closed: what was touched has to be released. -/
def closeConnection (console : InputConsole) : InputConsole :=
  { console with
    releasePending := fun client device =>
      console.releasePending client device || console.touched client device
    touched := fun _ _ => false }

/-! ## The system -/

def InputSystem.setFrontend (s : InputSystem)
    (f : Frontend) : VirtState := { s.virt with frontend := f }

/-- Who takes a step. -/
inductive InputAction where
  | console
  | guest
  | pump
  | retire (badge : UInt64) (q : RebindRequest)
  | rebind

/-- The console serves requests only while no release is pending.  The VMMs write their pages
as they like, and the virtualizer serves the rings, retires and rebinds. -/
inductive InputStep : InputAction -> InputSystem -> InputSystem -> Prop where
  | submit {s : InputSystem} {build : ConsoleBuild} {guests : ConsoleState}
      {trace : Trace ConsoleIo} {handle mr1 mr2 client : UInt32} {query : InputRequest}
      {f : Frontend} : s.console.wait = .idle ->
      (∀ client device, s.console.releasePending client device = false) ->
      validQuery mr1 mr2 query = true ->
      Run (ccInputClient build guests handle) trace (some client) ->
      aosInputSubmit s.virt.frontend (withTarget query (s.console.nextId + 1) client) = some f ->
      InputStep .console s
        ⟨{ s.console with
            nextId := s.console.nextId + 1
            wait := .submit (withTarget query (s.console.nextId + 1) client) }, s.setFrontend f⟩
  | submitFull {s : InputSystem} {query : InputRequest} {client : UInt32} :
      s.console.wait = .idle -> (∀ client device, s.console.releasePending client device = false) ->
      aosInputSubmit s.virt.frontend (withTarget query (s.console.nextId + 1) client) = none ->
      InputStep .console s ⟨{ s.console with nextId := s.console.nextId + 1 }, s.virt⟩
  | submitted {s : InputSystem} {q : InputRequest} {response : InputResponse} {f : Frontend} :
      s.console.wait = .submit q -> aosInputReceive s.virt.frontend = some (response, f) ->
      InputStep .console s ⟨finishSubmit s.console q response, s.setFrontend f⟩
  | disconnect {s : InputSystem} : s.console.wait = .idle ->
      InputStep .console s ⟨closeConnection s.console, s.virt⟩
  | release {s : InputSystem} {client : ClientId} {device : DeviceId} {f : Frontend} :
      s.console.wait = .idle -> firstPending s.console = some (client, device) ->
      aosInputSubmit s.virt.frontend (releaseQuery (s.console.nextId + 1) client device) = some f ->
      InputStep .console s
        ⟨{ s.console with
            nextId := s.console.nextId + 1
            wait := .release (releaseQuery (s.console.nextId + 1) client device) client device },
          s.setFrontend f⟩
  | releaseFull {s : InputSystem} {client : ClientId} {device : DeviceId} :
      s.console.wait = .idle -> firstPending s.console = some (client, device) ->
      aosInputSubmit s.virt.frontend (releaseQuery (s.console.nextId + 1) client device) = none ->
      InputStep .console s ⟨{ s.console with nextId := s.console.nextId + 1 }, s.virt⟩
  | released {s : InputSystem} {q : InputRequest} {client : ClientId} {device : DeviceId}
      {response : InputResponse} {f : Frontend} : s.console.wait = .release q client device ->
      aosInputReceive s.virt.frontend = some (response, f) ->
      InputStep .console s ⟨finishRelease s.console q client device response, s.setFrontend f⟩
  | pump (s : InputSystem) : InputStep .pump s ⟨s.console, aosInputPump s.virt⟩
  | guest (s : InputSystem) (client : ClientId) (region : ClientRegion) :
      InputStep .guest s
        ⟨s.console, { s.virt with regions := Function.update s.virt.regions client region }⟩
  | retire (s : InputSystem) (badge : UInt64) (q : RebindRequest) :
      InputStep (.retire badge q) s ⟨s.console, (aosInputRebindRetire s.virt badge q).2⟩
  | rebind (s : InputSystem) (badge : UInt64) (q : RebindRequest) (mapped : Bool)
      (fresh : ClientRegion) :
      InputStep .rebind s ⟨s.console, (rebind s.virt badge q mapped fresh).2⟩

/-- The console has something for the client: a mark, a pending release or a request. -/
def HoldsInput (console : InputConsole) (client : ClientId) : Prop :=
  (∃ device, console.touched client device = true \/ console.releasePending client device = true) \/
    ∃ q, (console.wait = .submit q \/ ∃ other device, console.wait = .release q other device) /\
      clientOf q.client = some client

/-- The RETIRE is one that the virtualizer carries out for the client. -/
def Retires (v : VirtState) (badge : UInt64) (q : RebindRequest) (client : ClientId) : Prop :=
  authorized badge q = some client /\ v.service.allowed client = true /\
    (aosInputRebindRetire v badge q).1 = .ok

/-- A client whose page asks for a detach, or that is retired, has nothing in the console. -/
def Calm (s : InputSystem) : InputAction -> Prop
  | .pump => ∀ client, wantsDetach s.virt client = true -> ¬ HoldsInput s.console client
  | .retire badge q => ∀ client, Retires s.virt badge q client -> ¬ HoldsInput s.console client
  | _ => True

inductive InputReach (condition : InputSystem -> InputAction -> Prop) : InputSystem -> Prop where
  | init : InputReach condition .init
  | step {s s' : InputSystem} {action : InputAction} : InputReach condition s ->
      InputStep action s s' -> condition s action -> InputReach condition s'

/-- Every release is answered with success and clears its bit; while one is pending, the
console can ask for it, and one pass of the virtualizer answers. -/
structure ReleasesOk (s : InputSystem) : Prop where
  answered : ∀ q client device response f, s.console.wait = .release q client device ->
    aosInputReceive s.virt.frontend = some (response, f) ->
    response.status = .ok /\
      (finishRelease s.console q client device response).releasePending client device = false
  asked : ∀ client device, s.console.wait = .idle -> firstPending s.console = some (client, device) ->
    (aosInputSubmit s.virt.frontend (releaseQuery (s.console.nextId + 1) client device)).isSome = true
  served : ∀ q client device, s.console.wait = .release q client device ->
    (aosInputReceive (aosInputPump s.virt).frontend).isSome = true

end AgentOs.Console
