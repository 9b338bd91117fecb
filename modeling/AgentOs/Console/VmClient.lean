import AgentOs.Ipc.Message
import AgentOs.Library.Program

/-!
# Guest handles of the command console

`cc_vm_client.c` gives out public handles for the guests that the VM manager creates.  The
manager is another protection domain: each call of `c->rpc` may get any status, length and
payload.
-/

namespace AgentOs.Console

open Library Ipc

/-! ## State -/

@[simp]
def ccOk : UInt32 := 0

@[simp]
def ccErrBadHandle : UInt32 := 6

@[simp]
def ccErrRelayFault : UInt32 := 8

def ccVmClientSlots : Nat := 4

@[simp]
def ccVmPayloadBytes : UInt32 := 48

/-- `cc_vm_entry_t`. -/
structure VmEntry where
  handle : UInt32
  slot : UInt32
  profile : UInt32
  devices : UInt32
  active : Bool

/-- `cc_vm_reply_t`. -/
structure VmReply where
  status : UInt32
  length : UInt32
  data : Payload

/-- `cc_vm_client_t`; `rpc` says whether the callback is set. -/
structure VmClient where
  entries : Fin ccVmClientSlots -> VmEntry
  nextHandle : UInt32
  rpc : Bool

def emptyEntry : VmEntry := ⟨0, 0, 0, 0, false⟩

def emptyReply : VmReply := ⟨0, 0, fun _ => 0⟩

def ccVmClientInit (rpc : Bool) : VmClient := ⟨fun _ => emptyEntry, 1, rpc⟩

def VmClient.setEntry (c : VmClient) (i : Fin ccVmClientSlots) (entry : VmEntry) : VmClient :=
  { c with entries := Function.update c.entries i entry }

@[simp]
theorem setEntry_entries_self (c : VmClient) (i : Fin ccVmClientSlots) (entry : VmEntry) :
    (c.setEntry i entry).entries i = entry := by
  simp [VmClient.setEntry]

theorem setEntry_entries_of_ne (c : VmClient) {i j : Fin ccVmClientSlots} (hj : j ≠ i)
    (entry : VmEntry) : (c.setEntry i entry).entries j = c.entries j := by
  simp [VmClient.setEntry, Function.update_of_ne hj]

/-- A call of `c->rpc`, with the client's memory at that time. -/
structure VmRpc where
  client : VmClient
  opcode : UInt32
  data : Payload
  length : UInt32

abbrev VmIo : Interface := ⟨VmRpc, fun _ => VmReply⟩

abbrev VmM := Prog VmIo

/-! ## Requests -/

@[simp]
def vmManagerOpCreate : UInt32 := 0x10

@[simp]
def vmManagerOpDestroy : UInt32 := 0x11

@[simp]
def vmManagerOpStart : UInt32 := 0x12

@[simp]
def vmManagerOpStop : UInt32 := 0x13

@[simp]
def vmManagerOpResume : UInt32 := 0x15

@[simp]
def vmManagerOpInfo : UInt32 := 0x17

def lookup (c : VmClient) (h : UInt32) : Option (Fin ccVmClientSlots) :=
  if h = 0 then none
  else (List.finRange ccVmClientSlots).find? fun i =>
    (c.entries i).active && (c.entries i).handle == h

/-- The reply is one of success, and long enough. -/
def accepts (minimum : UInt32) (r : VmReply) : Bool :=
  !(r.status != 0 || r.length < minimum || r.length > ccVmPayloadBytes || rd32 r.data 0 != 0)

def call (c : VmClient) (op : UInt32) (p : Payload) (n minimum : UInt32) : VmM (UInt32 × VmReply) :=
  if !c.rpc || n > ccVmPayloadBytes then pure (ccErrRelayFault, emptyReply)
  else do
    let r <- Prog.perform (I := VmIo) ⟨c, op, p, n⟩
    if accepts minimum r then pure (ccOk, r) else pure (ccErrRelayFault, r)

/-- The slot, followed by what the caller adds. -/
def requestPayload (slot : UInt32) (tail : Payload) (n : UInt32) : Payload := fun i =>
  if i < 4 then wr32 (fun _ => 0) 0 slot i else if i < 4 + n.toNat then tail (i - 4) else 0

/-- The reply is the caller's only when the request was sent. -/
def ccVmRequest (c : VmClient) (op h : UInt32) (tail : Option Payload) (n : UInt32) :
    VmM (UInt32 × VmReply) :=
  match lookup c h with
  | none => pure (ccErrBadHandle, emptyReply)
  | some i =>
    if n > ccVmPayloadBytes - 4 || (n != 0 && tail.isNone) then
      pure (ccErrRelayFault, emptyReply)
    else
      call c op (requestPayload (c.entries i).slot (tail.getD fun _ => 0) n) (n + 4) 4

/-! ## Create -/

@[simp]
def vibeosProfilePrimary : UInt32 := 1

@[simp]
def vibeosProfileSecondary : UInt32 := 2

@[simp]
def vibeosDevSerial : UInt32 := 1

@[simp]
def vibeosDevNet : UInt32 := 2

@[simp]
def vibeosDevBlock : UInt32 := 4

@[simp]
def vmCreateFlagVirtioNet : UInt32 := 1

@[simp]
def vmCreateFlagVirtioBlk : UInt32 := 2

@[simp]
def vmCreateFlagSerial : UInt32 := 4

def validCreate (profile ram devices : UInt32) : Bool :=
  !(profile < vibeosProfilePrimary || profile > vibeosProfileSecondary || ram < 64 ||
    ram > 8192 || ram &&& 3 != 0 ||
    devices &&& ~~~(vibeosDevSerial ||| vibeosDevNet ||| vibeosDevBlock) != 0)

/-- The loop over the entries: `none` when the profile is in use, otherwise the first entry
that is not active. -/
def scanEntries (c : VmClient) (profile : UInt32) :
    List (Fin ccVmClientSlots) -> Option (Fin ccVmClientSlots) ->
      Option (Option (Fin ccVmClientSlots))
  | [], e => some e
  | i :: rest, e =>
    if (c.entries i).active && (c.entries i).profile == profile then none
    else scanEntries c profile rest
      (if !(c.entries i).active && e.isNone then some i else e)

def deviceFlag (devices device flag : UInt32) : UInt32 :=
  if devices &&& device != 0 then flag else 0

def createFlags (devices : UInt32) : UInt32 :=
  deviceFlag devices vibeosDevSerial vmCreateFlagSerial |||
    deviceFlag devices vibeosDevNet vmCreateFlagVirtioNet |||
    deviceFlag devices vibeosDevBlock vmCreateFlagVirtioBlk

def createPayload (profile ram devices : UInt32) : Payload :=
  wr32 (wr32 (wr32 (fun _ => 0) 0 (profile - 1)) 4 ram) 8 (createFlags devices)

/-- What `cc_vm_create` returns and stores through its pointer. -/
structure CreateOut where
  rc : UInt32
  handle : UInt32

/-- The entry takes the next handle. -/
def issueHandle (c : VmClient) (i : Fin ccVmClientSlots) (slot profile devices : UInt32) :
    VmClient :=
  { c.setEntry i ⟨c.nextHandle, slot, profile, devices, true⟩ with nextHandle := c.nextHandle + 1 }

def deactivate (c : VmClient) (i : Fin ccVmClientSlots) : VmClient :=
  c.setEntry i { c.entries i with active := false }

/-- START; when it fails the guest is destroyed again, or its handle is kept. -/
def startOrRollBack (c : VmClient) (i : Fin ccVmClientSlots) : VmM (CreateOut × VmClient) := do
  let (rc, _) <- ccVmRequest c vmManagerOpStart (c.entries i).handle none 0
  if rc != ccOk then do
    let (undone, _) <- ccVmRequest c vmManagerOpDestroy (c.entries i).handle none 0
    if undone == ccOk then pure (⟨rc, 0⟩, deactivate c i)
    else pure (⟨rc, (c.entries i).handle⟩, c)
  else pure (⟨ccOk, (c.entries i).handle⟩, c)

def slotTaken (c : VmClient) (slot : UInt32) : Bool :=
  (List.finRange ccVmClientSlots).any fun i => (c.entries i).active && (c.entries i).slot == slot

def ccVmCreate (c : VmClient) (profile ram devices : UInt32) : VmM (CreateOut × VmClient) :=
  if !validCreate profile ram devices then pure (⟨ccErrRelayFault, 0⟩, c)
  else
    match scanEntries c profile (List.finRange ccVmClientSlots) none with
    | none => pure (⟨ccErrRelayFault, 0⟩, c)
    | some none => pure (⟨ccErrRelayFault, 0⟩, c)
    | some (some i) =>
      if c.nextHandle = 0 then pure (⟨ccErrRelayFault, 0⟩, c)
      else do
        let (rc, r) <- call c vmManagerOpCreate (createPayload profile ram devices) 12 8
        if rc != ccOk then pure (⟨rc, 0⟩, c)
        else if UInt32.ofNat ccVmClientSlots <= rd32 r.data 4 then pure (⟨ccErrRelayFault, 0⟩, c)
        else if slotTaken c (rd32 r.data 4) then pure (⟨ccErrRelayFault, 0⟩, c)
        else startOrRollBack (issueHandle c i (rd32 r.data 4) profile devices) i

/-! ## Status, lifecycle and list -/

@[simp]
def guestStateBooting : UInt32 := 3

@[simp]
def guestStateRunning : UInt32 := 4

@[simp]
def guestStateSuspended : UInt32 := 5

@[simp]
def guestStateDead : UInt32 := 6

@[simp]
def vmWireSlotBooting : UInt32 := 1

@[simp]
def vmWireSlotRunning : UInt32 := 2

@[simp]
def vmWireSlotSuspended : UInt32 := 3

@[simp]
def vmWireSlotError : UInt32 := 5

/-- The size of `vm_manager_reply_info_t`. -/
@[simp]
def infoBytes : UInt32 := 48

/-- `cc_guest_status_t`. -/
structure GuestStatus where
  guestHandle : UInt32
  state : UInt32
  osType : UInt32
  arch : UInt32
  deviceFlags : UInt32

/-- `cc_guest_info_t`. -/
structure GuestInfo where
  guestHandle : UInt32
  state : UInt32
  osType : UInt32
  arch : UInt32

def GuestStatus.info (status : GuestStatus) : GuestInfo :=
  ⟨status.guestHandle, status.state, status.osType, status.arch⟩

def emptyStatus : GuestStatus := ⟨0, 0, 0, 0, 0⟩

def publicState (slotState : UInt32) : UInt32 :=
  if slotState = vmWireSlotBooting then guestStateBooting
  else if slotState = vmWireSlotRunning then guestStateRunning
  else if slotState = vmWireSlotSuspended then guestStateSuspended
  else guestStateDead

def publicDevices (flags : UInt32) : UInt32 :=
  deviceFlag flags vmCreateFlagSerial vibeosDevSerial |||
    deviceFlag flags vmCreateFlagVirtioNet vibeosDevNet |||
    deviceFlag flags vmCreateFlagVirtioBlk vibeosDevBlock

section Arch

-- the build's architecture
variable (arch : UInt32)

def statusOf (entry : VmEntry) (h : UInt32) (r : VmReply) : UInt32 × GuestStatus :=
  if r.length != infoBytes then (ccErrRelayFault, emptyStatus)
  else if rd32 r.data 8 != entry.profile - 1 || rd32 r.data 4 > vmWireSlotError then
    (ccErrRelayFault, emptyStatus)
  else (ccOk, ⟨h, publicState (rd32 r.data 4), entry.profile, arch, publicDevices (rd32 r.data 44)⟩)

def ccVmStatus (c : VmClient) (h : UInt32) : VmM (UInt32 × GuestStatus) := do
  let (rc, r) <- ccVmRequest c vmManagerOpInfo h none 0
  if rc != ccOk then pure (rc, emptyStatus)
  else
    match lookup c h with
    | none => pure (ccErrRelayFault, emptyStatus)
    | some i => pure (statusOf arch (c.entries i) h r)

def isLifecycleOp (op : UInt32) : Bool :=
  op == vmManagerOpStop || op == vmManagerOpResume || op == vmManagerOpDestroy

def stateAfter (op : UInt32) : UInt32 :=
  if op = vmManagerOpStop then guestStateSuspended
  else if op = vmManagerOpResume then guestStateRunning
  else guestStateDead

def deactivateHandle (c : VmClient) (h : UInt32) : VmClient :=
  match lookup c h with
  | some i => deactivate c i
  | none => c

/-- The code, the new state and the client. -/
def ccVmLifecycle (c : VmClient) (op h : UInt32) : VmM (UInt32 × UInt32 × VmClient) :=
  if !isLifecycleOp op then pure (ccErrRelayFault, 0, c)
  else do
    let (rc, _) <- ccVmRequest c op h none 0
    if rc != ccOk then pure (rc, 0, c)
    else if op = vmManagerOpDestroy then pure (ccOk, stateAfter op, deactivateHandle c h)
    else pure (ccOk, stateAfter op, c)

def listFrom (c : VmClient) (max : UInt32) :
    List (Fin ccVmClientSlots) -> List GuestInfo -> VmM (List GuestInfo)
  | [], out => pure out
  | i :: rest, out =>
    if max.toNat <= out.length then pure out
    else if !(c.entries i).active then listFrom c max rest out
    else do
      let (rc, status) <- ccVmStatus arch c (c.entries i).handle
      if rc != ccOk then listFrom c max rest out
      else listFrom c max rest (out ++ [status.info])

def ccVmList (c : VmClient) (max : UInt32) : VmM (List GuestInfo) :=
  listFrom arch c max (List.finRange ccVmClientSlots) []

end Arch

end AgentOs.Console
