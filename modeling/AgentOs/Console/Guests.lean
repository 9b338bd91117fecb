import AgentOs.Console.VmClient
import AgentOs.GuestVmm.Runtime

/-!
# Guest requests of the command console

The handlers of `cc_pd.c` that create, suspend, resume and destroy guests and stream their
consoles.  A guest is named by its handle; the boot guest is handle 0.  A console is also named
by a slot of the log table, which LOG_STREAM fills.
-/

namespace AgentOs.Console

open Library Ipc
open GuestVmm (msgGuestSuspend msgGuestResume msgGuestDestroy guestOk)

/-! ## State -/

@[simp]
def ccErrNoSessions : UInt32 := 1

@[simp]
def ccErrInvalidArg : UInt32 := 9

@[simp]
def ccBootGuestHandle : UInt32 := 0

def ccLogSlots : Nat := 8

/-- `cc_log_slot_t`. -/
structure LogSlot where
  inUse : Bool
  guestHandle : UInt32
  pdId : UInt32

/-- What the build and the start of the console decide: whether there are guests, the boot
guest and whether it is the secondary one, the architecture and the serial channels that are
attached. -/
structure ConsoleBuild where
  guests : Bool
  bootGuestPresent : Bool
  bootGuestSecondary : Bool
  arch : UInt32
  serialAttached : UInt32 -> Bool

structure ConsoleState where
  client : VmClient
  logSlots : Fin ccLogSlots -> LogSlot
  bootGuestPresent : Bool
  bootGuestState : UInt32

def emptyLogSlot : LogSlot := ⟨false, 0, 0⟩

def ConsoleState.init (build : ConsoleBuild) : ConsoleState :=
  ⟨ccVmClientInit true, fun _ => emptyLogSlot, build.bootGuestPresent, guestStateRunning⟩

/-- The calls of the VM manager and of the boot guest's VMM, and the serial queues. -/
inductive ConsoleOp where
  | vm (rpc : VmRpc)
  | bootGuest (msg : Sel4Msg)
  | serialRead (slot max : UInt32)
  | serialSignal

/-- A read that fails has no bytes. -/
abbrev ConsoleAns : ConsoleOp -> Type
  | .vm _ => VmReply
  | .bootGuest _ => Sel4Msg
  | .serialRead _ _ => Option (List UInt8)
  | .serialSignal => Unit

abbrev ConsoleIo : Interface := ⟨ConsoleOp, ConsoleAns⟩

abbrev ConsoleM := Prog ConsoleIo

/-- A call of the client, made by the console. -/
def viaVm {α : Type} (program : VmM α) : ConsoleM α :=
  Prog.lift (J := ConsoleIo) ConsoleOp.vm (fun _ reply => reply) program

/-- The registers and the shared bytes of a request, MR1 being `mr0`. -/
structure ConsoleReq where
  mr0 : UInt32
  mr1 : UInt32
  mr2 : UInt32
  shmem : Payload

structure ConsoleReply where
  mr0 : UInt32
  mr1 : UInt32
  mr2 : UInt32
  shmem : List UInt8

def replyWith (mr0 mr1 mr2 : UInt32) : ConsoleReply := ⟨mr0, mr1, mr2, []⟩

section Code

variable (build : ConsoleBuild)

/-! ## Serial channels -/

@[simp]
def aosSerialClients : UInt32 := 3

@[simp]
def ccWireShmemSize : UInt32 := 4096

def ccBootGuestOsType : UInt32 :=
  if build.bootGuestSecondary then vibeosProfileSecondary else vibeosProfilePrimary

def bootSerialSlot : UInt32 := if ccBootGuestOsType build = vibeosProfileSecondary then 1 else 0

def serialUsable (input : Bool) (slot state : UInt32) : Option UInt32 :=
  if build.serialAttached slot && state != guestStateDead && (!input || state == guestStateRunning)
  then some slot else none

/-- The channel of a guest.  The loop over the entries is that of `lookup`, for a handle that
is not 0. -/
def ccSerialSlot (s : ConsoleState) (handle : UInt32) (input : Bool) : ConsoleM (Option UInt32) :=
  if handle = ccBootGuestHandle then
    if !s.bootGuestPresent then pure none
    else pure (serialUsable build input (bootSerialSlot build) s.bootGuestState)
  else
    match lookup s.client handle with
    | none => pure none
    | some i =>
      if aosSerialClients <= (s.client.entries i).slot ||
          (s.client.entries i).devices &&& vibeosDevSerial == 0 then pure none
      else do
        let (rc, status) <- viaVm (ccVmStatus build.arch s.client handle)
        if rc != ccOk then pure none
        else pure (serialUsable build input (s.client.entries i).slot status.state)

def signalIf (wanted : Bool) : ConsoleM Unit :=
  if wanted then Prog.perform (I := ConsoleIo) .serialSignal else pure ()

def ccSerialDrain (s : ConsoleState) (handle max : UInt32) : ConsoleM (Option (List UInt8)) := do
  let channel <- ccSerialSlot build s handle false
  match channel with
  | none => pure none
  | some slot => do
    let bytes <- Prog.perform (I := ConsoleIo) (.serialRead slot max)
    match bytes with
    | none => pure none
    | some bytes => do
      signalIf (!bytes.isEmpty)
      pure (some bytes)

/-! ## Log slots -/

@[simp]
def ccLogSlotBoot : UInt32 := 0

@[simp]
def tracePdController : UInt32 := 0

@[simp]
def tracePdGuestVmmPrimary : UInt32 := 41

@[simp]
def tracePdGuestVmmSecondary : UInt32 := 42

@[simp]
def ccLogAddressHandle : UInt32 := 1

/-- Slots 1 to 7. -/
def guestLogSlots : List (Fin ccLogSlots) := (List.finRange ccLogSlots).tail

def ConsoleState.setLogSlot (s : ConsoleState) (i : Fin ccLogSlots) (slot : LogSlot) :
    ConsoleState :=
  { s with logSlots := Function.update s.logSlots i slot }

/-- The slot of a guest, which may be a new one. -/
def ccLogSlotForHandle (s : ConsoleState) (guestHandle pdId : UInt32) :
    Option (Fin ccLogSlots) × ConsoleState :=
  match guestLogSlots.find? fun i =>
      (s.logSlots i).inUse && (s.logSlots i).guestHandle == guestHandle with
  | some i => (some i, s)
  | none =>
    match guestLogSlots.find? fun i => !(s.logSlots i).inUse with
    | some i => (some i, s.setLogSlot i ⟨true, guestHandle, pdId⟩)
    | none => (none, s)

/-- The slot in use that a number names. -/
def slotInUse (s : ConsoleState) (number : UInt32) : Option (Fin ccLogSlots) :=
  if h : 0 < number.toNat /\ number.toNat < ccLogSlots then
    if (s.logSlots ⟨number.toNat, h.2⟩).inUse then some ⟨number.toNat, h.2⟩ else none
  else none

def isGuestVmm (pdId : UInt32) : Bool :=
  pdId == tracePdGuestVmmPrimary || pdId == tracePdGuestVmmSecondary

/-- The reply to a drain. -/
def drainedReply (number : UInt32) (bytes : List UInt8) : ConsoleReply :=
  ⟨ccOk, UInt32.ofNat bytes.length, number, bytes⟩

def streamHandle (s : ConsoleState) (handle number failure : UInt32) :
    ConsoleM (ConsoleReply × ConsoleState) := do
  let drained <- ccSerialDrain build s handle ccWireShmemSize
  match drained with
  | some bytes => pure (drainedReply number bytes, s)
  | none => pure (replyWith failure 0 0, s)

def handleLogStream (s : ConsoleState)
    (req : ConsoleReq) : ConsoleM (ConsoleReply × ConsoleState) :=
  if !build.guests then pure (replyWith ccOk 0 0, s)
  else if req.mr2 != 0 then
    if req.mr2 != ccLogAddressHandle || req.mr1 != 0 then pure (replyWith ccErrInvalidArg 0 0, s)
    else streamHandle build s req.mr0 req.mr0 ccErrBadHandle
  else if req.mr0 = ccLogSlotBoot /\ req.mr1 = tracePdController then
    streamHandle build s ccBootGuestHandle ccLogSlotBoot ccErrRelayFault
  else
    match slotInUse s req.mr0 with
    | some i => streamHandle build s (s.logSlots i).guestHandle req.mr0 ccErrBadHandle
    | none =>
      if isGuestVmm req.mr1 then
        match ccLogSlotForHandle s req.mr0 req.mr1 with
        | (none, s) => pure (replyWith ccErrNoSessions 0 0, s)
        | (some i, s) => streamHandle build s req.mr0 (.ofNat i) ccErrBadHandle
      else pure (replyWith ccOk 0 0, s)

/-! ## Lifecycle -/

def handleCreateGuest (s : ConsoleState) (req : ConsoleReq) :
    ConsoleM (ConsoleReply × ConsoleState) :=
  if (req.shmem 1).toUInt32 != build.arch then pure (replyWith ccErrRelayFault 0 0, s)
  else if build.guests && s.bootGuestPresent && (req.shmem 0).toUInt32 == ccBootGuestOsType build then
    pure (replyWith ccErrRelayFault 0 0, s)
  else do
    let (out, client) <- viaVm (ccVmCreate s.client (req.shmem 0).toUInt32 (rd32 req.shmem 4)
      (rd32 req.shmem 16))
    if out.rc == ccOk then pure (replyWith out.rc out.handle 0, { s with client := client })
    else pure (replyWith out.rc 0 out.handle, { s with client := client })

def bootGuestMsg (opcode reason : UInt32) : Sel4Msg :=
  if opcode = msgGuestDestroy then
    ⟨opcode, 8, wr32 (wr32 (fun _ => 0) 0 ccBootGuestHandle) 4 reason⟩
  else ⟨opcode, 4, wr32 (fun _ => 0) 0 ccBootGuestHandle⟩

/-- The boot guest after a request that its VMM accepted. -/
def bootGuestAfter (s : ConsoleState) (opcode : UInt32) : Option ConsoleState :=
  if opcode = msgGuestSuspend then some { s with bootGuestState := guestStateSuspended }
  else if opcode = msgGuestResume then some { s with bootGuestState := guestStateRunning }
  else if opcode = msgGuestDestroy then
    some { s with bootGuestState := guestStateDead, bootGuestPresent := false }
  else none

def ccLifecycleBootGuest (s : ConsoleState) (opcode reason : UInt32) :
    ConsoleM (Option ConsoleState) := do
  if !s.bootGuestPresent then pure none
  else do
    let reply <- Prog.perform (I := ConsoleIo) (.bootGuest (bootGuestMsg opcode reason))
    if reply.opcode != guestOk then pure none else pure (bootGuestAfter s opcode)

def handleBootGuest (s : ConsoleState) (opcode reason : UInt32) (withState : Bool) :
    ConsoleM (ConsoleReply × ConsoleState) :=
  if !s.bootGuestPresent then pure (replyWith ccErrBadHandle 0 0, s)
  else do
    let after <- ccLifecycleBootGuest s opcode reason
    match after with
    | none => pure (replyWith ccErrRelayFault 0 0, s)
    | some s => pure (replyWith ccOk (if withState then s.bootGuestState else 0) 0, s)

/-- SUSPEND and RESUME. -/
def handleLifecycle (bootOpcode vmOp : UInt32) (s : ConsoleState) (req : ConsoleReq) :
    ConsoleM (ConsoleReply × ConsoleState) :=
  if build.guests && req.mr0 == ccBootGuestHandle then handleBootGuest s bootOpcode 0 true
  else do
    let (rc, state, client) <- viaVm (ccVmLifecycle s.client vmOp req.mr0)
    if rc == ccOk then pure (replyWith rc state 0, { s with client := client })
    else pure (replyWith rc 0 0, { s with client := client })

def handleSuspendGuest : ConsoleState -> ConsoleReq -> ConsoleM (ConsoleReply × ConsoleState) :=
  handleLifecycle build msgGuestSuspend vmManagerOpStop

def handleResumeGuest : ConsoleState -> ConsoleReq -> ConsoleM (ConsoleReply × ConsoleState) :=
  handleLifecycle build msgGuestResume vmManagerOpResume

def clearLogSlots (s : ConsoleState) (handle : UInt32) : ConsoleState :=
  { s with logSlots := fun i =>
      if i.val ≠ 0 /\ (s.logSlots i).inUse = true /\ (s.logSlots i).guestHandle = handle then
        emptyLogSlot
      else s.logSlots i }

def handleDestroyGuest (s : ConsoleState) (req : ConsoleReq) :
    ConsoleM (ConsoleReply × ConsoleState) :=
  if build.guests && req.mr0 == ccBootGuestHandle then
    handleBootGuest s msgGuestDestroy req.mr1 false
  else do
    let (rc, _, client) <- viaVm (ccVmLifecycle s.client vmManagerOpDestroy req.mr0)
    if rc == ccOk then
      pure (replyWith rc 0 0, clearLogSlots { s with client := client } req.mr0)
    else pure (replyWith rc 0 0, { s with client := client })

/-! ## Requests -/

inductive ConsoleRequest where
  | createGuest (req : ConsoleReq)
  | suspendGuest (req : ConsoleReq)
  | resumeGuest (req : ConsoleReq)
  | destroyGuest (req : ConsoleReq)
  | logStream (req : ConsoleReq)

def serveRequest (s : ConsoleState) : ConsoleRequest -> ConsoleM (ConsoleReply × ConsoleState)
  | .createGuest req => handleCreateGuest build s req
  | .suspendGuest req => handleSuspendGuest build s req
  | .resumeGuest req => handleResumeGuest build s req
  | .destroyGuest req => handleDestroyGuest build s req
  | .logStream req => handleLogStream build s req

end Code

end AgentOs.Console
