import AgentOs.GuestVmm.Runtime

/-!
# The VM manager

`vm_manager.c` keeps a table of slots and relays lifecycle requests to the VMMs that are
dedicated to a guest.  The multiplexer behind the other slots, `vmm_mux_stub.c`, supports
nothing.
-/

namespace AgentOs.VmManager

open Library Ipc GuestVmm

/-! ## State -/

inductive VmSlotState where
  | free | booting | running | suspended | halted | error
  deriving DecidableEq

/-- The dedicated VMMs, which the manager names by their endpoints. -/
inductive VmmPd where
  | primary | secondary
  deriving DecidableEq

/-- What the manager keeps for a slot: `vm_slot_t` and the tables next to it. -/
structure VmSlot where
  state : VmSlotState
  vmType : UInt32
  flags : UInt32
  vmmEp : Option VmmPd
  guestId : UInt32
  guestBound : Bool

/-- `vm_slot_quota_t`. -/
structure Quota where
  maxCpuPct : Nat
  credits : Int
  runTicks : Nat
  preemptCount : Nat

structure Manager where
  slots : Nat -> VmSlot
  slotCount : Nat
  activeSlot : Nat
  quotas : Nat -> Quota
  schedCurrent : Nat
  ipcCounter : Nat

/-- What the build decides: the VMMs it has, their RAM, and whether the manager prepares the
interrupt controller and the scheduling of a guest. -/
structure ManagerBuild where
  hasPrimary : Bool
  hasSecondary : Bool
  primaryRamMb : UInt32
  secondaryRamMb : UInt32
  prepares : Bool

@[simp]
def vmMaxSlots : Nat := 4

@[simp]
def vmProfilePrimary : UInt32 := 0

@[simp]
def vmProfileSecondary : UInt32 := 1

def freeSlot : VmSlot := ⟨.free, vmProfilePrimary, 0, none, 0, false⟩

def Manager.init : Manager where
  slots _ := freeSlot
  slotCount := 0
  activeSlot := 0
  quotas _ := ⟨100 / vmMaxSlots, 0, 0, 0⟩
  schedCurrent := 0
  ipcCounter := 0

def Manager.setSlot (m : Manager) (i : Nat) (slot : VmSlot) : Manager :=
  { m with slots := Function.update m.slots i slot }

@[simp]
theorem setSlot_slots_self (m : Manager) (i : Nat) (slot : VmSlot) :
    (m.setSlot i slot).slots i = slot := by
  simp [Manager.setSlot]

theorem setSlot_slots_of_ne (m : Manager) {i j : Nat} (hj : j ≠ i) (slot : VmSlot) :
    (m.setSlot i slot).slots j = m.slots j := by
  simp [Manager.setSlot, Function.update_of_ne hj]

def Manager.setQuota (m : Manager) (i : Nat) (quota : Quota) : Manager :=
  { m with quotas := Function.update m.quotas i quota }

/-! ## Requests to the VMMs -/

inductive ManagerOp where
  | call (ep : VmmPd) (msg : Sel4Msg)
  | gicPrepare (client : Nat)
  | schedulingConfigure (client : Nat)

abbrev ManagerAns : ManagerOp -> Type
  | .call _ _ => Sel4Msg
  | .gicPrepare _ => Bool
  | .schedulingConfigure _ => Bool

abbrev ManagerIo : Interface := ⟨ManagerOp, ManagerAns⟩

abbrev ManagerM := Prog ManagerIo

section Code

variable (build : ManagerBuild)

def vmEndpointForType (vmType : UInt32) : Option VmmPd :=
  if vmType = vmProfileSecondary then if build.hasSecondary then some .secondary else none
  else if build.hasPrimary then some .primary else none

def dedicatedVmmOsType (vmType : UInt32) : UInt32 := vmType + 1

def dedicatedRamCapacityMb (vmType : UInt32) : UInt32 :=
  if vmType = vmProfileSecondary then build.secondaryRamMb else build.primaryRamMb

def dedicatedSlotForType (vmType : UInt32) : Nat :=
  if build.hasPrimary && build.hasSecondary then if vmType = vmProfilePrimary then 0 else 1
  else 0

/-- The answer to a CREATE binds the slot to the identity that it names. -/
def bindGuest (m : Manager) (slotId : Nat) (rep : Sel4Msg) : Bool × Manager :=
  if rep.length != 8 || rd32 rep.data 0 != guestOk then (false, m)
  else (true, m.setSlot slotId
    { m.slots slotId with guestId := rd32 rep.data 4, guestBound := true })

/-- Every request but CREATE goes to the identity that CREATE returned. -/
def guestRequest (slot : VmSlot) (opcode : UInt32) (payload : Payload) (length : UInt32) :
    Option Sel4Msg :=
  if opcode = msgGuestCreate then some ⟨opcode, length, payload⟩
  else if !slot.guestBound || length < 4 then none
  else some ⟨opcode, length, wr32 payload 0 slot.guestId⟩

def dedicatedGuestRpc (m : Manager) (slotId : Nat) (opcode : UInt32) (payload : Payload)
    (length : UInt32) : ManagerM (Bool × Manager) :=
  match (m.slots slotId).vmmEp with
  | none => pure (false, m)
  | some ep =>
    if vmMaxSlots <= slotId || length > sel4MsgDataBytes then pure (false, m)
    else
      match guestRequest (m.slots slotId) opcode payload length with
      | none => pure (false, m)
      | some req => do
        let rep <- Prog.perform (I := ManagerIo) (.call ep req)
        if rep.opcode != guestOk then pure (false, m)
        else if opcode = msgGuestCreate then pure (bindGuest m slotId rep)
        else pure (true, m)

def callLength (opcode : UInt32) : UInt32 := if opcode = msgGuestDestroy then 8 else 4

/-- The payload is all zero: `GUEST_DESTROY_NORMAL` is 0. -/
def dedicatedGuestCall (m : Manager) (slotId : Nat) (opcode : UInt32) (nextState : VmSlotState) :
    ManagerM (Bool × Manager) := do
  let (ok, m) <- dedicatedGuestRpc m slotId opcode (fun _ => 0) (callLength opcode)
  if !ok then pure (false, m)
  else pure (true, m.setSlot slotId { m.slots slotId with state := nextState })

/-! ## Create and destroy -/

def prepareGuest (ep : VmmPd) : ManagerM Bool :=
  if !build.prepares then pure true
  else do
    let client := if ep = .secondary then 1 else 0
    let ok <- Prog.perform (I := ManagerIo) (.gicPrepare client)
    if !ok then pure false else Prog.perform (I := ManagerIo) (.schedulingConfigure client)

/-- Slot data of a guest that is about to be created. -/
def reserveSlot (m : Manager) (slotId : Nat) (vmType flags : UInt32) (ep : VmmPd) : Manager :=
  { m.setSlot slotId ⟨.running, vmType, flags, some ep, 0, false⟩ with
    slotCount := m.slotCount + 1, activeSlot := slotId }

/-- The slot is free again. -/
def releaseSlot (m : Manager) (slotId : Nat) : Manager :=
  { m.setSlot slotId freeSlot with slotCount := m.slotCount - 1 }

@[simp]
theorem reserveSlot_slots_self (m : Manager) (i : Nat) (vmType flags : UInt32) (ep : VmmPd) :
    (reserveSlot m i vmType flags ep).slots i = ⟨.running, vmType, flags, some ep, 0, false⟩ :=
  setSlot_slots_self m i _

@[simp]
theorem releaseSlot_slots_self (m : Manager) (i : Nat) : (releaseSlot m i).slots i = freeSlot :=
  setSlot_slots_self m i freeSlot

inductive CreateResult where
  | created (slotId : Nat) | noVmm | busy | failed | tooLarge

/-- CREATE, the preparation and BOOT, each only when those before it succeeded. -/
def createAndBoot (m : Manager) (slotId : Nat) (vmType : UInt32) (ep : VmmPd) :
    ManagerM (Bool × Manager) := do
  let (created, m) <- dedicatedGuestRpc m slotId msgGuestCreate
    (wr32 (fun _ => 0) 0 (dedicatedVmmOsType vmType)) 4
  if !created then pure (false, m)
  else do
    let prepared <- prepareGuest build ep
    if !prepared then pure (false, m)
    else dedicatedGuestCall m slotId msgGuestBoot .running

def dedicatedCreate (m : Manager) (vmType ramMb flags : UInt32) :
    ManagerM (CreateResult × Manager) :=
  match vmEndpointForType build vmType with
  | none => pure (.noVmm, m)
  | some ep =>
    if ramMb > dedicatedRamCapacityMb build vmType then pure (.tooLarge, m)
    else if (m.slots (dedicatedSlotForType build vmType)).state != .free then pure (.busy, m)
    else do
      let slotId := dedicatedSlotForType build vmType
      let (ok, m) <- createAndBoot build (reserveSlot m slotId vmType flags ep) slotId vmType ep
      if ok then pure (.created slotId, m) else pure (.failed, releaseSlot m slotId)

def dedicatedDestroy (m : Manager) (slotId : Nat) : ManagerM (Bool × Manager) := do
  let (ok, m) <- dedicatedGuestCall m slotId msgGuestDestroy .halted
  if !ok then pure (false, m) else pure (true, releaseSlot m slotId)

/-! ## Scheduling -/

@[simp]
def schedCreditQuantum : Int := 1

@[simp]
def schedCreditsPerPct : Nat := 4

def Manager.active (m : Manager) (i : Nat) : Bool :=
  (m.slots i).state == .running || (m.slots i).state == .booting

def Manager.runnable (m : Manager) (i : Nat) : Bool := m.active i && 0 < (m.quotas i).maxCpuPct

def Manager.recharge (m : Manager) (i : Nat) : Manager :=
  m.setQuota i { m.quotas i with credits := (m.quotas i).maxCpuPct * schedCreditsPerPct }

def countTicks (m : Manager) : Manager :=
  { m with quotas := fun i =>
      if i < vmMaxSlots && m.active i then
        { m.quotas i with runTicks := (m.quotas i).runTicks + 1 }
      else m.quotas i }

/-- The stub's pause and resume have no effect. -/
def vmSchedTick (m : Manager) : Manager :=
  let cur := m.schedCurrent
  let m := countTicks m
  if !m.runnable cur then
    match (List.range vmMaxSlots).find? m.runnable with
    | some i => { m.recharge i with schedCurrent := i }
    | none => m
  else
    let m := m.setQuota cur
      { m.quotas cur with credits := (m.quotas cur).credits - schedCreditQuantum }
    if 0 < (m.quotas cur).credits then m
    else
      match ((List.range vmMaxSlots).map fun step => (cur + (step + 1)) % vmMaxSlots).find?
          (fun candidate => m.runnable candidate && candidate != cur) with
      | none => m.recharge cur
      | some next =>
        let m := m.setQuota cur
          { m.quotas cur with preemptCount := (m.quotas cur).preemptCount + 1 }
        { m.recharge next with schedCurrent := next }

/-! ## Handlers -/

@[simp]
def vmOk : UInt32 := 0

@[simp]
def vmErr : UInt32 := 1

@[simp]
def sel4ErrInvalidOp : UInt32 := 1

@[simp]
def sel4ErrBadArg : UInt32 := 4

@[simp]
def sel4ErrNoMem : UInt32 := 5

@[simp]
def sel4ErrBusy : UInt32 := 6

@[simp]
def sel4ErrInternal : UInt32 := 8

def vmArgU32 (req : Sel4Msg) (arg : Nat) : UInt32 :=
  if req.length.toNat >= arg * 4 + 4 then rd32 req.data (arg * 4) else rd32 req.data (arg * 4 + 4)

/-- Slot ids are bytes. -/
def slotArg (req : Sel4Msg) : Nat := (vmArgU32 req 0).toUInt8.toNat

def isProfile (word : UInt32) : Bool := word == vmProfilePrimary || word == vmProfileSecondary

@[simp]
def opVmCreate : UInt32 := 0x10

@[simp]
def opVmDestroy : UInt32 := 0x11

@[simp]
def opVmStart : UInt32 := 0x12

@[simp]
def opVmStop : UInt32 := 0x13

@[simp]
def opVmPause : UInt32 := 0x14

@[simp]
def opVmResume : UInt32 := 0x15

def vmCreateVmType (req : Sel4Msg) : UInt32 :=
  if isProfile (rd32 req.data 0) then rd32 req.data 0 else vmProfilePrimary

def vmCreateRamMb (req : Sel4Msg) : UInt32 :=
  if isProfile (rd32 req.data 0) then rd32 req.data 4
  else if rd32 req.data 0 = opVmCreate then rd32 req.data 8
  else rd32 req.data 4

def vmCreateFlags (req : Sel4Msg) : UInt32 :=
  if isProfile (rd32 req.data 0) then rd32 req.data 8 else 0

def resultReply (rep : Sel4Msg) (err status : UInt32) : Sel4Msg := ⟨err, 4, wr32 rep.data 0 status⟩

def createdReply (rep : Sel4Msg) (slotId : Nat) : Sel4Msg :=
  ⟨sel4ErrOk, 8, wr32 (wr32 rep.data 0 vmOk) 4 (.ofNat slotId)⟩

/-- The reply to what `dedicated_create` returned.  Without a dedicated VMM the stub is asked,
and finds no slot. -/
def createReplyFor (rep : Sel4Msg) : CreateResult -> Sel4Msg
  | .created slotId => createdReply rep slotId
  | .noVmm => resultReply rep sel4ErrNoMem vmErr
  | .busy => resultReply rep sel4ErrBusy vmErr
  | .failed => resultReply rep sel4ErrInternal vmErr
  | .tooLarge => resultReply rep sel4ErrBadArg vmErr

def hCreate (m : Manager) (req rep : Sel4Msg) : ManagerM (Sel4Msg × Manager) := do
  let ramMb := vmCreateRamMb req
  if ramMb != 0 && (ramMb < 64 || ramMb &&& 3 != 0) then
    pure (resultReply rep sel4ErrBadArg vmErr, m)
  else do
    let (result, m) <- dedicatedCreate build m (vmCreateVmType req) ramMb (vmCreateFlags req)
    pure (createReplyFor rep result, m)

/-- A slot with a dedicated VMM. -/
def Manager.dedicated (m : Manager) (slotId : Nat) : Bool :=
  decide (slotId < vmMaxSlots) && (m.slots slotId).vmmEp.isSome

def statusReply (rep : Sel4Msg) (ok : Bool) : Sel4Msg :=
  resultReply rep sel4ErrOk (if ok then vmOk else vmErr)

def hDestroy (m : Manager) (req rep : Sel4Msg) : ManagerM (Sel4Msg × Manager) := do
  if m.dedicated (slotArg req) then do
    let (ok, m) <- dedicatedDestroy m (slotArg req)
    pure (statusReply rep ok, m)
  else pure (statusReply rep false, m)

/-- A request that only changes the state of the slot. -/
def hRelay (opcode : UInt32) (nextState : VmSlotState) (m : Manager) (req rep : Sel4Msg) :
    ManagerM (Sel4Msg × Manager) := do
  if m.dedicated (slotArg req) then do
    let (ok, m) <- dedicatedGuestCall m (slotArg req) opcode nextState
    pure (statusReply rep ok, m)
  else pure (statusReply rep false, m)

def hPause : Manager -> Sel4Msg -> Sel4Msg -> ManagerM (Sel4Msg × Manager) :=
  hRelay msgGuestSuspend .suspended

def hResume : Manager -> Sel4Msg -> Sel4Msg -> ManagerM (Sel4Msg × Manager) :=
  hRelay msgGuestResume .running

/-- A slot in use; one without a VMM that runs already needs no start. -/
def hStart (m : Manager) (req rep : Sel4Msg) : ManagerM (Sel4Msg × Manager) := do
  if decide (slotArg req < vmMaxSlots) && (m.slots (slotArg req)).state != .free then
    if (m.slots (slotArg req)).vmmEp.isSome then do
      let (ok, m) <- dedicatedGuestCall m (slotArg req) msgGuestResume .running
      pure (statusReply rep ok, m)
    else pure (statusReply rep (m.active (slotArg req)), m)
  else pure (statusReply rep false, m)

def hStop (m : Manager) (req rep : Sel4Msg) : ManagerM (Sel4Msg × Manager) := do
  if decide (slotArg req < vmMaxSlots) && (m.slots (slotArg req)).state != .free then
    if (m.slots (slotArg req)).vmmEp.isSome then do
      let (ok, m) <- dedicatedGuestCall m (slotArg req) msgGuestSuspend .suspended
      pure (statusReply rep ok, m)
    else pure (statusReply rep false, m)
  else pure (statusReply rep false, m)

/-- `sel4_server_dispatch` for the lifecycle requests. -/
def dispatch (m : Manager) (req rep : Sel4Msg) : ManagerM (Sel4Msg × Manager) :=
  if req.opcode = opVmCreate then hCreate build m req rep
  else if req.opcode = opVmDestroy then hDestroy m req rep
  else if req.opcode = opVmStart then hStart m req rep
  else if req.opcode = opVmStop then hStop m req rep
  else if req.opcode = opVmPause then hPause m req rep
  else if req.opcode = opVmResume then hResume m req rep
  else pure (⟨sel4ErrInvalidOp, 0, rep.data⟩, m)

@[simp]
def vmSchedIpcQuantum : Nat := 16

/-- Every message counts, and every sixteenth is a tick of the scheduler. -/
def countMessage (m : Manager) : Manager :=
  if vmSchedIpcQuantum <= m.ipcCounter + 1 then vmSchedTick { m with ipcCounter := 0 }
  else { m with ipcCounter := m.ipcCounter + 1 }

/-- One turn of the loop in `vm_manager_main`. -/
def serveMessage (m : Manager) (req : Sel4Msg) : ManagerM (Sel4Msg × Manager) :=
  dispatch build (countMessage m) req emptyMsg

end Code

end AgentOs.VmManager
