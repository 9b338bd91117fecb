import AgentOs.GuestVmm.Teardown
import AgentOs.Ipc.Message

/-!
# The lifecycle of a guest

`runtime.c`: the state machine behind CREATE, BOOT, SUSPEND, RESUME and DESTROY, and the restart
that a guest asks for itself.  The lifecycle word and the started flag are memory that the
callbacks use too; what a callback does is open, except that the teardown callback runs the
teardown step.
-/

namespace AgentOs.GuestVmm

open Library Prog Ipc

/-! ## Messages -/

/-- The values of the lifecycle word. -/
inductive GuestState where
  | creating | binding | ready | booting | running | suspended | dead | destroying
  deriving DecidableEq

@[simp]
def msgGuestCreate : UInt32 := 0x2A01

@[simp]
def msgGuestBoot : UInt32 := 0x2A04

@[simp]
def msgGuestSuspend : UInt32 := 0x2A05

@[simp]
def msgGuestResume : UInt32 := 0x2A06

@[simp]
def msgGuestDestroy : UInt32 := 0x2A07

@[simp]
def guestOk : UInt32 := 0

@[simp]
def guestErrBadOsType : UInt32 := 1

@[simp]
def guestErrBadGuestId : UInt32 := 3

@[simp]
def guestErrNotReady : UInt32 := 9

@[simp]
def guestErrBadState : UInt32 := 10

@[simp]
def guestErrDead : UInt32 := 13

/-! ## The callbacks -/

/-- The teardown callbacks of the VMMs. -/
inductive TeardownCallback where
  /-- `control_teardown` -/
  | control
  /-- `guest_vmm_teardown` -/
  | guestVmm
  deriving DecidableEq

/-- `aos_guest_vmm_runtime_t` of a VMM: the callbacks that are not NULL, and what the
teardown callback is built from. -/
structure GuestVmmRuntime where
  osType : UInt32
  guestId : UInt32
  start : Bool
  suspend : Bool
  resume : Bool
  quiesceTimer : Bool
  teardown : Option TeardownCallback
  reset : Bool
  build : TeardownBuild
  ramSize : Nat

/-- The loads and stores through the pointers of the runtime, and its callbacks. -/
inductive RuntimeOp where
  | state
  | started
  | setState (next : GuestState)
  | setStarted (next : Bool)
  | start
  | suspend
  | resume
  | quiesceTimer
  | teardown (callback : TeardownCallback)
  | reset

abbrev RuntimeAns : RuntimeOp -> Type
  | .state => GuestState
  | .started => Bool
  | .setState _ => Unit
  | .setStarted _ => Unit
  | .start => Bool
  | .suspend => Bool
  | .resume => Bool
  | .quiesceTimer => Unit
  | .teardown _ => Bool
  | .reset => Bool

abbrev RuntimeIo : Interface := ⟨RuntimeOp, RuntimeAns⟩

abbrev RuntimeM := Prog RuntimeIo

abbrev loadState : RuntimeM GuestState := perform (I := RuntimeIo) .state

abbrev loadStarted : RuntimeM Bool := perform (I := RuntimeIo) .started

abbrev storeState (next : GuestState) : RuntimeM Unit :=
  perform (I := RuntimeIo) (.setState next)

abbrev storeStarted (next : Bool) : RuntimeM Unit :=
  perform (I := RuntimeIo) (.setStarted next)

/-! ## The state machine -/

section Code

variable (runtime : GuestVmmRuntime)

/-- A callback that is NULL cannot succeed. -/
def callOrFail (present : Bool) (callback : RuntimeM Bool) : RuntimeM Bool :=
  if present then callback else pure false

def callStart : RuntimeM Bool := callOrFail runtime.start (perform (I := RuntimeIo) .start)

def callSuspend : RuntimeM Bool :=
  callOrFail runtime.suspend (perform (I := RuntimeIo) .suspend)

def callResume : RuntimeM Bool := callOrFail runtime.resume (perform (I := RuntimeIo) .resume)

def startUnless (started : Bool) : RuntimeM Bool := if started then pure true else callStart runtime

def resumeIf (state : GuestState) : RuntimeM Bool :=
  if state = .suspended then callResume runtime else pure true

def callQuiesceTimer : RuntimeM Unit :=
  if runtime.quiesceTimer then perform (I := RuntimeIo) .quiesceTimer else pure ()

/-- Without a teardown callback there is nothing to release. -/
def callTeardown : RuntimeM Bool :=
  match runtime.teardown with
  | some callback => perform (I := RuntimeIo) (.teardown callback)
  | none => pure true

def validGuestId (req : Sel4Msg) : Bool :=
  decide (req.length >= 4) && rd32 req.data 0 == runtime.guestId

def withStatus (rep : Sel4Msg) (status : UInt32) : Sel4Msg := { rep with opcode := status }

def createReply (rep : Sel4Msg) : Sel4Msg where
  opcode := guestOk
  length := 8
  data := wr32 (wr32 rep.data 0 guestOk) 4 runtime.guestId

/-- The end of CREATE: only stopped objects are handed out. -/
def createReady (rep : Sel4Msg) : RuntimeM Sel4Msg := do
  let state <- loadState
  let started <- loadStarted
  if state != .ready || started then pure (withStatus rep guestErrBadState)
  else pure (createReply runtime rep)

def requestedOs (req : Sel4Msg) : UInt32 := if req.length >= 4 then rd32 req.data 0 else 0

def guestCreate (req rep : Sel4Msg) : RuntimeM Sel4Msg := do
  if requestedOs req != 0 && requestedOs req != runtime.osType then
    pure (withStatus rep guestErrBadOsType)
  else do
    let state <- loadState
    if state = .destroying then pure (withStatus rep guestErrBadState)
    else if state = .dead then
      if !runtime.reset then pure (withStatus rep guestErrDead)
      else do
        let ok <- perform (I := RuntimeIo) .reset
        if !ok then pure (withStatus rep guestErrNotReady)
        else do
          storeStarted false
          storeState .ready
          createReady runtime rep
    else createReady runtime rep

def guestBoot (req rep : Sel4Msg) : RuntimeM Sel4Msg := do
  if !validGuestId runtime req then pure (withStatus rep guestErrBadGuestId)
  else do
    let state <- loadState
    if state = .dead then pure (withStatus rep guestErrDead)
    else if state != .ready && state != .running then pure (withStatus rep guestErrBadState)
    else do
      let started <- loadStarted
      let ok <- startUnless runtime started
      if !ok then pure (withStatus rep guestErrNotReady)
      else do
        storeState .running
        pure (withStatus rep guestOk)

def guestSuspend (req rep : Sel4Msg) : RuntimeM Sel4Msg := do
  if !validGuestId runtime req then pure (withStatus rep guestErrBadGuestId)
  else do
    let state <- loadState
    if state = .dead then pure (withStatus rep guestErrDead)
    else do
      let started <- loadStarted
      if !started || (state != .running && state != .suspended) then
        pure (withStatus rep guestErrBadState)
      else if state != .suspended then do
        let ok <- callSuspend runtime
        if !ok then pure (withStatus rep guestErrNotReady)
        else do
          callQuiesceTimer runtime
          storeState .suspended
          pure (withStatus rep guestOk)
      else pure (withStatus rep guestOk)

def guestResume (req rep : Sel4Msg) : RuntimeM Sel4Msg := do
  if !validGuestId runtime req then pure (withStatus rep guestErrBadGuestId)
  else do
    let state <- loadState
    if state = .dead then pure (withStatus rep guestErrDead)
    else do
      let started <- loadStarted
      if !started || (state != .running && state != .suspended) then
        pure (withStatus rep guestErrBadState)
      else do
        let ok <- resumeIf runtime state
        if !ok then pure (withStatus rep guestErrNotReady)
        else do
          storeState .running
          pure (withStatus rep guestOk)

/-- Cleanup may have revoked some resources when it fails, so the state that nothing resumes
from is stored first. -/
def guestTeardown (rep : Sel4Msg) : RuntimeM Sel4Msg := do
  storeState .destroying
  let done <- callTeardown runtime
  if !done then pure (withStatus rep guestErrNotReady)
  else do
    storeStarted false
    storeState .dead
    pure (withStatus rep guestOk)

def guestDestroy (req rep : Sel4Msg) : RuntimeM Sel4Msg := do
  if !validGuestId runtime req then pure (withStatus rep guestErrBadGuestId)
  else do
    let state <- loadState
    if state = .dead then pure (withStatus rep guestOk)
    else if state != .suspended && state != .destroying then do
      let ok <- callSuspend runtime
      if !ok then pure (withStatus rep guestErrNotReady)
      else do
        callQuiesceTimer runtime
        guestTeardown runtime rep
    else guestTeardown runtime rep

/-- `aos_guest_vmm_lifecycle_rpc`; no reply when the opcode is not one of the protocol. -/
def aosGuestVmmLifecycleRpc (req rep : Sel4Msg) : RuntimeM (Option Sel4Msg) :=
  if req.opcode = msgGuestCreate then some <$> guestCreate runtime req rep
  else if req.opcode = msgGuestBoot then some <$> guestBoot runtime req rep
  else if req.opcode = msgGuestSuspend then some <$> guestSuspend runtime req rep
  else if req.opcode = msgGuestResume then some <$> guestResume runtime req rep
  else if req.opcode = msgGuestDestroy then some <$> guestDestroy runtime req rep
  else pure none

/-! ## Restart -/

inductive RestartResult where
  | failed | wait | running
  deriving DecidableEq

def restartMsg (opcode length word : UInt32) : Sel4Msg := ⟨opcode, length, wr32 (fun _ => 0) 0 word⟩

/-- The rpc answered, and with success. -/
def succeeded (reply : Option Sel4Msg) : Bool :=
  match reply with
  | some rep => rep.opcode == guestOk
  | none => false

/-- The request is the one before it with another opcode and word. -/
def restartBoot (length : UInt32) (rep : Sel4Msg) : RuntimeM RestartResult := do
  let state <- loadState
  if state != .ready then pure .failed
  else do
    let reply <- aosGuestVmmLifecycleRpc runtime (restartMsg msgGuestBoot length runtime.guestId) rep
    if !succeeded reply then pure .failed
    else do
      let state <- loadState
      let started <- loadStarted
      if state != .running || !started then pure .failed else pure .running

def restartCreate (rep : Sel4Msg) : RuntimeM RestartResult := do
  let state <- loadState
  if state = .dead then do
    let reply <- aosGuestVmmLifecycleRpc runtime (restartMsg msgGuestCreate 4 runtime.osType) rep
    match reply with
    | some rep => if rep.opcode == guestOk then restartBoot runtime 4 rep else pure .failed
    | none => pure .failed
  else restartBoot runtime 8 rep

def aosGuestVmmRestartStep : RuntimeM RestartResult := do
  if !runtime.suspend || runtime.teardown.isNone || !runtime.reset || !runtime.start then
    pure .failed
  else do
    let state <- loadState
    if state = .running \/ state = .destroying then do
      let reply <- aosGuestVmmLifecycleRpc runtime (restartMsg msgGuestDestroy 8 runtime.guestId)
        emptyMsg
      match reply with
      | some rep => if rep.opcode == guestOk then restartCreate runtime rep else pure .wait
      | none => pure .wait
    else restartCreate runtime emptyMsg

end Code

end AgentOs.GuestVmm
