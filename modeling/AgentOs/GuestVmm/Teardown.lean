import AgentOs.Library.Resumable

/-!
# Guest teardown

`aos_guest_teardown_step` quiesces the devices, detaches the backends, revokes the pools and
releases RAM and paging.  Any of that may fail; the record keeps what is done, and the next call
goes on from there.
-/

namespace AgentOs.GuestVmm

open Library Prog Resumable

/-- What the build leaves in. -/
structure TeardownBuild where
  /-- `AGENTOS_GUEST_INPUT` -/
  input : Bool
  /-- `AGENTOS_GUEST_GRAPHICS` -/
  graphics : Bool
  /-- `AGENTOS_X86_FIRMWARE_RESET` -/
  firmwareReset : Bool

inductive Backend where
  | network | block | serial | input | graphics
  deriving DecidableEq

/-- `aos_guest_teardown_t`. -/
structure Teardown where
  devicesQuiesced : Bool
  networkDetached : Bool
  blockDetached : Bool
  serialDetached : Bool
  inputDetached : Bool
  graphicsDetached : Bool
  queuePoolsReleased : Nat
  graphicsPoolsReleased : Nat
  executionReleased : Bool
  ramReleased : Bool
  pagingReleased : Bool

def Teardown.zero : Teardown :=
  ⟨false, false, false, false, false, false, 0, 0, false, false, false⟩

/-- Which devices have nothing left in flight. -/
structure Quiesced where
  consoleDone : Bool
  blockDone : Bool
  graphicsDone : Bool

/-- The calls that quiesce the devices follow each other without a branch, and are one
request.  `controlTransition` asks whether both executors are idle; `retire` is what x86 does
at the end. -/
inductive TeardownOp where
  | quiesce
  | detach (backend : Backend)
  | revoke (slot : Nat)
  | ramRelease (size : Nat)
  | pagingRelease
  | controlTransition
  | retire

abbrev TeardownAns : TeardownOp -> Type
  | .quiesce => Quiesced
  | .detach _ => Bool
  | .revoke _ => Bool
  | .ramRelease _ => Bool
  | .pagingRelease => Bool
  | .controlTransition => Bool
  | .retire => Unit

abbrev TeardownIo : Interface := ⟨TeardownOp, TeardownAns⟩

abbrev TeardownM := Prog TeardownIo

@[simp]
def aosGuestExecutionPoolCap : Nat := 461

@[simp]
def aosGuestQueuePoolBase : Nat := 465

@[simp]
def aosGuestQueueInput : Nat := 3

@[simp]
def aosGuestQueuePoolCount : Nat := 4

@[simp]
def aosGuestGraphicsPoolBase : Nat := 480

@[simp]
def aosGuestGraphicsPoolCount : Nat := 13

abbrev detachBackend (backend : Backend) : TeardownM Bool :=
  perform (I := TeardownIo) (.detach backend)

abbrev revokePool (slot : Nat) : TeardownM Bool := perform (I := TeardownIo) (.revoke slot)

/-- Return at the first failure. -/
def orReturn (first : TeardownM (Bool × Teardown))
    (next : Teardown -> TeardownM (Bool × Teardown)) : TeardownM (Bool × Teardown) := do
  let result <- first
  if result.1 then next result.2 else pure (false, result.2)

/-- Unless it is done, do it and note that it is done. -/
def unlessDone (done : Bool) (act : TeardownM Bool) (s noted : Teardown) :
    TeardownM (Bool × Teardown) :=
  if done then pure (true, s)
  else do
    let ok <- act
    if ok then pure (true, noted) else pure (false, s)

section Code

variable (build : TeardownBuild) (ramSize : Nat)

/-- No device is skipped, even when one of them is not done. -/
def quiesceDevices : TeardownM Bool := do
  let quiesced <- perform (I := TeardownIo) .quiesce
  pure (quiesced.consoleDone && quiesced.blockDone && (!build.graphics || quiesced.graphicsDone))

def queueCount : Nat := if build.input then aosGuestQueuePoolCount else aosGuestQueueInput

/-- The loop runs at most once for each pool. -/
def releaseQueuePools : Nat -> Teardown -> TeardownM (Bool × Teardown) :=
  Stages.countedLoop (queueCount build) Teardown.queuePoolsReleased
    (fun i => revokePool (aosGuestQueuePoolBase + i))
    fun s => { s with queuePoolsReleased := s.queuePoolsReleased + 1 }

def releaseGraphicsPools : Nat -> Teardown -> TeardownM (Bool × Teardown) :=
  Stages.countedLoop aosGuestGraphicsPoolCount Teardown.graphicsPoolsReleased
    (fun i => revokePool (aosGuestGraphicsPoolBase + i))
    fun s => { s with graphicsPoolsReleased := s.graphicsPoolsReleased + 1 }

def detachDevices (s : Teardown) : TeardownM (Bool × Teardown) :=
  orReturn (unlessDone s.networkDetached (detachBackend .network) s
    { s with networkDetached := true }) fun s =>
  orReturn (unlessDone s.blockDetached (detachBackend .block) s
    { s with blockDetached := true }) fun s =>
  orReturn (unlessDone s.serialDetached (detachBackend .serial) s
    { s with serialDetached := true }) fun s =>
  orReturn (unlessDone s.inputDetached (if build.input then detachBackend .input else pure true) s
    { s with inputDetached := true }) fun s =>
  unlessDone s.graphicsDetached (if build.graphics then detachBackend .graphics else pure true) s
    { s with graphicsDetached := true }

def releaseMemory (s : Teardown) : TeardownM (Bool × Teardown) :=
  orReturn (unlessDone s.executionReleased (revokePool aosGuestExecutionPoolCap) s
    { s with executionReleased := true }) fun s =>
  orReturn (unlessDone s.ramReleased (perform (I := TeardownIo) (.ramRelease ramSize)) s
    { s with ramReleased := true }) fun s =>
  unlessDone s.pagingReleased
    (if build.firmwareReset then pure true else perform (I := TeardownIo) .pagingRelease) s
    { s with pagingReleased := true }

def aosGuestTeardownStep (s : Teardown) : TeardownM (Bool × Teardown) :=
  if ramSize = 0 then pure (false, s)
  else
    orReturn (unlessDone s.devicesQuiesced (quiesceDevices build) s
      { s with devicesQuiesced := true }) fun s =>
    orReturn (detachDevices build s) fun s =>
    orReturn (releaseQueuePools build (queueCount build) s) fun s =>
    orReturn (if build.graphics then releaseGraphicsPools aosGuestGraphicsPoolCount s
      else pure (true, s)) fun s =>
    releaseMemory build ramSize s

/-- The callback of the x86 firmware guest. -/
def controlTeardown (s : Teardown) : TeardownM (Bool × Teardown) := do
  let idle <- perform (I := TeardownIo) .controlTransition
  if !idle then pure (false, s)
  else do
    let (ok, s) <- aosGuestTeardownStep build ramSize s
    if !ok then pure (false, s)
    else do
      perform (I := TeardownIo) .retire
      pure (true, s)

end Code

end AgentOs.GuestVmm
