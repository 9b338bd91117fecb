import AgentOs.Library.Bits
import AgentOs.Library.Resumable

/-!
# Guest re-creation

`x86_recreate.c` and `arm_recreate.c`: a fixed list of steps builds a guest again after its
teardown.  A step that hands memory to a service makes the transaction responsible for taking it
back, whatever the step answers.  A failed step ends the transaction, and a cleanup, which may
have to be called again, detaches those services and then releases the memory.
-/

namespace AgentOs.GuestVmm

open Library

/-- `aos_x86_recreate_t` and `aos_arm_recreate_t`, which have the same fields. -/
structure Recreate (Step : Type) where
  generation : UInt32
  attemptedBackends : UInt32
  releaseNext : Nat
  failedStep : Option Step
  failed : Bool
  cleanupPending : Bool

/-- All zero, as both state variables start.  No step has failed yet. -/
def Recreate.zero {Step : Type} : Recreate Step := ⟨0, 0, 0, none, false, false⟩

inductive RecreateOp (Step : Type) where
  | step (step : Step) (generation : UInt32)
  | publish
  | retire
  | detach (backend : Nat)
  | release (resource : Nat)

abbrev RecreateAns {Step : Type} : RecreateOp Step -> Type
  | .step _ _ => Bool
  | .publish => Unit
  | .retire => Unit
  | .detach _ => Bool
  | .release _ => Bool

abbrev RecreateIo (Step : Type) : Interface := ⟨RecreateOp Step, RecreateAns⟩

abbrev RecreateM (Step : Type) := Prog (RecreateIo Step)

/-- What the two transactions differ in: the steps, the service that each step hands memory
to, the sizes, and which runs and which services are admitted. -/
structure RecreateKind (Step : Type) where
  steps : List Step
  owner : Step -> Option Nat
  backends : Nat
  releases : Nat
  admits : UInt32 -> UInt32 -> Bool
  enables : UInt32 -> Nat -> Bool

section Code

variable {Step : Type} (kind : RecreateKind Step)

/-! ## Cleanup -/

def detachBackends : List Nat -> Recreate Step -> RecreateM Step (Bool × Recreate Step)
  | [], s => pure (true, s)
  | i :: rest, s =>
    if !hasBit s.attemptedBackends i then detachBackends rest s
    else do
      let ok <- Prog.perform (I := RecreateIo Step) (.detach i)
      if ok then
        detachBackends rest
          { s with attemptedBackends := s.attemptedBackends &&& ~~~bit i }
      else pure (false, s)

/-- The loop runs at most once for each resource. -/
def releaseResources : Nat -> Recreate Step -> RecreateM Step (Bool × Recreate Step) :=
  Resumable.Stages.countedLoop kind.releases Recreate.releaseNext
    (fun i => Prog.perform (I := RecreateIo Step) (.release i))
    fun s => { s with releaseNext := s.releaseNext + 1 }

def recreateCleanup (s : Recreate Step) : RecreateM Step (Bool × Recreate Step) :=
  if !s.cleanupPending then pure (true, s)
  else do
    Prog.perform (I := RecreateIo Step) .retire
    let (ok, s) <- detachBackends (List.range kind.backends) s
    if !ok then pure (false, s)
    else do
      let (ok, s) <- releaseResources kind kind.releases s
      if !ok then pure (false, s)
      else pure (true, { s with cleanupPending := false })

/-! ## Run -/

/-- A step of a service that is not enabled is left out. -/
def stepEnabled (enabled : UInt32) (step : Step) : Bool :=
  match kind.owner step with
  | some backend => kind.enables enabled backend
  | none => true

/-- Responsibility is noted before the step is made. -/
def markAttempted (step : Step) (s : Recreate Step) : Recreate Step :=
  match kind.owner step with
  | some backend => { s with attemptedBackends := s.attemptedBackends ||| bit backend }
  | none => s

/-- The steps in order; the one that failed, if any. -/
def recreateSteps (enabled : UInt32) :
    List Step -> Recreate Step -> RecreateM Step (Option Step × Recreate Step)
  | [], s => pure (none, s)
  | step :: rest, s =>
    if !stepEnabled kind enabled step then recreateSteps enabled rest s
    else do
      let s := markAttempted kind step s
      let ok <- Prog.perform (I := RecreateIo Step) (.step step s.generation)
      if ok then recreateSteps enabled rest s else pure (some step, s)

def recreateRun (s : Recreate Step) (enabled : UInt32) : RecreateM Step (Bool × Recreate Step) :=
  if !kind.admits enabled s.attemptedBackends || s.failed || s.cleanupPending ||
      s.generation == 0xffffffff then pure (false, s)
  else do
    let (failure, s) <- recreateSteps kind enabled kind.steps
      { s with generation := s.generation + 1, releaseNext := 0 }
    match failure with
    | some step => do
      let (_, s) <- recreateCleanup kind
        { s with failedStep := some step, failed := true, cleanupPending := true }
      pure (false, s)
    | none => do
      Prog.perform (I := RecreateIo Step) .publish
      pure (true, { s with attemptedBackends := 0 })

end Code

/-! ## The two transactions -/

inductive X86RecreateStep where
  | objects | memory | nativeState | netRebind | netAdopt | blkRebind | blkAdopt | serialRebind
  | console | bind | cpu
  deriving DecidableEq

/-- Only the rebinds hand memory over; every step is made. -/
def x86Recreate : RecreateKind X86RecreateStep where
  steps := [.objects, .memory, .nativeState, .netRebind, .netAdopt, .blkRebind, .blkAdopt,
    .serialRebind, .console, .bind, .cpu]
  owner
    | .netRebind => some 0
    | .blkRebind => some 1
    | .serialRebind => some 2
    | _ => none
  backends := 3
  releases := 5
  admits _ _ := true
  enables _ _ := true

def aosX86RecreateCleanup (s : Recreate X86RecreateStep) := recreateCleanup x86Recreate s

def aosX86RecreateRun (s : Recreate X86RecreateStep) := recreateRun x86Recreate s 0

inductive ArmRecreateStep where
  | paging | ram | execution | images | nativeState | netRebind | netAdopt | blkRebind | blkAdopt
  | serialRebind | console | inputRebind | inputAdopt | graphicsStage | graphicsCommit
  | graphicsAdopt | media
  deriving DecidableEq

/-- `backend`, and the checks at the head of the run: only known services may be enabled, and
none may be left over. -/
def armRecreate : RecreateKind ArmRecreateStep where
  steps := [.paging, .ram, .execution, .images, .nativeState, .netRebind, .netAdopt, .blkRebind,
    .blkAdopt, .serialRebind, .console, .inputRebind, .inputAdopt, .graphicsStage,
    .graphicsCommit, .graphicsAdopt, .media]
  owner
    | .netRebind => some 0
    | .netAdopt => some 0
    | .blkRebind => some 1
    | .blkAdopt => some 1
    | .serialRebind => some 2
    | .console => some 2
    | .inputRebind => some 3
    | .inputAdopt => some 3
    | .graphicsStage => some 4
    | .graphicsCommit => some 4
    | .graphicsAdopt => some 4
    | _ => none
  backends := 5
  releases := 5
  admits enabled attempted := enabled &&& ~~~(bit 5 - 1) == 0 && attempted == 0
  enables := hasBit

def aosArmRecreateCleanup (s : Recreate ArmRecreateStep) := recreateCleanup armRecreate s

def aosArmRecreateRun (s : Recreate ArmRecreateStep) (enabled : UInt32) :=
  recreateRun armRecreate s enabled

end AgentOs.GuestVmm
