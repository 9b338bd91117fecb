import AgentOs.Library.Program
import Mathlib.Data.List.Basic

/-!
# The runner of one virtual CPU

A coordinator asks a runner, a protection domain of its own, to enter the guest once.  The
runner reserves a sequence number before it enters (`x86_runner.c`, `x86_runner_pd.c`), and the
coordinator accepts a reply only for the number it has just sent (`x86_runner_client.c`).
-/

namespace AgentOs.X86

open Library Prog

def aosX86RunnerVersion : UInt64 := 1
def aosX86RunnerOwnerBadge : UInt64 := 1
def aosX86RunnerEnter : UInt64 := 1
def aosX86RunnerReturn : UInt64 := 2
def aosX86RunnerReject : UInt64 := 3
def aosX86RunnerFaultWords : UInt64 := 25
def aosX86RunnerNotificationWords : UInt64 := 3
def aosX86RunnerRequestWords : UInt64 := 5
def aosX86RunnerReplyHeaderWords : UInt64 := 5
def aosX86RunnerReplyMaxWords : UInt64 := 30
def aosX86RunnerNotification : UInt64 := 0
def aosX86RunnerFault : UInt64 := 1

/-- `aos_x86_runner_t`, one on each side. -/
structure RunnerState where
  nextSequence : UInt64
  failed : Bool
  active : Bool

def runnerInit : RunnerState := ⟨1, false, false⟩

/-- A message as its receiver sees it: its info word and its registers. -/
structure Message where
  badge : UInt64
  label : UInt64
  length : UInt64
  extraCaps : UInt64
  capsUnwrapped : UInt64
  mr : Nat -> UInt64

structure RunnerRequest where
  version : UInt64
  sequence : UInt64
  entry : Nat -> UInt64

structure RunnerReply where
  version : UInt64
  sequence : UInt64
  result : UInt64
  badge : UInt64
  count : UInt64
  words : Nat -> UInt64

/-- What the kernel returned from the guest. -/
structure RunnerExit where
  result : UInt64
  badge : UInt64
  words : Nat -> UInt64

def exitWords (result : UInt64) : UInt64 :=
  if result = aosX86RunnerFault then aosX86RunnerFaultWords
  else if result = aosX86RunnerNotification then aosX86RunnerNotificationWords else 0

/-- The first `count` words; the rest of the array is zero. -/
def copiedWords (count : UInt64) (words : Nat -> UInt64) (i : Nat) : UInt64 :=
  if i < count.toNat then words i else 0

def replyValid (reply : RunnerReply) (words expectedSequence : UInt64) : Bool :=
  if words < aosX86RunnerReplyHeaderWords \/ words > aosX86RunnerReplyMaxWords \/
      expectedSequence = 0 \/ expectedSequence = -1 \/ reply.version ≠ aosX86RunnerVersion \/
      reply.sequence ≠ expectedSequence then false
  else
    let count := exitWords reply.result
    count != 0 && reply.count == count && words == aosX86RunnerReplyHeaderWords + count &&
      (reply.result != aosX86RunnerFault || reply.badge == 0)

/-! ## The runner -/

/-- The one thing the runner asks for: to enter the guest with three words. -/
inductive EnterOp where
  | enter (entry : Nat -> UInt64)

@[reducible]
def EnterIo : Interface := ⟨EnterOp, fun _ => Bool × RunnerExit⟩

abbrev EnterM := Prog EnterIo

/-- An exit that the runner does not pass on. -/
def exitRefused (success : Bool) (returned : RunnerExit) : Bool :=
  !success || exitWords returned.result == 0 ||
    (returned.result == aosX86RunnerFault && returned.badge != 0)

/-- The checks before a sequence number is reserved. -/
def RunnerState.refuses (state : RunnerState) (label : UInt64) (request : RunnerRequest)
    (words : UInt64) : Bool :=
  state.failed || state.active || state.nextSequence == 0 || state.nextSequence == -1 ||
    label != aosX86RunnerEnter || words != aosX86RunnerRequestWords ||
    request.version != aosX86RunnerVersion || request.sequence != state.nextSequence

/-- `aos_x86_runner_step`. -/
def runnerStep (state : RunnerState) (label : UInt64) (request : RunnerRequest) (words : UInt64) :
    EnterM (Option RunnerReply × RunnerState) :=
  if state.refuses label request words then pure (none, state)
  else do
    let sequence := state.nextSequence
    let (success, returned) <- perform (I := EnterIo) (.enter request.entry)
    if exitRefused success returned then pure (none, ⟨sequence + 1, true, false⟩)
    else
      pure (some {
        version := aosX86RunnerVersion
        sequence := sequence
        result := returned.result
        badge := returned.badge
        count := exitWords returned.result
        words := copiedWords (exitWords returned.result) returned.words }, ⟨sequence + 1, state.failed, false⟩)

/-- The answer on the wire; only the first `length` registers are carried. -/
def wireReply : Option RunnerReply -> Message
  | none => ⟨0, aosX86RunnerReject, 0, 0, 0, fun _ => 0⟩
  | some reply => {
      badge := 0
      label := aosX86RunnerReturn
      length := aosX86RunnerReplyHeaderWords + reply.count
      extraCaps := 0
      capsUnwrapped := 0
      mr := fun i => match i with
        | 0 => reply.version
        | 1 => reply.sequence
        | 2 => reply.result
        | 3 => reply.badge
        | 4 => reply.count
        | i + 5 => reply.words i }

/-- The envelope of a command. -/
def Message.isCommand (m : Message) : Bool :=
  m.badge == aosX86RunnerOwnerBadge && m.label == aosX86RunnerEnter &&
    m.length == aosX86RunnerRequestWords && m.extraCaps == 0 && m.capsUnwrapped == 0

/-- One turn of the loop of `pd_main`. -/
def pdTurn (state : RunnerState) (m : Message) : EnterM (Message × RunnerState) :=
  if m.isCommand then do
    let request : RunnerRequest := ⟨m.mr 0, m.mr 1, fun i => m.mr (2 + i)⟩
    let (reply, state) <- runnerStep state aosX86RunnerEnter request aosX86RunnerRequestWords
    pure (wireReply reply, state)
  else pure (wireReply none, state)

/-! ## The coordinator -/

structure VmenterEntry where
  ip : UInt64
  controls : UInt64
  interruptionInfo : UInt64

inductive CallOp where
  | call (endpoint : UInt64) (request : Message)

/-- The reply to a call. -/
@[reducible]
def CallIo : Interface := ⟨CallOp, fun _ => Message⟩

abbrev CallM := Prog CallIo

/-- The request as the coordinator sends it. -/
def wireRequest (sequence : UInt64) (entry : VmenterEntry) : Message where
  badge := 0
  label := aosX86RunnerEnter
  length := aosX86RunnerRequestWords
  extraCaps := 0
  capsUnwrapped := 0
  mr := fun i => match i with
    | 0 => aosX86RunnerVersion
    | 1 => sequence
    | 2 => entry.ip
    | 3 => entry.controls
    | 4 => entry.interruptionInfo
    | _ => 0

/-- The reply that the coordinator takes out of a message. -/
def readReply (m : Message) : RunnerReply :=
  ⟨m.mr 0, m.mr 1, m.mr 2, m.mr 3, m.mr 4, fun i => m.mr (5 + i)⟩

def Message.isReturn (m : Message) : Bool :=
  m.label == aosX86RunnerReturn && m.extraCaps == 0 && m.capsUnwrapped == 0 &&
    aosX86RunnerReplyHeaderWords <= m.length && m.length <= aosX86RunnerReplyMaxWords

/-- `aos_x86_runner_call`. -/
def runnerCall (s : RunnerState) (endpoint : UInt64) (entry : VmenterEntry) :
    CallM (Option RunnerExit × RunnerState) :=
  if endpoint = 0 \/ s.failed \/ s.active \/ s.nextSequence = 0 \/ s.nextSequence = -1 then
    pure (none, s)
  else do
    let sequence := s.nextSequence
    let m <- perform (I := CallIo) (.call endpoint (wireRequest sequence entry))
    let reply := readReply m
    if m.isReturn && replyValid reply m.length sequence then
      pure (some ⟨reply.result, reply.badge, copiedWords reply.count reply.words⟩,
        ⟨sequence + 1, s.failed, false⟩)
    else pure (none, ⟨sequence + 1, true, false⟩)

end AgentOs.X86
