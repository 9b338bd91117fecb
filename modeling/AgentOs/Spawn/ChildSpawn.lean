import AgentOs.Library.Staged
import AgentOs.Sel4.Kernel
import AgentOs.Spawn.Ledger

/-!
# Creating a child domain

`child_spawn.c`: a domain retypes the objects of a child from a pool of its own, stages their
capabilities in a range of slots of its own CNode, maps memory, mints the endowment and only
then resumes the child.  Every kernel call is a request.  After a failing step what was staged
is torn down.
-/

namespace AgentOs.Spawn

open Library Sel4

/-! ## Kernel calls -/

inductive ObjectType where
  | capTable
  | vspace
  | smallPage
  | tcb
  | schedContext
  | pageTable
  deriving DecidableEq

/-- The registers of a new thread that are not zero. -/
structure UserContext where
  pc : UInt64
  sp : UInt64
  arg0 : UInt64
  arg1 : UInt64

/-- Calls that return a `seL4_Error`.  A retype makes one object, in the slot of the CNode
`root` that it names. -/
inductive KernelCall where
  | untypedRetype (untyped : UInt64) (type : ObjectType) (sizeBits root slot : UInt64)
  | asidPoolAssign (pool vspace : UInt64)
  | pageMap (frame vspace va : UInt64)
  | pageTableMap (pt vspace va : UInt64)
  | pageUnmap (frame : UInt64)
  | cnodeDelete (root index : UInt64) (depth : UInt8)
  | cnodeRevoke (root index : UInt64) (depth : UInt8)
  | cnodeMint (destRoot destIndex : UInt64) (destDepth : UInt8) (srcRoot srcIndex : UInt64)
      (srcDepth : UInt8) (rights : CapRights) (badge : UInt64)
  | tcbConfigure (tcb cspaceRoot cspaceRootData vspaceRoot vspaceRootData buffer
      bufferFrame : UInt64)
  | tcbWriteRegisters (tcb : UInt64) (resume : Bool) (regs : UserContext)
  | schedControlConfigureFlags (schedControl sc budget period : UInt64)
  | schedContextBind (sc tcb : UInt64)
  | tcbSetSchedParams (tcb authority mcp priority sc faultEp : UInt64)

/-- Besides these there is one message to the installer of the fault handler, with the
capability to the child's thread; the reply's label comes back. -/
inductive SpawnOp where
  | kernel (call : KernelCall)
  | faultInstall (ep label tcb : UInt64)

abbrev SpawnAns : SpawnOp -> Type
  | .kernel _ => Sel4Error
  | .faultInstall _ _ _ => UInt64

abbrev SpawnIo : Interface := ⟨SpawnOp, SpawnAns⟩

def kernel {σ ε : Type} (call : KernelCall) : Staged SpawnIo σ ε Sel4Error :=
  Staged.ask (I := SpawnIo) (.kernel call)

/-! ## Endowments -/

def aosEndowmentVersion : UInt32 := 1

@[simp]
def aosEndowmentMaxCaps : Nat := 8

/-- `aos_endow_cap_t`. -/
structure EndowCap where
  kind : UInt32
  rights : UInt32
  parentSlot : UInt32

/-- `aos_endowment_t`. -/
structure Endowment where
  version : UInt32
  count : UInt32
  caps : Fin aosEndowmentMaxCaps -> EndowCap

/-- The entries that the count covers and the array has. -/
def Endowment.listed (endow : Endowment) : List (Fin aosEndowmentMaxCaps) :=
  (List.finRange aosEndowmentMaxCaps).take endow.count.toNat

/-- The first holding with the slot and the kind has all the rights that are asked for. -/
def Endowment.holds (parentHoldings : Endowment) (cap : EndowCap) : Bool :=
  let matching := parentHoldings.listed.find? fun j =>
    decide ((parentHoldings.caps j).parentSlot = cap.parentSlot /\
      (parentHoldings.caps j).kind = cap.kind)
  match matching with
  | none => false
  | some j => decide (cap.rights &&& ~~~(parentHoldings.caps j).rights = 0)

def aosEndowmentValidate : Option Endowment -> Option Endowment -> Bool
  | some req, some parentHoldings =>
    if req.version ≠ aosEndowmentVersion then false
    else if req.count = 0 then false
    else if req.count.toNat > aosEndowmentMaxCaps then false
    else req.listed.all fun i => parentHoldings.holds (req.caps i)
  | _, _ => false

/-! ## The scratch range -/

def aosChildSpawnScratchSlots : UInt64 := 24
def aosChildSpawnMaxPtLevels : Nat := 4
def sel4MinSchedContextBits : UInt64 := 7

/-- `aos_pt_scratch_t`. -/
structure PtScratch where
  poolUt : UInt64
  selfCnode : UInt64
  selfCnodeBits : UInt64
  baseSlot : UInt64
  nextSlot : UInt64
  limitSlot : UInt64

def aosPtScratchInit (poolUt selfCnode selfCnodeBits baseSlot count : UInt64) : PtScratch :=
  ⟨poolUt, selfCnode, selfCnodeBits, baseSlot, baseSlot, baseSlot + count⟩

/-- The null capability stands for an exhausted range. -/
def ptScratchClaim (sc : PtScratch) : UInt64 × PtScratch :=
  if sc.nextSlot >= sc.limitSlot then (sel4CapNull, sc)
  else (sc.nextSlot, { sc with nextSlot := sc.nextSlot + 1 })

abbrev ScratchM := Staged SpawnIo PtScratch Sel4Error

/-- A slot that nothing was retyped into is given back, except that slot 0, once claimed, is
taken for an exhausted range and stays claimed. -/
def retypeOne (type : ObjectType) (sizeBits : UInt64) : ScratchM UInt64 := do
  let sc <- Staged.read
  let (slot, claimed) := ptScratchClaim sc
  Staged.change fun _ => claimed
  if slot = sel4CapNull then Staged.fail .notEnoughMemory
  else
    let err <- kernel (.untypedRetype sc.poolUt type sizeBits sc.selfCnode slot)
    if err ≠ .noError then
      Staged.change fun sc => { sc with nextSlot := sc.nextSlot - 1 }
      Staged.fail err
    else pure slot

/-- The attempts that are left. -/
def mapAttempts (frame vspace va : UInt64) : Nat -> ScratchM Unit
  | 0 => Staged.fail .failedLookup
  | left + 1 => do
    let err <- kernel (.pageMap frame vspace va)
    if err = .noError then pure ()
    else if err ≠ .failedLookup \/ left = 0 then Staged.fail err
    else
      let pt <- retypeOne .pageTable 0
      let mt <- kernel (.pageTableMap pt vspace va)
      if mt ≠ .noError then Staged.fail mt else mapAttempts frame vspace va left

def aosPtMapRetrying (frame vspace va : UInt64) : ScratchM Unit :=
  mapAttempts frame vspace va aosChildSpawnMaxPtLevels

/-! ## Requests and results -/

/-- `aos_child_spawn_map_t`. -/
structure ChildSpawnMap where
  frame : UInt64
  va : UInt64

/-- `aos_child_spawn_req_t`, but for the ledger, which the call changes.  Arrays are given
by their elements; a null pointer is `none`. -/
structure ChildSpawnReq where
  poolUt : UInt64
  selfCnode : UInt64
  selfCnodeBits : UInt8
  selfTcb : UInt64
  asidPool : UInt64
  schedControl : UInt64
  scratchSlot : UInt64
  scratchCount : UInt64
  contentFrame : UInt64
  contentVa : UInt64
  extraMaps : Option (Nat -> ChildSpawnMap)
  extraMapCount : UInt64
  faultEp : UInt64
  faultInstallEp : UInt64
  faultInstallLabel : UInt64
  entryPoint : UInt64
  stackVaTop : UInt64
  ipcBufVa : UInt64
  arg0 : UInt64
  arg1 : UInt64
  cnodeSizeBits : UInt8
  priority : UInt8
  endow : Option Endowment
  parentHoldings : Option Endowment
  endowCptrs : Option (Nat -> UInt64)
  endowChildBaseSlot : UInt64
  endowBadge : UInt64
  childIndex : UInt32
  childName : Option View

inductive SpawnStatus where
  | ok
  | errValidate
  | errScratch
  | errRetype
  | errAsid
  | errMap
  | errConfigure
  | errEndow
  | errStart
  deriving DecidableEq

inductive SpawnStep where
  | none
  | cnode
  | vspace
  | asid
  | contentMap
  | extraMap
  | stackFrame
  | stackMap
  | ipcFrame
  | ipcMap
  | tcb
  | configure
  | regs
  | sc
  | scConfigure
  | schedParams
  | endow
  | start
  | faultInstall
  deriving DecidableEq

/-- `aos_child_spawn_result_t`. -/
structure ChildSpawnResult where
  cnode : UInt64
  vspace : UInt64
  tcb : UInt64
  error : SpawnStatus
  failedStep : SpawnStep
  failedEndowIndex : Nat
  scratchBase : UInt64
  scratchNext : UInt64

def ChildSpawnResult.zero : ChildSpawnResult := ⟨0, 0, 0, .ok, .none, 0, 0, 0⟩

/-- The value returned, `*out` and the ledger afterwards. -/
structure SpawnReturn where
  status : SpawnStatus
  out : Option ChildSpawnResult
  ledger : Option EndowLedger

/-! ## The steps before the child is resumed -/

/-- What `aos_child_spawn` has in its local variables, and the ledger. -/
structure Staging where
  scratch : PtScratch
  contentMapped : Bool
  extraMapped : Nat
  ledger : Option EndowLedger

structure Failure where
  error : SpawnStatus
  failedStep : SpawnStep
  failedEndowIndex : Nat

abbrev SpawnM := Staged SpawnIo Staging Failure

/-- A step on the scratch range alone. -/
def onScratch {α : Type} (error : SpawnStatus) (step : SpawnStep) (m : ScratchM α) :
    SpawnM α := fun st =>
  m st.scratch >>= fun (outcome, scratch) =>
    .ret (outcome.mapError fun _ => ⟨error, step, 0⟩, { st with scratch := scratch })

/-- A kernel call that has to succeed. -/
def expect (error : SpawnStatus) (step : SpawnStep) (call : KernelCall) : SpawnM Unit := do
  let err <- kernel call
  if err ≠ .noError then Staged.fail ⟨error, step, 0⟩ else pure ()

def unpackRights (bits : UInt32) : CapRights :=
  ⟨bits &&& 8 ≠ 0, bits &&& 4 ≠ 0, bits &&& 2 ≠ 0, bits &&& 1 ≠ 0⟩

namespace ChildSpawnReq

variable (req : ChildSpawnReq)

def maps : Nat -> ChildSpawnMap := req.extraMaps.getD fun _ => ⟨0, 0⟩

def cptrs : Nat -> UInt64 := req.endowCptrs.getD fun _ => 0

/-- The entries of the endowment with their indices. -/
def endowed : List (Fin aosEndowmentMaxCaps × EndowCap) :=
  match req.endow with
  | none => []
  | some endow => endow.listed.map fun i => (i, endow.caps i)

def regs : UserContext := ⟨req.entryPoint, req.stackVaTop, req.arg0, req.arg1⟩

def mint (childCnode : UInt64) (entry : Fin aosEndowmentMaxCaps × EndowCap) : KernelCall :=
  .cnodeMint childCnode (req.endowChildBaseSlot + UInt64.ofNat entry.1.val) req.cnodeSizeBits
    req.selfCnode (req.cptrs entry.1.val) req.selfCnodeBits (unpackRights entry.2.rights)
    req.endowBadge

end ChildSpawnReq

def mapExtras (req : ChildSpawnReq) (childVspace : UInt64) : List Nat -> SpawnM Unit
  | [] => pure ()
  | i :: rest => do
    onScratch .errMap .extraMap
      (aosPtMapRetrying (req.maps i).frame childVspace (req.maps i).va)
    Staged.change fun st => { st with extraMapped := st.extraMapped + 1 }
    mapExtras req childVspace rest

/-- The CNode, the address space with its ASID, and the caller's own frames in it. -/
def buildSpace (req : ChildSpawnReq) : SpawnM (UInt64 × UInt64) := do
  let childCnode <- onScratch .errRetype .cnode (retypeOne .capTable req.cnodeSizeBits.toUInt64)
  let childVspace <- onScratch .errRetype .vspace (retypeOne .vspace 0)
  expect .errAsid .asid (.asidPoolAssign req.asidPool childVspace)
  onScratch .errMap .contentMap (aosPtMapRetrying req.contentFrame childVspace req.contentVa)
  Staged.change fun st => { st with contentMapped := true }
  mapExtras req childVspace (List.range req.extraMapCount.toNat)
  pure (childCnode, childVspace)

/-- Stack, message buffer and thread; the registers are written but nothing is resumed. -/
def buildThread (req : ChildSpawnReq) (childCnode childVspace : UInt64) : SpawnM UInt64 := do
  let stackFrame <- onScratch .errRetype .stackFrame (retypeOne .smallPage 0)
  onScratch .errMap .stackMap
    (aosPtMapRetrying stackFrame childVspace (req.stackVaTop - 0x1000))
  let ipcFrame <- onScratch .errRetype .ipcFrame (retypeOne .smallPage 0)
  onScratch .errMap .ipcMap (aosPtMapRetrying ipcFrame childVspace req.ipcBufVa)
  let childTcb <- onScratch .errRetype .tcb (retypeOne .tcb 0)
  let cspaceRootData := ((64 : UInt32) - req.cnodeSizeBits.toUInt32).toUInt64
  expect .errConfigure .configure
    (.tcbConfigure childTcb childCnode cspaceRootData childVspace 0 req.ipcBufVa ipcFrame)
  expect .errConfigure .regs (.tcbWriteRegisters childTcb false req.regs)
  pure childTcb

/-- The message that has an installer write the fault handler. -/
def installFault (req : ChildSpawnReq) (childTcb : UInt64) : SpawnM Unit :=
  if req.faultInstallEp ≠ sel4CapNull then do
    let label <- Staged.ask (I := SpawnIo)
      (.faultInstall req.faultInstallEp (req.faultInstallLabel &&& 0xfffffffffffff) childTcb)
    if label ≠ 0 then Staged.fail ⟨.errConfigure, .faultInstall, 0⟩ else pure ()
  else pure ()

def bindSched (req : ChildSpawnReq) (childTcb : UInt64) : SpawnM Unit := do
  let sc <- onScratch .errRetype .sc (retypeOne .schedContext sel4MinSchedContextBits)
  expect .errConfigure .scConfigure
    (.schedControlConfigureFlags req.schedControl sc 10000 1000000)
  if req.faultInstallEp ≠ sel4CapNull then
    expect .errConfigure .schedParams (.schedContextBind sc childTcb)
  else
    expect .errConfigure .schedParams
      (.tcbSetSchedParams childTcb req.selfTcb 255 req.priority.toUInt64 sc req.faultEp)

/-- A mint is recorded once the kernel has accepted it. -/
def endowAll (req : ChildSpawnReq) (childCnode : UInt64) :
    List (Fin aosEndowmentMaxCaps × EndowCap) -> SpawnM Unit
  | [] => pure ()
  | entry :: rest => do
    let mintErr <- kernel (req.mint childCnode entry)
    if mintErr ≠ .noError then Staged.fail ⟨.errEndow, .endow, entry.1.val⟩
    else
      Staged.change fun st =>
        { st with ledger := (aosEndowLedgerRecord st.ledger req.childIndex req.childName
            entry.2.kind entry.2.rights req.endowBadge).1 }
      endowAll req childCnode rest

structure Child where
  cnode : UInt64
  vspace : UInt64
  tcb : UInt64

/-- Everything but the endowment. -/
def buildChild (req : ChildSpawnReq) : SpawnM Child := do
  let (childCnode, childVspace) <- buildSpace req
  let childTcb <- buildThread req childCnode childVspace
  installFault req childTcb
  bindSched req childTcb
  pure ⟨childCnode, childVspace, childTcb⟩

def spawnSteps (req : ChildSpawnReq) : SpawnM Child := do
  let child <- buildChild req
  endowAll req child.cnode req.endowed
  pure child

/-! ## Undoing them -/

/-- The slots from the last one claimed down to the first. -/
def stagingTeardown (sc : PtScratch) : Nat -> Prog SpawnIo Unit
  | 0 => pure ()
  | staged + 1 => do
    let _ <- Prog.perform (I := SpawnIo) (.kernel (.cnodeDelete sc.selfCnode
      (sc.baseSlot + UInt64.ofNat staged) sc.selfCnodeBits.toUInt8))
    stagingTeardown sc staged

def unmapExtras (req : ChildSpawnReq) : Nat -> Prog SpawnIo Unit
  | 0 => pure ()
  | mapped + 1 => do
    let _ <- Prog.perform (I := SpawnIo) (.kernel (.pageUnmap (req.maps mapped).frame))
    unmapExtras req mapped

def unmapContent (req : ChildSpawnReq) (contentMapped : Bool) : Prog SpawnIo Unit :=
  if contentMapped then do
    let _ <- Prog.perform (I := SpawnIo) (.kernel (.pageUnmap req.contentFrame))
    pure ()
  else pure ()

def failTeardown (req : ChildSpawnReq) (st : Staging) : Prog SpawnIo Unit := do
  unmapExtras req st.extraMapped
  unmapContent req st.contentMapped
  stagingTeardown st.scratch (st.scratch.nextSlot.toNat - st.scratch.baseSlot.toNat)

/-! ## The whole call -/

/-- The checks that come before anything is staged. -/
def ChildSpawnReq.refusal (req : ChildSpawnReq) : Option SpawnStatus :=
  if !aosEndowmentValidate req.endow req.parentHoldings then some .errValidate
  else if req.endowCptrs.isNone /\ req.endow.any fun endow => endow.count ≠ 0 then
    some .errValidate
  else if req.scratchCount < aosChildSpawnScratchSlots then some .errScratch
  else if req.extraMapCount ≠ 0 /\ req.extraMaps.isNone then some .errValidate
  else none

def ChildSpawnReq.staging (req : ChildSpawnReq) (ledger : Option EndowLedger) : Staging where
  scratch := aosPtScratchInit req.poolUt req.selfCnode req.selfCnodeBits.toUInt64
    req.scratchSlot req.scratchCount
  contentMapped := false
  extraMapped := 0
  ledger := ledger

/-- The exit of every step that failed. -/
def doneFail (req : ChildSpawnReq) (mark : LedgerMark) (failure : Failure) (st : Staging) :
    Prog SpawnIo SpawnReturn := do
  failTeardown req st
  pure
    { status := failure.error
      out := some
        { ChildSpawnResult.zero with
          error := failure.error
          failedStep := failure.failedStep
          failedEndowIndex := failure.failedEndowIndex
          scratchBase := st.scratch.baseSlot
          scratchNext := st.scratch.baseSlot }
      ledger := aosEndowLedgerRollback st.ledger mark }

/-- The one call that makes the child runnable.  If it fails the child is left in place. -/
def startChild (req : ChildSpawnReq) (mark : LedgerMark) (child : Child) (st : Staging) :
    Prog SpawnIo SpawnReturn := do
  let err <- Prog.perform (I := SpawnIo) (.kernel (.tcbWriteRegisters child.tcb true req.regs))
  let status := if err ≠ .noError then SpawnStatus.errStart else .ok
  pure
    { status := status
      out := some
        { ChildSpawnResult.zero with
          cnode := child.cnode
          vspace := child.vspace
          tcb := child.tcb
          error := status
          failedStep := if err ≠ .noError then .start else .none
          scratchBase := st.scratch.baseSlot
          scratchNext := st.scratch.nextSlot }
      ledger := if err ≠ .noError then aosEndowLedgerRollback st.ledger mark else st.ledger }

def aosChildSpawn (req : Option ChildSpawnReq) (out : Option ChildSpawnResult)
    (ledger : Option EndowLedger) : Prog SpawnIo SpawnReturn :=
  match out, req with
  | none, _ => pure ⟨.errValidate, none, ledger⟩
  | some _, none =>
    pure ⟨.errValidate, some { ChildSpawnResult.zero with error := .errValidate }, ledger⟩
  | some _, some req =>
    match req.refusal with
    | some status =>
      pure ⟨status, some { ChildSpawnResult.zero with error := status }, ledger⟩
    | none => do
      let mark := aosEndowLedgerMark ledger
      let (outcome, st) <- spawnSteps req (req.staging ledger)
      match outcome with
      | .error failure => doneFail req mark failure st
      | .ok child => startChild req mark child st

end AgentOs.Spawn
