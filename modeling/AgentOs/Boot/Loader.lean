import AgentOs.Library.Bytes
import AgentOs.Library.Program
import AgentOs.Sel4.Kernel

/-!
# The image loader

`pd_vspace_load_elf` parses an ELF image and maps its segments into a new address space, one
page at a time: a page is filled through a scratch mapping with the file bytes of all segments
that touch it.  Every read of the image is a request; the loader looks at the size of the image
only to see that there is a file header.
-/

namespace AgentOs.Boot

open Library Prog Sel4

def pageSize : UInt64 := 4096
def pageMask : UInt64 := 4095
def pageAlignDown (a : UInt64) : UInt64 := a &&& ~~~pageMask
def pageAlignUp (a : UInt64) : UInt64 := (a + pageMask) &&& ~~~pageMask

def pdStackTopVa : UInt64 := 0x3FFFFE0000
def pdIpcBufVaInt : UInt64 := 0x10000000
def ptLoad : UInt32 := 1
def etExec : UInt16 := 2

/-- The loads are at offsets from the start of the image.  A frame that is mapped into the
domain comes with what was written to it, if anything was. -/
inductive ElfOp where
  | load8 (off : UInt64)
  | load16 (off : UInt64)
  | load32 (off : UInt64)
  | load64 (off : UInt64)
  | utAllocCap
  | pageMapScratch (frame : UInt64)
  | syncScratchFrame (frame : UInt64)
  | pageUnmap (frame : UInt64)
  | mapPage (frame vspace va : UInt64) (content : Option View)

abbrev ElfAns : ElfOp -> Type
  | .load8 _ => UInt8
  | .load16 _ => UInt16
  | .load32 _ => UInt32
  | .load64 _ => UInt64
  | .utAllocCap => Sel4Error × UInt64
  | _ => Sel4Error

abbrev ElfIo : Interface := ⟨ElfOp, ElfAns⟩

abbrev ElfM := Prog ElfIo

def load8 (off : UInt64) : ElfM UInt8 := perform (I := ElfIo) (.load8 off)
def load16 (off : UInt64) : ElfM UInt16 := perform (I := ElfIo) (.load16 off)
def load32 (off : UInt64) : ElfM UInt32 := perform (I := ElfIo) (.load32 off)
def load64 (off : UInt64) : ElfM UInt64 := perform (I := ElfIo) (.load64 off)
def utAllocCap : ElfM (Sel4Error × UInt64) := perform (I := ElfIo) .utAllocCap
def pageMapScratch (frame : UInt64) : ElfM Sel4Error :=
  perform (I := ElfIo) (.pageMapScratch frame)
def syncScratchFrame (frame : UInt64) : ElfM Sel4Error :=
  perform (I := ElfIo) (.syncScratchFrame frame)
def pageUnmap (frame : UInt64) : ElfM Sel4Error := perform (I := ElfIo) (.pageUnmap frame)
def mapPage (frame vspace va : UInt64) (content : Option View) : ElfM Sel4Error :=
  perform (I := ElfIo) (.mapPage frame vspace va content)

/-! ## The file header -/

/-- The magic number and the class, compared until one differs. -/
def identMatches : List (UInt64 × UInt8) -> ElfM Bool
  | [] => pure true
  | (off, expected) :: rest => do
    let b <- load8 off
    if b = expected then identMatches rest else pure false

def elfIdent : List (UInt64 × UInt8) := [(0, 0x7f), (1, 0x45), (2, 0x4c), (3, 0x46), (4, 2)]

def elf64Valid : ElfM Bool := do
  let ident <- identMatches elfIdent
  if ident then
    let eType <- load16 16
    pure (decide (eType = etExec))
  else pure false

/-! ## Program headers -/

/-- Offset of a program header; nothing keeps it inside the image. -/
def phdrOff (ePhoff : UInt64) (i : Nat) : UInt64 := ePhoff + UInt64.ofNat (56 * i)

/-- Whether a segment is loaded at all.  The size is read only when the type is right. -/
def isLoadable (ePhoff : UInt64) (i : Nat) : ElfM Bool := do
  let pType <- load32 (phdrOff ePhoff i)
  if pType ≠ ptLoad then pure false
  else
    let pMemsz <- load64 (phdrOff ePhoff i + 40)
    pure (decide (pMemsz ≠ 0))

/-- The page range of all segments. -/
def combinedRange (ePhoff : UInt64) : List Nat -> UInt64 × UInt64 -> ElfM (UInt64 × UInt64)
  | [], range => pure range
  | i :: rest, (vaMin, vaMax) => do
    let loadable <- isLoadable ePhoff i
    if !loadable then combinedRange ePhoff rest (vaMin, vaMax)
    else
      let pVaddr <- load64 (phdrOff ePhoff i + 16)
      let pMemsz <- load64 (phdrOff ePhoff i + 40)
      let s := pageAlignDown pVaddr
      let e := pageAlignUp (pVaddr + pMemsz)
      combinedRange ePhoff rest (if s < vaMin then s else vaMin, if e > vaMax then e else vaMax)

/-! ## One page -/

/-- The numbers from `start` up to `stop`, in steps. -/
def stepsUpTo (start stop step : UInt64) : List UInt64 :=
  (List.range ((stop.toNat - start.toNat + (step.toNat - 1)) / step.toNat)).map fun k =>
    start + UInt64.ofNat (step.toNat * k)

def copyBytes (segOff segVa va : UInt64) : List UInt64 -> View -> ElfM View
  | [], dst => pure dst
  | bva :: rest, dst => do
    let b <- load8 (segOff + (bva - segVa))
    copyBytes segOff segVa va rest (Function.update dst (bva - va).toNat b)

/-- The file bytes of one segment that fall into the page at `va`. -/
def mergeSegment (ePhoff va : UInt64) (si : Nat) (dst : View) : ElfM View := do
  let loadable <- isLoadable ePhoff si
  if !loadable then pure dst
  else
    let segVa <- load64 (phdrOff ePhoff si + 16)
    let segFilesz <- load64 (phdrOff ePhoff si + 32)
    let segOff <- load64 (phdrOff ePhoff si + 8)
    let pMemsz <- load64 (phdrOff ePhoff si + 40)
    let segEnd := segVa + pMemsz
    let pageEnd := va + pageSize
    if segVa >= pageEnd \/ segEnd <= va then pure dst
    else
      let fileVaStart := if segVa > va then segVa else va
      let fileVaEnd := if segVa + segFilesz > pageEnd then pageEnd else segVa + segFilesz
      copyBytes segOff segVa va (stepsUpTo fileVaStart fileVaEnd 1) dst

def mergeSegments (ePhoff va : UInt64) : List Nat -> View -> ElfM View
  | [], dst => pure dst
  | si :: rest, dst => do
    let dst <- mergeSegment ePhoff va si dst
    mergeSegments ePhoff va rest dst

/-- A fresh frame, cleared and filled through the scratch address, then mapped. -/
def loadFilledPage (vspace va : UInt64) (fill : ElfM View) : ElfM Sel4Error := do
  let (err, frame) <- utAllocCap
  if err ≠ .noError then pure err
  else
    let err <- pageMapScratch frame
    if err ≠ .noError then pure err
    else
      let content <- fill
      let err <- syncScratchFrame frame
      if err ≠ .noError then pure err
      else
        let _ <- pageUnmap frame
        mapPage frame vspace va (some content)

def zeroPage : View := fun _ => 0

/-- The pages in order, up to the first error. -/
def loadPages (vspace : UInt64) (fill : UInt64 -> ElfM View) : List UInt64 -> ElfM Sel4Error
  | [] => pure .noError
  | va :: rest => do
    let err <- loadFilledPage vspace va (fill va)
    if err ≠ .noError then pure err else loadPages vspace fill rest

/-! ## The image -/

/-- The entry point comes with every result but that for a bad file header. -/
def loadElfSegments (vspace : UInt64) : ElfM (Sel4Error × Option UInt64) := do
  let valid <- elf64Valid
  if !valid then pure (.invalidArgument, none)
  else
    let eEntry <- load64 24
    let ePhoff <- load64 32
    let ePhnum <- load16 56
    let segments := List.range ePhnum.toNat
    let (vaMin, vaMax) <- combinedRange ePhoff segments (~~~0, 0)
    if vaMin = ~~~0 then pure (.noError, some eEntry)
    else
      let err <- loadPages vspace (fun va => mergeSegments ePhoff va segments zeroPage)
        (stepsUpTo vaMin vaMax pageSize)
      pure (err, some eEntry)

structure PdVspaceResult where
  vspaceCap : UInt64
  entryPoint : UInt64
  stackTop : UInt64
  ipcBufVa : UInt64
  ipcBufCap : UInt64
  error : Sel4Error

def errorResult (err : Sel4Error) : PdVspaceResult := ⟨sel4CapNull, 0, 0, 0, sel4CapNull, err⟩

def pdVspaceLoadElf (vspaceCap elfBase : UInt64) (elfSize stackSize : UInt32) :
    ElfM PdVspaceResult := do
  if elfBase = 0 \/ elfSize < 64 then pure (errorResult .invalidArgument)
  else
    let (err, entry) <- loadElfSegments vspaceCap
    if err ≠ .noError then pure (errorResult err)
    else
      let stackTop := pdStackTopVa
      let stackBase := stackTop - stackSize.toUInt64
      let err <- loadPages vspaceCap (fun _ => pure zeroPage) (stepsUpTo stackBase stackTop pageSize)
      if err ≠ .noError then pure (errorResult err)
      else
        let (err, ipcFrame) <- utAllocCap
        if err ≠ .noError then pure (errorResult err)
        else
          let err <- mapPage ipcFrame vspaceCap pdIpcBufVaInt none
          if err ≠ .noError then pure (errorResult err)
          else pure ⟨vspaceCap, entry.getD 0, stackTop, pdIpcBufVaInt, ipcFrame, .noError⟩

end AgentOs.Boot
