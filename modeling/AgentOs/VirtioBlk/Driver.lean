import AgentOs.BlkVirt.Layout
import AgentOs.Library.Machine

/-!
# The host block driver

`virtio_blk.c`: every request of a medium goes through one descriptor chain, one staging window
and one status byte.  The driver publishes the chain, polls the used index for a bounded time
and then gives up, while the device may still complete the chain.
-/

namespace AgentOs.VirtioBlk

open Library Prog Ipc BlkVirt

/-! ## Constants -/

def mediaCount : Nat := 2

abbrev MediaId := Fin mediaCount

@[simp]
def aosHostBlkOpHealth : UInt32 := 0xF5

@[simp]
def blkOk : UInt32 := 0

@[simp]
def blkErrIo : UInt32 := 1

@[simp]
def blkErrOob : UInt32 := 2

@[simp]
def blkErrNodev : UInt32 := 3

@[simp]
def virtioBlkTIn : UInt32 := 0

@[simp]
def virtioBlkTOut : UInt32 := 1

@[simp]
def virtioBlkTFlush : UInt32 := 4

@[simp]
def virtioBlkSOk : UInt8 := 0

@[simp]
def virtqDescFNext : UInt16 := 1

@[simp]
def virtqDescFWrite : UInt16 := 2

@[simp]
def virtioBlkQueueSize : UInt16 := 8

def virtioBlkPollIters : Nat := 100000000

@[simp]
def dmaHdrOffset : UInt32 := 0

@[simp]
def dmaDataOffset : UInt32 := 16

def dmaStatusOffset (count : UInt32) : UInt32 := dmaDataOffset + count * 512

/-! ## The memory shared with the device -/

/-- `virtio_blk_req_hdr_t`. -/
structure ReqHdr where
  type : UInt32
  reserved : UInt32
  sector : UInt64

/-- `virtq_desc_t`. -/
structure VirtqDesc where
  addr : UInt64
  len : UInt32
  flags : UInt16
  next : UInt16

/-- The queue page and the staging window of one medium.  The window starts with the header,
and the bytes after it are addressed by their offset. -/
structure QueueMem where
  hdr : ReqHdr
  bytes : Nat -> UInt8
  desc : UInt16 -> VirtqDesc
  availRing : UInt16 -> UInt16
  availIdx : UInt16
  usedIdx : UInt16

/-- One store of the driver. -/
inductive Write where
  | hdrType (value : UInt32)
  | hdrReserved (value : UInt32)
  | hdrSector (value : UInt64)
  | byte (off : UInt32) (value : UInt8)
  | descAddr (i : UInt16) (value : UInt64)
  | descLen (i : UInt16) (value : UInt32)
  | descFlags (i : UInt16) (value : UInt16)
  | descNext (i : UInt16) (value : UInt16)
  | availRing (i : UInt16) (value : UInt16)
  | availIdx (value : UInt16)

def QueueMem.setDesc (q : QueueMem) (i : UInt16) (d : VirtqDesc) : QueueMem :=
  { q with desc := Function.update q.desc i d }

def QueueMem.store (q : QueueMem) : Write -> QueueMem
  | .hdrType value => { q with hdr := { q.hdr with type := value } }
  | .hdrReserved value => { q with hdr := { q.hdr with reserved := value } }
  | .hdrSector value => { q with hdr := { q.hdr with sector := value } }
  | .byte off value => { q with bytes := Function.update q.bytes off.toNat value }
  | .descAddr i value => q.setDesc i { q.desc i with addr := value }
  | .descLen i value => q.setDesc i { q.desc i with len := value }
  | .descFlags i value => q.setDesc i { q.desc i with flags := value }
  | .descNext i value => q.setDesc i { q.desc i with next := value }
  | .availRing i value => { q with availRing := Function.update q.availRing i value }
  | .availIdx value => { q with availIdx := value }

/-! ## Requests of the driver -/

inductive DriverOp where
  | write (m : MediaId) (w : Write)
  | usedIdx (m : MediaId)
  | availIdx (m : MediaId)
  | byte (m : MediaId) (off : UInt32)
  | notify (m : MediaId)
  | reply (rep : Sel4Msg)

def DriverIo : Interface where
  Op := DriverOp
  Ans
    | .write _ _ => Unit
    | .usedIdx _ => UInt16
    | .availIdx _ => UInt16
    | .byte _ _ => UInt8
    | .notify _ => Unit
    | .reply _ => Unit

abbrev DriverM := Prog DriverIo

def write (m : MediaId) (w : Write) : DriverM Unit := perform (I := DriverIo) (.write m w)

def usedIdx (m : MediaId) : DriverM UInt16 := perform (I := DriverIo) (.usedIdx m)

def availIdx (m : MediaId) : DriverM UInt16 := perform (I := DriverIo) (.availIdx m)

def byte (m : MediaId) (off : UInt32) : DriverM UInt8 := perform (I := DriverIo) (.byte m off)

def notify (m : MediaId) : DriverM Unit := perform (I := DriverIo) (.notify m)

def reply (rep : Sel4Msg) : DriverM Unit := perform (I := DriverIo) (.reply rep)

/-! ## One transfer -/

/-- `blk_device_t`; `transportReady` says that the registers are bound and the queue is set up. -/
structure BlkDevice where
  initialized : Bool
  transportReady : Bool
  mediaId : UInt32
  dmaOff : UInt32
  capacity : UInt64
  blockSize : UInt32
  readOnly : Bool
  errorCount : UInt32
  initError : UInt32

def BlkDevice.fail (device : BlkDevice) : UInt32 × BlkDevice :=
  (blkErrIo, { device with errorCount := device.errorCount + 1 })

def dmaPaddr (sharedPaddr : UInt64) (device : BlkDevice) : UInt64 :=
  sharedPaddr + device.dmaOff.toUInt64

def dmaMaxSectors (device : BlkDevice) : UInt32 := agentosBlkMediaDmaMaxSectors device.mediaId

/-- The header, the sentinel in the status byte, and the descriptors: header and status, with
the data between them unless the request is a flush. -/
def requestWrites (dmaPa : UInt64) (type : UInt32) (sector : UInt64) (count : UInt32) :
    List Write :=
  [.hdrType type, .hdrReserved 0, .hdrSector sector,
    .byte (dmaStatusOffset count) 0xff,
    .descAddr 0 (dmaPa + dmaHdrOffset.toUInt64), .descLen 0 16,
    .descFlags 0 virtqDescFNext, .descNext 0 (if type = virtioBlkTFlush then 2 else 1),
    .descAddr 1 (dmaPa + dmaDataOffset.toUInt64), .descLen 1 (count * 512),
    .descFlags 1 (virtqDescFNext ||| if type = virtioBlkTIn then virtqDescFWrite else 0),
    .descNext 1 2,
    .descAddr 2 (dmaPa + (dmaStatusOffset count).toUInt64), .descLen 2 1,
    .descFlags 2 virtqDescFWrite, .descNext 2 0]

def writeAll (m : MediaId) : List Write -> DriverM Unit
  | [] => pure ()
  | w :: rest => do
    write m w
    writeAll m rest

/-- The chain goes to the available ring; the used index is read before. -/
def publish (m : MediaId) : DriverM UInt16 := do
  let usedIdxBefore <- usedIdx m
  let idx <- availIdx m
  write m (.availRing (idx % virtioBlkQueueSize) 0)
  write m (.availIdx (idx + 1))
  return usedIdxBefore

/-- The poll loop: did the used index move within this many looks? -/
def poll (m : MediaId) (before : UInt16) : Nat -> DriverM Bool
  | 0 => pure false
  | iters + 1 => do
    let idx <- usedIdx m
    if idx = before then poll m before iters else pure true

def awaitStatus (m : MediaId) (device : BlkDevice) (before : UInt16) (count : UInt32) :
    DriverM (UInt32 × BlkDevice) := do
  let done <- poll m before virtioBlkPollIters
  if done then
    let status <- byte m (dmaStatusOffset count)
    if status = virtioBlkSOk then return (blkOk, device) else return device.fail
  else return device.fail

def virtioBlkDoIo (sharedPaddr : UInt64) (m : MediaId) (device : BlkDevice) (type : UInt32)
    (sector : UInt64) (count : UInt32) : DriverM (UInt32 × BlkDevice) := do
  writeAll m (requestWrites (dmaPaddr sharedPaddr device) type sector count)
  let usedIdxBefore <- publish m
  if device.transportReady then
    notify m
    awaitStatus m device usedIdxBefore count
  else return device.fail

/-! ## Dispatch -/

/-- The driver's globals, with the reply buffer of the server loop. -/
structure Driver where
  dev : MediaId -> BlkDevice
  sharedPaddr : UInt64
  rep : Sel4Msg

def Driver.setDev (driver : Driver) (m : MediaId) (device : BlkDevice) : Driver :=
  { driver with dev := Function.update driver.dev m device }

def blkCanonicalOp (op : UInt32) : Bool := aosHostBlkOpRead <= op && op <= aosHostBlkOpHealth

def blkWireStatus (op status : UInt32) : UInt32 :=
  if !blkCanonicalOp op then status
  else if status = blkOk then aosHostBlkOk
  else if status = blkErrNodev then aosHostBlkErrNodev
  else if status = blkErrOob then aosHostBlkErrOob
  else 1

def statusReply (rep : Sel4Msg) (status : UInt32) : Sel4Msg :=
  ⟨sel4ErrOk, 4, wr32 rep.data 0 status⟩

def Driver.answer (driver : Driver) (op status : UInt32) : Driver :=
  { driver with rep := statusReply driver.rep (blkWireStatus op status) }

def requestSector (req : Sel4Msg) : UInt64 :=
  ((rd32 req.data 8).toUInt64 <<< 32) ||| (rd32 req.data 4).toUInt64

def requestCount (req : Sel4Msg) : UInt32 := rd32 req.data 12

/-- The checks of READ and WRITE that end the request without a transfer. -/
def transferCheck (device : BlkDevice) (req : Sel4Msg) : Option UInt32 :=
  let sector := requestSector req
  let count := requestCount req
  if count = 0 then some blkOk
  else if count > dmaMaxSectors device then some blkErrIo
  else if device.capacity > 0 &&
      (sector > device.capacity || count.toUInt64 > device.capacity - sector) then some blkErrOob
  else none

/-- The medium that a message names, the primary one if it does not name any. -/
def requestMedia (req : Sel4Msg) : UInt32 :=
  if blkCanonicalOp (rd32 req.data 0) && req.length >= 20 then rd32 req.data 16
  else aosHostBlkMediaPrimary

def doIo (driver : Driver) (m : MediaId) (op type : UInt32) (sector : UInt64) (count : UInt32) :
    DriverM Driver := do
  let (rc, device) <- virtioBlkDoIo driver.sharedPaddr m (driver.dev m) type sector count
  return (driver.setDev m device).answer op rc

def handleRead (driver : Driver) (m : MediaId) (req : Sel4Msg) : DriverM Driver :=
  let op := rd32 req.data 0
  if !(driver.dev m).initialized then pure (driver.answer op blkErrNodev)
  else
    match transferCheck (driver.dev m) req with
    | some status => pure (driver.answer op status)
    | none => doIo driver m op virtioBlkTIn (requestSector req) (requestCount req)

def handleWrite (driver : Driver) (m : MediaId) (req : Sel4Msg) : DriverM Driver :=
  let op := rd32 req.data 0
  if !(driver.dev m).initialized then pure (driver.answer op blkErrNodev)
  else if (driver.dev m).readOnly then pure (driver.answer op blkErrIo)
  else
    match transferCheck (driver.dev m) req with
    | some status => pure (driver.answer op status)
    | none => doIo driver m op virtioBlkTOut (requestSector req) (requestCount req)

def handleFlush (driver : Driver) (m : MediaId) (req : Sel4Msg) : DriverM Driver :=
  let op := rd32 req.data 0
  if !(driver.dev m).initialized then pure (driver.answer op blkErrNodev)
  else doIo driver m op virtioBlkTFlush 0 0

def handleInfo (driver : Driver) (m : MediaId) (req : Sel4Msg) : DriverM Driver :=
  let op := rd32 req.data 0
  let device := driver.dev m
  if !device.initialized then pure (driver.answer op blkErrNodev)
  else
    let data := wr32 driver.rep.data 0 (blkWireStatus op blkOk)
    let data := wr32 data 4 device.capacity.toUInt32
    let data := wr32 data 8 (device.capacity >>> 32).toUInt32
    let data := wr32 data 12 device.blockSize
    let data := wr32 data 16 (if device.readOnly then aosHostBlkInfoReadOnly else 0)
    pure { driver with rep := ⟨sel4ErrOk, 20, data⟩ }

def handleHealth (driver : Driver) (m : MediaId) (req : Sel4Msg) : DriverM Driver :=
  let op := rd32 req.data 0
  let device := driver.dev m
  let data := wr32 driver.rep.data 0 (blkWireStatus op blkOk)
  let data := wr32 data 4 (if device.initialized then 1 else 0)
  let data := wr32 data 8 device.errorCount
  let data := wr32 data 12 device.initError
  pure { driver with rep := ⟨sel4ErrOk, 16, data⟩ }

def virtioBlkHDispatch (driver : Driver) (req : Sel4Msg) : DriverM Driver :=
  let op := rd32 req.data 0
  if hmedia : (requestMedia req).toNat < mediaCount then
    let m : MediaId := ⟨(requestMedia req).toNat, hmedia⟩
    if op = aosHostBlkOpRead then handleRead driver m req
    else if op = aosHostBlkOpWrite then handleWrite driver m req
    else if op = aosHostBlkOpFlush then handleFlush driver m req
    else if op = aosHostBlkOpInfo then handleInfo driver m req
    else if op = aosHostBlkOpHealth then handleHealth driver m req
    else pure { driver with rep := statusReply driver.rep blkErrIo }
  else
    let status := if blkCanonicalOp op then 4 else blkErrNodev
    pure { driver with rep := statusReply driver.rep status }

/-- One turn of `sel4_server_run`. -/
def serve (driver : Driver) (req : Sel4Msg) : DriverM Driver := do
  let driver <- virtioBlkHDispatch { driver with rep := { driver.rep with opcode := 0, length := 0 } } req
  reply driver.rep
  return driver

/-! ## The transfer that a request asks for -/

structure Io where
  media : MediaId
  type : UInt32
  sector : UInt64
  count : UInt32
  deriving DecidableEq

def transferIo (driver : Driver) (m : MediaId) (type : UInt32) (req : Sel4Msg) : Option Io :=
  match transferCheck (driver.dev m) req with
  | some _ => none
  | none => some ⟨m, type, requestSector req, requestCount req⟩

/-- The call of `virtio_blk_do_io`, if a request for this medium gets that far. -/
def mediaIo (driver : Driver) (m : MediaId) (req : Sel4Msg) : Option Io :=
  if !(driver.dev m).initialized then none
  else if rd32 req.data 0 = aosHostBlkOpRead then transferIo driver m virtioBlkTIn req
  else if rd32 req.data 0 = aosHostBlkOpWrite then
    if (driver.dev m).readOnly then none else transferIo driver m virtioBlkTOut req
  else if rd32 req.data 0 = aosHostBlkOpFlush then some ⟨m, virtioBlkTFlush, 0, 0⟩
  else none

def ioOf (driver : Driver) (req : Sel4Msg) : Option Io :=
  if hmedia : (requestMedia req).toNat < mediaCount then
    mediaIo driver ⟨(requestMedia req).toNat, hmedia⟩ req
  else none

end AgentOs.VirtioBlk
