import AgentOs.Library.Footprint
import AgentOs.Ipc.Message

/-!
# Block queue ABI

Constants and records of `blk_layout.h`, `blk_host_layout.h` and `blk_virt_contract.h`.  A
pointer names the object it points into: the shared region, the private RAM disks, or the frame
shared with the host block driver.
-/

namespace AgentOs.BlkVirt

open Library

@[simp]
def aosBlkTransferSize : UInt32 := 4096

@[simp]
def aosBlkSectorSize : UInt32 := 512

@[simp]
def aosBlkQueueCapacity : UInt32 := 128

@[simp]
def aosBlkQueueBytes : Nat := 0x2000

@[simp]
def aosBlkMaxClients : Nat := 2

@[simp]
def aosBlkDiskBlocks : UInt32 := 64

@[simp]
def aosBlkDiskBytes : Nat := 64 * 4096

@[simp]
def aosBlkGuestMaxSegmentSize : UInt32 := 0x100000

/-- One transfer unit more than the largest guest segment. -/
def aosBlkDataCells : UInt32 := aosBlkGuestMaxSegmentSize / aosBlkTransferSize + 1

def aosBlkDataBytes : UInt32 := aosBlkDataCells * aosBlkTransferSize

@[simp]
def aosBlkClientStride : Nat := 0x200000

@[simp]
def aosBlkClientBase : Nat := 0x200000

@[simp]
def aosBlkStorageInfoOff : Nat := 0x0000

@[simp]
def aosBlkSignalOff : Nat := 0x0800

@[simp]
def aosBlkReqQueueOff : Nat := 0x1000

@[simp]
def aosBlkRespQueueOff : Nat := 0x3000

@[simp]
def aosBlkDataOff : Nat := 0x5000

/-! ## Host driver -/

@[simp]
def agentosBlkSharedDmaDataOff : Nat := 16

@[simp]
def aosHostBlkMediaPrimary : UInt32 := 0

@[simp]
def aosHostBlkMediaCount : UInt32 := 2

def agentosBlkMediaDmaOff (id : UInt32) : Nat :=
  if id = aosHostBlkMediaPrimary then 0x100000 else 0x12000

def agentosBlkMediaDmaSize (id : UInt32) : Nat :=
  if id = aosHostBlkMediaPrimary then 0x100000 else 0x8000

def agentosBlkMediaDmaMaxSectors (id : UInt32) : UInt32 :=
  if id = aosHostBlkMediaPrimary then 2047 else 63

@[simp]
def aosHostBlkSectorSize : UInt32 := 512

@[simp]
def aosHostBlkOpRead : UInt32 := 0xF0

@[simp]
def aosHostBlkOpWrite : UInt32 := 0xF1

@[simp]
def aosHostBlkOpFlush : UInt32 := 0xF2

@[simp]
def aosHostBlkOpInfo : UInt32 := 0xF3

@[simp]
def aosHostBlkInfoReadOnly : UInt32 := 1

@[simp]
def aosHostBlkOk : UInt32 := 0

@[simp]
def aosHostBlkErrOob : UInt32 := 2

@[simp]
def aosHostBlkErrNodev : UInt32 := 3

/-! ## Records -/

/-- The objects the block virtualizer can address. -/
inductive Region where
  | null
  | shmem
  | gRamDisk
  | blkShared
  deriving DecidableEq

abbrev BlkPtr := Ptr Region

def nullPtr : BlkPtr := ⟨.null, 0⟩

def isNull (p : BlkPtr) : Bool := p.region == .null

/-! Request codes are raw words: the client may store any value. -/

@[simp]
def aosBlkReqRead : UInt32 := 0

@[simp]
def aosBlkReqWrite : UInt32 := 1

@[simp]
def aosBlkReqFlush : UInt32 := 2

@[simp]
def aosBlkReqBarrier : UInt32 := 3

inductive BlkRespStatus where
  | ok
  | errUnspec
  | errInvalidParam
  | errIo
  | errNoDevice
  deriving DecidableEq

/-- `aos_blk_req_t`. -/
structure BlkReq where
  code : UInt32
  ioOrOffset : UInt64
  blockNumber : UInt64
  count : UInt16
  id : UInt32
  deriving Inhabited

/-- `aos_blk_resp_t`. -/
structure BlkResp where
  status : BlkRespStatus
  successCount : UInt16
  id : UInt32

/-- `aos_blk_storage_info_t`, less the CHS geometry that stays zero. -/
structure StorageInfo where
  serialNumber : Nat -> UInt8
  readOnly : Bool
  ready : Bool
  sectorSize : UInt16
  blockSize : UInt16
  queueDepth : UInt16
  capacity : UInt64

/-- `aos_blk_virt_client_t`. -/
structure BlkVirtClient where
  info : BlkPtr
  signal : BlkPtr
  req : BlkPtr
  resp : BlkPtr
  data : BlkPtr
  capacity : UInt32
  disk : BlkPtr
  diskBlocks : UInt32
  mediaBlocks : UInt32
  deriving DecidableEq

/-- The backend function the block virtualizer installs. -/
inductive BackendFn where
  | hostBlkBackend
  deriving DecidableEq

/-- `aos_blk_virt_t`: the occupied client slots and the backend pointer. -/
structure AosBlkVirt where
  clients : List BlkVirtClient
  backend : Option BackendFn

/-- An all-zero client record. -/
def BlkVirtClient.zero : BlkVirtClient where
  info := nullPtr
  signal := nullPtr
  req := nullPtr
  resp := nullPtr
  data := nullPtr
  capacity := 0
  disk := nullPtr
  diskBlocks := 0
  mediaBlocks := 0

end AgentOs.BlkVirt
