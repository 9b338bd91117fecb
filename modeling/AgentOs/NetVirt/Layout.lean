import AgentOs.Library.Footprint
import AgentOs.Ipc.Message

/-!
# Network queue ABI

Constants and records of `net_layout.h`, `net_host_layout.h`, the RAW part of `net-
service/interface.h` and the client record of `net_virt.c`.  All pointers point into one mapped
region: a page for each client, then the transfer page of the driver.
-/

namespace AgentOs.NetVirt

open Library

@[simp]
def aosNetBufferSize : UInt32 := 2048

@[simp]
def aosNetCapacity : UInt32 := 32

@[simp]
def aosNetQueueBytes : Nat := 0x1000

@[simp]
def aosNetMaxClients : Nat := 4

@[simp]
def aosNetGuestClients : Nat := 2

@[simp]
def aosNetNativeClient : UInt32 := 2

@[simp]
def aosNetQueueClients : Nat := 3

@[simp]
def aosNetClientStride : Nat := 0x200000

@[simp]
def aosNetShmemVa : Nat := 0x26000000

@[simp]
def aosNetRxFreeOff : Nat := 0x0000

@[simp]
def aosNetRxActiveOff : Nat := 0x1000

@[simp]
def aosNetTxFreeOff : Nat := 0x2000

@[simp]
def aosNetTxActiveOff : Nat := 0x3000

@[simp]
def aosNetRxDataOff : Nat := 0x4000

@[simp]
def aosNetRxDataBytes : UInt32 := aosNetCapacity * aosNetBufferSize

@[simp]
def aosNetTxDataOff : Nat := 0x14000

/-! ## Driver service -/

@[simp]
def agentosNetSharedSize : UInt32 := 0x800000

@[simp]
def netSvcMaxFrameBytes : UInt32 := 1514

@[simp]
def netSvcSlotBase : UInt32 := 0x600000

@[simp]
def netSvcSlotSize : UInt32 := 0x4000

@[simp]
def netSvcTxOffset : Nat := 0x3A00

@[simp]
def netSvcOpRawOpen : UInt32 := 0x2101

@[simp]
def netSvcOpRawClose : UInt32 := 0x2102

@[simp]
def netSvcOpRawSend : UInt32 := 0x2103

@[simp]
def netSvcOpRawRecv : UInt32 := 0x2104

@[simp]
def netSvcOpRawStatus : UInt32 := 0x2105

@[simp]
def netSvcEventRxReady : UInt64 := 0x2110

@[simp]
def netSvcRawOk : UInt32 := 0

/-! ## Records -/

/-- The objects the network virtualizer can address. -/
inductive NetRegion where
  | null
  | shmem
  deriving DecidableEq

abbrev NetPtr := Ptr NetRegion

def nullPtr : NetPtr := ⟨.null, 0⟩

def isNull (p : NetPtr) : Bool := p.region == .null

/-- The shared network region. -/
def shmem : NetPtr := ⟨.shmem, 0⟩

/-- `aos_net_buff_desc_t`, less its padding. -/
structure NetBuffDesc where
  ioOrOffset : UInt64
  len : UInt16

/-- `aos_net_virt_client_t`. -/
structure NetVirtClient where
  rxFree : NetPtr
  rxActive : NetPtr
  txFree : NetPtr
  txActive : NetPtr
  rxData : NetPtr
  txData : NetPtr
  capacity : UInt32
  deriving DecidableEq

def NetVirtClient.zero : NetVirtClient where
  rxFree := nullPtr
  rxActive := nullPtr
  txFree := nullPtr
  txActive := nullPtr
  rxData := nullPtr
  txData := nullPtr
  capacity := 0

/-- `aos_net_virt_t`: the occupied client slots. -/
structure AosNetVirt where
  clients : List NetVirtClient
  deriving DecidableEq

/-- `nv_client_t`. -/
structure NvClient where
  attached : Bool
  retired : Bool
  hw : Bool
  rawOpen : Bool
  rxPending : Bool
  txMarked : Bool
  rxMarked : Bool
  clientId : UInt32
  handle : UInt32
  slotOff : UInt32
  vmmEp : UInt64
  rxTotal : UInt32
  txTotal : UInt32
  q : NetVirtClient

def NvClient.zero : NvClient where
  attached := false
  retired := false
  hw := false
  rawOpen := false
  rxPending := false
  txMarked := false
  rxMarked := false
  clientId := 0
  handle := 0
  slotOff := 0
  vmmEp := 0
  rxTotal := 0
  txTotal := 0
  q := .zero

/-- `g_clients`: slots past the array are never attached. -/
abbrev NvTable := Nat -> NvClient

/-- A descriptor names one aligned buffer of the client's data area. -/
def aosNetBufferValid (offset : UInt64) (length : UInt32) : Bool :=
  decide (offset < aosNetRxDataBytes.toUInt64) && offset % aosNetBufferSize.toUInt64 == 0 &&
    decide (length <= aosNetBufferSize)

theorem aosNetBufferValid_iff {offset : UInt64} {length : UInt32} :
    aosNetBufferValid offset length = true ↔
      offset.toNat < 65536 /\ offset.toNat % 2048 = 0 /\ length.toNat <= 2048 := by
  have hsize : (aosNetRxDataBytes.toUInt64).toNat = 65536 := by decide
  have hunit : (aosNetBufferSize.toUInt64).toNat = 2048 := by decide
  have hlimit : aosNetBufferSize.toNat = 2048 := by decide
  simp only [aosNetBufferValid, Bool.and_eq_true, decide_eq_true_eq, beq_iff_eq, and_assoc]
  rw [UInt64.lt_iff_toNat_lt, <- UInt64.toNat_inj, UInt64.toNat_mod, UInt32.le_iff_toNat_le, hsize,
    hunit, hlimit]
  rfl

/-- The offset of a valid descriptor survives the truncation to 32 bits. -/
theorem bufferOffset_toNat {offset : UInt64} {length : UInt32}
    (hvalid : aosNetBufferValid offset length = true) :
    offset.toUInt32.toNat = offset.toNat := by
  have hlt := (aosNetBufferValid_iff.mp hvalid).1
  rw [UInt64.toNat_toUInt32]
  omega

end AgentOs.NetVirt
