import Mathlib.Tactic.IntervalCases

/-!
# seL4 messages and client authority

The message abstraction of `sel4_ipc.h` and the root-minted badges of
`virtualizer_authority.h`, shared by the block and network virtualizers.
-/

namespace AgentOs.Ipc

/-- Payload bytes of a message; only the first `sel4MsgDataBytes` are carried. -/
abbrev Payload := Nat -> UInt8

@[simp]
def sel4MsgDataBytes : UInt32 := 48

/-- `sel4_msg_t`. -/
structure Sel4Msg where
  opcode : UInt32
  length : UInt32
  data : Payload

@[simp]
def sel4ErrOk : UInt32 := 0

/-- `_SEL4_MR_COUNT`: opcode, length and six payload words. -/
@[simp]
def sel4MrCount : UInt64 := 8

def rd32 (p : Payload) (off : Nat) : UInt32 :=
  (p off).toUInt32 ||| ((p (off + 1)).toUInt32 <<< 8) |||
    ((p (off + 2)).toUInt32 <<< 16) ||| ((p (off + 3)).toUInt32 <<< 24)

def wr32 (p : Payload) (off : Nat) (v : UInt32) : Payload :=
  fun i =>
    if i = off then v.toUInt8
    else if i = off + 1 then (v >>> 8).toUInt8
    else if i = off + 2 then (v >>> 16).toUInt8
    else if i = off + 3 then (v >>> 24).toUInt8
    else p i

theorem bytes_join (v : UInt32) : v.toUInt8.toUInt32 ||| ((v >>> 8).toUInt8.toUInt32 <<< 8) |||
      ((v >>> 16).toUInt8.toUInt32 <<< 16) ||| ((v >>> 24).toUInt8.toUInt32 <<< 24) = v := by
  apply UInt32.toBitVec_inj.mp
  ext i hi
  interval_cases i <;> simp [-UInt32.toUInt32_toUInt8]

@[simp]
theorem rd32_wr32 (p : Payload) (off : Nat) (v : UInt32) : rd32 (wr32 p off v) off = v := by
  simpa [rd32, wr32, -UInt32.toUInt32_toUInt8] using bytes_join v

theorem rd32_wr32_of_apart (p : Payload) {off other : Nat} (v : UInt32)
    (hapart : off + 4 <= other \/ other + 4 <= off) :
    rd32 (wr32 p other v) off = rd32 p off := by
  have hbyte : ∀ k, k < 4 -> wr32 p other v (off + k) = p (off + k) := by
    intro k hk
    unfold wr32
    rw [if_neg (by omega), if_neg (by omega), if_neg (by omega), if_neg (by omega)]
  have h0 := hbyte 0 (by omega)
  have h1 := hbyte 1 (by omega)
  have h2 := hbyte 2 (by omega)
  have h3 := hbyte 3 (by omega)
  simp only [Nat.add_zero] at h0
  simp only [rd32, h0, h1, h2, h3]

/-! Two 32-bit fields share one message register, the first in the low half. -/

theorem word_toNat (low high : UInt32) :
    (low.toUInt64 ||| (high.toUInt64 <<< 32)).toNat = high.toNat * 2 ^ 32 + low.toNat := by
  have hlow := UInt32.toNat_lt low
  have hhigh := UInt32.toNat_lt high
  have hamount : (32 : UInt64).toNat % 64 = 32 := rfl
  have hshift : (high.toUInt64 <<< 32).toNat = high.toNat <<< 32 := by
    rw [UInt64.toNat_shiftLeft, UInt32.toNat_toUInt64, hamount, Nat.shiftLeft_eq]
    omega
  rw [UInt64.toNat_or, UInt32.toNat_toUInt64, hshift, Nat.or_comm,
    <- Nat.shiftLeft_add_eq_or_of_lt hlow, Nat.shiftLeft_eq]

theorem word_shift (word : UInt64) : (word >>> 32).toNat = word.toNat / 2 ^ 32 := by
  have hamount : (32 : UInt64).toNat % 64 = 32 := rfl
  rw [UInt64.toNat_shiftRight, hamount, Nat.shiftRight_eq_div_pow]

theorem word_low (low high : UInt32) :
    (low.toUInt64 ||| (high.toUInt64 <<< 32)).toUInt32 = low := by
  apply UInt32.toNat_inj.mp
  have hlow := UInt32.toNat_lt low
  rw [UInt64.toNat_toUInt32, word_toNat]
  omega

theorem word_high (low high : UInt32) :
    ((low.toUInt64 ||| (high.toUInt64 <<< 32)) >>> 32).toUInt32 = high := by
  apply UInt32.toNat_inj.mp
  have hlow := UInt32.toNat_lt low
  have hhigh := UInt32.toNat_lt high
  rw [UInt64.toNat_toUInt32, word_shift, word_toNat]
  omega

theorem word_join (word : UInt64) :
    ((word >>> 32).toUInt32.toUInt64 <<< 32) ||| word.toUInt32.toUInt64 = word := by
  apply UInt64.toNat_inj.mp
  have hword := UInt64.toNat_lt word
  rw [UInt64.or_comm, word_toNat, UInt64.toNat_toUInt32, UInt64.toNat_toUInt32, word_shift]
  omega

/-- A received message: the badge and message info of `seL4_Recv` and the
message registers. -/
structure Incoming where
  badge : UInt64
  label : UInt64
  mrLength : UInt64
  extraCaps : UInt64
  capsUnwrapped : UInt64
  mrs : Sel4Msg

/-- `_sel4_mrs_to_msg` clamps the length to the inline payload. -/
def sel4MrsToMsg (mrs : Sel4Msg) : Sel4Msg :=
  { mrs with length := if mrs.length > sel4MsgDataBytes then sel4MsgDataBytes else mrs.length }

/-! ## Control messages of a virtualizer -/

/-- A reply message and the frame capability that goes with it. -/
structure Reply where
  msg : Sel4Msg
  cap : Option Nat

def emptyMsg : Sel4Msg := ⟨0, 0, fun _ => 0⟩

/-- The status word at the start of every reply. -/
def replyStatus (msg : Sel4Msg) : UInt32 := rd32 msg.data 0

/-- A reply that carries a status and a version only. -/
def shortReply (status version : UInt32) (length : UInt32) (rep : Sel4Msg) : Sel4Msg where
  opcode := sel4ErrOk
  length := length
  data := wr32 (wr32 rep.data 0 status) 4 version

def msgValid (msg : Incoming) (req : Sel4Msg) : Bool :=
  msg.mrLength == sel4MrCount && req.opcode.toUInt64 == msg.label &&
    decide (req.length <= sel4MsgDataBytes)

/-- `blk_virt_rebind_req_t` and `net_virt_rebind_req_t`. -/
structure RebindReq where
  version : UInt32
  client : UInt32
  generation : UInt32

@[simp]
def rebindReqBytes : UInt32 := 12

/-- The rebind request of a well-formed message. -/
def rebindRequest (msg : Incoming) (req : Sel4Msg) : Option RebindReq :=
  if msgValid msg req && req.length == rebindReqBytes && msg.extraCaps == 1 &&
      msg.capsUnwrapped == 0 then
    some ⟨rd32 req.data 0, rd32 req.data 4, rd32 req.data 8⟩
  else
    none

/-- Capability slots of `queue_rebind_caps.h`. -/
@[simp]
def aosQueueServiceReceive : Nat := 514

@[simp]
def aosQueueServiceFrameBase : Nat := 515

theorem replyStatus_shortReply (status version length : UInt32) (rep : Sel4Msg) :
    replyStatus (shortReply status version length rep) = status := by
  unfold replyStatus shortReply
  dsimp only
  rw [rd32_wr32_of_apart _ _ (by decide), rd32_wr32]

/-! ## Root-minted authority -/

@[simp]
def virtClientBadgePrimary : UInt64 := 0xa0510001

@[simp]
def virtClientBadgeSecondary : UInt64 := 0xa0510002

@[simp]
def virtNetBadgeNative : UInt64 := 0xa0510003

def virtClientBadge (slot : UInt32) : UInt64 :=
  if slot = 0 then virtClientBadgePrimary
  else if slot = 1 then virtClientBadgeSecondary
  else 0

def virtClientAuthorized (badge : UInt64) (client slot : UInt32) : Bool :=
  slot < 2 && client == slot && badge == virtClientBadge slot

def virtMediaAuthorized (badge : UInt64) (client slot media : UInt32) : Bool :=
  virtClientAuthorized badge client slot && media == slot

def virtNetAuthorized (badge : UInt64) (client slot : UInt32) : Bool :=
  virtClientAuthorized badge client slot ||
    (badge == virtNetBadgeNative && client == 2 && slot == 2)

/-- A payload cannot grant an assignment other than the one the badge names. -/
theorem virtClientAuthorized_iff {badge : UInt64} {client slot : UInt32} :
    virtClientAuthorized badge client slot = true ↔
      slot < 2 /\ client = slot /\ badge = virtClientBadge slot := by
  simp [virtClientAuthorized, and_assoc]

theorem virtMediaAuthorized_iff {badge : UInt64} {client slot media : UInt32} :
    virtMediaAuthorized badge client slot media = true ↔
      slot < 2 /\ client = slot /\ media = slot /\ badge = virtClientBadge slot := by
  simp only [virtMediaAuthorized, Bool.and_eq_true, virtClientAuthorized_iff, beq_iff_eq]
  constructor
  · rintro ⟨⟨hslot, hclient, hbadge⟩, hmedia⟩
    exact ⟨hslot, hclient, hmedia, hbadge⟩
  · rintro ⟨hslot, hclient, hmedia, hbadge⟩
    exact ⟨⟨hslot, hclient, hbadge⟩, hmedia⟩

end AgentOs.Ipc
