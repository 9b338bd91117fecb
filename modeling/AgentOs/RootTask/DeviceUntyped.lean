import Mathlib.Tactic.NormNum
import AgentOs.Library.Program
import AgentOs.Sel4.Kernel

/-!
# Device untypeds

The device part of `ut_alloc.c`.  A register page has a fixed physical address, and the kernel
places an object at the first suitable free address of an untyped.  The root task therefore
counts the pages used in each device untyped and skips to the page it wants.
-/

namespace AgentOs.RootTask

open Library Sel4

/-- Object types of the kernel build, and the size in bits of the object that a retype
with a given size argument makes. -/
structure KernelAbi where
  untypedObject : UInt32
  smallPageObject : UInt32
  objectBits : UInt32 -> UInt32 -> Option Nat
  untyped_bits : ∀ bits, objectBits untypedObject bits = some bits.toNat
  smallPage_bits : objectBits smallPageObject 0 = some 12

/-- Where a retype puts its object: slot `offset` of the CNode that `root`, `index` and
`depth` lead to. -/
structure RetypeDest where
  root : UInt64
  index : UInt64
  depth : UInt64
  offset : UInt64

/-- `seL4_CapInitThreadCNode`. -/
def sel4CapInitThreadCNode : UInt64 := 2

/-- A slot of the root task's own CNode. -/
def rootSlot (slot : UInt64) : RetypeDest := ⟨sel4CapInitThreadCNode, 0, 0, slot⟩

inductive UtOp where
  | untypedRetype (cap : UInt64) (objectType sizeBits : UInt32) (dest : RetypeDest)

abbrev UtIo : Interface := ⟨UtOp, fun _ => Sel4Error⟩

abbrev UtM := Prog UtIo

def untypedRetype (cap : UInt64) (objectType sizeBits : UInt32) (dest : RetypeDest) :
    UtM Sel4Error :=
  Prog.perform (I := UtIo) (.untypedRetype cap objectType sizeBits dest)

/-- `dev_ut_entry_t`. -/
structure DevUtEntry where
  cap : UInt64
  paddr : UInt64
  pagesUsed : UInt64
  sizeBits : UInt8

/-- `g_dev_ut` up to its count, and the cursor over free slots. -/
structure UtState where
  devUt : List DevUtEntry
  slotCur : UInt64
  slotEnd : UInt64

/-- `seL4_UntypedDesc`. -/
structure UntypedDesc where
  paddr : UInt64
  sizeBits : UInt8
  isDevice : Bool

/-- The fields of `seL4_BootInfo` that describe memory and free slots. -/
structure BootInfo where
  emptyStart : UInt64
  emptyEnd : UInt64
  untypedStart : UInt64
  untypedList : List UntypedDesc

/-- The device untypeds in the order the kernel lists them. -/
def devUtFrom (untypedStart : UInt64) : Nat -> List UntypedDesc -> List DevUtEntry
  | _, [] => []
  | i, d :: rest =>
    if d.isDevice then
      ⟨untypedStart + UInt64.ofNat i, d.paddr, 0, d.sizeBits⟩ :: devUtFrom untypedStart (i + 1) rest
    else devUtFrom untypedStart (i + 1) rest

def utAllocInit (bi : BootInfo) : UtState where
  devUt := devUtFrom bi.untypedStart 0 bi.untypedList
  slotCur := bi.emptyStart
  slotEnd := bi.emptyEnd

/-- The next free slot, or `seL4_CapNull`. -/
def utAllocSlot (cur last : UInt64) : UInt64 × UInt64 :=
  if cur >= last then (sel4CapNull, cur) else (cur, cur + 1)

/-- `ut_start + (1 << size_bits)`. -/
def DevUtEntry.utEnd (e : DevUtEntry) : UInt64 := e.paddr + (1 <<< e.sizeBits.toUInt64)

/-! ## Skipping -/

/-- The inner loop of `device_advance`: double the run of pages while half of what remains
is no less and the position is aligned for it.  A word has 64 bits, so `fuel` 64 is enough
for the run to stop growing by itself. -/
def growRun (used remaining : UInt64) : Nat -> UInt64 -> UInt32 -> UInt64 × UInt32
  | 0, pages, bits => (pages, bits)
  | fuel + 1, pages, bits =>
    if pages <= remaining / 2 /\ used &&& ((pages <<< 1) - 1) = 0 then
      growRun used remaining fuel (pages <<< 1) (bits + 1)
    else (pages, bits)

def nextRun (used remaining : UInt64) : UInt64 × UInt32 := growRun used remaining 64 1 12

/-- A run of pages that a skip takes at once: a power of two that fits in what remains and
divides the position. -/
structure IsRun (used remaining : UInt64) (pages : UInt64) (bits : UInt32) : Prop where
  size : ∃ j, pages.toNat = 2 ^ j /\ bits.toNat = 12 + j /\ j < 64
  fits : pages.toNat <= remaining.toNat
  aligned : pages.toNat ∣ used.toNat

variable {j : Nat}

theorem mask_eq_zero_iff {x m : UInt64} (hm : m.toNat = 2 ^ j) :
    x &&& (m - 1) = 0 ↔ m.toNat ∣ x.toNat := by
  have hle : (1 : UInt64) <= m := by
    rw [UInt64.le_iff_toNat_le, hm]
    exact Nat.one_le_two_pow
  have hone : (1 : UInt64).toNat = 1 := rfl
  rw [<- UInt64.toNat_inj, UInt64.toNat_and, UInt64.toNat_sub_of_le _ _ hle, hm, hone,
    Nat.and_two_pow_sub_one_eq_mod, Nat.dvd_iff_mod_eq_zero]
  rfl

variable {pages remaining : UInt64}

/-- Doubling a run that is at most half of what remains. -/
theorem double_run (hpages : pages.toNat = 2 ^ j) (hhalf : pages <= remaining / 2) :
    j + 1 < 64 /\ (pages <<< 1).toNat = 2 ^ (j + 1) /\ 2 ^ (j + 1) <= remaining.toNat := by
  have hremaining := remaining.toNat_lt
  have htwo : (2 : UInt64).toNat = 2 := rfl
  rw [UInt64.le_iff_toNat_le, UInt64.toNat_div, htwo, hpages] at hhalf
  have hfits : 2 ^ (j + 1) <= remaining.toNat := by
    rw [pow_succ]
    omega
  have hnext : j + 1 < 64 := (Nat.pow_lt_pow_iff_right (by norm_num)).mp (hfits.trans_lt hremaining)
  refine ⟨hnext, ?_, hfits⟩
  have hmod : (1 : UInt64).toNat % 64 = 1 := rfl
  rw [UInt64.toNat_shiftLeft, hpages, hmod, Nat.shiftLeft_eq, <- pow_succ]
  exact Nat.mod_eq_of_lt (hfits.trans_lt hremaining)

variable {used : UInt64}

theorem growRun_isRun (fuel : Nat) {bits : UInt32} (h : IsRun used remaining pages bits) :
    IsRun used remaining (growRun used remaining fuel pages bits).1
      (growRun used remaining fuel pages bits).2 := by
  induction fuel generalizing pages bits with
  | zero => exact h
  | succ fuel ih =>
    unfold growRun
    split
    · rename_i hgrow
      obtain ⟨j, hpages, hbits, hj⟩ := h.size
      obtain ⟨hnext, hshift, hfits⟩ := double_run hpages hgrow.1
      refine ih ⟨⟨j + 1, hshift, ?_, hnext⟩, hshift.trans_le hfits, ?_⟩
      · have hone : (1 : UInt32).toNat = 1 := rfl
        rw [UInt32.toNat_add, hbits, hone, Nat.mod_eq_of_lt (by omega)]
        omega
      · exact (mask_eq_zero_iff hshift).mp hgrow.2
    · exact h

/-- A run stops growing only at the end of what remains or at the alignment of its position. -/
theorem growRun_maximal (fuel : Nat) {bits : UInt32} (hpages : pages.toNat = 2 ^ j)
    (hfuel : 64 <= fuel + j)
    (hfits : 2 * (growRun used remaining fuel pages bits).1.toNat <= remaining.toNat) :
    ¬ 2 * (growRun used remaining fuel pages bits).1.toNat ∣ used.toNat := by
  induction fuel generalizing pages bits j with
  | zero =>
    have hlt := pages.toNat_lt
    have hpow : 2 ^ 64 <= 2 ^ j := Nat.pow_le_pow_right (by norm_num) (by omega)
    omega
  | succ fuel ih =>
    unfold growRun at hfits ⊢
    split at hfits
    case isTrue hgrow =>
      obtain ⟨_, hshift, _⟩ := double_run hpages hgrow.1
      simp only [hgrow, and_self, ↓reduceIte]
      exact ih hshift (by omega) hfits
    rename_i hstop
    simp only [hstop, ↓reduceIte]
    have hhalf : pages <= remaining / 2 := by
      have htwo : (2 : UInt64).toNat = 2 := rfl
      rw [UInt64.le_iff_toNat_le, UInt64.toNat_div, htwo]
      rw [hpages] at hfits ⊢
      omega
    obtain ⟨_, hshift, _⟩ := double_run hpages hhalf
    rw [hpages, <- pow_succ', <- hshift]
    exact fun hdvd => hstop ⟨hhalf, (mask_eq_zero_iff hshift).mpr hdvd⟩

variable {target : UInt64}

theorem remaining_toNat (hlt : used < target) : (target - used).toNat = target.toNat - used.toNat :=
  UInt64.toNat_sub_of_le _ _ (UInt64.le_of_lt hlt)

theorem nextRun_isRun (hlt : used < target) :
    IsRun used (target - used) (nextRun used (target - used)).1
      (nextRun used (target - used)).2 := by
  refine growRun_isRun 64 ⟨⟨0, rfl, rfl, by norm_num⟩, ?_, one_dvd _⟩
  rw [remaining_toNat hlt]
  exact Nat.sub_pos_of_lt (UInt64.lt_iff_toNat_lt.mp hlt)

theorem run_end (hlt : used < target) : 0 < (nextRun used (target - used)).1.toNat /\
      (used + (nextRun used (target - used)).1).toNat =
        used.toNat + (nextRun used (target - used)).1.toNat /\
      used.toNat + (nextRun used (target - used)).1.toNat <= target.toNat := by
  have hless := UInt64.lt_iff_toNat_lt.mp hlt
  obtain ⟨j, hpages, _, _⟩ := (nextRun_isRun hlt).size
  have hfits := (nextRun_isRun hlt).fits
  rw [remaining_toNat hlt] at hfits
  have htarget := target.toNat_lt
  refine ⟨hpages ▸ Nat.two_pow_pos j, ?_, by omega⟩
  rw [UInt64.toNat_add, Nat.mod_eq_of_lt (by omega)]

/-- `device_advance`: retype untypeds over the pages to skip. -/
def deviceAdvance (abi : KernelAbi) (e : DevUtEntry) (target cur last : UInt64) :
    UtM (Sel4Error × DevUtEntry × UInt64) :=
  if e.pagesUsed > target then pure (.invalidArgument, e, cur)
  else if _h : e.pagesUsed < target then
    let run := nextRun e.pagesUsed (target - e.pagesUsed)
    let slot := utAllocSlot cur last
    if slot.1 = sel4CapNull then pure (.notEnoughMemory, e, slot.2)
    else do
      let err <- untypedRetype e.cap abi.untypedObject run.2 (rootSlot slot.1)
      if err ≠ .noError then pure (err, e, slot.2)
      else deviceAdvance abi { e with pagesUsed := e.pagesUsed + run.1 } target slot.2 last
  else pure (.noError, e, cur)
termination_by target.toNat - e.pagesUsed.toNat
decreasing_by
  obtain ⟨hpos, hsum, hle⟩ := run_end _h
  simp only [hsum]
  omega

/-! ## The three entry points -/

/-- What a call returns: the error, the capability slot, and the new cursor. -/
abbrev DevResult := Sel4Error × UInt64 × UInt64

/-- The loop of `ut_alloc_device_frame`: the first untyped that contains the address is
retyped into the given slot. -/
def deviceFrameFrom (abi : KernelAbi) (paddr : UInt64) (dest : RetypeDest) :
    List DevUtEntry -> UtM Sel4Error
  | [] => pure .invalidArgument
  | e :: rest =>
    if paddr < e.paddr \/ paddr >= e.utEnd then deviceFrameFrom abi paddr dest rest
    else untypedRetype e.cap abi.smallPageObject 0 dest

def utAllocDeviceFrame (abi : KernelAbi) (paddr pdCnode targetSlot : UInt64) (s : UtState) :
    UtM Sel4Error :=
  deviceFrameFrom abi paddr ⟨sel4CapInitThreadCNode, pdCnode, 64, targetSlot⟩ s.devUt

/-- The part of `ut_alloc_device_cap_typed` for the untyped that contains the range. -/
def deviceTyped (abi : KernelAbi) (paddr objectPages : UInt64) (objectType : UInt32)
    (cur last : UInt64) (e : DevUtEntry) : UtM (DevResult × DevUtEntry) :=
  let target := (paddr - e.paddr) >>> 12
  if e.pagesUsed > target then pure ((.invalidArgument, sel4CapNull, cur), e)
  else do
    let (skipErr, e, cur) <- deviceAdvance abi e target cur last
    if skipErr ≠ .noError then pure ((skipErr, sel4CapNull, cur), e)
    else if e.pagesUsed &&& (objectPages - 1) ≠ 0 then
      pure ((.invalidArgument, sel4CapNull, cur), e)
    else
      let slot := utAllocSlot cur last
      if slot.1 = sel4CapNull then pure ((.notEnoughMemory, sel4CapNull, slot.2), e)
      else do
        let err <- untypedRetype e.cap objectType 0 (rootSlot slot.1)
        if err ≠ .noError then pure ((err, sel4CapNull, slot.2), e)
        else
          pure ((.noError, slot.1, slot.2), { e with pagesUsed := e.pagesUsed + objectPages })

/-- A loop over the device untypeds that acts on the first one it accepts. -/
def onFirst (skips : DevUtEntry -> Bool) (act : DevUtEntry -> UtM (DevResult × DevUtEntry))
    (cur : UInt64) : List DevUtEntry -> UtM (DevResult × List DevUtEntry)
  | [] => pure ((.invalidArgument, sel4CapNull, cur), [])
  | e :: rest =>
    if skips e then do
      let (result, rest) <- onFirst skips act cur rest
      pure (result, e :: rest)
    else do
      let (result, e) <- act e
      pure (result, e :: rest)

def utAllocDeviceCapTyped (abi : KernelAbi) (paddr : UInt64) (objectType : UInt32)
    (pageBits : UInt8) (s : UtState) : UtM ((Sel4Error × UInt64) × UtState) :=
  if pageBits < 12 \/ pageBits >= 64 then pure ((.invalidArgument, sel4CapNull), s)
  else
    let objectBytes : UInt64 := 1 <<< pageBits.toUInt64
    let objectPages := objectBytes >>> 12
    if paddr &&& (objectBytes - 1) ≠ 0 then pure ((.invalidArgument, sel4CapNull), s)
    else do
      let ((err, cap, cur), devUt) <- onFirst
        (fun e => decide (paddr < e.paddr \/ paddr + objectBytes > e.utEnd))
        (deviceTyped abi paddr objectPages objectType s.slotCur s.slotEnd) s.slotCur s.devUt
      pure ((err, cap), { s with devUt := devUt, slotCur := cur })

/-- The part of `ut_alloc_device_cap` for the untyped that contains the address.  The slot
was taken before the loop. -/
def deviceSmall (abi : KernelAbi) (paddr slot cur last : UInt64) (e : DevUtEntry) :
    UtM (DevResult × DevUtEntry) :=
  let target := (paddr - e.paddr) >>> 12
  if e.pagesUsed > target then pure ((.invalidArgument, sel4CapNull, cur), e)
  else do
    let (skipErr, e, cur) <- deviceAdvance abi e target cur last
    if skipErr ≠ .noError then pure ((skipErr, sel4CapNull, cur), e)
    else do
      let err <- untypedRetype e.cap abi.smallPageObject 0 (rootSlot slot)
      if err ≠ .noError then pure ((err, sel4CapNull, cur), e)
      else pure ((.noError, slot, cur), { e with pagesUsed := e.pagesUsed + 1 })

def utAllocDeviceCap (abi : KernelAbi) (paddr : UInt64) (s : UtState) :
    UtM ((Sel4Error × UInt64) × UtState) :=
  let slot := utAllocSlot s.slotCur s.slotEnd
  if slot.1 = sel4CapNull then pure ((.notEnoughMemory, sel4CapNull), { s with slotCur := slot.2 })
  else do
    let ((err, cap, cur), devUt) <- onFirst
      (fun e => decide (paddr < e.paddr \/ paddr >= e.utEnd))
      (deviceSmall abi paddr slot.1 slot.2 s.slotEnd) slot.2 s.devUt
    pure ((err, cap), { s with devUt := devUt, slotCur := cur })

end AgentOs.RootTask
