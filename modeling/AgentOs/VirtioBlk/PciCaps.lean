import Mathlib.Data.Fin.VecNotation
import Mathlib.Data.List.Perm.Subperm
import AgentOs.Library.Bytes

/-!
# Capabilities of a virtio device

`virtio_pci_caps.c`: the register regions of a device, found in a copy of its configuration
space.  The bytes are hostile: the list of capabilities may loop or name what is not there.
-/

open Function (update update_self update_of_ne)

namespace AgentOs.VirtioBlk

open Library List

section Decoder

variable (config : View) (barSizes : Nat -> UInt64)

/-- A field of the configuration space, low byte first. -/
def field (off n : Nat) : Nat := fromLe (config.slice off n)

/-- Outside the 256 bytes there is nothing to read. -/
def readField (off n : Nat) : Option Nat :=
  if off + n <= 256 then some (field config off n) else none

/-- `aos_virtio_pci_region_t`. -/
structure PciRegion where
  paddr : Nat
  length : Nat

/-- `aos_virtio_pci_layout_t`: the common, notify and device regions. -/
structure PciLayout where
  region : Fin 3 -> PciRegion
  notifyMultiplier : Nat

def PciLayout.zero : PciLayout := ⟨fun _ => ⟨0, 0⟩, 0⟩

structure PciBars where
  base : Nat -> Nat
  memory : Nat -> Bool

/-- The last `left` BARs.  A wide one takes two, which the last one cannot. -/
def decodeBars : Nat -> PciBars -> Option (Option PciBars)
  | 0, bars => some (some bars)
  | left + 1, bars => do
    let bar := 5 - left
    let low <- readField config (0x10 + bar * 4) 4
    let type := low >>> 1 &&& 3
    if low &&& 1 ≠ 0 \/ (type ≠ 0 /\ type ≠ 2) then decodeBars left bars
    else
      let size := (barSizes bar).toNat
      let memory := update bars.memory bar (size ≠ 0 /\ size &&& (size - 1) = 0)
      if type = 2 then
        match left with
        | 0 => some none
        | left + 1 => do
          let high <- readField config (0x14 + bar * 4) 4
          decodeBars left ⟨update bars.base bar (low &&& 0xfffffff0 ||| high <<< 32), memory⟩
      else decodeBars left ⟨update bars.base bar (low &&& 0xfffffff0), memory⟩

/-- The region that a type of capability describes. -/
def capIndex : Nat -> Option (Fin 3)
  | 1 => some 0
  | 2 => some 1
  | 4 => some 2
  | _ => none

def capBytes : Fin 3 -> Nat := ![16, 20, 16]

def capAlignment : Fin 3 -> Nat := ![4, 2, 4]

def capMinimum : Fin 3 -> Nat := ![56, 2, 8]

/-- The regions found so far. -/
structure PciFound where
  region : Fin 3 -> Option PciRegion
  notifyMultiplier : Nat

def readMultiplier (index : Fin 3) (off multiplier : Nat) : Option Nat :=
  if index = 1 then readField config (off + 16) 4 else some multiplier

/-- One capability. -/
def decodeCap (bars : PciBars) (off : Nat) (found : PciFound) : Option (Option PciFound) := do
  let id <- readField config off 1
  if id ≠ 9 then some (some found)
  else
    let len <- readField config (off + 2) 1
    if len < 4 \/ len > 256 - off then some none
    else
      let type <- readField config (off + 3) 1
      match capIndex type with
      | none => some (some found)
      | some index =>
        if len < capBytes index \/ (found.region index).isSome then some none
        else
          let bar <- readField config (off + 4) 1
          let offset <- readField config (off + 8) 4
          let length <- readField config (off + 12) 4
          let base := bars.base bar
          let size := (barSizes bar).toNat
          if bar >= 6 \/ !bars.memory bar \/ base = 0 \/ base &&& (size - 1) ≠ 0 \/
              base > 2 ^ 64 - 1 - size \/ length < capMinimum index \/
              offset % capAlignment index ≠ 0 \/ offset > size \/ length > size - offset then
            some none
          else
            let multiplier <- readMultiplier config index off found.notifyMultiplier
            some (some ⟨update found.region index (some ⟨(base + offset) % 2 ^ 64, length⟩),
              multiplier⟩)

/-- The list of capabilities from an offset on; with no fuel left there is no result. -/
def decodeCaps (bars : PciBars) :
    Nat -> Nat -> List Nat -> PciFound -> Option (Option PciFound)
  | 0, _, _, _ => none
  | fuel + 1, off, visited, found =>
    if off = 0 then some (some found)
    else if off < 0x40 \/ off > 0xfc \/ off % 4 ≠ 0 \/ off ∈ visited then some none
    else do
      match <- decodeCap config barSizes bars off found with
      | none => some none
      | some found =>
        let next <- readField config (off + 1) 1
        decodeCaps bars fuel next (off :: visited) found

/-- Two regions share an address, as the code computes it. -/
def PciRegion.meets (a b : PciRegion) : Bool :=
  a.paddr < (b.paddr + b.length) % 2 ^ 64 /\ b.paddr < (a.paddr + a.length) % 2 ^ 64

def aosVirtioPciDecode (expectedDevice : UInt16) : Option (Bool × PciLayout) := do
  let vendor <- readField config 0 2
  let device <- readField config 2 2
  let status <- readField config 6 2
  let header <- readField config 0x0e 1
  if expectedDevice < 0x1040 \/ vendor ≠ 0x1af4 \/ device ≠ expectedDevice.toNat \/
      header &&& 0x7f ≠ 0 \/ status &&& 0x10 = 0 then some (false, .zero)
  else
    match <- decodeBars config barSizes 6 ⟨fun _ => 0, fun _ => false⟩ with
    | none => some (false, .zero)
    | some bars =>
      let first <- readField config 0x34 1
      match <- decodeCaps config barSizes bars 49 first [] ⟨fun _ => none, 0⟩ with
      | none => some (false, .zero)
      | some found =>
        let result : PciLayout :=
          ⟨fun index => (found.region index).getD ⟨0, 0⟩, found.notifyMultiplier⟩
        if (∃ index, found.region index = none) \/
            ∃ i j : Fin 3, j < i /\ (result.region i).meets (result.region j) then
          some (false, .zero)
        else some (true, result)

/-! ## What is there -/

def IsWide (bar : Nat) : Prop :=
  field config (0x10 + bar * 4) 4 &&& 1 = 0 /\ field config (0x10 + bar * 4) 4 >>> 1 &&& 3 = 2

/-- A BAR begins here: this is not the upper half of a wide one. -/
def BarStart : Nat -> Prop
  | 0 => True
  | bar + 1 => ¬(BarStart bar /\ IsWide config bar)

/-- A memory BAR of 32 or 64 bits, with its address. -/
def MemoryBar (bar base : Nat) : Prop :=
  let low := field config (0x10 + bar * 4) 4
  BarStart config bar /\ low &&& 1 = 0 /\
    ((bar < 6 /\ low >>> 1 &&& 3 = 0 /\ base = low &&& 0xfffffff0) \/
      (bar < 5 /\ low >>> 1 &&& 3 = 2 /\
        base = (low &&& 0xfffffff0 ||| field config (0x14 + bar * 4) 4 <<< 32)))

/-- The offsets of the capabilities from one on. -/
inductive CapChain : Nat -> List Nat -> Prop where
  | nil : CapChain 0 []
  | cons {off : Nat} {rest : List Nat} :
      off ≠ 0 -> CapChain (field config (off + 1) 1) rest -> CapChain off (off :: rest)

def isCap (index : Fin 3) (off : Nat) : Bool :=
  field config off 1 = 9 /\ capIndex (field config (off + 3) 1) = some index

/-- The region that a capability describes lies in its BAR. -/
structure RegionOf (index : Fin 3) (cap : Nat) (region : PciRegion) (bar base : Nat) : Prop where
  named : bar = field config (cap + 4) 1 /\ MemoryBar config bar base
  power : (barSizes bar).toNat.isPowerOfTwo
  aligned : base ≠ 0 /\ (barSizes bar).toNat ∣ base
  space : base + (barSizes bar).toNat < 2 ^ 64
  paddr : region.paddr = base + field config (cap + 8) 4
  length : region.length = field config (cap + 12) 4
  inside : field config (cap + 8) 4 + region.length <= (barSizes bar).toNat
  minimum : capMinimum index <= region.length

/-- What the table of BARs says is true. -/
def BarsOk (bars : PciBars) : Prop :=
  ∀ bar, bars.memory bar = true ->
    MemoryBar config bar (bars.base bar) /\ (barSizes bar).toNat.isPowerOfTwo

/-- What some capabilities of one type make of its region. -/
def Adds (index : Fin 3) (caps : List Nat) (before after : Option PciRegion) : Prop :=
  (caps = [] /\ after = before) \/ (before = none /\ ∃ cap region bar base,
    caps = [cap] /\ after = some region /\ RegionOf config barSizes index cap region bar base)

end Decoder

/-! ## Every read is inside -/

/-- A result, with no read outside and no lack of fuel. -/
def Yields {α : Type} (m : Option α) (Q : α -> Prop) : Prop := ∃ a, m = some a /\ Q a

theorem Yields.bind {α β : Type} {m : Option α} {f : α -> Option β} {P : α -> Prop} {Q : β -> Prop}
    (h : Yields m P) (hnext : ∀ a, P a -> Yields (f a) Q) : Yields (m >>= f) Q := by
  obtain ⟨a, rfl, ha⟩ := h
  exact hnext a ha

variable {config : View} {barSizes : Nat -> UInt64} {bars : PciBars}

theorem yields_read {α : Type} {off n : Nat} {f : Nat -> Option α} {Q : α -> Prop}
    (hinside : off + n <= 256) (hnext : Yields (f (field config off n)) Q) :
    Yields (readField config off n >>= f) Q := by
  rw [readField, if_pos hinside]
  exact hnext

theorem BarsOk.update {bar base : Nat} (h : BarsOk config barSizes bars)
    (hbar : MemoryBar config bar base) :
    BarsOk config barSizes ⟨update bars.base bar base, update bars.memory bar (decide
      ((barSizes bar).toNat ≠ 0 /\ (barSizes bar).toNat &&& ((barSizes bar).toNat - 1) = 0))⟩ := by
  intro other hmemory
  by_cases hother : other = bar
  · subst hother
    simp only [update_self, decide_eq_true_eq] at hmemory ⊢
    exact ⟨hbar, Nat.ne_zero_and_sub_one_eq_zero_iff_isPowerOfTwo.mp hmemory⟩
  · simp only [update_of_ne hother] at hmemory ⊢
    exact h other hmemory

theorem decodeBars_ok (left : Nat) (hleft : left <= 6) (hstart : BarStart config (6 - left))
    (h : BarsOk config barSizes bars) :
    Yields (decodeBars config barSizes left bars) fun result =>
      ∀ bars', result = some bars' -> BarsOk config barSizes bars' := by
  induction left using Nat.strong_induction_on generalizing bars with
  | _ left ih =>
    cases left with
    | zero => exact ⟨_, rfl, by rintro _ ⟨⟩; exact h⟩
    | succ left =>
      have hnext : 6 - left = 6 - (left + 1) + 1 := by omega
      unfold decodeBars
      rw [show 5 - left = 6 - (left + 1) by omega]
      refine yields_read (by omega) ?_
      dsimp only
      split
      · next hother =>
        refine ih left (by omega) (by omega) (hnext ▸ fun hwide => ?_) h
        exact hother.elim (fun hio => hio hwide.2.1) fun htype => htype.2 hwide.2.2
      next hmemory =>
      rw [not_or, not_and_or, not_not, not_not, not_not] at hmemory
      split
      · next htype =>
        cases left with
        | zero => exact ⟨_, rfl, nofun⟩
        | succ left =>
          have hskip : 6 - left = 6 - (left + 1 + 1) + 2 := by omega
          refine yields_read (by omega) (ih left (by omega) (by omega) ?_ (h.update ?_))
          · exact hskip ▸ fun hupper => hupper.1 ⟨hstart, hmemory.1, htype⟩
          · exact ⟨hstart, hmemory.1, .inr ⟨by omega, htype, rfl⟩⟩
      · next htype =>
        refine ih left (by omega) (by omega) ?_ (h.update ?_)
        · exact hnext ▸ fun hwide => htype hwide.2.2
        · exact ⟨hstart, hmemory.1, .inl ⟨by omega, hmemory.2.resolve_right htype, rfl⟩⟩

/-! ## The list of capabilities -/

theorem Adds.append {index : Fin 3} {caps caps' : List Nat} {before middle after : Option PciRegion}
    (h : Adds config barSizes index caps before middle)
    (h' : Adds config barSizes index caps' middle after) :
    Adds config barSizes index (caps ++ caps') before after := by
  rcases h with ⟨rfl, rfl⟩ | ⟨hnone, cap, region, bar, base, rfl, rfl, hregion⟩
  · exact h'
  · obtain ⟨rfl, rfl⟩ := h'.resolve_right fun hsome => nomatch hsome.1
    exact .inr ⟨hnone, cap, region, bar, base, rfl, rfl, hregion⟩

theorem decodeCap_adds (hbars : BarsOk config barSizes bars) {off : Nat} (hoff : off <= 0xfc)
    (found : PciFound) :
    Yields (decodeCap config barSizes bars off found) fun result =>
      ∀ found', result = some found' -> ∀ index, Adds config barSizes index
        ([off].filter (isCap config index)) (found.region index) (found'.region index) := by
  unfold decodeCap
  refine yields_read (by omega) ?_
  split
  · next hid =>
    refine ⟨_, rfl, ?_⟩
    rintro _ ⟨⟩ index
    exact .inl ⟨by simp [isCap, hid], rfl⟩
  next hid =>
  refine yields_read (by omega) ?_
  split
  · exact ⟨_, rfl, nofun⟩
  next hlen =>
  refine yields_read (by omega) ?_
  split
  · next htype =>
    refine ⟨_, rfl, ?_⟩
    rintro _ ⟨⟩ index
    exact .inl ⟨by simp [isCap, htype], rfl⟩
  next index htype =>
  split
  · exact ⟨_, rfl, nofun⟩
  next hfits =>
  rw [not_or, Nat.not_lt, Option.not_isSome_iff_eq_none] at hfits
  have hbytes : ∀ index, 16 <= capBytes index /\ (index = 1 -> capBytes index = 20) := by decide
  have hlong := hbytes index
  refine yields_read (by omega) (yields_read (by omega) (yields_read (by omega) ?_))
  dsimp only
  split
  · exact ⟨_, rfl, nofun⟩
  next hvalid =>
  simp only [not_or, Nat.not_lt, not_not, Bool.not_eq_true', Bool.not_eq_false] at hvalid
  obtain ⟨_, hmemory, hbase, haligned, hspace, hminimum, _, hoffset, hlength⟩ := hvalid
  obtain ⟨hbar, k, hpower⟩ := hbars _ hmemory
  have hsize := (barSizes (field config (off + 4) 1)).toNat_lt
  have hmultiplier : Yields (readMultiplier config index off found.notifyMultiplier)
      fun _ => True := by
    unfold readMultiplier
    split
    · next hnotify => exact ⟨_, if_pos (by have := hlong.2 hnotify; omega), trivial⟩
    · exact ⟨_, rfl, trivial⟩
  refine hmultiplier.bind fun multiplier _ => ⟨_, rfl, ?_⟩
  rintro found' ⟨⟩ other
  by_cases hother : other = index
  · subst hother
    refine .inr ⟨hfits.2, off, _, _, _, ?_, update_self _ _ _, ⟨rfl, hbar⟩, ⟨k, hpower⟩,
      ⟨hbase, ?_⟩, by omega, Nat.mod_eq_of_lt (by omega), rfl, ?_, hminimum⟩
    · simpa [isCap, htype] using hid
    · rw [hpower, Nat.and_two_pow_sub_one_eq_mod] at haligned
      exact hpower ▸ Nat.dvd_of_mod_eq_zero haligned
    · dsimp only
      omega
  · exact .inl ⟨by simp [isCap, htype, Ne.symm hother], update_of_ne hother _ _⟩

theorem decodeCaps_adds (hbars : BarsOk config barSizes bars) (fuel off : Nat)
    (visited : List Nat) (found : PciFound) (hfuel : fuel + visited.length = 49)
    (hnodup : visited.Nodup) (hrange : visited ⊆ (range 48).map (0x40 + 4 * ·)) :
    Yields (decodeCaps config barSizes bars fuel off visited found) fun result =>
      ∀ found', result = some found' -> ∃ chain, CapChain config off chain /\
        ∀ index, Adds config barSizes index (chain.filter (isCap config index))
          (found.region index) (found'.region index) := by
  induction fuel generalizing off visited found with
  | zero =>
    -- there are no 49 offsets
    have hlength := (subperm_of_subset hnodup hrange).length_le
    rw [length_map, length_range] at hlength
    omega
  | succ fuel ih =>
    unfold decodeCaps
    split
    · next hoff =>
      subst hoff
      refine ⟨_, rfl, ?_⟩
      rintro _ ⟨⟩
      exact ⟨[], .nil, fun index => .inl ⟨rfl, rfl⟩⟩
    next hoff =>
    split
    · exact ⟨_, rfl, nofun⟩
    next hguard =>
    simp only [not_or, Nat.not_lt, not_not] at hguard
    obtain ⟨hlow, hhigh, haligned, hnew⟩ := hguard
    have hmem : off ∈ (range 48).map (0x40 + 4 * ·) :=
      mem_map.mpr ⟨(off - 0x40) / 4, mem_range.mpr (by omega), by omega⟩
    refine (decodeCap_adds hbars hhigh found).bind fun result hresult => ?_
    cases result with
    | none => exact ⟨_, rfl, nofun⟩
    | some middle =>
      refine yields_read (by omega) ?_
      obtain ⟨result, hrun, hrest⟩ := ih (field config (off + 1) 1) (off :: visited) middle
        (by rw [length_cons]; omega) (nodup_cons.mpr ⟨hnew, hnodup⟩)
        (cons_subset.mpr ⟨hmem, hrange⟩)
      refine ⟨result, hrun, fun found' hfound => ?_⟩
      obtain ⟨chain, hchain, hadds⟩ := hrest found' hfound
      refine ⟨off :: chain, .cons hoff hchain, fun index => ?_⟩
      rw [<- singleton_append, filter_append]
      exact (hresult middle rfl index).append (hadds index)

/-- Inside their BARs the ends of two regions do not wrap. -/
theorem RegionOf.apart {i j : Fin 3} {cap cap' bar bar' base base' : Nat} {a b : PciRegion}
    (ha : RegionOf config barSizes i cap a bar base)
    (hb : RegionOf config barSizes j cap' b bar' base') (h : ¬a.meets b = true) :
    a.paddr + a.length <= b.paddr \/ b.paddr + b.length <= a.paddr := by
  have := ha.space
  have := ha.paddr
  have := ha.inside
  have := hb.space
  have := hb.paddr
  have := hb.inside
  rw [PciRegion.meets, decide_eq_true_eq, Nat.mod_eq_of_lt (by omega),
    Nat.mod_eq_of_lt (by omega)] at h
  omega

/-- Whatever the configuration space and the sizes are, the decoder comes to an end without a
read outside.  If it fails the layout is zero.  If it succeeds each region is that of the only
capability of its type in the list and lies in a memory BAR, and the regions are disjoint. -/
theorem virtioPciDecode_sound (config : View) (barSizes : Nat -> UInt64)
    (expectedDevice : UInt16) :
    ∃ ok layout, aosVirtioPciDecode config barSizes expectedDevice = some (ok, layout) /\
      (ok = false -> layout = .zero) /\
      (ok = true -> (∃ chain, CapChain config (field config 0x34 1) chain /\
          ∀ index, ∃ cap bar base, chain.filter (isCap config index) = [cap] /\
            RegionOf config barSizes index cap (layout.region index) bar base) /\
        ∀ i j, i ≠ j ->
          (layout.region i).paddr + (layout.region i).length <= (layout.region j).paddr \/
            (layout.region j).paddr + (layout.region j).length <= (layout.region i).paddr) := by
  suffices h : Yields (aosVirtioPciDecode config barSizes expectedDevice) fun r => _ from
    let ⟨r, hr, hQ⟩ := h
    ⟨r.1, r.2, hr, hQ⟩
  unfold aosVirtioPciDecode
  iterate 4 refine yields_read (by decide) ?_
  split
  · exact ⟨_, rfl, fun _ => rfl, nofun⟩
  refine (decodeBars_ok 6 le_rfl trivial fun _ hmemory =>
    absurd hmemory Bool.false_ne_true).bind fun bars hbars => ?_
  cases bars with
  | none => exact ⟨_, rfl, fun _ => rfl, nofun⟩
  | some bars =>
    refine yields_read (by decide) ?_
    refine (decodeCaps_adds (hbars bars rfl) 49 _ [] _ rfl .nil (nil_subset _)).bind
      fun found hfound => ?_
    cases found with
    | none => exact ⟨_, rfl, fun _ => rfl, nofun⟩
    | some found =>
      obtain ⟨chain, hchain, hadds⟩ := hfound found rfl
      dsimp only
      split
      · exact ⟨_, rfl, fun _ => rfl, nofun⟩
      next hall =>
      simp only [not_or, not_exists, not_and] at hall
      have hregions (index : Fin 3) : ∃ cap bar base, chain.filter (isCap config index) = [cap] /\
          RegionOf config barSizes index cap ((found.region index).getD ⟨0, 0⟩) bar base := by
        obtain ⟨_, cap, region, bar, base, hcap, hregion, hof⟩ :=
          (hadds index).resolve_left fun hnone => hall.1 index hnone.2
        exact ⟨cap, bar, base, hcap, hregion ▸ hof⟩
      refine ⟨_, rfl, nofun, fun _ => ⟨⟨chain, hchain, hregions⟩, fun i j hne => ?_⟩⟩
      obtain ⟨_, _, _, _, hi⟩ := hregions i
      obtain ⟨_, _, _, _, hj⟩ := hregions j
      rcases Nat.lt_or_gt_of_ne (Fin.val_ne_of_ne hne) with hlt | hlt
      · exact (hj.apart hi (hall.2 j i hlt)).symm
      · exact hi.apart hj (hall.2 i j hlt)

end AgentOs.VirtioBlk
