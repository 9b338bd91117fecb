import Mathlib.Tactic.Ring
import AgentOs.RootTask.DeviceFrames

/-!
# What a skip leaves behind

`device_advance` covers the pages it skips with child untypeds.  The sizes first grow with the
alignment and then shrink with the distance, so the width of a word bounds their number.
-/

namespace AgentOs.RootTask

open Library Prog Sel4

/-- A kernel whose retypes fail with errors in `refusals` only. -/
def kernelRefusing (abi : KernelAbi) (region : UInt64 -> Region) (refusals : Sel4Error -> Prop)
    (request : UtOp) (k : KernelState) (err : Sel4Error) (k' : KernelState) : Prop :=
  kernelExec abi region request k err k' /\ (err = .noError \/ refusals err)

/-- The children, in the order they were made, cover the pages from `lo` to `hi` one after the
other, each at a multiple of its size.  Where the count is in step with the kernel, the
addresses are those of the pages. -/
def Tiles (inStep : Prop) (base : Nat) : Nat -> List KernelObject -> Nat -> Prop
  | lo, [], hi => lo = hi
  | lo, child :: rest, hi =>
    ∃ j, child.bits = 12 + j /\ 2 ^ j ∣ lo /\ 2 ^ child.bits ∣ child.address /\
      (inStep -> child.address = base + 4096 * lo) /\ Tiles inStep base (lo + 2 ^ j) rest hi

/-- No slot was left from `cur` on, and the cursor ended at `cur'`. -/
def SlotFailed (cur last cur' : UInt64) : Prop :=
  ∃ c, cur <= c /\ utAllocSlot c last = (sel4CapNull, cur')

/-- What `device_advance` did when it used at most `slots` slots. -/
structure Skipped (inStep : Prop) (refusals : Sel4Error -> Prop) (e : DevUtEntry)
    (target cur last : UInt64) (slots : Nat) (k : KernelState) (r : Sel4Error × DevUtEntry × UInt64)
    (k' : KernelState) : Prop where
  tiled : ∃ children, k'.objects = children.reverse ++ k.objects /\
    Tiles inStep e.paddr.toNat e.pagesUsed.toNat children r.2.1.pagesUsed.toNat
  cursor : cur <= r.2.2 /\ r.2.2.toNat <= cur.toNat + slots
  reached : r.1 = .noError -> r.2.1.pagesUsed = target
  failed : r.1 ≠ .noError -> refusals r.1 \/ (r.1 = .notEnoughMemory /\ SlotFailed cur last r.2.2)

variable {abi : KernelAbi} {region : UInt64 -> Region} {inStep : Prop} {refusals : Sel4Error -> Prop}
  {e : DevUtEntry} {target cur last : UInt64} {k : KernelState}

theorem Skipped.idle {slots : Nat} {err : Sel4Error} {cur' : UInt64}
    (hcursor : cur <= cur' /\ cur'.toNat <= cur.toNat + slots)
    (hreached : err = .noError -> e.pagesUsed = target)
    (hfailed : err ≠ .noError ->
      refusals err \/ (err = .notEnoughMemory /\ SlotFailed cur last cur')) :
    Skipped inStep refusals e target cur last slots k (err, e, cur') k :=
  ⟨⟨[], rfl, rfl⟩, hcursor, hreached, hfailed⟩

/-- After a run of `2 ^ j` pages, the greatest that was possible, either the position is aligned
for the next size or what remains is less than the run. -/
theorem budget_step {used remaining a s j : Nat} (has : a <= s) (hused : 2 ^ a ∣ used)
    (hremaining : remaining < 2 ^ s) (hfits : 2 ^ j <= remaining) (haligned : 2 ^ j ∣ used)
    (hmax : 2 * 2 ^ j <= remaining -> ¬ 2 * 2 ^ j ∣ used) :
    ∃ a' s', a' <= s' /\ 2 ^ a' ∣ used + 2 ^ j /\ remaining - 2 ^ j < 2 ^ s' /\
      1 + (2 * s' - a') <= 2 * s - a := by
  have hjs : j < s := (Nat.pow_lt_pow_iff_right (by norm_num)).mp (hfits.trans_lt hremaining)
  by_cases hdvd : 2 * 2 ^ j ∣ used
  · have hend : remaining < 2 * 2 ^ j := not_le.mp fun hle => hmax hle hdvd
    exact ⟨j, j, le_rfl, (Nat.dvd_add_right haligned).mpr dvd_rfl, by omega, by omega⟩
  · have haj : a <= j := by
      by_contra hlt
      refine hdvd ((pow_succ' 2 j).symm ▸ (Nat.pow_dvd_pow 2 ?_).trans hused)
      omega
    refine ⟨j + 1, s, hjs, ?_, by omega, by omega⟩
    -- an odd multiple of the run, and the run
    obtain ⟨m, rfl⟩ := haligned
    obtain ⟨n, rfl | rfl⟩ : ∃ n, m = 2 * n \/ m = 2 * n + 1 := ⟨m / 2, by omega⟩
    · exact absurd ⟨n, by ring⟩ hdvd
    · exact ⟨n + 1, by ring⟩

theorem utAllocSlot_cursor (cur last : UInt64) :
    cur <= (utAllocSlot cur last).2 /\ (utAllocSlot cur last).2.toNat <= cur.toNat + 1 := by
  unfold utAllocSlot
  split
  · exact ⟨UInt64.le_refl _, Nat.le_succ _⟩
  rename_i hlt
  have hless := UInt64.lt_iff_toNat_lt.mp (UInt64.not_le.mp hlt)
  have hlast := last.toNat_lt
  have hone : (1 : UInt64).toNat = 1 := rfl
  rw [UInt64.le_iff_toNat_le, UInt64.toNat_add, hone, Nat.mod_eq_of_lt (by omega)]
  exact ⟨Nat.le_succ _, le_rfl⟩

/-- The slots that a skip uses are bounded by the size of the distance, twice, less what the
position is already aligned to. -/
theorem deviceAdvance_skips {a s : Nat} (hsync : inStep -> Placed region e /\ Counted k e)
    (hle : e.pagesUsed <= target) (has : a <= s) (hused : 2 ^ a ∣ e.pagesUsed.toNat)
    (hremaining : target.toNat - e.pagesUsed.toNat < 2 ^ s) :
    Establishes (kernelRefusing abi region refusals)
      (Skipped inStep refusals e target cur last (2 * s - a) k)
      (deviceAdvance abi e target cur last) k := by
  fun_induction deviceAdvance abi e target cur last generalizing k a s with
  | case1 e cur hgt => exact absurd hle (UInt64.not_le.mpr hgt)
  | case2 e cur _ hlt slot =>
    rename_i hnull
    obtain ⟨hge, hnext⟩ : cur <= slot.2 /\ slot.2.toNat <= cur.toNat + 1 := utAllocSlot_cursor cur last
    have hless := UInt64.lt_iff_toNat_lt.mp hlt
    have hpos : s ≠ 0 := by
      rintro rfl
      omega
    refine .idle ⟨hge, by omega⟩ (fun h => absurd h (by decide)) fun _ => ?_
    exact .inr ⟨rfl, cur, UInt64.le_refl _, Prod.ext hnull rfl⟩
  | case3 e cur _ hlt run slot =>
    rename_i hslot ih
    obtain ⟨hge, hnext⟩ : cur <= slot.2 /\ slot.2.toNat <= cur.toNat + 1 := utAllocSlot_cursor cur last
    obtain ⟨⟨j, hpages, hbits, _⟩, hfits, haligned⟩ := nextRun_isRun hlt
    obtain ⟨_, hsum, hend⟩ := run_end hlt
    have hmax : 2 * run.1.toNat <= (target - e.pagesUsed).toNat ->
        ¬ 2 * run.1.toNat ∣ e.pagesUsed.toNat :=
      growRun_maximal (j := 0) 64 rfl le_rfl
    rw [remaining_toNat hlt] at hmax hfits
    rw [hpages] at hmax hfits haligned hsum hend
    obtain ⟨a', s', has', hused', hremaining', hslots⟩ :=
      budget_step has hused hremaining hfits haligned hmax
    rintro err k' ⟨hexec, hallowed⟩
    cases hexec with
    | failed herr =>
      change Establishes _ _ (if err ≠ .noError then _ else _) _
      rw [if_pos herr]
      exact .idle ⟨hge, by omega⟩ (absurd · herr) fun _ => .inl (hallowed.resolve_left herr)
    | @made bits address hobject hleast hinside =>
      have hplace (h : inStep) :=
        (hsync h).2.skip hlt hobject ((hsync h).1.made (rootSlot slot.1) hleast hinside)
      have hrest := ih (fun h => ⟨(hsync h).1.counting _, (hplace h).2⟩)
        (UInt64.le_iff_toNat_le.mpr (hsum.trans_le hend)) has' (hsum ▸ hused')
        (by rwa [hsum, <- Nat.sub_sub])
      refine hrest.mono fun r k'' hr => ?_
      obtain ⟨children, hobjects, htiles⟩ := hr.tiled
      have hchild : bits = 12 + j := by
        rw [abi.untyped_bits, Option.some.injEq] at hobject
        exact hobject.symm.trans hbits
      refine ⟨⟨⟨rootSlot slot.1, address, bits⟩ :: children, ?_, j, hchild, haligned, hleast.1.2,
        fun h => (hplace h).1, hsum ▸ htiles⟩, ⟨UInt64.le_trans hge hr.cursor.1, ?_⟩, hr.reached,
        fun herr => ?_⟩
      · rw [hobjects, List.reverse_cons, List.append_assoc]
        rfl
      · have hlast := hr.cursor.2
        omega
      · obtain hrefused | ⟨hmemory, c, hc, hnull⟩ := hr.failed herr
        · exact .inl hrefused
        · exact .inr ⟨hmemory, c, UInt64.le_trans hge hc, hnull⟩
  | case4 e cur _ hge =>
    refine .idle ⟨UInt64.le_refl _, Nat.le_add_right _ _⟩ (fun _ => ?_) (absurd rfl)
    exact UInt64.le_antisymm hle (UInt64.not_lt.mp hge)

/-- However the kernel answers, a skip covers the pages it counts with aligned children, one
after the other and up to the target when it succeeds.  It uses at most 128 slots, and it fails
only with a retype or a slot. -/
theorem deviceAdvance_tiles (abi : KernelAbi) (region : UInt64 -> Region)
    (refusals : Sel4Error -> Prop) {e : DevUtEntry} {target : UInt64} (cur last : UInt64)
    (k : KernelState) (hle : e.pagesUsed <= target) :
    Establishes (kernelRefusing abi region refusals)
      (Skipped (Placed region e /\ Counted k e) refusals e target cur last (2 * 64) k)
      (deviceAdvance abi e target cur last) k :=
  deviceAdvance_skips id hle (Nat.zero_le 64) (one_dvd _)
    ((Nat.sub_le _ _).trans_lt target.toNat_lt)

theorem deviceAdvance_tiles_uart :
    Establishes (kernelRefusing hostAbi (bootRegion uartBoard) fun _ => False)
      (Skipped (Placed (bootRegion uartBoard) ⟨50, 0x9000000, 3, 24⟩ /\
        Counted ⟨fun _ => 12288, []⟩ ⟨50, 0x9000000, 3, 24⟩) (fun _ => False)
        ⟨50, 0x9000000, 3, 24⟩ 21 100 200 (2 * 64) ⟨fun _ => 12288, []⟩)
      (deviceAdvance hostAbi ⟨50, 0x9000000, 3, 24⟩ 21 100 200) ⟨fun _ => 12288, []⟩ :=
  deviceAdvance_tiles _ _ _ _ _ _ (by decide)

end AgentOs.RootTask
