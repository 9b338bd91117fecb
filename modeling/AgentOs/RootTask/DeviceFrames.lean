import Mathlib.Data.List.Nodup
import AgentOs.RootTask.DeviceUntyped

/-!
# Where device frames end up

The kernel places an object at the lowest free address of an untyped that its size divides.  The
root task relies on its count of pages being the kernel's own position.  Two of the three entry
points keep that count, provided the size named by the caller is that of the object type;
`ut_alloc_device_frame` does not look at it.
-/

namespace AgentOs.RootTask

open Library Prog Sel4 List

/-! ## The kernel -/

/-- The physical range of an untyped. -/
structure Region where
  base : Nat
  bits : Nat

structure KernelObject where
  dest : RetypeDest
  address : Nat
  bits : Nat

/-- How far each untyped is used, in bytes, and the objects made so far, the last first. -/
structure KernelState where
  watermark : UInt64 -> Nat
  objects : List KernelObject

def KernelState.boot : KernelState := ⟨fun _ => 0, []⟩

/-- A retype fails for any reason and changes nothing, or it makes an object at the lowest
aligned address that is not below the watermark. -/
inductive RetypeStep (abi : KernelAbi) (region : UInt64 -> Region) (cap : UInt64)
    (objectType sizeBits : UInt32) (dest : RetypeDest) (k : KernelState) :
    Sel4Error -> KernelState -> Prop where
  | failed {err : Sel4Error} : err ≠ .noError ->
      RetypeStep abi region cap objectType sizeBits dest k err k
  | made {bits address : Nat} : abi.objectBits objectType sizeBits = some bits ->
      IsLeast {a | (region cap).base + k.watermark cap <= a /\ 2 ^ bits ∣ a} address ->
      address + 2 ^ bits <= (region cap).base + 2 ^ (region cap).bits ->
      RetypeStep abi region cap objectType sizeBits dest k .noError
        ⟨Function.update k.watermark cap (address + 2 ^ bits - (region cap).base),
          ⟨dest, address, bits⟩ :: k.objects⟩

def kernelExec (abi : KernelAbi) (region : UInt64 -> Region) :
    (request : UtOp) -> KernelState -> Sel4Error -> KernelState -> Prop
  | .untypedRetype cap objectType sizeBits dest, k, err, k' =>
    RetypeStep abi region cap objectType sizeBits dest k err k'

/-! ## The count of pages -/

variable {abi : KernelAbi} {region : UInt64 -> Region}

/-- An entry describes a naturally aligned untyped of the kernel. -/
structure Placed (region : UInt64 -> Region) (e : DevUtEntry) : Prop where
  base : (region e.cap).base = e.paddr.toNat
  bits : (region e.cap).bits = e.sizeBits.toNat
  size : e.sizeBits.toNat < 64
  natural : 2 ^ e.sizeBits.toNat ∣ e.paddr.toNat
  limit : e.paddr.toNat + 2 ^ e.sizeBits.toNat <= 2 ^ 64

variable {e : DevUtEntry}

theorem Placed.counting (he : Placed region e) (used : UInt64) :
    Placed region { e with pagesUsed := used } :=
  ⟨he.base, he.bits, he.size, he.natural, he.limit⟩

/-- The entry's count of pages is the kernel's position. -/
def Counted (k : KernelState) (e : DevUtEntry) : Prop :=
  k.watermark e.cap = 4096 * e.pagesUsed.toNat

/-- Every device entry is in step with the kernel. -/
structure Synced (region : UInt64 -> Region) (k : KernelState) (s : UtState) : Prop where
  placed : ∀ e ∈ s.devUt, Placed region e
  counted : ∀ e ∈ s.devUt, Counted k e
  caps : (s.devUt.map DevUtEntry.cap).Nodup

/-- The untypeds other than `cap` are where they were. -/
def OthersKept (cap : UInt64) (k k' : KernelState) : Prop :=
  ∀ c, c ≠ cap -> k'.watermark c = k.watermark c

theorem OthersKept.refl (cap : UInt64) (k : KernelState) : OthersKept cap k k := fun _ _ => rfl

variable {cap : UInt64} {k k' : KernelState}

theorem OthersKept.trans {k'' : KernelState} (h : OthersKept cap k k') (h' : OthersKept cap k' k'')
    : OthersKept cap k k'' :=
  fun c hc => (h' c hc).trans (h c hc)

variable {bits address : Nat}

/-- An object that fits in a naturally aligned untyped is aligned with its base. -/
theorem Placed.base_aligned (he : Placed region e) (hge : (region e.cap).base <= address)
    (hfits : address + 2 ^ bits <= (region e.cap).base + 2 ^ (region e.cap).bits) :
    bits <= e.sizeBits.toNat /\ 2 ^ bits ∣ e.paddr.toNat := by
  have hpow : 2 ^ bits <= 2 ^ e.sizeBits.toNat := by
    rw [<- he.bits]
    omega
  have hle : bits <= e.sizeBits.toNat := (Nat.pow_le_pow_iff_right (by norm_num)).mp hpow
  exact ⟨hle, (Nat.pow_dvd_pow 2 hle).trans he.natural⟩

/-- What a successful retype did to one entry's untyped. -/
structure Made (e : DevUtEntry) (bits address : Nat) (dest : RetypeDest) (k k' : KernelState) :
    Prop where
  object : k'.objects.head? = some ⟨dest, address, bits⟩
  others : OthersKept e.cap k k'
  position : k'.watermark e.cap + e.paddr.toNat = address + 2 ^ bits
  above : e.paddr.toNat + k.watermark e.cap <= address
  inside : bits <= e.sizeBits.toNat /\ address + 2 ^ bits <= e.paddr.toNat + 2 ^ e.sizeBits.toNat
  aligned : 2 ^ bits ∣ k.watermark e.cap -> address = e.paddr.toNat + k.watermark e.cap

theorem Placed.made (he : Placed region e) (dest : RetypeDest)
    (hleast : IsLeast {a | (region e.cap).base + k.watermark e.cap <= a /\ 2 ^ bits ∣ a} address)
    (hfits : address + 2 ^ bits <= (region e.cap).base + 2 ^ (region e.cap).bits) :
    Made e bits address dest k
      ⟨Function.update k.watermark e.cap (address + 2 ^ bits - (region e.cap).base),
        ⟨dest, address, bits⟩ :: k.objects⟩ := by
  obtain ⟨⟨hge, _⟩, hlower⟩ := hleast
  have hinside := he.base_aligned ((Nat.le_add_right _ _).trans hge) hfits
  rw [he.base, he.bits] at hfits
  rw [he.base] at hge
  refine ⟨rfl, fun c hc => Function.update_of_ne hc _ _, ?_, hge, ⟨hinside.1, hfits⟩,
    fun haligned => ?_⟩
  · simp only [Function.update_self, he.base]
    have hpos := Nat.two_pow_pos bits
    omega
  · refine Nat.le_antisymm (hlower ⟨?_, ?_⟩) hge
    · rw [he.base]
    · exact (Nat.dvd_add_right hinside.2).mpr haligned

variable {objectType : UInt32} {err : Sel4Error} {cur : UInt64}

section

variable {dest : RetypeDest} {paddr : UInt64}

theorem Placed.retype (he : Placed region e) {sizeBits : UInt32}
    (hstep : RetypeStep abi region e.cap objectType sizeBits dest k err k') :
    (err ≠ .noError /\ k' = k) \/
      (err = .noError /\ ∃ bits address, abi.objectBits objectType sizeBits = some bits /\
        Made e bits address dest k k') := by
  cases hstep with
  | failed herr => exact .inl ⟨herr, rfl⟩
  | made hbits hleast hfits => exact .inr ⟨rfl, _, _, hbits, he.made _ hleast hfits⟩

/-- A retype in a program: it fails and nothing changes, or it makes an object. -/
theorem establishes_retype {α : Type} {Q : α -> KernelState -> Prop} (he : Placed region e)
    {sizeBits : UInt32} {next : Sel4Error -> UtM α}
    (hfailed : ∀ err, err ≠ .noError -> Establishes (kernelExec abi region) Q (next err) k)
    (hmade : ∀ k' bits address, abi.objectBits objectType sizeBits = some bits ->
      Made e bits address dest k k' -> Establishes (kernelExec abi region) Q (next .noError) k') :
    Establishes (kernelExec abi region) Q
      (untypedRetype e.cap objectType sizeBits dest >>= next) k := by
  intro err k' hexec
  obtain ⟨herr, rfl⟩ | ⟨rfl, bits, address, hbits, h⟩ := he.retype hexec
  · exact hfailed err herr
  · exact hmade k' bits address hbits h

/-! ## Skipping keeps the count -/

/-- `device_advance` ends in step with the kernel, at the target if it succeeds. -/
structure Advanced (e : DevUtEntry) (target : UInt64) (k : KernelState)
    (r : Sel4Error × DevUtEntry × UInt64) (k' : KernelState) : Prop where
  entry : ∃ used, r.2.1 = { e with pagesUsed := used }
  counted : Counted k' r.2.1
  others : OthersKept e.cap k k'
  reached : r.1 = .noError -> r.2.1.pagesUsed = target

/-- A run is made right at the count, and the count moves past it. -/
theorem Counted.skip {target : UInt64} (hcount : Counted k e) (hlt : e.pagesUsed < target)
    (hbits : abi.objectBits abi.untypedObject (nextRun e.pagesUsed (target - e.pagesUsed)).2 =
      some bits)
    (hmade : Made e bits address dest k k') :
    address = e.paddr.toNat + 4096 * e.pagesUsed.toNat /\
      Counted k' { e with
        pagesUsed := e.pagesUsed + (nextRun e.pagesUsed (target - e.pagesUsed)).1 } := by
  have hrun := nextRun_isRun hlt
  obtain ⟨j, hpages, hrunBits, _⟩ := hrun.size
  rw [abi.untyped_bits, Option.some.injEq] at hbits
  have hsize : 2 ^ bits = 4096 * (nextRun e.pagesUsed (target - e.pagesUsed)).1.toNat := by
    rw [<- hbits, hrunBits, pow_add, hpages]
    norm_num
  have hold : k.watermark e.cap = 4096 * e.pagesUsed.toNat := hcount
  have haddress := hmade.aligned (by
    rw [hsize, hold]
    exact Nat.mul_dvd_mul_left 4096 hrun.aligned)
  have hposition := hmade.position
  rw [haddress, hold, hsize] at hposition
  refine ⟨hold ▸ haddress, ?_⟩
  show k'.watermark e.cap = 4096 * (e.pagesUsed + _).toNat
  rw [(run_end hlt).2.1]
  omega

theorem deviceAdvance_establishes (target cur last : UInt64) (e : DevUtEntry) (k : KernelState)
    (he : Placed region e) (hcount : Counted k e) :
    Establishes (kernelExec abi region) (Advanced e target k) (deviceAdvance abi e target cur last)
      k := by
  -- the recursion of the loop: each run brings the count nearer to the target
  fun_induction deviceAdvance abi e target cur last generalizing k with
  | case1 e cur hgt => exact ⟨⟨_, rfl⟩, hcount, .refl _ _, nofun⟩
  | case2 e cur _ hlt slot hnull => exact ⟨⟨_, rfl⟩, hcount, .refl _ _, nofun⟩
  | case3 e cur hle hlt run slot hslot ih =>
    refine establishes_retype he (fun err herr => ?_) (fun k' bits address hbits hmade => ?_)
    · simp only [ne_eq, herr, not_false_eq_true, ↓reduceIte]
      exact ⟨⟨_, rfl⟩, hcount, .refl _ _, fun h => absurd h herr⟩
    · simp only [ne_eq, not_true_eq_false, ↓reduceIte]
      have hnext := ih k' (he.counting _) (hcount.skip hlt hbits hmade).2
      refine hnext.mono fun r k'' hr => ?_
      obtain ⟨used, hused⟩ := hr.entry
      exact ⟨⟨used, hused⟩, hr.counted, hmade.others.trans hr.others, hr.reached⟩
  | case4 e cur hle hge =>
    refine ⟨⟨_, rfl⟩, hcount, .refl _ _, fun _ => ?_⟩
    exact UInt64.le_antisymm (UInt64.not_lt.mp hle) (UInt64.not_lt.mp hge)

/-! ## One untyped -/

/-- What a call did with the untyped it chose.  `matching` says that the count is advanced by
the size of the object that was made. -/
structure Acted (matching : Prop) (paddr : UInt64) (e : DevUtEntry) (k : KernelState)
    (r : DevResult × DevUtEntry) (k' : KernelState) : Prop where
  entry : ∃ used, r.2 = { e with pagesUsed := used }
  others : OthersKept e.cap k k'
  failed : r.1.1 ≠ .noError -> Counted k' r.2
  made : r.1.1 = .noError ->
    (((∃ bits, k'.objects.head? = some ⟨rootSlot r.1.2.1, paddr.toNat, bits⟩) /\ Counted k' r.2) ↔
      matching)

/-- A call that stops before it makes its frame. -/
theorem Acted.of_failed {matching : Prop} {e' : DevUtEntry} (herr : err ≠ .noError)
    (hentry : ∃ used, e' = { e with pagesUsed := used }) (hothers : OthersKept e.cap k k')
    (hcount : Counted k' e') : Acted matching paddr e k ((err, cap, cur), e') k' :=
  ⟨hentry, hothers, fun _ => hcount, fun hok => absurd hok herr⟩

theorem target_toNat {base : UInt64} (hle : base <= paddr) :
    ((paddr - base) >>> 12).toNat = (paddr.toNat - base.toNat) / 4096 := by
  have hshift : (12 : UInt64).toNat % 64 = 12 := rfl
  rw [UInt64.toNat_shiftRight, UInt64.toNat_sub_of_le _ _ hle, hshift, Nat.shiftRight_eq_div_pow]

/-- A page whose address is a multiple of the page size sits at its page number. -/
theorem Placed.page_address (he : Placed region e) (hle : e.paddr <= paddr)
    (haligned : 4096 ∣ paddr.toNat) (hbits : 12 <= bits) (hinside : bits <= e.sizeBits.toNat) :
    e.paddr.toNat + 4096 * ((paddr - e.paddr) >>> 12).toNat = paddr.toNat := by
  have hbase : 4096 ∣ e.paddr.toNat := by
    refine Nat.dvd_trans ?_ he.natural
    exact Nat.pow_dvd_pow 2 (hbits.trans hinside)
  rw [target_toNat hle, Nat.mul_div_cancel' (Nat.dvd_sub haligned hbase)]
  exact Nat.add_sub_cancel' (UInt64.le_iff_toNat_le.mp hle)

theorem target_lt (base paddr : UInt64) : ((paddr - base) >>> 12).toNat < 2 ^ 52 := by
  have hlt := (paddr - base).toNat_lt
  have hshift : (12 : UInt64).toNat % 64 = 12 := rfl
  rw [UInt64.toNat_shiftRight, hshift, Nat.shiftRight_eq_div_pow]
  omega

theorem deviceSmall_establishes {slot last : UInt64} (he : Placed region e) (hcount : Counted k e)
    (hle : e.paddr <= paddr) (haligned : 4096 ∣ paddr.toNat) :
    Establishes (kernelExec abi region) (Acted True paddr e k)
      (deviceSmall abi paddr slot cur last e) k := by
  unfold deviceSmall
  simp only
  split
  · exact .of_failed (by decide) ⟨_, rfl⟩ (.refl _ _) hcount
  refine (deviceAdvance_establishes _ cur last e k he hcount).bind ?_
  rintro ⟨skipErr, e1, cur1⟩ k1 ⟨⟨used, hentry⟩, hcount1, hothers, hreached⟩
  simp only at hentry hcount1 hreached ⊢
  subst hentry
  split
  · rename_i hskip
    exact .of_failed hskip ⟨_, rfl⟩ hothers hcount1
  · rename_i hskip
    have htarget := hreached (not_not.mp hskip)
    simp only at htarget
    subst htarget
    have he1 := he.counting ((paddr - e.paddr) >>> 12)
    refine establishes_retype he1 (fun err herr => ?_) (fun k' bits address hbits hmade => ?_)
    · simp only [ne_eq, herr, not_false_eq_true, ↓reduceIte]
      exact .of_failed herr ⟨_, rfl⟩ hothers hcount1
    · simp only [ne_eq, not_true_eq_false, ↓reduceIte]
      rw [abi.smallPage_bits, Option.some.injEq] at hbits
      subst hbits
      have hold : k1.watermark e.cap = 4096 * ((paddr - e.paddr) >>> 12).toNat := hcount1
      have haddress := hmade.aligned (by rw [hold]; exact Nat.dvd_mul_right _ _)
      have hposition := hmade.position
      have hpage := he.page_address hle haligned le_rfl hmade.inside.1
      have hlt := target_lt e.paddr paddr
      simp only at haddress hposition
      rw [hold, hpage] at haddress
      refine ⟨⟨_, rfl⟩, hothers.trans hmade.others, fun hne => absurd rfl hne, fun _ => ?_⟩
      refine iff_of_true ⟨⟨12, haddress ▸ hmade.object⟩, ?_⟩ trivial
      show k'.watermark e.cap = 4096 * ((paddr - e.paddr) >>> 12 + 1).toNat
      have hone : (1 : UInt64).toNat = 1 := rfl
      rw [UInt64.toNat_add, hone, Nat.mod_eq_of_lt (by omega)]
      omega

/-- The kernel moves by the size a caller named exactly when that is the object's size. -/
theorem position_iff {wm wm' base pageBits : Nat} (hpages : 2 ^ pageBits ∣ wm)
    (habove : base + wm <= address) (hposition : wm' + base = address + 2 ^ bits)
    (haligned : 2 ^ bits ∣ wm -> address = base + wm) :
    wm' = wm + 2 ^ pageBits ↔ bits = pageBits := by
  constructor
  · intro hcount
    have hpow : 2 ^ bits <= 2 ^ pageBits := by omega
    have hle : bits <= pageBits := (Nat.pow_le_pow_iff_right (by norm_num)).mp hpow
    -- an object that is no larger than the aligned position allows is made right there
    have haddress := haligned ((Nat.pow_dvd_pow 2 hle).trans hpages)
    refine Nat.pow_right_injective (le_refl 2) ?_
    show 2 ^ bits = 2 ^ pageBits
    omega
  · rintro rfl
    have haddress := haligned hpages
    omega

theorem deviceTyped_establishes {objectPages last : UInt64} {pageBits : Nat} (he : Placed region e)
    (hcount : Counted k e) (hle : e.paddr <= paddr) (hbits : 12 <= pageBits) (hword : pageBits < 64)
    (haligned : 2 ^ pageBits ∣ paddr.toNat) (hpages : objectPages.toNat = 2 ^ (pageBits - 12)) :
    Establishes (kernelExec abi region)
      (Acted (abi.objectBits objectType 0 = some pageBits) paddr e k)
      (deviceTyped abi paddr objectPages objectType cur last e) k := by
  unfold deviceTyped
  simp only
  split
  · exact .of_failed (by decide) ⟨_, rfl⟩ (.refl _ _) hcount
  refine (deviceAdvance_establishes _ cur last e k he hcount).bind ?_
  rintro ⟨skipErr, e1, cur1⟩ k1 ⟨⟨used, hentry⟩, hcount1, hothers, hreached⟩
  simp only at hentry hcount1 hreached ⊢
  subst hentry
  split
  · rename_i hskip
    exact .of_failed hskip ⟨_, rfl⟩ hothers hcount1
  · rename_i hskip
    have htarget := hreached (not_not.mp hskip)
    simp only at htarget
    subst htarget
    split
    · exact .of_failed (by decide) ⟨_, rfl⟩ hothers hcount1
    rename_i hmask
    split
    · exact .of_failed (by decide) ⟨_, rfl⟩ hothers hcount1
    have he1 := he.counting ((paddr - e.paddr) >>> 12)
    refine establishes_retype he1 (fun err herr => ?_) (fun k' bits address hobject hmade => ?_)
    · simp only [ne_eq, herr, not_false_eq_true, ↓reduceIte]
      exact .of_failed herr ⟨_, rfl⟩ hothers hcount1
    · simp only [ne_eq, not_true_eq_false, ↓reduceIte]
      have hold : k1.watermark e.cap = 4096 * ((paddr - e.paddr) >>> 12).toNat := hcount1
      have hlt := target_lt e.paddr paddr
      have hsize : 2 ^ pageBits = 4096 * objectPages.toNat := by
        rw [hpages, show 4096 = 2 ^ 12 from rfl, <- pow_add, Nat.add_sub_cancel' hbits]
      have hsmall : objectPages.toNat < 2 ^ 52 := by
        rw [hpages]
        exact Nat.pow_lt_pow_right (by norm_num) (by omega)
      have hposition_dvd : 2 ^ pageBits ∣ k1.watermark e.cap := by
        rw [hold, hsize]
        exact Nat.mul_dvd_mul_left 4096 ((mask_eq_zero_iff hpages).mp (not_not.mp hmask))
      have hiff := position_iff hposition_dvd hmade.above hmade.position hmade.aligned
      have hcounted : Counted k' { e with
          pagesUsed := (paddr - e.paddr) >>> 12 + objectPages } ↔
          k'.watermark e.cap = k1.watermark e.cap + 2 ^ pageBits := by
        show k'.watermark e.cap = 4096 * ((paddr - e.paddr) >>> 12 + objectPages).toNat ↔ _
        rw [UInt64.toNat_add, Nat.mod_eq_of_lt (by omega), hold, hsize, Nat.mul_add]
      refine ⟨⟨_, rfl⟩, hothers.trans hmade.others, fun hne => absurd rfl hne, fun _ => ?_⟩
      rw [hobject, Option.some.injEq]
      constructor
      · rintro ⟨_, hafter⟩
        exact hiff.mp (hcounted.mp hafter)
      · intro hmatch
        have hafter := hcounted.mpr (hiff.mpr hmatch)
        subst hmatch
        have haddress := hmade.aligned hposition_dvd
        have hpage := he.page_address hle
          ((Nat.pow_dvd_pow 2 hbits).trans haligned) hbits hmade.inside.1
        simp only [hold, hpage] at haddress
        exact ⟨⟨bits, haddress ▸ hmade.object⟩, hafter⟩

/-! ## The table -/

/-- A loop over the table changes nothing, or acts on one entry that it does not skip. -/
theorem onFirst_establishes {skips : DevUtEntry -> Bool}
    {act : DevUtEntry -> UtM (DevResult × DevUtEntry)}
    {P : DevUtEntry -> DevResult × DevUtEntry -> KernelState -> Prop} {devUt : List DevUtEntry}
    (hact : ∀ e ∈ devUt, skips e = false -> Establishes (kernelExec abi region) (P e) (act e) k) :
    Establishes (kernelExec abi region)
      (fun r k' => (r = ((.invalidArgument, sel4CapNull, cur), devUt) /\ k' = k) \/
        ∃ before e after e', devUt = before ++ e :: after /\ r.2 = before ++ e' :: after /\
          P e (r.1, e') k')
      (onFirst skips act cur devUt) k := by
  induction devUt with
  | nil => exact .inl ⟨rfl, rfl⟩
  | cons first rest ih =>
    unfold onFirst
    split
    · refine (ih fun e he => hact e (mem_cons_of_mem _ he)).bind ?_
      rintro ⟨result, rest'⟩ k' (⟨hsame, rfl⟩ | ⟨before, e, after, e', rfl, hrest, hP⟩)
      · cases hsame
        exact .inl ⟨rfl, rfl⟩
      · exact .inr ⟨first :: before, e, after, e', rfl, congrArg (first :: ·) hrest, hP⟩
    · rename_i hskip
      refine (hact first mem_cons_self (Bool.eq_false_iff.mpr hskip)).bind ?_
      rintro ⟨result, e'⟩ k' hP
      exact .inr ⟨[], first, rest, e', rfl, rfl, hP⟩

end

variable {s : UtState}

/-- Acting on one entry keeps the table in step, if the entry is. -/
theorem Synced.replace (hs : Synced region k s) {before after : List DevUtEntry} (used cur : UInt64)
    (hsplit : s.devUt = before ++ e :: after) (hothers : OthersKept e.cap k k') :
    Synced region k' { s with
        devUt := before ++ { e with pagesUsed := used } :: after, slotCur := cur } ↔
      Counted k' { e with pagesUsed := used } := by
  have hcaps := hs.caps
  rw [hsplit, map_append, map_cons] at hcaps
  have hmem : e ∈ s.devUt := by simp [hsplit]
  have hothersMem : ∀ d, d ∈ before \/ d ∈ after -> d ∈ s.devUt /\ d.cap ≠ e.cap := by
    intro d hd
    constructor
    · rw [hsplit]
      rcases hd with hd | hd
      · exact mem_append_left _ hd
      · exact mem_append_right _ (mem_cons_of_mem _ hd)
    · intro hsame
      have hnotin := (nodup_middle.mp hcaps).notMem
      apply hnotin
      rw [<- hsame, <- map_append]
      rcases hd with hd | hd
      · exact mem_map_of_mem (mem_append_left _ hd)
      · exact mem_map_of_mem (mem_append_right _ hd)
  constructor
  · intro h
    exact h.counted _ (by simp)
  · intro hcount
    refine ⟨fun d hd => ?_, fun d hd => ?_, ?_⟩
    · rcases mem_append.mp hd with hd | hd
      · exact hs.placed d (hothersMem d (.inl hd)).1
      · rcases mem_cons.mp hd with rfl | hd
        · exact (hs.placed e hmem).counting used
        · exact hs.placed d (hothersMem d (.inr hd)).1
    · rcases mem_append.mp hd with hd | hd
      · obtain ⟨hin, hne⟩ := hothersMem d (.inl hd)
        exact (hothers d.cap hne).trans (hs.counted d hin)
      · rcases mem_cons.mp hd with rfl | hd
        · exact hcount
        · obtain ⟨hin, hne⟩ := hothersMem d (.inr hd)
          exact (hothers d.cap hne).trans (hs.counted d hin)
    · rw [map_append, map_cons]
      exact hcaps

/-! ## Calls -/

inductive DevCall where
  | frame (paddr pdCnode targetSlot : UInt64)
  | cap (paddr : UInt64)
  | typed (paddr : UInt64) (objectType : UInt32) (pageBits : UInt8)

def runDevCall (abi : KernelAbi) : DevCall -> UtState -> UtM ((Sel4Error × UInt64) × UtState)
  | .frame paddr pdCnode targetSlot, s => do
    let err <- utAllocDeviceFrame abi paddr pdCnode targetSlot s
    pure ((err, targetSlot), s)
  | .cap paddr, s => utAllocDeviceCap abi paddr s
  | .typed paddr objectType pageBits, s => utAllocDeviceCapTyped abi paddr objectType pageBits s

def DevCall.paddr : DevCall -> UInt64
  | .frame paddr _ _ => paddr
  | .cap paddr => paddr
  | .typed paddr _ _ => paddr

/-- Where the frame goes, for the slot that the call reports. -/
def DevCall.dest : DevCall -> UInt64 -> RetypeDest
  | .frame _ pdCnode _, slot => ⟨sel4CapInitThreadCNode, pdCnode, 64, slot⟩
  | .cap _, slot => rootSlot slot
  | .typed _ _ _, slot => rootSlot slot

/-- The calls that account for what the kernel does: not `ut_alloc_device_frame`, and a typed
call only with the size of its object type. -/
def DevCall.Accounts (abi : KernelAbi) : DevCall -> Prop
  | .frame _ _ _ => False
  | .cap _ => True
  | .typed _ objectType pageBits => abi.objectBits objectType 0 = some pageBits.toNat

/-- The last object made is a frame at the address that was asked for. -/
def DevCall.Produced (call : DevCall) (slot : UInt64) (k : KernelState) : Prop :=
  ∃ bits, k.objects.head? = some ⟨call.dest slot, call.paddr.toNat, bits⟩

/-- What a call from a state in step with the kernel does. -/
structure CallSpec (abi : KernelAbi) (region : UInt64 -> Region) (call : DevCall)
    (r : (Sel4Error × UInt64) × UtState) (k' : KernelState) : Prop where
  failed : r.1.1 ≠ .noError -> Synced region k' r.2
  made : r.1.1 = .noError -> ((call.Produced r.1.2 k' /\ Synced region k' r.2) ↔ call.Accounts abi)

variable {call : DevCall}

theorem CallSpec.of_failed (herr : err ≠ .noError) (hs : Synced region k s) :
    CallSpec abi region call ((err, cap), s) k :=
  ⟨fun _ => hs, fun hok => absurd hok herr⟩

theorem Synced.withCursor (hs : Synced region k s) (cur : UInt64) :
    Synced region k { s with slotCur := cur } :=
  ⟨hs.placed, hs.counted, hs.caps⟩

/-- A loop over the table gives a call, whose frame goes to the root task. -/
theorem callSpec_of_onFirst {matching : Prop} {skips : DevUtEntry -> Bool}
    {act : DevUtEntry -> UtM (DevResult × DevUtEntry)} (hs : Synced region k s)
    (hdest : ∀ slot, call.dest slot = rootSlot slot) (hmatching : call.Accounts abi ↔ matching)
    (hact : ∀ e ∈ s.devUt, skips e = false -> Establishes (kernelExec abi region)
      (Acted matching call.paddr e k) (act e) k) :
    Establishes (kernelExec abi region) (CallSpec abi region call)
      (do
        let ((err, cap, cur), devUt) <- onFirst skips act cur s.devUt
        pure ((err, cap), { s with devUt := devUt, slotCur := cur })) k := by
  refine (onFirst_establishes hact).bind ?_
  rintro ⟨⟨err, cap, cur'⟩, devUt⟩ k' (⟨hsame, rfl⟩ | ⟨before, e, after, e', hsplit, hdevUt, hP⟩)
  · cases hsame
    exact .of_failed (by decide) (hs.withCursor _)
  · obtain ⟨⟨used, hentry⟩, hothers, hfailed, hmade⟩ := hP
    simp only at hdevUt hentry hfailed hmade
    subst hdevUt hentry
    have hreplace := hs.replace used cur' hsplit hothers
    refine ⟨fun herr => hreplace.mpr (hfailed herr), fun hok => ?_⟩
    show (call.Produced cap k' /\ Synced region k' _) ↔ _
    rw [hreplace, hmatching, <- hmade hok, DevCall.Produced, hdest]

theorem utAllocDeviceCap_establishes {paddr : UInt64} (hs : Synced region k s)
    (haligned : 4096 ∣ paddr.toNat) :
    Establishes (kernelExec abi region) (CallSpec abi region (.cap paddr))
      (utAllocDeviceCap abi paddr s) k := by
  unfold utAllocDeviceCap
  simp only
  split
  · exact .of_failed (by decide) (hs.withCursor _)
  refine callSpec_of_onFirst hs (fun _ => rfl) Iff.rfl fun e he hskip => ?_
  have hle : e.paddr <= paddr := by
    simp only [decide_eq_false_iff_not, not_or, UInt64.not_lt] at hskip
    exact hskip.1
  exact deviceSmall_establishes (hs.placed e he) (hs.counted e he) hle haligned

theorem utAllocDeviceCapTyped_establishes {paddr : UInt64} {pageBits : UInt8}
    (hs : Synced region k s) :
    Establishes (kernelExec abi region) (CallSpec abi region (.typed paddr objectType pageBits))
      (utAllocDeviceCapTyped abi paddr objectType pageBits s) k := by
  unfold utAllocDeviceCapTyped
  split
  · exact .of_failed (by decide) hs
  rename_i hrange
  rw [not_or, UInt8.not_lt, ge_iff_le, UInt8.not_le, UInt8.le_iff_toNat_le,
    UInt8.lt_iff_toNat_lt] at hrange
  have hlow : 12 <= pageBits.toNat := hrange.1
  have hhigh : pageBits.toNat < 64 := hrange.2
  have hbytes : ((1 : UInt64) <<< pageBits.toUInt64).toNat = 2 ^ pageBits.toNat := by
    rw [UInt64.toNat_shiftLeft, UInt8.toNat_toUInt64, Nat.mod_eq_of_lt hhigh]
    have hone : (1 : UInt64).toNat = 1 := rfl
    rw [hone, Nat.one_shiftLeft]
    exact Nat.mod_eq_of_lt (Nat.pow_lt_pow_right (by norm_num) hhigh)
  have hpages : (((1 : UInt64) <<< pageBits.toUInt64) >>> 12).toNat =
      2 ^ (pageBits.toNat - 12) := by
    have hshift : (12 : UInt64).toNat % 64 = 12 := rfl
    rw [UInt64.toNat_shiftRight, hbytes, hshift, Nat.shiftRight_eq_div_pow,
      Nat.pow_div hlow (by norm_num)]
  simp only
  split
  · exact .of_failed (by decide) hs
  rename_i hmask
  have haligned := (mask_eq_zero_iff hbytes).mp (not_not.mp hmask)
  rw [hbytes] at haligned
  refine callSpec_of_onFirst hs (fun _ => rfl) Iff.rfl fun e he hskip => ?_
  have hle : e.paddr <= paddr := by
    simp only [decide_eq_false_iff_not, not_or, UInt64.not_lt] at hskip
    exact hskip.1
  exact deviceTyped_establishes (hs.placed e he) (hs.counted e he) hle hlow hhigh haligned hpages

/-- A frame taken at the kernel's position moves the kernel and not the count. -/
theorem deviceFrameFrom_establishes {paddr : UInt64} {dest : RetypeDest} {devUt : List DevUtEntry}
    (hplaced : ∀ e ∈ devUt, Placed region e) :
    Establishes (kernelExec abi region)
      (fun err k' => (err ≠ .noError /\ k' = k) \/
        (err = .noError /\ ∃ e ∈ devUt, k.watermark e.cap < k'.watermark e.cap))
      (deviceFrameFrom abi paddr dest devUt) k := by
  induction devUt with
  | nil => exact .inl ⟨by decide, rfl⟩
  | cons e rest ih =>
    unfold deviceFrameFrom
    split
    · refine (ih fun d hd => hplaced d (mem_cons_of_mem _ hd)).mono ?_
      rintro err k' (hfailed | ⟨hok, d, hd, hmoved⟩)
      · exact .inl hfailed
      · exact .inr ⟨hok, d, mem_cons_of_mem _ hd, hmoved⟩
    · intro err k' hexec
      obtain hfailed | ⟨hok, bits, address, _, hmade⟩ := (hplaced e mem_cons_self).retype hexec
      · exact .inl hfailed
      · have hposition := hmade.position
        have habove := hmade.above
        have hpos := Nat.two_pow_pos bits
        exact .inr ⟨hok, e, mem_cons_self, by omega⟩

theorem utAllocDeviceFrame_establishes {paddr pdCnode targetSlot : UInt64} (hs : Synced region k s)
    :
    Establishes (kernelExec abi region) (CallSpec abi region (.frame paddr pdCnode targetSlot))
      (runDevCall abi (.frame paddr pdCnode targetSlot) s) k := by
  refine (deviceFrameFrom_establishes hs.placed).bind ?_
  rintro err k' (⟨herr, rfl⟩ | ⟨rfl, e, he, hmoved⟩)
  · exact .of_failed herr hs
  · refine ⟨fun hne => absurd rfl hne, fun _ => iff_of_false ?_ id⟩
    rintro ⟨_, hsynced⟩
    have hnew : k'.watermark e.cap = 4096 * e.pagesUsed.toNat := hsynced.counted e he
    have hold : k.watermark e.cap = 4096 * e.pagesUsed.toNat := hs.counted e he
    omega

theorem runDevCall_establishes (hs : Synced region k s) (haligned : 4096 ∣ call.paddr.toNat) :
    Establishes (kernelExec abi region) (CallSpec abi region call) (runDevCall abi call s) k := by
  cases call with
  | frame paddr pdCnode targetSlot => exact utAllocDeviceFrame_establishes hs
  | cap paddr => exact utAllocDeviceCap_establishes hs haligned
  | typed paddr objectType pageBits => exact utAllocDeviceCapTyped_establishes hs

/-! ## Boot and whole sequences -/

/-- The range the kernel reports for a capability. -/
def bootRegion (bi : BootInfo) (cap : UInt64) : Region :=
  match bi.untypedList[(cap - bi.untypedStart).toNat]? with
  | some d => ⟨d.paddr.toNat, d.sizeBits.toNat⟩
  | none => ⟨0, 0⟩

/-- Device untypeds are naturally aligned and lie in the address space.  They need not be
disjoint here. -/
structure BootOk (bi : BootInfo) : Prop where
  count : bi.untypedList.length <= 2 ^ 64
  size : ∀ d ∈ bi.untypedList, d.isDevice = true -> d.sizeBits.toNat < 64
  natural : ∀ d ∈ bi.untypedList, d.isDevice = true -> 2 ^ d.sizeBits.toNat ∣ d.paddr.toNat
  limit : ∀ d ∈ bi.untypedList, d.isDevice = true -> d.paddr.toNat + 2 ^ d.sizeBits.toNat <= 2 ^ 64

variable {start : UInt64}

theorem mem_devUtFrom {i : Nat} {descs : List UntypedDesc} (he : e ∈ devUtFrom start i descs) :
    ∃ j d, descs[j]? = some d /\ d.isDevice = true /\
      e = ⟨start + UInt64.ofNat (i + j), d.paddr, 0, d.sizeBits⟩ := by
  induction descs generalizing i with
  | nil => cases he
  | cons d rest ih =>
    have hrest : e ∈ devUtFrom start (i + 1) rest -> ∃ j d', (d :: rest)[j]? = some d' /\
        d'.isDevice = true /\ e = ⟨start + UInt64.ofNat (i + j), d'.paddr, 0, d'.sizeBits⟩ := by
      intro he
      obtain ⟨j, d', hget, hdevice, rfl⟩ := ih he
      exact ⟨j + 1, d', hget, hdevice, by rw [Nat.add_assoc, Nat.add_comm 1 j]⟩
    unfold devUtFrom at he
    split at he
    · rename_i hdevice
      rcases mem_cons.mp he with rfl | he
      · exact ⟨0, d, rfl, hdevice, rfl⟩
      · exact hrest he
    · exact hrest he

theorem cap_index {j : Nat} (hj : j < 2 ^ 64) : (start + UInt64.ofNat j - start).toNat = j := by
  rw [UInt64.add_comm, UInt64.add_sub_cancel, UInt64.toNat_ofNat', Nat.mod_eq_of_lt hj]

theorem caps_devUtFrom {i : Nat} {descs : List UntypedDesc} (hcount : i + descs.length <= 2 ^ 64) :
    ((devUtFrom start i descs).map DevUtEntry.cap).Nodup := by
  induction descs generalizing i with
  | nil => exact nodup_nil
  | cons d rest ih =>
    rw [length_cons] at hcount
    have hrest := ih (i := i + 1) (by omega)
    unfold devUtFrom
    split
    · rw [map_cons, nodup_cons]
      refine ⟨?_, hrest⟩
      intro hmem
      obtain ⟨e, he, hcap⟩ := mem_map.mp hmem
      obtain ⟨j, d', hget, _, rfl⟩ := mem_devUtFrom he
      have hj : j < rest.length := (List.getElem?_eq_some_iff.mp hget).1
      -- equal capabilities would be at equal positions of the kernel's list
      have hindex := congrArg (fun cap => (cap - start).toNat) hcap
      simp only at hindex
      rw [cap_index (by omega), cap_index (by omega)] at hindex
      omega
    · exact hrest

theorem synced_boot {bi : BootInfo} (hbi : BootOk bi) :
    Synced (bootRegion bi) .boot (utAllocInit bi) := by
  refine ⟨fun e he => ?_, fun e he => ?_, caps_devUtFrom (by simpa using hbi.count)⟩
  · obtain ⟨j, d, hget, hdevice, rfl⟩ := mem_devUtFrom he
    have hmem := mem_of_getElem? hget
    have hj : j < bi.untypedList.length := (List.getElem?_eq_some_iff.mp hget).1
    have hregion : bootRegion bi (bi.untypedStart + UInt64.ofNat (0 + j)) =
        ⟨d.paddr.toNat, d.sizeBits.toNat⟩ := by
      have hcount := hbi.count
      unfold bootRegion
      rw [Nat.zero_add, cap_index (by omega), hget]
    exact ⟨by rw [hregion], by rw [hregion], hbi.size d hmem hdevice, hbi.natural d hmem hdevice,
      hbi.limit d hmem hdevice⟩
  · obtain ⟨j, d, _, _, rfl⟩ := mem_devUtFrom he
    rfl

/-- The states after any sequence of calls that account for what the kernel does. -/
inductive DevReached (abi : KernelAbi) (bi : BootInfo) : UtState -> KernelState -> Prop where
  | boot : DevReached abi bi (utAllocInit bi) .boot
  | call {s s' : UtState} {k k' : KernelState} {call : DevCall} {result : Sel4Error × UInt64} :
      DevReached abi bi s k -> 4096 ∣ call.paddr.toNat -> call.Accounts abi ->
      Executes (kernelExec abi (bootRegion bi)) (runDevCall abi call s) k (result, s') k' ->
      DevReached abi bi s' k'

theorem DevReached.synced {bi : BootInfo} (hbi : BootOk bi) (hreached : DevReached abi bi s k) :
    Synced (bootRegion bi) k s := by
  induction hreached with
  | boot => exact synced_boot hbi
  | @call s s' k k' call result _ haligned haccounts hrun ih =>
    have hspec := (runDevCall_establishes ih haligned).executes hrun
    by_cases herr : result.1 = .noError
    · exact ((hspec.made herr).mpr haccounts).2
    · exact hspec.failed herr

/-- After any sequence of calls that account for the kernel's moves, each count of pages is
the kernel's position.  The next call, if it fails, keeps that; if it succeeds, its frame is
at the address asked for and the counts are still right exactly when it is not
`ut_alloc_device_frame` and a typed call named the size of its object type. -/
theorem deviceFrames_iff (abi : KernelAbi) {bi : BootInfo} (hbi : BootOk bi) {s : UtState}
    {k : KernelState} (hreached : DevReached abi bi s k) :
    Synced (bootRegion bi) k s /\
      ∀ (call : DevCall) (err : Sel4Error) (cap : UInt64) (s' : UtState) (k' : KernelState),
        4096 ∣ call.paddr.toNat ->
        Executes (kernelExec abi (bootRegion bi)) (runDevCall abi call s) k ((err, cap), s') k' ->
        (err ≠ .noError -> Synced (bootRegion bi) k' s') /\
        (err = .noError ->
          ((call.Produced cap k' /\ Synced (bootRegion bi) k' s') ↔ call.Accounts abi)) := by
  have hsynced := hreached.synced hbi
  refine ⟨hsynced, fun call err cap s' k' haligned hrun => ?_⟩
  have hspec := (runDevCall_establishes hsynced haligned).executes hrun
  exact ⟨hspec.failed, hspec.made⟩

/-! ## A board with one device untyped -/

/-- The object types of the host build. -/
def hostAbi : KernelAbi where
  untypedObject := 0
  smallPageObject := 6
  objectBits objectType sizeBits :=
    if objectType = 0 then some sizeBits.toNat
    else if objectType = 6 then some 12
    else if objectType = 7 then some 21
    else none
  untyped_bits _ := rfl
  smallPage_bits := rfl

/-- Sixteen megabytes of device memory. -/
def uartBoard : BootInfo := ⟨100, 200, 50, [⟨0x9000000, 24, true⟩]⟩

theorem uartBoard_ok : BootOk uartBoard where
  count := by decide
  size := by decide
  natural := by decide
  limit := by decide

/-- A page of the board is made where the watermark is, if that is aligned. -/
theorem page_step {k : KernelState} {objectType sizeBits : UInt32} (dest : RetypeDest)
    {address : Nat} (hbits : hostAbi.objectBits objectType sizeBits = some 12)
    (hmark : (bootRegion uartBoard 50).base + k.watermark 50 = address) (haligned : 2 ^ 12 ∣ address)
    (hfits : address + 2 ^ 12 <= (bootRegion uartBoard 50).base +
      2 ^ (bootRegion uartBoard 50).bits) :
    kernelExec hostAbi (bootRegion uartBoard) (.untypedRetype 50 objectType sizeBits dest) k
      .noError
      ⟨Function.update k.watermark 50 (address + 2 ^ 12 - (bootRegion uartBoard 50).base),
        ⟨dest, address, 12⟩ :: k.objects⟩ :=
  .made hbits ⟨⟨hmark.le, haligned⟩, fun _ h => hmark ▸ h.1⟩ hfits

/-- The kernel after one small page was made for slot 9 of a component. -/
def firstPageMade : KernelState where
  watermark := Function.update (fun _ => 0) 50 4096
  objects := [⟨⟨sel4CapInitThreadCNode, 5, 64, 9⟩, 0x9000000, 12⟩]

/-- The kernel after the first page was skipped and the second made. -/
def secondPageMade : KernelState where
  watermark := Function.update (Function.update (fun _ => 0) 50 4096) 50 8192
  objects := [⟨rootSlot 100, 0x9001000, 12⟩, ⟨rootSlot 101, 0x9000000, 12⟩]

/-- `ut_alloc_device_cap` reaches the second page over the first. -/
theorem secondPage_run : Executes (kernelExec hostAbi (bootRegion uartBoard))
    (runDevCall hostAbi (.cap 0x9001000) (utAllocInit uartBoard)) .boot
    ((.noError, 100), ⟨[⟨50, 0x9000000, 2, 24⟩], 102, 200⟩) secondPageMade := by
  have hdone : deviceAdvance hostAbi ⟨50, 0x9000000, 1, 24⟩ 1 102 200 =
      pure (.noError, ⟨50, 0x9000000, 1, 24⟩, 102) := by
    rw [deviceAdvance]
    rfl
  change Executes _ (Prog.bind (Prog.bind (Prog.bind
    (deviceAdvance hostAbi ⟨50, 0x9000000, 0, 24⟩ 1 101 200) _) _) _) _ _ _
  rw [deviceAdvance]
  refine .op (page_step (rootSlot 101) rfl rfl (by decide) (by decide)) ?_
  change Executes _ (Prog.bind (Prog.bind (Prog.bind
    (deviceAdvance hostAbi ⟨50, 0x9000000, 1, 24⟩ 1 102 200) _) _) _) _ _ _
  rw [hdone]
  exact .op (page_step (rootSlot 100) rfl rfl (by decide) (by decide)) (.ret _ _)

theorem deviceFrames_iff_secondPage :
    (DevCall.cap 0x9001000).Produced 100 secondPageMade /\
      Synced (bootRegion uartBoard) secondPageMade ⟨[⟨50, 0x9000000, 2, 24⟩], 102, 200⟩ :=
  (((deviceFrames_iff hostAbi uartBoard_ok .boot).2 _ _ _ _ _ (by decide) secondPage_run).2 rfl).mpr
    trivial

/-- The second page is asked for, and the call reports success with the first. -/
theorem deviceFrame_misplaced : BootOk uartBoard /\ 4096 ∣ (0x9001000 : UInt64).toNat /\
      Executes (kernelExec hostAbi (bootRegion uartBoard))
        (runDevCall hostAbi (.frame 0x9001000 5 9) (utAllocInit uartBoard)) .boot
        ((.noError, 9), utAllocInit uartBoard) firstPageMade /\
      ¬(DevCall.frame 0x9001000 5 9).Produced 9 firstPageMade /\
      ¬Synced (bootRegion uartBoard) firstPageMade (utAllocInit uartBoard) := by
  refine ⟨uartBoard_ok, by decide,
    .op (page_step _ rfl rfl (by decide) (by decide)) (.ret _ _), ?_, ?_⟩
  · rintro ⟨bits, hobject⟩
    have haddress : 0x9000000 = (0x9001000 : UInt64).toNat :=
      congrArg KernelObject.address (Option.some.inj hobject)
    exact absurd haddress (by decide)
  · intro hsynced
    have hcount : firstPageMade.watermark 50 = 4096 * (0 : UInt64).toNat :=
      hsynced.counted _ mem_cons_self
    exact absurd hcount (by decide)

end AgentOs.RootTask
