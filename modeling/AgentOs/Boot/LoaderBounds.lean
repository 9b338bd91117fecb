import AgentOs.Boot.Loader

/-!
# What the loader reads

The loader reads program headers and file bytes, and nothing in it checks that they end before
the image does.
-/

namespace AgentOs.Boot

open Library Prog Sel4 List

variable {image : View} {size : UInt32}

/-! ## Requests and answers -/

/-- The loads are answered from the memory at the image, the kernel answers as it likes. -/
def FromImage (image : View) : (request : ElfOp) -> ElfAns request -> Prop
  | .load8 off, b => b = image off.toNat
  | .load16 off, w => w = image.u16 off.toNat
  | .load32 off, w => w = image.u32 off.toNat
  | .load64 off, w => w = image.u64 off.toNat
  | .utAllocCap, _ => True
  | .pageMapScratch _, _ => True
  | .syncScratchFrame _, _ => True
  | .pageUnmap _, _ => True
  | .mapPage _ _ _ _, _ => True

/-- Every byte of a page is zero or one of the bytes of the image. -/
def PageFromImage (image : View) (size : UInt32) (content : View) : Prop :=
  ∀ b < 4096, content b = 0 \/ ∃ off < size.toNat, content b = image off

/-- A load that stays in the image, or a page made from it. -/
def InImage (image : View) (size : UInt32) : ElfOp -> Prop
  | .load8 off => off.toNat + 1 <= size.toNat
  | .load16 off => off.toNat + 2 <= size.toNat
  | .load32 off => off.toNat + 4 <= size.toNat
  | .load64 off => off.toNat + 8 <= size.toNat
  | .mapPage _ _ _ (some content) => PageFromImage image size content
  | _ => True

theorem fromImage_answers (image : View) (request : ElfOp) :
    ∃ answer, FromImage image request answer := by
  cases request with
  | load8 off => exact ⟨_, rfl⟩
  | load16 off => exact ⟨_, rfl⟩
  | load32 off => exact ⟨_, rfl⟩
  | load64 off => exact ⟨_, rfl⟩
  | utAllocCap => exact ⟨(.noError, 0), trivial⟩
  | pageMapScratch frame => exact ⟨.noError, trivial⟩
  | syncScratchFrame frame => exact ⟨.noError, trivial⟩
  | pageUnmap frame => exact ⟨.noError, trivial⟩
  | mapPage frame vspace va content => exact ⟨.noError, trivial⟩

/-- Every run of the program stays in the image and ends as stated. -/
abbrev Within (image : View) (size : UInt32) {α : Type} (R : α -> Prop) (program : ElfM α) : Prop :=
  Prog.Ensures (I := ElfIo) (FromImage image) (InImage image size) R program

section Loads

variable {α : Type} {R : α -> Prop} {off : UInt64}

theorem within_pure {value : α} : Within image size R (pure value) ↔ R value := Iff.rfl

theorem within_bind {β : Type} {program : ElfM β} {next : β -> ElfM α} :
    Within image size R (program >>= next) ↔
      Within image size (fun value => Within image size R (next value)) program :=
  ensures_bind_iff

theorem within_load8 {next : UInt8 -> ElfM α} : Within image size R (load8 off >>= next) ↔
      off.toNat + 1 <= size.toNat /\ Within image size R (next (image off.toNat)) :=
  and_congr_right fun _ => forall_eq

theorem within_load16 {next : UInt16 -> ElfM α} : Within image size R (load16 off >>= next) ↔
      off.toNat + 2 <= size.toNat /\ Within image size R (next (image.u16 off.toNat)) :=
  and_congr_right fun _ => forall_eq

theorem within_load32 {next : UInt32 -> ElfM α} : Within image size R (load32 off >>= next) ↔
      off.toNat + 4 <= size.toNat /\ Within image size R (next (image.u32 off.toNat)) :=
  and_congr_right fun _ => forall_eq

theorem within_load64 {next : UInt64 -> ElfM α} : Within image size R (load64 off >>= next) ↔
      off.toNat + 8 <= size.toNat /\ Within image size R (next (image.u64 off.toNat)) :=
  and_congr_right fun _ => forall_eq

end Loads

/-! ## The file header -/

/-- The image has the magic number, the class and the type that are accepted. -/
def elfValid (image : View) : Bool :=
  elfIdent.all (fun entry => image entry.1.toNat == entry.2) && image.u16 16 == etExec

theorem within_identMatches {R : Bool -> Prop} {ident : List (UInt64 × UInt8)}
    (hident : ∀ entry ∈ ident, entry.1.toNat + 1 <= size.toNat) :
    Within image size R (identMatches ident) ↔
      R (ident.all fun entry => image entry.1.toNat == entry.2) := by
  induction ident with
  | nil => exact Iff.rfl
  | cons entry rest ih =>
    obtain ⟨off, expected⟩ := entry
    obtain ⟨hoff, hrest⟩ := forall_mem_cons.mp hident
    rw [identMatches, within_load8, and_iff_right hoff, all_cons]
    by_cases heq : image off.toNat = expected
    · rw [if_pos heq, ih hrest, heq, beq_self_eq_true, Bool.true_and]
    · rw [if_neg heq, beq_eq_false_iff_ne.mpr heq, Bool.false_and]
      exact Iff.rfl

theorem within_elf64Valid {R : Bool -> Prop} (hsize : 64 <= size.toNat) :
    Within image size R elf64Valid ↔ R (elfValid image) := by
  have hident : ∀ entry ∈ elfIdent, entry.1.toNat + 1 <= size.toNat := by
    have hsmall : ∀ entry ∈ elfIdent, entry.1.toNat <= 4 := by simp [elfIdent]
    intro entry hmem
    have hle := hsmall entry hmem
    omega
  have htype : (16 : UInt64).toNat = 16 := rfl
  rw [elf64Valid, within_bind, within_identMatches hident, elfValid]
  cases elfIdent.all fun entry => image entry.1.toNat == entry.2 with
  | false => exact Iff.rfl
  | true =>
    rw [if_pos rfl, within_load16, htype, and_iff_right (by omega), Bool.true_and]
    exact Iff.rfl

/-! ## Program headers -/

/-- The fields of a program header that the loader uses. -/
structure Phdr where
  pType : UInt32
  pOffset : UInt64
  pVaddr : UInt64
  pFilesz : UInt64
  pMemsz : UInt64

def phdrAt (image : View) (ePhoff : UInt64) (i : Nat) : Phdr where
  pType := image.u32 (phdrOff ePhoff i).toNat
  pOffset := image.u64 (phdrOff ePhoff i + 8).toNat
  pVaddr := image.u64 (phdrOff ePhoff i + 16).toNat
  pFilesz := image.u64 (phdrOff ePhoff i + 32).toNat
  pMemsz := image.u64 (phdrOff ePhoff i + 40).toNat

def Phdr.loadable (p : Phdr) : Bool := decide (p.pType = ptLoad /\ p.pMemsz ≠ 0)

/-- The part of a program header that is looked at ends in the image: the type, and for a
segment to load everything up to its size in memory. -/
def HeaderFits (image : View) (size : UInt32) (ePhoff : UInt64) (i : Nat) : Prop :=
  (phdrOff ePhoff i).toNat + 4 <= size.toNat /\
    ((phdrAt image ePhoff i).pType = ptLoad -> (phdrOff ePhoff i).toNat + 48 <= size.toNat)

section Headers

variable {ePhoff : UInt64} {i : Nat}

/-- A header that starts in the image does not wrap. -/
theorem field_toNat {off field : UInt64} (hstart : off.toNat + 4 <= size.toNat)
    (hfield : field.toNat <= 40) : (off + field).toNat = off.toNat + field.toNat := by
  have hsize := size.toNat_lt
  rw [UInt64.toNat_add]
  exact Nat.mod_eq_of_lt (by omega)

theorem HeaderFits.field (h : HeaderFits image size ePhoff i)
    (hload : (phdrAt image ePhoff i).loadable = true) {field : UInt64} (hfield : field.toNat <= 40) :
    (phdrOff ePhoff i + field).toNat + 8 <= size.toNat := by
  have hend := h.2 (of_decide_eq_true hload).1
  rw [field_toNat h.1 hfield]
  omega

theorem within_isLoadable {R : Bool -> Prop} : Within image size R (isLoadable ePhoff i) ↔
      HeaderFits image size ePhoff i /\ R (phdrAt image ePhoff i).loadable := by
  rw [isLoadable, within_load32, HeaderFits, and_assoc]
  refine and_congr_right fun hstart => ?_
  have hmemsz : (phdrOff ePhoff i + 40).toNat + 8 = (phdrOff ePhoff i).toNat + 48 :=
    congrArg (· + 8) (field_toNat hstart (by decide))
  have hfield : (phdrAt image ePhoff i).pType = image.u32 (phdrOff ePhoff i).toNat := rfl
  rw [Phdr.loadable, hfield]
  by_cases htype : image.u32 (phdrOff ePhoff i).toNat = ptLoad
  · rw [if_neg (not_not.mpr htype), within_load64, within_pure, imp_iff_right htype, hmemsz]
    simp only [htype, true_and]
    rfl
  · rw [if_pos htype, within_pure]
    simp only [htype, false_and, decide_false, false_implies, true_and]

/-- The page range of the segments that are loaded, in the order of their headers. -/
def rangeOf (image : View) (ePhoff : UInt64) : List Nat -> UInt64 × UInt64 -> UInt64 × UInt64
  | [], range => range
  | i :: rest, (vaMin, vaMax) =>
    let p := phdrAt image ePhoff i
    if p.loadable then
      let s := pageAlignDown p.pVaddr
      let e := pageAlignUp (p.pVaddr + p.pMemsz)
      rangeOf image ePhoff rest (if s < vaMin then s else vaMin, if e > vaMax then e else vaMax)
    else rangeOf image ePhoff rest (vaMin, vaMax)

theorem within_combinedRange {R : UInt64 × UInt64 -> Prop} {segments : List Nat}
    {range : UInt64 × UInt64} :
    Within image size R (combinedRange ePhoff segments range) ↔
      (∀ i ∈ segments, HeaderFits image size ePhoff i) /\
        R (rangeOf image ePhoff segments range) := by
  induction segments generalizing range with
  | nil => simp [combinedRange, rangeOf]
  | cons i rest ih =>
    obtain ⟨vaMin, vaMax⟩ := range
    rw [combinedRange, rangeOf, within_bind, within_isLoadable, forall_mem_cons, and_assoc]
    refine and_congr_right fun hfits => ?_
    cases hload : (phdrAt image ePhoff i).loadable with
    | false =>
      rw [if_pos (show (!false) = true from rfl), if_neg Bool.false_ne_true]
      exact ih
    | true =>
      rw [if_neg (show ¬(!true) = true from Bool.false_ne_true), if_pos rfl, within_load64,
        and_iff_right (hfits.field hload (by decide)), within_load64,
        and_iff_right (hfits.field hload (by decide))]
      exact ih

end Headers

/-! ## The pages -/

theorem PageFromImage.zero : PageFromImage image size zeroPage := fun _ _ => .inl rfl

theorem PageFromImage.update {content : View} (h : PageFromImage image size content) {off : Nat}
    (hoff : off < size.toNat) (at_ : Nat) :
    PageFromImage image size (Function.update content at_ (image off)) := by
  intro b hb
  by_cases heq : b = at_
  · rw [heq, Function.update_self]
    exact .inr ⟨off, hoff, rfl⟩
  · rw [Function.update_of_ne heq]
    exact h b hb

section Copy

variable {segOff segVa va : UInt64} {bvas : List UInt64} {dst : View}

theorem copyBytes_within (hbounds : ∀ bva ∈ bvas, (segOff + (bva - segVa)).toNat + 1 <= size.toNat)
    (hdst : PageFromImage image size dst) :
    Within image size (PageFromImage image size) (copyBytes segOff segVa va bvas dst) := by
  induction bvas generalizing dst with
  | nil => exact hdst
  | cons bva rest ih =>
    obtain ⟨hbound, hrest⟩ := forall_mem_cons.mp hbounds
    rw [copyBytes, within_load8]
    exact ⟨hbound, ih hrest (hdst.update hbound _)⟩

theorem copyBytes_reads {R : View -> Prop}
    (hcopy : Within image size R (copyBytes segOff segVa va bvas dst)) :
    (∀ bva ∈ bvas, (segOff + (bva - segVa)).toNat + 1 <= size.toNat) /\ ∃ content, R content := by
  induction bvas generalizing dst with
  | nil => exact ⟨nofun, dst, hcopy⟩
  | cons bva rest ih =>
    rw [copyBytes, within_load8] at hcopy
    obtain ⟨hrest, hcontent⟩ := ih hcopy.2
    exact ⟨forall_mem_cons.mpr ⟨hcopy.1, hrest⟩, hcontent⟩

end Copy

namespace Phdr

/-- The segment has nothing in the page. -/
def misses (p : Phdr) (va : UInt64) : Prop := p.pVaddr >= va + pageSize \/ p.pVaddr + p.pMemsz <= va

instance (p : Phdr) (va : UInt64) : Decidable (p.misses va) := inferInstanceAs (Decidable (_ \/ _))

/-- The addresses of the file bytes of a segment in one page. -/
def fileBytesIn (p : Phdr) (va : UInt64) : List UInt64 :=
  stepsUpTo (if p.pVaddr > va then p.pVaddr else va)
    (if p.pVaddr + p.pFilesz > va + pageSize then va + pageSize else p.pVaddr + p.pFilesz) 1

/-- The part of one page that a segment fills is in the image. -/
def PageFits (p : Phdr) (size : UInt32) (va : UInt64) : Prop :=
  p.loadable = true -> ¬p.misses va -> ∀ bva ∈ p.fileBytesIn va,
    (p.pOffset + (bva - p.pVaddr)).toNat + 1 <= size.toNat

end Phdr

section Merge

variable {ePhoff va : UInt64} {si : Nat} {dst : View}

/-- What is left of one segment's turn once its header has been read. -/
def copySegment (p : Phdr) (va : UInt64) (dst : View) : ElfM View :=
  if !p.loadable then pure dst
  else if p.misses va then pure dst
  else copyBytes p.pOffset p.pVaddr va (p.fileBytesIn va) dst

variable {R : View -> Prop}

theorem within_mergeSegment (hfits : HeaderFits image size ePhoff si) :
    Within image size R (mergeSegment ePhoff va si dst) ↔
      Within image size R (copySegment (phdrAt image ePhoff si) va dst) := by
  rw [mergeSegment, within_bind, within_isLoadable, and_iff_right hfits, copySegment]
  cases hload : (phdrAt image ePhoff si).loadable with
  | false => rw [if_pos (show (!false) = true from rfl), if_pos (show (!false) = true from rfl)]
  | true =>
    have hnot : ¬(!true) = true := Bool.false_ne_true
    rw [if_neg hnot, if_neg hnot,
      within_load64, and_iff_right (hfits.field hload (by decide)),
      within_load64, and_iff_right (hfits.field hload (by decide)),
      within_load64, and_iff_right (hfits.field hload (by decide)),
      within_load64, and_iff_right (hfits.field hload (by decide))]
    exact Iff.rfl

theorem copySegment_cases (p : Phdr) (va : UInt64) (dst : View) :
    (copySegment p va dst = pure dst /\ ¬(p.loadable = true /\ ¬p.misses va)) \/
      (copySegment p va dst = copyBytes p.pOffset p.pVaddr va (p.fileBytesIn va) dst /\
        p.loadable = true /\ ¬p.misses va) := by
  unfold copySegment
  split
  · rename_i hload
    exact .inl ⟨rfl, fun h => by simp [h.1] at hload⟩
  · rename_i hload
    split
    · rename_i hmisses
      exact .inl ⟨rfl, fun h => h.2 hmisses⟩
    · rename_i hmisses
      exact .inr ⟨rfl, by simpa using hload, hmisses⟩

theorem copySegment_within {p : Phdr} (hpage : p.PageFits size va)
    (hdst : PageFromImage image size dst) :
    Within image size (PageFromImage image size) (copySegment p va dst) := by
  rcases copySegment_cases p va dst with ⟨heq, -⟩ | ⟨heq, hload, hmisses⟩
  · rw [heq]
    exact within_pure.mpr hdst
  · rw [heq]
    exact copyBytes_within (hpage hload hmisses) hdst

theorem copySegment_reads {p : Phdr} (hcopy : Within image size R (copySegment p va dst)) :
    p.PageFits size va /\ ∃ content, R content := by
  rcases copySegment_cases p va dst with ⟨heq, hnone⟩ | ⟨heq, -⟩
  · rw [heq] at hcopy
    exact ⟨fun hload hmisses => absurd ⟨hload, hmisses⟩ hnone, dst, hcopy⟩
  · rw [heq] at hcopy
    obtain ⟨hbounds, hcontent⟩ := copyBytes_reads hcopy
    exact ⟨fun _ _ => hbounds, hcontent⟩

theorem mergeSegments_within {segments : List Nat}
    (hfits : ∀ si ∈ segments, HeaderFits image size ePhoff si)
    (hpage : ∀ si ∈ segments, (phdrAt image ePhoff si).PageFits size va)
    (hdst : PageFromImage image size dst) :
    Within image size (PageFromImage image size) (mergeSegments ePhoff va segments dst) := by
  induction segments generalizing dst with
  | nil => exact hdst
  | cons si rest ih =>
    obtain ⟨hfit, hfits⟩ := forall_mem_cons.mp hfits
    obtain ⟨hhead, hrest⟩ := forall_mem_cons.mp hpage
    rw [mergeSegments, within_bind, within_mergeSegment hfit]
    exact (copySegment_within hhead hdst).weaken fun _ hnext => ih hfits hrest hnext

theorem mergeSegments_reads {segments : List Nat}
    (hfits : ∀ si ∈ segments, HeaderFits image size ePhoff si)
    (hmerge : Within image size R (mergeSegments ePhoff va segments dst)) :
    (∀ si ∈ segments, (phdrAt image ePhoff si).PageFits size va) /\ ∃ content, R content := by
  induction segments generalizing dst with
  | nil => exact ⟨nofun, dst, hmerge⟩
  | cons si rest ih =>
    obtain ⟨hfit, hfits⟩ := forall_mem_cons.mp hfits
    rw [mergeSegments, within_bind, within_mergeSegment hfit] at hmerge
    obtain ⟨hhead, content, hnext⟩ := copySegment_reads hmerge
    obtain ⟨hrest, hcontent⟩ := ih hfits hnext
    exact ⟨forall_mem_cons.mpr ⟨hhead, hrest⟩, hcontent⟩

end Merge

section Pages

variable {vspace : UInt64}

theorem loadFilledPage_within {va : UInt64} {fill : ElfM View}
    (hfill : Within image size (PageFromImage image size) fill) :
    Within image size (fun _ => True) (loadFilledPage vspace va fill) := by
  refine ⟨trivial, fun allocated _ => ?_⟩
  obtain ⟨err, frame⟩ := allocated
  show Within image size _ (ite _ _ _)
  split
  · trivial
  refine ⟨trivial, fun err _ => ?_⟩
  show Within image size _ (ite _ _ _)
  split
  · trivial
  refine within_bind.mpr (hfill.weaken fun content hcontent => ?_)
  refine ⟨trivial, fun err _ => ?_⟩
  show Within image size _ (ite _ _ _)
  split
  · trivial
  · exact ⟨trivial, fun _ _ => ⟨hcontent, fun _ _ => trivial⟩⟩

/-- A page whose kernel calls all succeed reads what its contents need. -/
theorem loadFilledPage_reads {va : UInt64} {fill : ElfM View} {R : Sel4Error -> Prop}
    (hpage : Within image size R (loadFilledPage vspace va fill)) :
    Within image size (fun _ => R .noError) fill := by
  have hmapped := hpage.2 (.noError, 0) trivial
  have hfilled : Within image size R (fill >>= _) := hmapped.2 .noError trivial
  refine (within_bind.mp hfilled).weaken fun content hrest => ?_
  have hsynced := hrest.2 .noError trivial
  have hunmapped := hsynced.2 .noError trivial
  exact hunmapped.2 .noError trivial

theorem loadPages_within {fill : UInt64 -> ElfM View} {pages : List UInt64}
    (hfill : ∀ va ∈ pages, Within image size (PageFromImage image size) (fill va)) :
    Within image size (fun _ => True) (loadPages vspace fill pages) := by
  induction pages with
  | nil => trivial
  | cons va rest ih =>
    obtain ⟨hhead, hrest⟩ := forall_mem_cons.mp hfill
    rw [loadPages, within_bind]
    refine (loadFilledPage_within hhead).weaken fun err _ => ?_
    split
    · trivial
    · exact ih hrest

theorem loadPages_reads {R : Sel4Error -> Prop} {ePhoff : UInt64} {segments : List Nat}
    {pages : List UInt64} (hfits : ∀ si ∈ segments, HeaderFits image size ePhoff si)
    (hpages : Within image size R
      (loadPages vspace (fun va => mergeSegments ePhoff va segments zeroPage) pages)) :
    ∀ va ∈ pages, ∀ si ∈ segments, (phdrAt image ePhoff si).PageFits size va := by
  induction pages with
  | nil => exact nofun
  | cons va rest ih =>
    rw [loadPages, within_bind] at hpages
    obtain ⟨hhead, -, hrest⟩ := mergeSegments_reads hfits (loadFilledPage_reads hpages)
    exact forall_mem_cons.mpr ⟨hhead, ih hrest⟩

end Pages

/-! ## Addresses -/

theorem mem_stepsUpTo {start stop step x : UInt64} (hstep : 0 < step.toNat) :
    x ∈ stepsUpTo start stop step ↔
      ∃ k, x.toNat = start.toNat + step.toNat * k /\ x.toNat < stop.toNat := by
  have hstop := stop.toNat_lt
  have hbelow : ∀ k, k < (stop.toNat - start.toNat + (step.toNat - 1)) / step.toNat ↔
      start.toNat + step.toNat * k < stop.toNat := by
    intro k
    rw [<- Nat.succ_le_iff, Nat.le_div_iff_mul_le hstep, Nat.succ_mul, Nat.mul_comm k]
    omega
  rw [stepsUpTo, mem_map]
  constructor
  · rintro ⟨k, hk, rfl⟩
    rw [mem_range, hbelow] at hk
    have hvalue : (start + UInt64.ofNat (step.toNat * k)).toNat = start.toNat + step.toNat * k := by
      rw [UInt64.toNat_add, UInt64.toNat_ofNat', Nat.add_mod_mod]
      exact Nat.mod_eq_of_lt (by omega)
    exact ⟨k, hvalue, hvalue ▸ hk⟩
  · rintro ⟨k, hvalue, hlt⟩
    refine ⟨k, mem_range.mpr ((hbelow k).mpr (hvalue ▸ hlt)), ?_⟩
    rw [<- UInt64.toNat_inj, UInt64.toNat_add, UInt64.toNat_ofNat', Nat.add_mod_mod, hvalue]
    exact Nat.mod_eq_of_lt (by omega)

theorem pageAlignDown_toNat (a : UInt64) : (pageAlignDown a).toNat = a.toNat / 4096 * 4096 := by
  have hmask : (~~~pageMask).toNat = 2 ^ 64 - (2 ^ 12 - 1 + 1) := by decide
  have hshift : a.toNat / 4096 * 4096 = (a.toNat >>> 12) <<< 12 := by
    rw [Nat.shiftLeft_eq, Nat.shiftRight_eq_div_pow]
  rw [pageAlignDown, UInt64.toNat_and, hmask, hshift]
  refine Nat.eq_of_testBit_eq fun i => ?_
  rw [Nat.testBit_and, Nat.testBit_two_pow_sub_succ (by decide), Nat.testBit_two_pow_sub_one,
    Nat.testBit_shiftLeft, Nat.testBit_shiftRight]
  rcases Nat.lt_or_ge i 12 with hlow | hhigh
  · simp [hlow, Nat.not_le.mpr hlow]
  · rw [Nat.add_sub_cancel' hhigh]
    rcases Nat.lt_or_ge i 64 with hin | hout
    · simp [hin, hhigh, Nat.not_lt.mpr hhigh]
    · have hzero : a.toNat.testBit i = false :=
        Nat.testBit_lt_two_pow (Nat.lt_of_lt_of_le a.toNat_lt (Nat.pow_le_pow_right (by decide) hout))
      simp [hzero]

theorem pageAlignUp_aligned (a : UInt64) : 4096 ∣ (pageAlignUp a).toNat := by
  have hdown := pageAlignDown_toNat (a + pageMask)
  rw [pageAlignUp, <- pageAlignDown, hdown]
  exact Nat.dvd_mul_left _ _

section Range

variable {ePhoff : UInt64} {segments : List Nat} {range : UInt64 × UInt64}

theorem rangeOf_min_le (segments : List Nat) (range : UInt64 × UInt64) :
    (rangeOf image ePhoff segments range).1 <= range.1 := by
  induction segments generalizing range with
  | nil => exact UInt64.le_refl _
  | cons i rest ih =>
    obtain ⟨vaMin, vaMax⟩ := range
    rw [rangeOf]
    simp only
    split
    · refine UInt64.le_trans (ih _) ?_
      simp only
      split
      · rename_i hlt
        exact UInt64.le_of_lt hlt
      · exact UInt64.le_refl _
    · exact ih _

theorem rangeOf_min_le_segment {i : Nat} (hmem : i ∈ segments)
    (hload : (phdrAt image ePhoff i).loadable = true) :
    (rangeOf image ePhoff segments range).1 <= pageAlignDown (phdrAt image ePhoff i).pVaddr := by
  induction segments generalizing range with
  | nil => cases hmem
  | cons j rest ih =>
    obtain ⟨vaMin, vaMax⟩ := range
    rw [rangeOf]
    simp only
    rcases mem_cons.mp hmem with rfl | hmem
    · rw [if_pos hload]
      refine UInt64.le_trans (rangeOf_min_le _ _) ?_
      simp only
      split
      · exact UInt64.le_refl _
      · rename_i hge
        exact UInt64.not_lt.mp hge
    · split
      · exact ih hmem
      · exact ih hmem

theorem rangeOf_min_aligned : (rangeOf image ePhoff segments range).1 = range.1 \/
      4096 ∣ (rangeOf image ePhoff segments range).1.toNat := by
  induction segments generalizing range with
  | nil => exact .inl rfl
  | cons i rest ih =>
    obtain ⟨vaMin, vaMax⟩ := range
    rw [rangeOf]
    simp only
    split
    · rcases ih with hsame | haligned
      · rw [hsame]
        simp only
        split
        · rw [pageAlignDown_toNat]
          exact .inr (Nat.dvd_mul_left _ _)
        · exact .inl rfl
      · exact .inr haligned
    · exact ih

theorem rangeOf_max_aligned (hrange : 4096 ∣ range.2.toNat) :
    4096 ∣ (rangeOf image ePhoff segments range).2.toNat := by
  induction segments generalizing range with
  | nil => exact hrange
  | cons i rest ih =>
    obtain ⟨vaMin, vaMax⟩ := range
    rw [rangeOf]
    simp only
    split
    · refine ih ?_
      simp only
      split
      · exact pageAlignUp_aligned _
      · exact hrange
    · exact ih hrange

end Range

/-! ## How much of the file is copied -/

namespace Phdr

/-- The file bytes of a segment that are copied: up to the end of its part of the file and
of the last page that the segment and the combined range both reach. -/
def copiedBytes (p : Phdr) (vaMax : UInt64) : Nat :=
  min (p.pVaddr + p.pFilesz).toNat
    ((min vaMax.toNat (p.pVaddr + p.pMemsz).toNat + 4095) / 4096 * 4096) - p.pVaddr.toNat

variable {p : Phdr}

theorem mem_fileBytesIn {va bva : UInt64} (hend : (va + pageSize).toNat = va.toNat + 4096) :
    bva ∈ p.fileBytesIn va ↔ p.pVaddr.toNat <= bva.toNat /\ va.toNat <= bva.toNat /\
      bva.toNat < (p.pVaddr + p.pFilesz).toNat /\ bva.toNat < va.toNat + 4096 := by
  have hone : (1 : UInt64).toNat = 1 := rfl
  rw [fileBytesIn, mem_stepsUpTo (by decide), hone]
  simp only [gt_iff_lt, UInt64.lt_iff_toNat_lt, hend, apply_ite UInt64.toNat, Nat.one_mul]
  constructor
  · rintro ⟨k, hk, hlt⟩
    split_ifs at hk hlt <;> omega
  · rintro ⟨hstart, hpage, hfile, hstop⟩
    refine ⟨bva.toNat - (if va.toNat < p.pVaddr.toNat then p.pVaddr.toNat else va.toNat), ?_, ?_⟩
    all_goals split_ifs <;> omega

theorem pageFits_iff {va : UInt64} (hload : p.loadable = true)
    (hend : (va + pageSize).toNat = va.toNat + 4096) :
    p.PageFits size va ↔ ∀ b < 2 ^ 64, p.pVaddr.toNat <= b -> va.toNat <= b -> b < va.toNat + 4096 ->
      b < (p.pVaddr + p.pFilesz).toNat -> va.toNat < (p.pVaddr + p.pMemsz).toNat ->
      (p.pOffset.toNat + (b - p.pVaddr.toNat)) % 2 ^ 64 < size.toNat := by
  have hoffset : ∀ bva : UInt64, p.pVaddr.toNat <= bva.toNat ->
      (p.pOffset + (bva - p.pVaddr)).toNat =
        (p.pOffset.toNat + (bva.toNat - p.pVaddr.toNat)) % 2 ^ 64 := by
    intro bva hle
    rw [UInt64.toNat_add, UInt64.toNat_sub_of_le _ _ (UInt64.le_iff_toNat_le.mpr hle)]
  have hmisses : ¬p.misses va ↔ p.pVaddr.toNat < va.toNat + 4096 /\
      va.toNat < (p.pVaddr + p.pMemsz).toNat := by
    rw [misses, not_or, ge_iff_le, UInt64.le_iff_toNat_le, UInt64.le_iff_toNat_le, hend,
      Nat.not_le, Nat.not_le]
  constructor
  · intro hpage b hb hstart hva hstop hfile hmem
    have hvalue : (UInt64.ofNat b).toNat = b := by
      rw [UInt64.toNat_ofNat']
      exact Nat.mod_eq_of_lt hb
    have hbyte := hpage hload (hmisses.mpr ⟨by omega, hmem⟩) (.ofNat b)
      ((mem_fileBytesIn hend).mpr (hvalue.symm ▸ ⟨hstart, hva, hfile, hstop⟩))
    rw [hoffset _ (hvalue.symm ▸ hstart), hvalue] at hbyte
    exact hbyte
  · intro hbytes _ htouches bva hmem
    obtain ⟨hstart, hva, hfile, hstop⟩ := (mem_fileBytesIn hend).mp hmem
    rw [hoffset bva hstart]
    exact hbytes _ bva.toNat_lt hstart hva hstop hfile (hmisses.mp htouches).2

/-- All pages of a segment are filled from the image exactly when the bytes copied for it
end in the image. -/
theorem pagesFit_iff {vaMin vaMax : UInt64} (hload : p.loadable = true)
    (hmin : vaMin.toNat <= p.pVaddr.toNat / 4096 * 4096) (hminAligned : 4096 ∣ vaMin.toNat)
    (hmaxAligned : 4096 ∣ vaMax.toNat) :
    (∀ va ∈ stepsUpTo vaMin vaMax pageSize, p.PageFits size va) ↔
      p.copiedBytes vaMax = 0 \/ p.pOffset.toNat + p.copiedBytes vaMax <= size.toNat := by
  have hpageSize : pageSize.toNat = 4096 := rfl
  have hsize := size.toNat_lt
  have hvaMax := vaMax.toNat_lt
  have hfileEnd := (p.pVaddr + p.pFilesz).toNat_lt
  have hoffset := p.pOffset.toNat_lt
  have hend : ∀ va ∈ stepsUpTo vaMin vaMax pageSize,
      (va + pageSize).toNat = va.toNat + 4096 /\ va.toNat < vaMax.toNat /\ 4096 ∣ va.toNat := by
    intro va hmem
    obtain ⟨k, hva, hlt⟩ := (mem_stepsUpTo (by decide)).mp hmem
    rw [hpageSize] at hva
    rw [UInt64.toNat_add, hpageSize]
    omega
  unfold copiedBytes
  constructor
  · intro hpages
    -- every byte below the bound lies in a page of the range, and that page reads it
    have hbyte : ∀ b, p.pVaddr.toNat <= b -> b < (p.pVaddr + p.pFilesz).toNat ->
        b / 4096 * 4096 < vaMax.toNat -> b / 4096 * 4096 < (p.pVaddr + p.pMemsz).toNat ->
        (p.pOffset.toNat + (b - p.pVaddr.toNat)) % 2 ^ 64 < size.toNat := by
      intro b hstart hfile hmax hmem
      have hva : (UInt64.ofNat (b / 4096 * 4096)).toNat = b / 4096 * 4096 := by
        rw [UInt64.toNat_ofNat']
        exact Nat.mod_eq_of_lt (by omega)
      have hpage : UInt64.ofNat (b / 4096 * 4096) ∈ stepsUpTo vaMin vaMax pageSize := by
        rw [mem_stepsUpTo (by decide), hva, hpageSize]
        exact ⟨b / 4096 - vaMin.toNat / 4096, by omega, hmax⟩
      have hfits := (pageFits_iff hload (hend _ hpage).1).mp (hpages _ hpage)
      rw [hva] at hfits
      exact hfits b (by omega) hstart (by omega) (by omega) hfile hmem
    by_contra hnot
    rw [not_or, Nat.not_le] at hnot
    obtain ⟨hpos, hover⟩ := hnot
    have hfirst := hbyte p.pVaddr.toNat (Nat.le_refl _) (by omega) (by omega) (by omega)
    have hlast := hbyte (p.pVaddr.toNat + (size.toNat - p.pOffset.toNat)) (by omega) (by omega)
      (by omega) (by omega)
    omega
  · intro hfits va hmem
    obtain ⟨hva, hmax, haligned⟩ := hend va hmem
    rw [pageFits_iff hload hva]
    intro b _ hstart hle hstop hfile hmem
    omega

end Phdr

/-! ## The whole image -/

def segmentsOf (image : View) : List Nat := range (image.u16 56).toNat

/-- The page range of the image. -/
def imageRange (image : View) : UInt64 × UInt64 :=
  rangeOf image (image.u64 32) (segmentsOf image) (~~~0, 0)

/-- What an accepted image has to satisfy: its program headers end in the image as far as
they are looked at, and so do the bytes copied for each segment. -/
def ImageFits (image : View) (size : UInt32) : Prop :=
  elfValid image = true -> ∀ i ∈ segmentsOf image,
    HeaderFits image size (image.u64 32) i /\
      ((phdrAt image (image.u64 32) i).loadable = true ->
        (phdrAt image (image.u64 32) i).copiedBytes (imageRange image).2 = 0 \/
        (phdrAt image (image.u64 32) i).pOffset.toNat +
          (phdrAt image (image.u64 32) i).copiedBytes (imageRange image).2 <= size.toNat)

/-- For a segment that is loaded the pages of the range are those that `pagesFit_iff` asks for. -/
theorem segment_pagesFit_iff {i : Nat} (hmem : i ∈ segmentsOf image)
    (hload : (phdrAt image (image.u64 32) i).loadable = true) :
    (imageRange image).1 ≠ ~~~0 /\
      ((∀ va ∈ stepsUpTo (imageRange image).1 (imageRange image).2 pageSize,
          (phdrAt image (image.u64 32) i).PageFits size va) ↔
        (phdrAt image (image.u64 32) i).copiedBytes (imageRange image).2 = 0 \/
        (phdrAt image (image.u64 32) i).pOffset.toNat +
          (phdrAt image (image.u64 32) i).copiedBytes (imageRange image).2 <= size.toNat) := by
  have hmin : (imageRange image).1.toNat <=
      (phdrAt image (image.u64 32) i).pVaddr.toNat / 4096 * 4096 := by
    rw [<- pageAlignDown_toNat]
    exact UInt64.le_iff_toNat_le.mp (rangeOf_min_le_segment hmem hload)
  have hne : (imageRange image).1 ≠ ~~~0 := by
    intro heq
    have hvaddr := (phdrAt image (image.u64 32) i).pVaddr.toNat_lt
    have hall : (~~~0 : UInt64).toNat = 2 ^ 64 - 1 := by decide
    rw [heq, hall] at hmin
    omega
  refine ⟨hne, Phdr.pagesFit_iff hload hmin ?_ (rangeOf_max_aligned (by decide))⟩
  rcases rangeOf_min_aligned with hsame | haligned
  · exact absurd hsame hne
  · exact haligned

section Image

variable {vspace : UInt64}

theorem within_loadElfSegments_iff {R : Sel4Error × Option UInt64 -> Prop}
    (hsize : 64 <= size.toNat) :
    Within image size R (loadElfSegments vspace) ↔
      if elfValid image then
        (∀ i ∈ segmentsOf image, HeaderFits image size (image.u64 32) i) /\
          Within image size R
            (if (imageRange image).1 = ~~~0 then pure (.noError, some (image.u64 24))
            else do
              let err <- loadPages vspace
                (fun va => mergeSegments (image.u64 32) va (segmentsOf image) zeroPage)
                (stepsUpTo (imageRange image).1 (imageRange image).2 pageSize)
              pure (err, some (image.u64 24)))
      else R (.invalidArgument, none) := by
  have h24 : (24 : UInt64).toNat = 24 := rfl
  have h32 : (32 : UInt64).toNat = 32 := rfl
  have h56 : (56 : UInt64).toNat = 56 := rfl
  rw [loadElfSegments, within_bind, within_elf64Valid hsize]
  cases elfValid image with
  | false => exact Iff.rfl
  | true =>
    rw [if_neg (show ¬(!true) = true from Bool.false_ne_true), if_pos rfl, within_load64, h24,
      and_iff_right (by omega), within_load64, h32, and_iff_right (by omega), within_load16, h56,
      and_iff_right (by omega), within_bind, within_combinedRange]
    exact Iff.rfl

theorem loadElfSegments_within (hsize : 64 <= size.toNat) (hfits : ImageFits image size) :
    Within image size (fun _ => True) (loadElfSegments vspace) := by
  rw [within_loadElfSegments_iff hsize]
  split
  · rename_i hvalid
    refine ⟨fun i hi => (hfits hvalid i hi).1, ?_⟩
    split
    · trivial
    refine within_bind.mpr ((loadPages_within fun va hva => ?_).weaken fun _ _ => trivial)
    refine mergeSegments_within (fun i hi => (hfits hvalid i hi).1) ?_ .zero
    intro i hi hload
    exact ((segment_pagesFit_iff hi hload).2.mpr ((hfits hvalid i hi).2 hload)) va hva hload
  · trivial

theorem loadElfSegments_reads {R : Sel4Error × Option UInt64 -> Prop} (hsize : 64 <= size.toNat)
    (hwithin : Within image size R (loadElfSegments vspace)) : ImageFits image size := by
  intro hvalid i hi
  rw [within_loadElfSegments_iff hsize, if_pos hvalid] at hwithin
  obtain ⟨hheaders, hpages⟩ := hwithin
  refine ⟨hheaders i hi, fun hload => ?_⟩
  obtain ⟨hne, hiff⟩ := segment_pagesFit_iff hi hload
  rw [if_neg hne, within_bind] at hpages
  exact hiff.mp fun va hva => loadPages_reads hheaders hpages va hva i hi

theorem pdVspaceLoadElf_within_iff {elfBase : UInt64} {stackSize : UInt32} (hbase : elfBase ≠ 0)
    (hsize : 64 <= size.toNat) :
    Within image size (fun _ => True) (pdVspaceLoadElf vspace elfBase size stackSize) ↔
      ImageFits image size := by
  have haccepted : ¬(elfBase = 0 \/ size < 64) := by
    rintro (hnull | hsmall)
    · exact hbase hnull
    · exact absurd (UInt32.lt_iff_toNat_lt.mp hsmall) (Nat.not_lt.mpr hsize)
  rw [pdVspaceLoadElf, if_neg haccepted, within_bind]
  constructor
  · exact loadElfSegments_reads hsize
  · intro hfits
    refine (loadElfSegments_within hsize hfits).weaken fun result _ => ?_
    obtain ⟨err, entry⟩ := result
    show Within image size _ (ite _ _ _)
    split
    · trivial
    refine within_bind.mpr ((loadPages_within fun _ _ => ?_).weaken fun err _ => ?_)
    · exact PageFromImage.zero
    · show Within image size _ (ite _ _ _)
      split
      · trivial
      refine ⟨trivial, fun allocated _ => ?_⟩
      obtain ⟨err, frame⟩ := allocated
      show Within image size _ (ite _ _ _)
      split
      · trivial
      refine ⟨trivial, fun err _ => ?_⟩
      show Within image size _ (ite _ _ _)
      split
      · trivial
      · trivial

end Image

/-- Every run of the loader stays in the image, and fills the domain with zeros and bytes of it,
exactly when the headers and the copied bytes end before the image does. -/
theorem loader_staysInImage_iff (image : View) (vspace elfBase : UInt64) (size stackSize : UInt32)
    (hbase : elfBase ≠ 0) (hsize : 64 <= size.toNat) :
    (∀ trace result,
      Prog.Run (pdVspaceLoadElf vspace elfBase size stackSize) trace result ->
      (∀ event ∈ trace, FromImage image event.request event.answer) ->
      ∀ event ∈ trace, InImage image size event.request) ↔ ImageFits image size := by
  rw [<- pdVspaceLoadElf_within_iff hbase hsize, Within,
    ensures_iff_runs (fromImage_answers image)]

/-- An image of 120 bytes with one segment of 16 bytes in the file and in memory. -/
def oneSegmentImage (pOffset : Nat) : View := View.ofList <|
  [0x7f, 0x45, 0x4c, 0x46, 2] ++ replicate 11 0 ++ toLe 2 2 ++ replicate 6 0 ++
    toLe 8 0x400000 ++ toLe 8 64 ++ replicate 14 0 ++ toLe 2 56 ++ toLe 2 1 ++
    replicate 6 0 ++
    toLe 4 1 ++ toLe 4 5 ++ toLe 8 pOffset ++ toLe 8 0x400000 ++ toLe 8 0 ++ toLe 8 16 ++
    toLe 8 16 ++ toLe 8 0

theorem loader_staysInImage_iff_oneSegment : ImageFits (oneSegmentImage 64) 120 /\ ∀ trace result,
      Prog.Run (pdVspaceLoadElf 1 0x1000 120 4096) trace result ->
      (∀ event ∈ trace, FromImage (oneSegmentImage 64) event.request event.answer) ->
      ∀ event ∈ trace, InImage (oneSegmentImage 64) 120 event.request := by
  have hfits : ImageFits (oneSegmentImage 64) 120 := by
    intro _ i hi
    have hone : segmentsOf (oneSegmentImage 64) = [0] := by decide +kernel
    rw [hone, mem_singleton] at hi
    subst hi
    exact ⟨⟨by decide +kernel, fun _ => by decide +kernel⟩, fun _ => .inr (by decide +kernel)⟩
  exact ⟨hfits, (loader_staysInImage_iff (oneSegmentImage 64) 1 0x1000 120 4096 (by decide)
    (by decide)).mpr hfits⟩

/-- Answers from an image, with a kernel that refuses nothing. -/
def imageAnswers (image : View) : (request : ElfOp) -> ElfAns request
  | .load8 off => image off.toNat
  | .load16 off => image.u16 off.toNat
  | .load32 off => image.u32 off.toNat
  | .load64 off => image.u64 off.toNat
  | .utAllocCap => (.noError, 7)
  | .pageMapScratch _ => .noError
  | .syncScratchFrame _ => .noError
  | .pageUnmap _ => .noError
  | .mapPage _ _ _ _ => .noError

theorem fromImage_imageAnswers (image : View) (request : ElfOp) :
    FromImage image request (imageAnswers image request) := by
  cases request <;> first | rfl | trivial

def byteLoadOffset : ElfOp -> Option UInt64
  | .load8 off => some off
  | _ => none

/-- A segment that starts where the image ends is copied all the same. -/
theorem loader_readsPastImage : ∃ trace result answer,
      Prog.Run (pdVspaceLoadElf 1 0x1000 120 4096) trace result /\
      (∀ event ∈ trace, FromImage (oneSegmentImage 120) event.request event.answer) /\
      ⟨.load8 120, answer⟩ ∈ trace := by
  have hload : (requestAt (I := ElfIo) (imageAnswers (oneSegmentImage 120)) 21
      (pdVspaceLoadElf 1 0x1000 120 4096)).bind byteLoadOffset = some 120 := by
    decide +kernel
  obtain ⟨request, hrequest, hoff⟩ := Option.bind_eq_some_iff.mp hload
  obtain ⟨trace, hrun, hanswers, hmem⟩ :=
    run_resolve_of_requestAt (I := ElfIo) (imageAnswers (oneSegmentImage 120)) hrequest
  cases request with
  | load8 off =>
    cases hoff
    refine ⟨trace, _, _, hrun, fun event hevent => ?_, hmem⟩
    rw [hanswers event hevent]
    exact fromImage_imageAnswers _ _
  | _ => cases hoff

end AgentOs.Boot
