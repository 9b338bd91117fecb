import AgentOs.Library.Bytes
import AgentOs.Library.Scan

/-!
# The instruction behind a memory-mapped access

`x86_memory.c` and the step of the loop of `x86_firmware.c` that finds out what a guest
instruction wanted of a device page: the page walk, the fetch, the decoding, and the check
against the fault.
-/

namespace AgentOs.X86

open Library Scan Option

/-- `aos_x86_memory_t`. -/
structure GuestMemory where
  ram : View
  ramSize : UInt64
  rom : Option View
  romBase : UInt64
  romSize : UInt64

/-- `aos_x86_walk_t`. -/
structure Walk where
  physical : UInt64
  entries : List UInt64

def canonical (va : UInt64) : Bool := va >>> 47 == 0 || va >>> 47 == 0x1ffff

/-- The loop of `aos_x86_walk` from one level down. -/
def walkFrom (m : GuestMemory) (va : UInt64) (write execute : Bool) :
    Nat -> UInt64 -> List UInt64 -> Option Walk
  | 0, _, _ => none
  | level + 1, table, entries =>
    let shift : UInt64 := .ofNat (12 + 9 * level)
    let place := table + ((va >>> shift) &&& 511) * 8
    if place > m.ramSize \/ m.ramSize - place < 8 then none
    else
      let e := m.ram.u64 place.toNat
      let entries := entries ++ [place]
      let large := e &&& 128 != 0 && level != 0
      let mask := ((1 : UInt64) <<< shift) - 1
      if e &&& 1 = 0 \/ e &&& 0x000ffff000000000 ≠ 0 \/ (write /\ e &&& 2 = 0) \/
          (execute /\ e >>> 63 ≠ 0) \/ (large /\ level ≠ 1) then none
      else if level = 0 \/ large then
        if large /\ e &&& (mask &&& ~~~0x1fff) ≠ 0 then none
        else some ⟨(e &&& 0xffffff000 &&& ~~~mask) ||| (va &&& mask), entries⟩
      else walkFrom m va write execute level (e &&& 0xffffff000) entries

/-- `aos_x86_walk`. -/
def walk (m : GuestMemory) (cr3 va : UInt64) (write execute : Bool) : Option Walk :=
  if !canonical va \/ cr3 &&& ~~~0xffffff018 ≠ 0 then none
  else walkFrom m va write execute 4 (cr3 &&& 0xffffff000) []

/-- `aos_x86_translate`. -/
def translate (m : GuestMemory) (cr3 va : UInt64) (write execute : Bool) : Option UInt64 :=
  (walk m cr3 va write execute).map Walk.physical

/-- One byte of an instruction. -/
def fetchByte (m : GuestMemory) (cr3 va : UInt64) : Option UInt8 := do
  let pa <- translate m cr3 va false true
  if pa < m.ramSize then some (m.ram pa.toNat)
  else
    let rom <- m.rom
    if pa >= m.romBase /\ pa - m.romBase < m.romSize then some (rom (pa - m.romBase).toNat) else none

def fetchFrom (m : GuestMemory) (cr3 va : UInt64) : Nat -> Option (List UInt8)
  | 0 => some []
  | size + 1 => do
    let b <- fetchByte m cr3 va
    let rest <- fetchFrom m cr3 (va + 1) size
    some (b :: rest)

/-- `aos_x86_fetch`. -/
def fetch (m : GuestMemory) (cr3 va : UInt64) (size : Nat) : Option (List UInt8) :=
  if size = 0 \/ size > 15 \/ va > -1 - .ofNat (size - 1) then none else fetchFrom m cr3 va size

/-- `aos_x86_mov_t`. -/
structure Mov where
  address : UInt64
  value : UInt32
  length : Nat
  reg : Nat
  width : Nat
  destinationBits : Nat
  shift : Nat
  write : Bool
  deriving DecidableEq

/-- The operand size prefix and the REX prefix. -/
def movPrefix : Scan UInt8 (Bool × UInt8) := do
  let operand16 := (<- peek) == 0x66
  let _ <- take (if operand16 then 1 else 0)
  let lead <- peek
  if lead &&& 0xf0 = 0x40 then do
    let rex <- next
    pure (operand16, rex)
  else pure (operand16, 0)

/-- The opcode, the width of its memory operand and the bits of its register. -/
def movOpcode (operand16 : Bool) (rex : UInt8) : Scan UInt8 (UInt8 × Nat × Nat) := do
  let opcode <- next
  if opcode = 0x0f then do
    let second <- next
    if operand16 \/ (second ≠ 0xb6 /\ second ≠ 0xb7) then fail
    else pure (opcode, if second = 0xb6 then 1 else 2, if rex &&& 8 ≠ 0 then 64 else 32)
  else if opcode = 0x8a \/ opcode = 0x88 \/ opcode = 0xc6 then
    if operand16 then fail else pure (opcode, 1, 8)
  else if (opcode ≠ 0x89 /\ opcode ≠ 0x8b /\ opcode ≠ 0xc7) \/ rex &&& 8 ≠ 0 then fail
  else if operand16 then pure (opcode, 2, 16)
  else pure (opcode, 4, 32)

/-- The base of the address, and whether it is relative or has no register. -/
def movAddress (r : Nat -> UInt64) (mod rm rex : UInt8) : Scan UInt8 (UInt64 × Bool × Bool) :=
  let extended (field bit : UInt8) : Nat := (field &&& 7).toNat + if rex &&& bit ≠ 0 then 8 else 0
  if rm = 4 then do
    let sib <- next
    let index := extended (sib >>> 3) 2
    let absent := mod == 0 && sib &&& 7 == 5
    let base := if absent then 0 else r (extended sib 1)
    let scaled := if index ≠ 4 then r index <<< (sib >>> 6).toUInt64 else 0
    pure (base + scaled, false, absent)
  else if mod = 0 /\ rm = 5 then pure (0, true, true)
  else pure (r (extended rm 1), false, false)

/-- A displacement of no, one or four bytes. -/
def movDisplacement (bytes : Nat) : Scan UInt8 UInt64 := do
  let field <- take bytes
  let raw := fromLe field
  pure (if bytes = 1 then ⟨(UInt8.ofNat raw).toBitVec.signExtend 64⟩
    else ⟨(UInt32.ofNat raw).toBitVec.signExtend 64⟩)

/-- The body of `aos_x86_decode_mov`. -/
def movScan (rip : UInt64) (r : Nat -> UInt64) : Scan UInt8 Mov := do
  let (operand16, rex) <- movPrefix
  let (opcode, width, destinationBits) <- movOpcode operand16 rex
  let modrm <- next
  let mod := modrm >>> 6
  let field := ((modrm >>> 3) &&& 7).toNat + if rex &&& 4 ≠ 0 then 8 else 0
  let immediate := opcode == 0xc7 || opcode == 0xc6
  if mod = 3 \/ (immediate /\ field ≠ 0) then fail
  else do
    let high := destinationBits == 8 && rex == 0 && decide (field >= 4)
    let reg := if high then field - 4 else field
    let shift := if high then 8 else 0
    let (base, relative, absent) <- movAddress r mod (modrm &&& 7) rex
    let displacement <- movDisplacement (if mod = 1 then 1 else if mod = 2 \/ absent then 4 else 0)
    let stored <- take (if immediate then width else 0)
    let length <- consumed
    let address := base + displacement + if relative then rip + .ofNat length else 0
    if !canonical address then fail
    else pure {
      address := address
      value := if immediate then .ofNat (fromLe stored)
        else .ofNat ((r reg >>> .ofNat shift).toNat % 2 ^ (8 * width))
      length := length
      reg := reg
      width := width
      destinationBits := destinationBits
      shift := shift
      write := opcode == 0x89 || opcode == 0x88 || immediate }

/-- `aos_x86_decode_mov`. -/
def decodeMov (b : List UInt8) (rip : UInt64) (r : Nat -> UInt64) : Option Mov :=
  if b = [] \/ b.length > 15 then none else (movScan rip r (0, b)).map Prod.fst

/-- What the handler of a fault checks of a decoded instruction. -/
def matchesFault (m : GuestMemory) (cr3 faultGpa : UInt64) (faultWrite : Bool) (op : Mov) : Bool :=
  op.write == faultWrite && op.address &&& (.ofNat op.width - 1) == 0 &&
    translate m cr3 op.address op.write false == some faultGpa

/-- The step of the handler up to the decoded instruction; no result stops the guest. -/
def mmioInstruction (m : GuestMemory) (cr3 rip : UInt64) (r : Nat -> UInt64) (faultGpa : UInt64)
    (faultWrite : Bool) : Option Mov := do
  let code <- fetch m cr3 rip 15
  let op <- decodeMov code rip r
  if matchesFault m cr3 faultGpa faultWrite op then some op else none

/-! ## The decoder looks at the instruction only -/

theorem local_movPrefix : Local movPrefix := by
  refine local_peek.bind fun first => (local_take _).bind fun _ => local_peek.bind fun lead => ?_
  exact .ite (local_next.bind fun _ => local_pure _) (local_pure _)

theorem local_movOpcode (operand16 : Bool) (rex : UInt8) : Local (movOpcode operand16 rex) := by
  refine local_next.bind fun opcode => .ite (local_next.bind fun second => ?_) (.ite ?_ ?_)
  · exact .ite local_fail (local_pure _)
  · exact .ite local_fail (local_pure _)
  · exact .ite local_fail (.ite (local_pure _) (local_pure _))

theorem local_movAddress (r : Nat -> UInt64) (mod rm rex : UInt8) :
    Local (movAddress r mod rm rex) := by
  refine .ite (local_next.bind fun sib => local_pure _) (.ite (local_pure _) (local_pure _))

theorem local_movScan (rip : UInt64) (r : Nat -> UInt64) : Local (movScan rip r) := by
  refine local_movPrefix.bind fun _ => (local_movOpcode _ _).bind fun _ =>
    local_next.bind fun modrm => ?_
  refine .ite local_fail ((local_movAddress _ _ _ _).bind fun _ => ?_)
  refine ((local_take _).bind fun _ => local_pure _).bind fun _ => (local_take _).bind fun _ => ?_
  exact local_consumed.bind fun _ => .ite local_fail (local_pure _)

theorem decodeMov_append {b more : List UInt8} {rip : UInt64} {r : Nat -> UInt64} {op : Mov}
    (h : decodeMov b rip r = some op) (hfits : (b ++ more).length <= 15) :
    decodeMov (b ++ more) rip r = some op := by
  unfold decodeMov at h ⊢
  rw [ite_none_left_eq_some] at h
  obtain ⟨hbounds, hscan⟩ := h
  obtain ⟨⟨found, rest⟩, hfound, rfl⟩ := map_eq_some_iff.mp hscan
  have hlong := local_movScan rip r (0, b) found rest hfound more
  have hne : ¬ (b ++ more = [] \/ (b ++ more).length > 15) := by
    rintro (hnil | hlarge)
    · exact hbounds (.inl (List.append_eq_nil_iff.mp hnil).1)
    · exact absurd hfits (Nat.not_le.mpr hlarge)
  rw [if_neg hne, hlong]
  rfl

/-! ## The fetch looks at fifteen bytes -/

theorem fetchFrom_add (m : GuestMemory) (cr3 va : UInt64) (k n : Nat) :
    fetchFrom m cr3 va (k + n) = (fetchFrom m cr3 va k).bind fun first =>
      (fetchFrom m cr3 (va + .ofNat k) n).map fun rest => first ++ rest := by
  induction k generalizing va with
  | zero => simp [fetchFrom]
  | succ k ih =>
    have hnext : va + 1 + .ofNat k = va + .ofNat (k + 1) := by
      rw [UInt64.ofNat_add, UInt64.add_assoc, UInt64.add_comm 1]
      rfl
    rw [Nat.succ_add, fetchFrom, fetchFrom, ih, hnext]
    cases fetchByte m cr3 va with
    | none => rfl
    | some b =>
      cases fetchFrom m cr3 (va + 1) k with
      | none => rfl
      | some first => cases fetchFrom m cr3 (va + .ofNat (k + 1)) n <;> rfl

variable {cr3 : UInt64} {m : GuestMemory}

theorem fetchFrom_isSome_iff {va : UInt64} {n : Nat} : (fetchFrom m cr3 va n).isSome = true ↔
      ∀ i < n, (fetchByte m cr3 (va + .ofNat i)).isSome = true := by
  induction n with
  | zero => simp [fetchFrom]
  | succ n ih =>
    rw [fetchFrom_add m cr3 va n 1, Nat.forall_lt_succ_right, <- ih, fetchFrom, fetchFrom]
    cases fetchFrom m cr3 va n <;> cases fetchByte m cr3 (va + .ofNat n) <;> simp

theorem length_fetchFrom {va : UInt64} {n : Nat} {bytes : List UInt8}
    (h : fetchFrom m cr3 va n = some bytes) : bytes.length = n := by
  induction n generalizing va bytes with
  | zero => cases h; rfl
  | succ n ih =>
    obtain ⟨b, -, htail⟩ := bind_eq_some_iff.mp h
    obtain ⟨rest, hrest, hbytes⟩ := bind_eq_some_iff.mp htail
    rw [<- some.inj hbytes, List.length_cons, ih hrest]

/-- The fifteen bytes from an address on are there and may be executed. -/
def WindowMapped (m : GuestMemory) (cr3 rip : UInt64) : Prop :=
  rip.toNat + 15 <= 2 ^ 64 /\ ∀ i < 15, (fetchByte m cr3 (rip + .ofNat i)).isSome = true

theorem fetch_fifteen_isSome_iff {rip : UInt64} :
    (fetch m cr3 rip 15).isSome = true ↔ WindowMapped m cr3 rip := by
  have hwraps : rip > -1 - .ofNat (15 - 1) ↔ ¬ rip.toNat + 15 <= 2 ^ 64 := by
    have hlast : (-1 - UInt64.ofNat (15 - 1)).toNat = 2 ^ 64 - 15 := by decide
    rw [gt_iff_lt, UInt64.lt_iff_toNat_lt, hlast]
    omega
  unfold fetch WindowMapped
  rw [<- fetchFrom_isSome_iff]
  by_cases hfits : rip.toNat + 15 <= 2 ^ 64
  · have hopen : ¬ (15 = 0 \/ 15 > 15 \/ rip > -1 - .ofNat (15 - 1)) := by
      rintro (hzero | hlarge | hover)
      · exact absurd hzero (by decide)
      · exact absurd hlarge (by decide)
      · exact hwraps.mp hover hfits
    rw [if_neg hopen]
    exact (and_iff_right hfits).symm
  · rw [if_pos (.inr (.inr (hwraps.mpr hfits)))]
    exact iff_of_false nofun fun h => hfits h.1

/-- An instruction that is there, that decodes from its own bytes and that explains the fault is
found exactly when the whole window behind its first byte is there too. -/
theorem mmioInstruction_iff {m : GuestMemory} {cr3 rip : UInt64} {r : Nat -> UInt64}
    {faultGpa : UInt64} {faultWrite : Bool} {k : Nat} {bytes : List UInt8} {op : Mov}
    (hfetch : fetch m cr3 rip k = some bytes) (hdecode : decodeMov bytes rip r = some op)
    (hfault : matchesFault m cr3 faultGpa faultWrite op = true) :
    mmioInstruction m cr3 rip r faultGpa faultWrite = some op ↔ WindowMapped m cr3 rip := by
  obtain ⟨hsize, hbytes⟩ := ite_none_left_eq_some.mp hfetch
  have hk : k <= 15 := Nat.not_lt.mp fun hlarge => hsize (.inr (.inl hlarge))
  rw [<- fetch_fifteen_isSome_iff]
  constructor
  · intro hfound
    obtain ⟨code, hcode, -⟩ := bind_eq_some_iff.mp hfound
    rw [hcode]
    rfl
  · intro hwindow
    obtain ⟨code, hcode⟩ := isSome_iff_exists.mp hwindow
    have hall := (ite_none_left_eq_some.mp hcode).2
    have hlength := length_fetchFrom hall
    -- the window begins with the bytes of the instruction
    rw [<- Nat.add_sub_cancel' hk, fetchFrom_add, hbytes, Option.bind_some] at hall
    obtain ⟨more, -, rfl⟩ := map_eq_some_iff.mp hall
    have hsame := decodeMov_append hdecode (Nat.le_of_eq hlength)
    unfold mmioInstruction
    rw [hcode, Option.bind_eq_bind, Option.bind_some, hsame, Option.bind_eq_bind, Option.bind_some,
      if_pos hfault]

/-- Tables for three pages of code and one of the local controller, at `0x2000`; the page behind
the code is there only if asked for.  The code ends with a load through the first register. -/
def lastInstruction (behind : Bool) : GuestMemory where
  ram := fun place =>
    match place with
    | 0x1000 => 0x01 | 0x1001 => 0x20
    | 0x2000 => 0x01 | 0x2001 => 0x30
    | 0x3000 => 0x01 | 0x3001 => 0x40
    | 0x4000 => 0x01 | 0x4001 => 0x50
    | 0x4008 => if behind then 0x01 else 0 | 0x4009 => 0x60
    | 0x4010 => 0x01 | 0x4012 => 0xe0 | 0x4013 => 0xfe
    | 0x5ffe => 0x8b
    | _ => 0
  ramSize := 0x10000
  rom := none
  romBase := 0
  romSize := 0

def loadApicId : Mov := ⟨0x2020, 0x2020, 2, 0, 4, 32, 0, false⟩

theorem mmioInstruction_last : fetch (lastInstruction true) 0x1000 0xffe 2 = some [0x8b, 0] /\
      decodeMov [0x8b, 0] 0xffe (fun _ => 0x2020) = some loadApicId /\
      mmioInstruction (lastInstruction true) 0x1000 0xffe (fun _ => 0x2020) 0xfee00020 false =
        some loadApicId := by
  have hfetch : fetch (lastInstruction true) 0x1000 0xffe 2 = some [0x8b, 0] := by decide +kernel
  have hdecode : decodeMov [0x8b, 0] 0xffe (fun _ => 0x2020) = some loadApicId := by decide +kernel
  refine ⟨hfetch, hdecode, (mmioInstruction_iff hfetch hdecode (by decide +kernel)).mpr ?_⟩
  exact ⟨by decide, by decide +kernel⟩

/-- The last instruction of a page stops the guest when the next page is not mapped. -/
theorem last_instruction_stops : fetch (lastInstruction false) 0x1000 0xffe 2 = some [0x8b, 0] /\
      decodeMov [0x8b, 0] 0xffe (fun _ => 0x2020) = some loadApicId /\
      matchesFault (lastInstruction false) 0x1000 0xfee00020 false loadApicId = true /\
      mmioInstruction (lastInstruction false) 0x1000 0xffe (fun _ => 0x2020) 0xfee00020 false =
        none := by
  decide +kernel

end AgentOs.X86
