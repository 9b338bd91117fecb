import Mathlib.Data.List.Forall2
import Mathlib.Data.List.TakeWhile
import Mathlib.Data.Vector.Defs
import Mathlib.Tactic.Ring

/-!
# Bytes in memory

What a pointer shows: a byte at every offset.  A format is written as a list of bytes and read
through such a view, so its round trips start from a view that holds the list.  Numbers have
their low byte first, strings end at the first zero byte or fill their field.
-/

namespace AgentOs.Library

/-- The byte at each offset from a pointer. -/
abbrev View := Nat -> UInt8

namespace View

variable {v : View} {off : Nat}

/-- The view from a pointer further on. -/
def drop (v : View) (off : Nat) : View := fun i => v (off + i)

@[simp]
theorem drop_apply (v : View) (off i : Nat) : v.drop off i = v (off + i) := rfl

/-- The bytes from one offset on. -/
def slice (v : View) : Nat -> Nat -> List UInt8
  | _, 0 => []
  | off, n + 1 => v off :: slice v (off + 1) n

@[simp]
theorem length_slice (v : View) (off n : Nat) : (v.slice off n).length = n := by
  induction n generalizing off with
  | zero => rfl
  | succ n ih => rw [slice, List.length_cons, ih]

theorem slice_add (v : View) (off m n : Nat) :
    v.slice off (m + n) = v.slice off m ++ v.slice (off + m) n := by
  induction m generalizing off with
  | zero => simp [slice]
  | succ m ih =>
    rw [Nat.succ_add, slice, slice, List.cons_append, ih, Nat.add_assoc, Nat.add_comm 1 m]

theorem slice_drop (v : View) (a off n : Nat) : (v.drop a).slice off n = v.slice (a + off) n := by
  induction n generalizing off with
  | zero => rfl
  | succ n ih => rw [slice, slice, ih, drop_apply, Nat.add_assoc]

variable {n : Nat}

theorem slice_eq_iff {v w : View} :
    v.slice off n = w.slice off n ↔ ∀ i < n, v (off + i) = w (off + i) := by
  induction n generalizing off with
  | zero => simp [slice]
  | succ n ih =>
    rw [slice, slice, List.cons.injEq, ih]
    constructor
    · rintro ⟨hhead, htail⟩ i hi
      cases i with
      | zero => exact hhead
      | succ i =>
        rw [Nat.add_comm i, <- Nat.add_assoc]
        exact htail i (Nat.lt_of_succ_lt_succ hi)
    · intro hsame
      refine ⟨hsame 0 (Nat.succ_pos n), fun i hi => ?_⟩
      rw [Nat.add_assoc, Nat.add_comm 1]
      exact hsame (i + 1) (Nat.succ_lt_succ hi)

/-- The bytes from an offset on are these. -/
def Holds (v : View) (off : Nat) (bytes : List UInt8) : Prop := v.slice off bytes.length = bytes

instance (v : View) (off : Nat) (bytes : List UInt8) : Decidable (v.Holds off bytes) :=
  inferInstanceAs (Decidable (_ = _))

theorem holds_nil : v.Holds off [] := rfl

variable {bytes : List UInt8}

theorem holds_cons {b : UInt8} :
    v.Holds off (b :: bytes) ↔ v off = b /\ v.Holds (off + 1) bytes := by
  simp [Holds, slice]

theorem holds_append {xs ys : List UInt8} :
    v.Holds off (xs ++ ys) ↔ v.Holds off xs /\ v.Holds (off + xs.length) ys := by
  unfold Holds
  rw [List.length_append, slice_add]
  constructor
  · intro heq
    exact List.append_inj heq (length_slice _ _ _)
  · rintro ⟨hxs, hys⟩
    rw [hxs, hys]

theorem holds_drop {a : Nat} : (v.drop a).Holds off bytes ↔ v.Holds (a + off) bytes := by
  rw [Holds, Holds, slice_drop]

theorem Holds.slice_eq (hholds : v.Holds off bytes) (hlength : bytes.length = n) :
    v.slice off n = bytes :=
  hlength ▸ hholds

theorem holds_replicate {b : UInt8} :
    v.Holds off (List.replicate n b) ↔ ∀ i ∈ List.range' off n, v i = b := by
  induction n generalizing off with
  | zero => simp [holds_nil]
  | succ n ih =>
    rw [List.replicate_succ, holds_cons, List.range'_succ, List.forall_mem_cons, ih]

theorem Holds.unique {xs ys : List UInt8} (hxs : v.Holds off xs) (hys : v.Holds off ys)
    (hlength : xs.length = ys.length) : xs = ys := by
  rw [<- hxs, <- hys, hlength]

/-- A format of equal records: the one with the given number stands at its multiple. -/
theorem Holds.flatMap {α : Type} {write : α -> List UInt8} {size : Nat}
    (hsize : ∀ a, (write a).length = size) {records : List α}
    (hholds : v.Holds off (records.flatMap write)) {i : Nat} (hi : i < records.length) :
    v.Holds (off + size * i) (write records[i]) := by
  induction records generalizing off i with
  | nil => exact absurd hi (Nat.not_lt_zero _)
  | cons a rest ih =>
    rw [List.flatMap_cons, holds_append, hsize] at hholds
    cases i with
    | zero => exact hholds.1
    | succ i =>
      have hrest := ih hholds.2 (Nat.lt_of_succ_lt_succ hi)
      rwa [Nat.add_assoc, Nat.add_comm size, <- Nat.mul_succ] at hrest

/-- A list of bytes as it lies in memory, followed by zeros. -/
def ofList (bytes : List UInt8) : View := fun i => bytes.getD i 0

theorem holds_ofList (bytes rest : List UInt8) : (ofList (bytes ++ rest)).Holds 0 bytes := by
  have hall : ∀ pre, (ofList (pre ++ bytes ++ rest)).Holds pre.length bytes := by
    intro pre
    induction bytes generalizing pre with
    | nil => exact holds_nil
    | cons b bytes ih =>
      refine holds_cons.mpr ⟨by simp [ofList], ?_⟩
      simpa using ih (pre ++ [b])
  exact hall []

end View

/-- A field of fixed width. -/
def View.field (v : View)
    (off n : Nat) : List.Vector UInt8 n := ⟨v.slice off n, v.length_slice off n⟩

theorem View.Holds.field_eq {v : View} {off n : Nat} {bytes : List.Vector UInt8 n}
    (hholds : v.Holds off bytes.toList) : v.field off n = bytes :=
  Subtype.ext (hholds.slice_eq bytes.toList_length)

/-! ## Numbers, low byte first -/

def toLe : Nat -> Nat -> List UInt8
  | 0, _ => []
  | n + 1, value => UInt8.ofNat value :: toLe n (value / 256)

def fromLe : List UInt8 -> Nat
  | [] => 0
  | b :: rest => b.toNat + 256 * fromLe rest

@[simp]
theorem length_toLe (n value : Nat) : (toLe n value).length = n := by
  induction n generalizing value with
  | zero => rfl
  | succ n ih => rw [toLe, List.length_cons, ih]

theorem fromLe_toLe (n value : Nat) : fromLe (toLe n value) = value % 256 ^ n := by
  induction n generalizing value with
  | zero => rw [toLe, fromLe, Nat.pow_zero, Nat.mod_one]
  | succ n ih =>
    have hbyte : (UInt8.ofNat value).toNat = value % 256 := UInt8.toNat_ofNat'
    rw [toLe, fromLe, ih, hbyte, Nat.pow_succ, Nat.mul_comm (256 ^ n), Nat.mod_mul]

namespace View

variable {v : View} {off : Nat}

def u16 (v : View) (off : Nat) : UInt16 := .ofNat (fromLe (v.slice off 2))

def u32 (v : View) (off : Nat) : UInt32 := .ofNat (fromLe (v.slice off 4))

def u64 (v : View) (off : Nat) : UInt64 := .ofNat (fromLe (v.slice off 8))

theorem Holds.u32_eq {w : UInt32} (hholds : v.Holds off (toLe 4 w.toNat)) : v.u32 off = w := by
  have hfits : w.toNat < 256 ^ 4 := w.toNat_lt
  rw [u32, hholds.slice_eq (length_toLe _ _), fromLe_toLe, Nat.mod_eq_of_lt hfits,
    UInt32.ofNat_toNat]

theorem Holds.u64_eq {w : UInt64} (hholds : v.Holds off (toLe 8 w.toNat)) : v.u64 off = w := by
  have hfits : w.toNat < 256 ^ 8 := w.toNat_lt
  rw [u64, hholds.slice_eq (length_toLe _ _), fromLe_toLe, Nat.mod_eq_of_lt hfits,
    UInt64.ofNat_toNat]

/-! ## Strings -/

/-- A pointer to a string: its bytes are followed by the first zero byte. -/
structure CString (v : View) (key : List UInt8) : Prop where
  bytes : v.Holds 0 (key ++ [0])
  nulFree : 0 ∉ key

/-- The bytes before the first zero byte, at most `limit` of them being looked at. -/
def strnlen (v : View) : Nat -> Nat
  | 0 => 0
  | limit + 1 => if v 0 = 0 then 0 else strnlen (v.drop 1) limit + 1

theorem CString.nil (h : CString v []) : v 0 = 0 := (holds_cons.mp h.bytes).1

variable {key : List UInt8}

theorem CString.cons {b : UInt8} (h : CString v (b :: key)) :
    v 0 = b /\ b ≠ 0 /\ CString (v.drop 1) key := by
  obtain ⟨hhead, htail⟩ := holds_cons.mp h.bytes
  refine ⟨hhead, ?_, holds_drop.mpr htail, ?_⟩
  · rintro rfl
    exact h.nulFree List.mem_cons_self
  · intro hmem
    exact h.nulFree (List.mem_cons_of_mem _ hmem)

theorem CString.strnlen_eq (h : CString v key) (limit : Nat) :
    v.strnlen limit = min key.length limit := by
  induction limit generalizing v key with
  | zero => exact (Nat.min_zero _).symm
  | succ limit ih =>
    cases key with
    | nil => simp [strnlen, h.nil]
    | cons b key =>
      obtain ⟨hhead, hne, htail⟩ := h.cons
      rw [strnlen, hhead, if_neg hne, ih htail, List.length_cons]
      omega

theorem CString.slice_eq (h : CString v key) : v.slice 0 key.length = key :=
  (holds_append.mp h.bytes).1

theorem CString.end_eq (h : CString v key) : v key.length = 0 := by
  have hend := (holds_append.mp h.bytes).2
  rw [Nat.zero_add] at hend
  exact (holds_cons.mp hend).1

theorem CString.ne_zero (h : CString v key) {i : Nat} (hi : i < key.length) : v i ≠ 0 := by
  induction key generalizing v i with
  | nil => exact absurd hi (Nat.not_lt_zero _)
  | cons b key ih =>
    obtain ⟨hhead, hne, htail⟩ := h.cons
    cases i with
    | zero => exact hhead ▸ hne
    | succ i =>
      rw [Nat.add_comm]
      exact ih htail (Nat.lt_of_succ_lt_succ hi)

theorem CString.unique {a b : List UInt8} (ha : CString v a) (hb : CString v b) : a = b := by
  have hlength : a.length = b.length := by
    rcases Nat.lt_trichotomy a.length b.length with hlt | heq | hgt
    · exact absurd ha.end_eq (hb.ne_zero hlt)
    · exact heq
    · exact absurd hb.end_eq (ha.ne_zero hgt)
  rw [<- ha.slice_eq, <- hb.slice_eq, hlength]

theorem cstring_ofList (hnul : 0 ∉ key) : CString (ofList key) key := by
  refine ⟨?_, hnul⟩
  have hpad : ofList key = ofList (key ++ [0] ++ []) := by
    funext i
    unfold ofList
    rcases Nat.lt_or_ge i key.length with hlt | hge
    · simp [List.getD_eq_getElem?_getD, List.getElem?_append_left hlt]
    · rw [List.getD_eq_getElem?_getD, List.getElem?_eq_none hge, List.append_nil,
        List.getD_eq_getElem?_getD, List.getElem?_append_right hge]
      cases i - key.length <;> rfl
  rw [hpad]
  exact holds_ofList _ _

end View

/-- A string in a field of fixed width, filled up with zero bytes. -/
def padTo (width : Nat) (key : List UInt8) : List UInt8 :=
  key ++ List.replicate (width - key.length) 0

theorem length_padTo {width : Nat} {key : List UInt8} (hfits : key.length <= width) :
    (padTo width key).length = width := by
  rw [padTo, List.length_append, List.length_replicate]
  omega

theorem takeWhile_padTo (width : Nat) {key : List UInt8} (hnul : 0 ∉ key) :
    (padTo width key).takeWhile (· ≠ 0) = key := by
  have hpos : ∀ b ∈ key, (decide (b ≠ 0)) = true := by
    intro b hb
    exact decide_eq_true fun hzero => hnul (hzero ▸ hb)
  rw [padTo, List.takeWhile_append_of_pos hpos, List.takeWhile_replicate]
  simp

theorem padTo_inj {width : Nat} {a b : List UInt8} (ha : 0 ∉ a) (hb : 0 ∉ b) :
    padTo width a = padTo width b ↔ a = b := by
  constructor
  · intro heq
    rw [<- takeWhile_padTo width ha, heq, takeWhile_padTo width hb]
  · rintro rfl
    rfl

/-! ## Tables of records -/

variable {α : Type}

theorem length_flatMap_of_size {write : α -> List UInt8} {size : Nat}
    (hsize : ∀ a, (write a).length = size) (records : List α) :
    (records.flatMap write).length = size * records.length := by
  induction records with
  | nil => rfl
  | cons a rest ih =>
    rw [List.flatMap_cons, List.length_append, hsize, ih, List.length_cons, Nat.mul_succ,
      Nat.add_comm]

theorem find?_eq_some_of_unique {p : α -> Bool} {records : List α} {a : α} (hmem : a ∈ records)
    (ha : p a = true) (hunique : ∀ b ∈ records, p b = true -> b = a) :
    records.find? p = some a := by
  cases hfind : records.find? p with
  | none => exact absurd ha (List.find?_eq_none.mp hfind a hmem)
  | some b => rw [hunique b (List.mem_of_find?_eq_some hfind) (List.find?_some hfind)]

/-- Searching the numbers of the records finds what searching the records does. -/
theorem find?_range'_map {β : Type} {p : α -> Bool} {g : α -> β} {q : Nat -> Bool} {f : Nat -> β}
    {records : List α} {start : Nat} (hsame : ∀ i (hi : i < records.length),
      q (start + i) = p records[i] /\ f (start + i) = g records[i]) :
    ((List.range' start records.length).find? q).map f = (records.find? p).map g := by
  induction records generalizing start with
  | nil => rfl
  | cons a rest ih =>
    obtain ⟨hq, hf⟩ := hsame 0 (Nat.succ_pos _)
    rw [Nat.add_zero, List.getElem_cons_zero] at hq hf
    rw [List.length_cons, List.range'_succ, List.find?_cons, List.find?_cons, hq]
    cases p a with
    | true => simp [hf]
    | false =>
      refine ih fun i hi => ?_
      rw [Nat.add_assoc, Nat.add_comm 1]
      exact hsame (i + 1) (Nat.succ_lt_succ hi)

end AgentOs.Library
