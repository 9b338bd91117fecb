import AgentOs.Library.Bytes
import Mathlib.Data.Fintype.Pi

/-!
# Endowment ledger

`endow_ledger.c`: a domain keeps a table of the capabilities it has minted into its children.  A
spawn takes a mark before its first mint and rolls the table back when it fails.
-/

namespace AgentOs.Spawn

open Library List

def aosEndowLedgerVersion : UInt32 := 1

@[simp]
def aosEndowLedgerMaxEntries : Nat := 16

@[simp]
def aosAuthorityNameLen : Nat := 32

def aosAuthorityKindEndpoint : UInt32 := 2
def aosAuthorityKindNotification : UInt32 := 3
def aosAuthorityKindOther : UInt32 := 10
def aosAuthorityKindCount : UInt32 := 11

/-- `aos_endow_ledger_entry_t`. -/
structure LedgerEntry where
  childIndex : UInt32
  childName : Fin aosAuthorityNameLen -> UInt8
  kind : UInt32
  rights : UInt32
  badge : UInt64
  deriving DecidableEq

def LedgerEntry.zero : LedgerEntry := ⟨0, fun _ => 0, 0, 0, 0⟩

/-- `aos_endow_ledger_t`. -/
structure EndowLedger where
  version : UInt32
  count : UInt32
  dropped : UInt32
  reserved : UInt32
  entries : Fin aosEndowLedgerMaxEntries -> LedgerEntry
  deriving DecidableEq

inductive LedgerStatus where
  | ok
  | errNull
  | errVersion
  | errFull
  | errInvalid
  deriving DecidableEq

/-- The name up to its end, cut so that a zero byte follows. -/
def copyName (src : Option View) : Fin aosAuthorityNameLen -> UInt8 := fun i =>
  match src with
  | none => 0
  | some name => if i.val < name.strnlen (aosAuthorityNameLen - 1) then name i.val else 0

def kindCarriesBadge (kind : UInt32) : Bool :=
  kind = aosAuthorityKindEndpoint \/ kind = aosAuthorityKindNotification \/
    kind >= aosAuthorityKindCount \/ kind = aosAuthorityKindOther

def aosEndowLedgerInit : EndowLedger := ⟨aosEndowLedgerVersion, 0, 0, 0, fun _ => .zero⟩

/-- What one mint is recorded as. -/
def ledgerEntry (childIndex : UInt32) (childName : Option View) (kind rights : UInt32)
    (badge : UInt64) : LedgerEntry :=
  ⟨childIndex, copyName childName, kind, rights, if kindCarriesBadge kind then badge else 0⟩

def EndowLedger.record (led : EndowLedger) (entry : LedgerEntry) : EndowLedger × LedgerStatus :=
  if led.version ≠ aosEndowLedgerVersion then (led, .errVersion)
  else if h : led.count.toNat < aosEndowLedgerMaxEntries then
    ({ led with
        entries := Function.update led.entries ⟨led.count.toNat, h⟩ entry
        count := led.count + 1 }, .ok)
  else ({ led with dropped := led.dropped + 1 }, .errFull)

def aosEndowLedgerRecord (led : Option EndowLedger) (childIndex : UInt32)
    (childName : Option View) (kind rights : UInt32) (badge : UInt64) :
    Option EndowLedger × LedgerStatus :=
  match led with
  | none => (none, .errNull)
  | some led =>
    let (led, status) := led.record (ledgerEntry childIndex childName kind rights badge)
    (some led, status)

/-- `aos_endow_ledger_mark_t`. -/
structure LedgerMark where
  count : UInt32
  dropped : UInt32

def EndowLedger.mark (led : EndowLedger) : LedgerMark := ⟨led.count, led.dropped⟩

def aosEndowLedgerMark : Option EndowLedger -> LedgerMark
  | none => ⟨0, 0⟩
  | some led => led.mark

/-- The counts go back only when neither is below its mark. -/
def EndowLedger.rollback (led : EndowLedger) (mark : LedgerMark) : EndowLedger :=
  if mark.count > led.count \/ mark.dropped > led.dropped then led
  else
    { led with
      entries := fun i =>
        if mark.count.toNat <= i.val /\ i.val < led.count.toNat then .zero else led.entries i
      count := mark.count
      dropped := mark.dropped }

def aosEndowLedgerRollback (led : Option EndowLedger) (mark : LedgerMark) : Option EndowLedger :=
  led.map fun led => led.rollback mark

/-! ## A sequence of records -/

namespace EndowLedger

def recordAll (led : EndowLedger) (entries : List LedgerEntry) : EndowLedger :=
  entries.foldl (fun led entry => (led.record entry).1) led

/-- The entries that there is room for. -/
def room (led : EndowLedger) : Nat := aosEndowLedgerMaxEntries - led.count.toNat

/-- `led'` is `led` with the entries behind those in use, in order, as far as there is
room. -/
structure Appends (led : EndowLedger) (entries : List LedgerEntry) (led' : EndowLedger) :
    Prop where
  version : led'.version = led.version
  reserved : led'.reserved = led.reserved
  count : led'.count.toNat = led.count.toNat + min entries.length led.room
  appended : ∀ (i : Fin aosEndowLedgerMaxEntries) (k : Nat) (hk : k < entries.length),
    i.val = led.count.toNat + k -> led'.entries i = entries.get ⟨k, hk⟩
  others : ∀ i : Fin aosEndowLedgerMaxEntries,
    (i.val < led.count.toNat \/ led.count.toNat + entries.length <= i.val) ->
      led'.entries i = led.entries i

/-- The entries that there is no room for are counted. -/
structure Gains (led : EndowLedger) (entries : List LedgerEntry) (led' : EndowLedger) : Prop
    extends Appends led entries led' where
  dropped : led'.dropped.toNat = led.dropped.toNat + (entries.length - led.room)

/-- The ledger can take `n` more records and go back: it is one of this version, the count
of dropped records does not wrap, and the entries to be used are zero, as the functions
above leave them. -/
structure Takes (led : EndowLedger) (n : Nat) : Prop where
  version : led.version = aosEndowLedgerVersion
  dropped : led.dropped.toNat + (n - led.room) < 2 ^ 32
  unused : ∀ i : Fin aosEndowLedgerMaxEntries,
    led.count.toNat <= i.val -> i.val < led.count.toNat + n -> led.entries i = .zero

variable {led : EndowLedger}

theorem Takes.mono {m n : Nat} (h : led.Takes n) (hle : m <= n) : led.Takes m where
  version := h.version
  dropped := by
    have := h.dropped
    omega
  unused := fun i hcount hlt => h.unused i hcount (by omega)

/-! ### One record -/

section Record

variable (led : EndowLedger) (entry : LedgerEntry)

theorem record_header : (led.record entry).1.version = led.version /\
    (led.record entry).1.reserved = led.reserved := by
  unfold record
  split
  · exact ⟨rfl, rfl⟩
  · split <;> exact ⟨rfl, rfl⟩

theorem record_entries_of_ne {i : Fin aosEndowLedgerMaxEntries} (hi : i.val ≠ led.count.toNat) :
    (led.record entry).1.entries i = led.entries i := by
  unfold record
  split
  · rfl
  · split
    · exact Function.update_of_ne (fun hsame => hi (congrArg Fin.val hsame)) _ _
    · rfl

variable {led} (hversion : led.version = aosEndowLedgerVersion)

include hversion

theorem record_entries_self {i : Fin aosEndowLedgerMaxEntries} (hi : i.val = led.count.toNat) :
    (led.record entry).1.entries i = entry := by
  have hroom : led.count.toNat < aosEndowLedgerMaxEntries := hi ▸ i.isLt
  have hindex : i = ⟨led.count.toNat, hroom⟩ := Fin.ext hi
  rw [record, if_neg (not_not.mpr hversion), dif_pos hroom, hindex]
  exact Function.update_self _ _ _

theorem record_count : (led.record entry).1.count.toNat = led.count.toNat + min 1 led.room := by
  rw [record, if_neg (not_not.mpr hversion)]
  split
  case isTrue hroom =>
    show (led.count + 1).toNat = _
    rw [UInt32.toNat_add, UInt32.toNat_one]
    simp only [room, aosEndowLedgerMaxEntries] at hroom ⊢
    omega
  case isFalse hfull =>
    simp only [room, aosEndowLedgerMaxEntries] at hfull ⊢
    omega

theorem record_dropped :
    (led.record entry).1.dropped = led.dropped + UInt32.ofNat (1 - led.room) := by
  rw [record, if_neg (not_not.mpr hversion)]
  split
  case isTrue hroom =>
    have hnone : 1 - led.room = 0 := by
      simp only [room, aosEndowLedgerMaxEntries] at hroom ⊢
      omega
    rw [hnone]
    exact (UInt32.add_zero _).symm
  case isFalse hfull =>
    have hone : 1 - led.room = 1 := by
      simp only [room, aosEndowLedgerMaxEntries] at hfull ⊢
      omega
    rw [hone]
    rfl

end Record

/-! ### All of them -/

theorem recordAll_nil (led : EndowLedger) : led.recordAll [] = led := rfl

theorem recordAll_concat (led : EndowLedger) (entries : List LedgerEntry) (entry : LedgerEntry) :
    led.recordAll (entries ++ [entry]) = ((led.recordAll entries).record entry).1 := by
  rw [recordAll, foldl_concat]
  rfl

theorem recordAll_of_version (hversion : led.version ≠ aosEndowLedgerVersion)
    (entries : List LedgerEntry) : led.recordAll entries = led := by
  induction entries with
  | nil => rfl
  | cons entry rest ih =>
    have hrecord : (led.record entry).1 = led := by rw [record, if_pos hversion]
    rw [recordAll, foldl_cons, hrecord]
    exact ih

section Version

variable {led : EndowLedger} (hversion : led.version = aosEndowLedgerVersion)

include hversion

theorem appends_recordAll (entries : List LedgerEntry) :
    led.Appends entries (led.recordAll entries) := by
  induction entries using List.reverseRecOn with
  | nil =>
    constructor
    · rfl
    · rfl
    · simp [recordAll_nil]
    · intro i k hk
      exact absurd hk (Nat.not_lt_zero k)
    · intro i _
      rfl
  | append_singleton entries entry ih =>
    obtain ⟨hver, hres, hcount, happended, hothers⟩ := ih
    have hversion' := hver.trans hversion
    have hroom : led.room = aosEndowLedgerMaxEntries - led.count.toNat := rfl
    simp only [aosEndowLedgerMaxEntries] at hroom
    rw [recordAll_concat]
    constructor
    · exact (record_header _ entry).1.trans hver
    · exact (record_header _ entry).2.trans hres
    · rw [record_count entry hversion', length_append, length_singleton, room,
        aosEndowLedgerMaxEntries, hcount]
      omega
    · intro i k hk hi
      have hlt := i.isLt
      rw [length_append, length_singleton] at hk
      simp only [aosEndowLedgerMaxEntries] at hlt
      by_cases hlast : k = entries.length
      · subst hlast
        rw [record_entries_self entry hversion' (by omega), get_eq_getElem,
          getElem_concat_length rfl]
      · have hearlier : k < entries.length := by omega
        rw [record_entries_of_ne _ entry (by omega), happended i k hearlier hi,
          get_eq_getElem, get_eq_getElem, getElem_append_left hearlier]
    · intro i hi
      have hlt := i.isLt
      rw [length_append, length_singleton] at hi
      simp only [aosEndowLedgerMaxEntries] at hlt
      rw [record_entries_of_ne _ entry (by omega)]
      exact hothers i (by omega)

theorem dropped_recordAll (entries : List LedgerEntry) :
    (led.recordAll entries).dropped = led.dropped + UInt32.ofNat (entries.length - led.room) := by
  induction entries using List.reverseRecOn with
  | nil => simp [recordAll_nil]
  | append_singleton entries entry ih =>
    have happends := appends_recordAll hversion entries
    have hcount := happends.count
    have hsum : entries.length - led.room + (1 - (led.recordAll entries).room) =
        entries.length + 1 - led.room := by
      simp only [room, aosEndowLedgerMaxEntries] at hcount ⊢
      omega
    rw [recordAll_concat, record_dropped entry (happends.version.trans hversion), ih,
      UInt32.add_assoc, <- UInt32.ofNat_add, hsum, length_append, length_singleton]

/-- The counter of dropped records as a number, as long as it does not wrap. -/
theorem dropped_recordAll_toNat {entries : List LedgerEntry}
    (hwrap : led.dropped.toNat + (entries.length - led.room) < 2 ^ 32) :
    (led.recordAll entries).dropped.toNat = led.dropped.toNat + (entries.length - led.room) := by
  rw [dropped_recordAll hversion, UInt32.toNat_add, UInt32.toNat_ofNat', Nat.add_mod_mod,
    Nat.mod_eq_of_lt hwrap]

end Version

variable {entries : List LedgerEntry}

theorem Takes.gains (h : led.Takes entries.length) : led.Gains entries (led.recordAll entries) where
  toAppends := appends_recordAll h.version entries
  dropped := dropped_recordAll_toNat h.version h.dropped

theorem rollback_mark (led : EndowLedger) : led.rollback led.mark = led := by
  have hback : ¬(led.mark.count > led.count \/ led.mark.dropped > led.dropped) := by
    rw [not_or]
    exact ⟨UInt32.lt_irrefl _, UInt32.lt_irrefl _⟩
  rw [EndowLedger.rollback, if_neg hback]
  have hentries : (fun i : Fin aosEndowLedgerMaxEntries =>
      if led.mark.count.toNat <= i.val /\ i.val < led.count.toNat then LedgerEntry.zero
      else led.entries i) = led.entries := by
    funext i
    exact if_neg fun hi => Nat.not_lt.mpr hi.1 hi.2
  rw [hentries]
  rfl

/-- The rollback clears the entries that were used, as long as no counter wraps. -/
theorem rollback_recordAll (hversion : led.version = aosEndowLedgerVersion)
    (hwrap : led.dropped.toNat + (entries.length - led.room) < 2 ^ 32) :
    (led.recordAll entries).rollback led.mark =
      { led with
        entries := fun i =>
          if led.count.toNat <= i.val /\ i.val < led.count.toNat + entries.length then .zero
          else led.entries i } := by
  obtain ⟨hver, hres, hcount, happended, hothers⟩ := appends_recordAll hversion entries
  have hback : ¬(led.mark.count > (led.recordAll entries).count \/
      led.mark.dropped > (led.recordAll entries).dropped) := by
    rw [gt_iff_lt, gt_iff_lt, UInt32.lt_iff_toNat_lt, UInt32.lt_iff_toNat_lt, hcount,
      dropped_recordAll_toNat hversion hwrap]
    simp only [mark]
    omega
  rw [EndowLedger.rollback, if_neg hback, hver, hres]
  congr 1
  funext i
  have hi : led.mark.count.toNat <= i.val /\ i.val < (led.recordAll entries).count.toNat ↔
      led.count.toNat <= i.val /\ i.val < led.count.toNat + entries.length := by
    have := i.isLt
    simp only [hcount, mark, room, aosEndowLedgerMaxEntries] at this ⊢
    omega
  simp only [hi]
  split
  · rfl
  · exact hothers i (by omega)

/-- Where the ledger can take the records, rolling back gives the ledger of the mark. -/
theorem Takes.rollback (h : led.Takes entries.length) : (led.recordAll entries).rollback led.mark =
    led := by
  rw [rollback_recordAll h.version h.dropped]
  congr 1
  funext i
  split
  case isTrue hi => exact (h.unused i hi.1 hi.2).symm
  case isFalse => rfl

/-- Only then: a wrapped counter stops the rollback, and what was in the unused entries is
gone. -/
theorem takes_of_rollback (hversion : led.version = aosEndowLedgerVersion)
    (hlen : entries.length < 2 ^ 32) (hback : (led.recordAll entries).rollback led.mark = led) :
      led.Takes entries.length := by
  have hwrap : led.dropped.toNat + (entries.length - led.room) < 2 ^ 32 := by
    by_contra hwrap
    have hover : (led.recordAll entries).dropped.toNat < led.dropped.toNat := by
      have hlt := led.dropped.toNat_lt
      rw [dropped_recordAll hversion, UInt32.toNat_add, UInt32.toNat_ofNat', Nat.add_mod_mod]
      omega
    have hstop : led.mark.dropped > (led.recordAll entries).dropped :=
      UInt32.lt_iff_toNat_lt.mpr hover
    rw [EndowLedger.rollback, if_pos (Or.inr hstop)] at hback
    rw [hback] at hover
    exact lt_irrefl _ hover
  refine ⟨hversion, hwrap, fun i hcount hi => ?_⟩
  rw [rollback_recordAll hversion hwrap] at hback
  have hzero := congrFun (EndowLedger.mk.inj hback).2.2.2.2 i
  rw [if_pos ⟨hcount, hi⟩] at hzero
  exact hzero.symm

end EndowLedger

end AgentOs.Spawn
