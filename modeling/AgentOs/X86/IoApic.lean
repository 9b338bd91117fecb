import AgentOs.Library.Bits
import Mathlib.Logic.Function.Basic

/-!
# The I/O interrupt controller

`x86_ioapic.c`.  Each input has a redirection entry.  A level input that a processor has taken is
marked in `remoteIrr`, with the vector it was taken under, until that vector is ended.
-/

namespace AgentOs.X86

open Library Option

def ioapicInputs : Nat := 24

def rteMask : UInt64 := 0x10000
def rteLevel : UInt64 := 0x8000
def rteRemote : UInt64 := 0x4000

/-- `aos_x86_ioapic_t`. -/
structure IoApic where
  redirection : Nat -> UInt64
  asserted : UInt32
  edgePending : UInt32
  remoteIrr : UInt32
  acceptedVector : Nat -> UInt8
  selector : UInt8
  id : UInt8

/-- `aos_x86_ioapic_route_t`. -/
structure IoApicRoute where
  vector : UInt8
  destination : UInt8
  logical : Bool
  level : Bool

def ioapicInit (id : UInt32) : Option IoApic :=
  if id > 15 then none
  else some ⟨fun _ => rteMask, 0, 0, 0, fun _ => 0, 0, id.toUInt8⟩

/-- A write to one half of a redirection entry, after its checks. -/
def redirectionData (high : Bool) (data : UInt32) : Option UInt32 :=
  if high then if data &&& 0x00ffffff ≠ 0 then none else some data
  else if data &&& ~~~0x0001ffff ≠ 0 then none
  else
    -- delivery status and remote IRR are not the guest's to write
    let data := data &&& ~~~0x5000
    if (data >>> 8) &&& 7 > 1 \/ (data &&& 0x10000 = 0 /\ data &&& 255 < 16) then none else some data

/-- An access to one half of the redirection entry of an input. -/
def redirectionIo (s : IoApic) (input : Nat) (high write : Bool) (value : UInt32) :
    Option (UInt32 × IoApic) :=
  let shift : UInt64 := if high then 32 else 0
  let old := s.redirection input
  if write then
    (redirectionData high value).map fun data =>
      let part := (0xffffffff : UInt64) <<< shift
      let entry := (old &&& ~~~part) ||| (data.toUInt64 <<< shift)
      (value, { s with redirection := Function.update s.redirection input entry })
  else
    let readback := old ||| (if hasBit s.remoteIrr input then rteRemote else 0)
    some ((readback >>> shift).toUInt32, s)

/-- An access to the register that the selector names. -/
def windowIo (s : IoApic) (reg : Nat) (write : Bool) (value : UInt32) : Option (UInt32 × IoApic) :=
  if reg = 0 \/ reg = 2 then
    let id := s.id.toUInt32 <<< 24
    if write then if reg = 0 /\ value = id then some (value, s) else none
    else some (id, s)
  else if reg = 1 then
    if write then none else some ((UInt32.ofNat (ioapicInputs - 1) <<< 16) ||| 0x11, s)
  else if reg < 0x10 \/ reg >= 0x10 + 2 * ioapicInputs then none
  else redirectionIo s ((reg - 0x10) / 2) (reg % 2 == 1) write value

/-- `aos_x86_ioapic_io`; no result is the false return, which changes nothing. -/
def ioapicIo (s : IoApic) (offset : Nat) (write : Bool) (value : UInt32) :
    Option (UInt32 × IoApic) :=
  if offset = 0 then
    if write then
      if value > 255 then none else some (value, { s with selector := value.toUInt8 })
    else some (s.selector.toUInt32, s)
  else if offset ≠ 0x10 then none
  else windowIo s s.selector.toNat write value

/-- `aos_x86_ioapic_set_irq`. -/
def ioapicSetIrq (s : IoApic) (input : Nat) (asserted : Bool) : Option IoApic :=
  if input >= ioapicInputs then none
  else
    let rte := s.redirection input
    if asserted then
      let edge := !hasBit s.asserted input && rte &&& (rteMask ||| rteLevel) == 0
      some { s with
        edgePending := if edge then s.edgePending ||| bit input else s.edgePending
        asserted := s.asserted ||| bit input }
    else some { s with asserted := s.asserted &&& ~~~bit input }

/-- `aos_x86_ioapic_route`. -/
def ioapicRoute (s : IoApic) (input : Nat) : Option IoApicRoute :=
  if input >= ioapicInputs then none
  else
    let rte := s.redirection input
    let waiting := if rte &&& rteLevel ≠ 0 then s.asserted else s.edgePending
    if rte &&& rteMask ≠ 0 \/ hasBit s.remoteIrr input \/ rte &&& 255 < 16 \/ !hasBit waiting input then
      none
    else some {
      vector := rte.toUInt8
      destination := (rte >>> 56).toUInt8
      logical := rte &&& 0x800 != 0
      level := rte &&& rteLevel != 0 }

/-- `aos_x86_ioapic_accept`. -/
def ioapicAccept (s : IoApic) (input : Nat) : Option IoApic :=
  (ioapicRoute s input).map fun route =>
    let s := { s with edgePending := s.edgePending &&& ~~~bit input }
    if route.level then
      { s with
        remoteIrr := s.remoteIrr ||| bit input
        acceptedVector := Function.update s.acceptedVector input route.vector }
    else s

/-- The loop of `aos_x86_ioapic_eoi` over the first inputs. -/
def eoiInputs (acceptedVector : Nat -> UInt8) (vector : Nat) : Nat -> UInt32 -> UInt32
  | 0, remote => remote
  | i + 1, remote =>
    let remote := eoiInputs acceptedVector vector i remote
    if hasBit remote i && (acceptedVector i).toNat == vector then remote &&& ~~~bit i else remote

/-- `aos_x86_ioapic_eoi`. -/
def ioapicEoi (s : IoApic) (vector : Nat) : IoApic :=
  if vector < 16 \/ vector > 255 then s
  else { s with remoteIrr := eoiInputs s.acceptedVector vector ioapicInputs s.remoteIrr }

/-! ## What each operation does to the inputs that wait for their end -/

/-- The waiting inputs and their vectors are as they were. -/
def SameWaiting (s t : IoApic) : Prop :=
  t.remoteIrr = s.remoteIrr /\ t.acceptedVector = s.acceptedVector

variable {s t : IoApic} {input : Nat} {write : Bool} {value out : UInt32}

theorem redirectionIo_waiting {high : Bool}
    (h : redirectionIo s input high write value = some (out, t)) : SameWaiting s t := by
  unfold redirectionIo at h
  dsimp only at h
  cases write with
  | false =>
    cases h
    exact ⟨rfl, rfl⟩
  | true =>
    obtain ⟨data, -, ⟨⟩⟩ := map_eq_some_iff.mp h
    exact ⟨rfl, rfl⟩

theorem windowIo_waiting {reg : Nat} (h : windowIo s reg write value = some (out, t)) :
    SameWaiting s t := by
  have hsame : ∀ {x : UInt32}, some (x, s) = some (out, t) -> SameWaiting s t := by
    intro x hx
    obtain rfl : s = t := congrArg Prod.snd (some.inj hx)
    exact ⟨rfl, rfl⟩
  unfold windowIo at h
  dsimp only at h
  split_ifs at h
  · exact hsame h
  · exact hsame h
  · exact hsame h
  · exact redirectionIo_waiting h

theorem ioapicIo_waiting {offset : Nat} (h : ioapicIo s offset write value = some (out, t)) :
    SameWaiting s t := by
  unfold ioapicIo at h
  split_ifs at h <;> first
    | exact windowIo_waiting h
    | (cases h; exact ⟨rfl, rfl⟩)

theorem ioapicSetIrq_waiting {asserted : Bool} (h : ioapicSetIrq s input asserted = some t) :
    SameWaiting s t := by
  unfold ioapicSetIrq at h
  dsimp only at h
  split_ifs at h <;> cases h <;> exact ⟨rfl, rfl⟩

theorem ioapicRoute_some {route : IoApicRoute} (h : ioapicRoute s input = some route) :
    input < ioapicInputs /\ hasBit s.remoteIrr input = false := by
  unfold ioapicRoute at h
  rw [ite_none_left_eq_some] at h
  obtain ⟨hinput, h⟩ := h
  dsimp only at h
  rw [ite_none_left_eq_some] at h
  obtain ⟨hclosed, -⟩ := h
  simp only [not_or, Bool.not_eq_true] at hclosed
  exact ⟨Nat.not_le.mp hinput, hclosed.2.1⟩

variable {i : Nat}

/-- Accepting marks one input, and only a level input, which did not wait before. -/
theorem ioapicAccept_waiting {route : IoApicRoute} (hroute : ioapicRoute s input = some route)
    (hi : i < ioapicInputs) (h : hasBit ((ioapicAccept s input).getD s).remoteIrr i = true) :
    (hasBit s.remoteIrr i = true /\
        ((ioapicAccept s input).getD s).acceptedVector i = s.acceptedVector i) \/
      (route.level = true /\ ((ioapicAccept s input).getD s).acceptedVector i = route.vector) := by
  obtain ⟨hinput, hclear⟩ := ioapicRoute_some hroute
  have hin : input < 32 := Nat.lt_trans hinput (by decide)
  have hi32 : i < 32 := Nat.lt_trans hi (by decide)
  unfold ioapicAccept at h ⊢
  rw [hroute, Option.map_some, Option.getD_some] at h ⊢
  dsimp only at h ⊢
  cases hlevel : route.level with
  | false =>
    rw [hlevel] at h
    exact .inl ⟨h, rfl⟩
  | true =>
    rw [hlevel, if_pos rfl, hasBit_or_bit hin hi32, Bool.or_eq_true, decide_eq_true_iff] at h
    rw [if_pos rfl]
    by_cases hsame : input = i
    · exact .inr ⟨rfl, hsame ▸ Function.update_self ..⟩
    · exact .inl ⟨h.resolve_right hsame, Function.update_of_ne (Ne.symm hsame) ..⟩

variable {vector : Nat}

theorem hasBit_eoiInputs {acceptedVector : Nat -> UInt8} {n : Nat} {remote : UInt32} (hn : n <= 32)
    (hi : i < 32) :
    hasBit (eoiInputs acceptedVector vector n remote) i =
      (hasBit remote i && !(decide (i < n) && (acceptedVector i).toNat == vector)) := by
  induction n with
  | zero => simp [eoiInputs]
  | succ n ih =>
    have ih := ih (Nat.le_of_succ_le hn)
    have hlt : i < n + 1 ↔ i < n \/ n = i := by omega
    rw [eoiInputs]
    split
    case isTrue hmatch =>
      rw [Bool.and_eq_true] at hmatch
      rw [hasBit_and_not_bit hn hi, ih]
      by_cases hsame : n = i
      · subst hsame
        simp [hmatch.2]
      · simp [hsame, hlt]
    case isFalse hmatch =>
      rw [ih]
      by_cases hsame : n = i
      · subst hsame
        rw [ih] at hmatch
        simp_all
      · simp [hsame, hlt]

/-- The end of a vector releases exactly the inputs that were taken under it. -/
theorem hasBit_ioapicEoi (hvector : 16 <= vector /\ vector < 256) (hi : i < ioapicInputs) :
    hasBit (ioapicEoi s vector).remoteIrr i =
      (hasBit s.remoteIrr i && !((s.acceptedVector i).toNat == vector)) := by
  have hrange : ¬ (vector < 16 \/ vector > 255) := by omega
  rw [ioapicEoi, if_neg hrange, hasBit_eoiInputs (by decide) (Nat.lt_trans hi (by decide)),
    decide_eq_true hi, Bool.true_and]

theorem ioapicEoi_acceptedVector : (ioapicEoi s vector).acceptedVector = s.acceptedVector := by
  unfold ioapicEoi
  split <;> rfl

end AgentOs.X86
