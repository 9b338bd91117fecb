import Mathlib.Data.Nat.ModEq
import Mathlib.Data.List.Nodup
import Mathlib.Data.List.Range

/-!
# Rings with free-running indices

Producer and consumer each count modulo a machine word and never reset; an element lives at its
index modulo the capacity, and the number of elements is the difference of the indices.  The
capacity divides the word size, so a slot stays the same when an index wraps.
-/

namespace AgentOs.Library.Ring

variable {α : Type} {word cap head tail : Nat}

/-- The difference of the indices in machine arithmetic. -/
def len (word head tail : Nat) : Nat := (word - head + tail) % word

/-- The slot of the `k`-th element from the head. -/
def slot (cap head k : Nat) : Nat := (head + k) % cap

def contents (word cap : Nat) (buf : Nat -> α) (head tail : Nat) : List α :=
  (List.range (len word head tail)).map fun k => buf (slot cap head k)

@[simp]
theorem contents_length (buf : Nat -> α) :
    (contents word cap buf head tail).length = len word head tail := by
  simp [contents]

theorem len_lt (tail : Nat) (hhead : head < word) : len word head tail < word :=
  Nat.mod_lt _ (Nat.lt_of_le_of_lt (Nat.zero_le _) hhead)

theorem head_add_len (hhead : head < word) (htail : tail < word) :
    (head + len word head tail) % word = tail := by
  unfold len
  rw [Nat.add_mod_mod, <- Nat.add_assoc, Nat.add_sub_cancel' hhead.le, Nat.add_mod_left,
    Nat.mod_eq_of_lt htail]

theorem len_eq {n : Nat} (hhead : head < word) (hn : n < word)
    (htail : (head + n) % word = tail) : len word head tail = n := by
  subst htail
  unfold len
  rw [Nat.add_mod_mod, <- Nat.add_assoc, Nat.sub_add_cancel hhead.le, Nat.add_mod_left,
    Nat.mod_eq_of_lt hn]

theorem len_push (hhead : head < word) (htail : tail < word)
    (hroom : len word head tail + 1 < word) :
    len word head ((tail + 1) % word) = len word head tail + 1 := by
  refine len_eq hhead hroom ?_
  rw [<- Nat.add_assoc, Nat.add_mod, head_add_len hhead htail, Nat.add_mod_mod]

theorem len_pop (hhead : head < word) (htail : tail < word) (hpos : 0 < len word head tail) :
    len word ((head + 1) % word) tail = len word head tail - 1 := by
  have hword : 0 < word := Nat.lt_of_le_of_lt (Nat.zero_le _) hhead
  have hlt := len_lt tail hhead
  refine len_eq (Nat.mod_lt _ hword) (by omega) ?_
  rw [Nat.mod_add_mod]
  have hsum : head + 1 + (len word head tail - 1) = head + len word head tail := by omega
  rw [hsum, head_add_len hhead htail]

theorem slot_inj {i j : Nat} (hi : i < cap) (hj : j < cap)
    (hslot : slot cap head i = slot cap head j) : i = j := by
  have hmod : head + i ≡ head + j [MOD cap] := hslot
  exact (Nat.ModEq.add_left_cancel' head hmod).eq_of_lt_of_lt hi hj

/-- The slots of the `n` indices from the head on. -/
def liveSlots (word cap head n : Nat) : List Nat :=
  (List.range n).map fun k => (head + k) % word % cap

/-- Live indices have different slots, also across the wrap. -/
def Apart (word cap : Nat) : Prop :=
  ∀ head, head < word -> ∀ n, n <= cap -> (liveSlots word cap head n).Nodup

theorem liveSlots_succ (n : Nat) :
    liveSlots word cap head (n + 1) = liveSlots word cap head n ++ [(head + n) % word % cap] := by
  rw [liveSlots, List.range_succ, List.map_append, List.map_singleton, liveSlots]

theorem apart_iff (hcap : 0 < cap) : Apart word cap ↔ cap ∣ word := by
  constructor
  · intro hapart
    by_contra hdvd
    -- the last multiple of the capacity below the word size and index 0 share slot 0
    have hrest : 0 < word % cap := Nat.emod_pos_of_not_dvd hdvd
    have hle := Nat.mod_le word cap
    have hlt : word - word % cap < word := by omega
    have hnodup := hapart (word - word % cap) hlt (word % cap + 1) (Nat.mod_lt _ hcap)
    rw [liveSlots_succ, Nat.sub_add_cancel hle, Nat.mod_self, Nat.zero_mod] at hnodup
    refine List.disjoint_of_nodup_append hnodup (List.mem_map.mpr ?_) (List.mem_singleton_self 0)
    refine ⟨0, List.mem_range.mpr hrest, ?_⟩
    rw [Nat.add_zero, Nat.mod_eq_of_lt hlt]
    exact Nat.mod_eq_zero_of_dvd (Nat.dvd_sub_mod word)
  · intro hdvd head _ n hn
    refine List.Nodup.map_on ?_ List.nodup_range
    intro i hi j hj hsame
    rw [List.mem_range] at hi hj
    rw [Nat.mod_mod_of_dvd _ hdvd, Nat.mod_mod_of_dvd _ hdvd] at hsame
    exact slot_inj (by omega) (by omega) hsame

/-- The next element does not go into a live slot. -/
theorem Apart.ne_tail (h : Apart word cap) (hhead : head < word) (htail : tail < word)
    (hroom : len word head tail < cap) {i : Nat}
    (hi : i ∈ liveSlots word cap head (len word head tail)) : i ≠ tail % cap := by
  have hnodup := h head hhead _ hroom
  rw [liveSlots_succ, head_add_len hhead htail] at hnodup
  exact fun heq => List.disjoint_of_nodup_append hnodup hi (List.mem_singleton.mpr heq)

section Dvd

variable (hdvd : cap ∣ word)

include hdvd

theorem slot_len (hhead : head < word) (htail : tail < word) :
    slot cap head (len word head tail) = tail % cap := by
  unfold slot
  rw [<- Nat.mod_mod_of_dvd _ hdvd, head_add_len hhead htail]

theorem slot_succ (k : Nat) : slot cap ((head + 1) % word) k = slot cap head (k + 1) := by
  unfold slot
  rw [<- Nat.mod_add_mod, Nat.mod_mod_of_dvd _ hdvd, Nat.mod_add_mod]
  congr 1
  omega

variable {buf : Nat -> α}

theorem contents_push (hhead : head < word) (htail : tail < word) (hcap : cap < word)
    (hroom : len word head tail < cap) {buf' : Nat -> α} {x : α} (hnew : buf' (tail % cap) = x)
    (hold : ∀ k, k ≠ tail % cap -> buf' k = buf k) :
    contents word cap buf' head ((tail + 1) % word) = contents word cap buf head tail ++ [x] := by
  unfold contents
  rw [len_push hhead htail (by omega), List.range_succ, List.map_append, List.map_singleton,
    slot_len hdvd hhead htail, hnew]
  congr 1
  refine List.map_congr_left fun k hk => ?_
  rw [List.mem_range] at hk
  refine hold _ fun hsame => ?_
  rw [<- slot_len hdvd hhead htail] at hsame
  have hfull := slot_inj (by omega) hroom hsame
  omega

theorem contents_pop (hhead : head < word) (htail : tail < word)
    (hpos : 0 < len word head tail) (buf : Nat -> α) :
    contents word cap buf head tail =
      buf (head % cap) :: contents word cap buf ((head + 1) % word) tail := by
  unfold contents
  rw [len_pop hhead htail hpos]
  obtain ⟨n, hn⟩ : ∃ n, len word head tail = n + 1 := ⟨len word head tail - 1, by omega⟩
  rw [hn, Nat.add_sub_cancel, List.range_succ_eq_map, List.map_cons, List.map_map]
  congr 1
  refine List.map_congr_left fun k _ => ?_
  rw [Function.comp_apply, slot_succ hdvd]

/-- Advancing the tail over slots that hold `xs` appends them. -/
theorem contents_extend (hhead : head < word) (hcap : cap < word) {tail : Nat} (htail : tail < word)
    {xs : List α} (hroom : len word head tail + xs.length <= cap)
    (hdata : ∀ (j : Nat) (hj : j < xs.length), buf ((tail + j) % cap) = xs[j]) :
    contents word cap buf head ((tail + xs.length) % word) =
      contents word cap buf head tail ++ xs := by
  induction xs generalizing tail with
  | nil =>
    rw [List.length_nil, Nat.add_zero, Nat.mod_eq_of_lt htail, List.append_nil]
  | cons x xs ih =>
    rw [List.length_cons] at hroom
    have hfirst : buf (tail % cap) = x := hdata 0 (Nat.succ_pos _)
    have hpush := contents_push hdvd hhead htail hcap (by omega) hfirst (fun _ _ => rfl)
    have hlen := len_push hhead htail (by omega : len word head tail + 1 < word)
    have hrest := @ih ((tail + 1) % word) (Nat.mod_lt _ (by omega)) (by omega) fun j hj => by
      rw [<- Nat.mod_mod_of_dvd _ hdvd, Nat.mod_add_mod, Nat.mod_mod_of_dvd _ hdvd,
        Nat.add_right_comm]
      exact hdata (j + 1) (Nat.succ_lt_succ hj)
    rw [Nat.mod_add_mod] at hrest
    rw [List.length_cons, <- List.singleton_append, <- List.append_assoc, <- hpush, <- hrest]
    congr 2
    omega

theorem contents_advance {head : Nat} (hhead : head < word) (htail : tail < word) {n : Nat}
    (hn : n <= len word head tail) (buf : Nat -> α) :
    contents word cap buf ((head + n) % word) tail = (contents word cap buf head tail).drop n := by
  induction n generalizing head with
  | zero => rw [Nat.add_zero, Nat.mod_eq_of_lt hhead, List.drop_zero]
  | succ n ih =>
    have hpos : 0 < len word head tail := by omega
    have hword : 0 < word := by omega
    have hlen := len_pop hhead htail hpos
    have hrest := @ih ((head + 1) % word) (Nat.mod_lt _ hword) (by omega)
    rw [Nat.mod_add_mod, Nat.add_right_comm] at hrest
    rw [contents_pop hdvd hhead htail hpos, List.drop_succ_cons, <- hrest, Nat.add_assoc]

/-- A slot past the last element may be written. -/
theorem contents_ahead (hhead : head < word) (htail : tail < word) {n : Nat}
    (hroom : len word head tail + n < cap) {buf' : Nat -> α}
    (hold : ∀ k, k < cap -> k ≠ (tail + n) % cap -> buf' k = buf k) :
    contents word cap buf' head tail = contents word cap buf head tail := by
  unfold contents
  refine List.map_congr_left fun k hk => ?_
  rw [List.mem_range] at hk
  refine hold _ (Nat.mod_lt _ (by omega)) fun hsame => ?_
  have hslot : (tail + n) % cap = slot cap head (len word head tail + n) := by
    rw [<- Nat.mod_add_mod, <- slot_len hdvd hhead htail]
    unfold slot
    rw [Nat.mod_add_mod, Nat.add_assoc]
  rw [hslot] at hsame
  have hfull := slot_inj (by omega) hroom hsame
  omega

end Dvd

theorem contents_getElem {buf : Nat -> α} {k : Nat}
    (hk : k < (contents word cap buf head tail).length) :
    (contents word cap buf head tail)[k] = buf ((head + k) % cap) := by
  simp [contents, slot]

/-- A slot that holds no element may be written. -/
theorem contents_congr {buf buf' : Nat -> α}
    (hsame : ∀ k, k < len word head tail -> buf' (slot cap head k) = buf (slot cap head k)) :
    contents word cap buf' head tail = contents word cap buf head tail := by
  unfold contents
  refine List.map_congr_left fun k hk => hsame k (List.mem_range.mp hk)

end AgentOs.Library.Ring
