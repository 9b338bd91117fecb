import Mathlib.Data.List.Perm.Basic

/-!
# Tables of slots

A fixed array in which a service keeps the entries it serves.  A view reads the entry in a slot,
if there is one.  Which slot an entry sits in does not matter, so the entries are a list up to
order.
-/

open Function (update update_self update_of_ne)

namespace AgentOs.Library.Slots

variable {ι α β : Type}

/-- The entries of a table, in the order of the slots. -/
def roster (keys : List ι) (view : α -> Option β) (table : ι -> α) : List β :=
  keys.filterMap (view ∘ table)

variable {keys : List ι} {view : α -> Option β} {table : ι -> α} {i : ι}

theorem mem_roster {entry : β} :
    entry ∈ roster keys view table ↔ ∃ i ∈ keys, view (table i) = some entry := by
  simp [roster, List.mem_filterMap]

variable (keys view table) in
/-- Every slot is used exactly when there are as many entries as slots. -/
theorem roster_full_iff :
    (roster keys view table).length = keys.length ↔ ∀ i ∈ keys, view (table i) ≠ none := by
  unfold roster
  rw [List.length_filterMap_eq_countP, List.countP_eq_length]
  simp [Option.isSome_iff_ne_none]

section Update

variable [DecidableEq ι]

variable (view table) in
theorem roster_perm (hmem : i ∈ keys) :
    (roster keys view table).Perm ((view (table i)).toList ++ roster (keys.erase i) view table) :=
      by
  have hsplit := (List.perm_cons_erase hmem).filterMap (view ∘ table)
  rw [List.filterMap_cons] at hsplit
  cases hview : view (table i) with
  | none => simpa [roster, hview] using hsplit
  | some entry => simpa [roster, hview] using hsplit

variable (view table) in
theorem roster_update (hnodup : keys.Nodup) (hmem : i ∈ keys) (a : α) :
    (roster keys view (update table i a)).Perm
      ((view a).toList ++ roster (keys.erase i) view table) := by
  have hrest : roster (keys.erase i) view (update table i a) =
      roster (keys.erase i) view table := by
    refine List.filterMap_congr fun j hj => ?_
    have hne : j ≠ i := (hnodup.mem_erase_iff.mp hj).1
    rw [Function.comp_apply, Function.comp_apply, update_of_ne hne]
  have hperm := roster_perm view (update table i a) hmem
  rwa [update_self, hrest] at hperm

theorem roster_insert (hnodup : keys.Nodup) (hmem : i ∈ keys) (hfree : view (table i) = none)
    {a : α} {entry : β} (hentry : view a = some entry) :
    (roster keys view (update table i a)).Perm (entry :: roster keys view table) := by
  have hold := roster_perm view table hmem
  rw [hfree, Option.toList_none, List.nil_append] at hold
  have hnew := roster_update view table hnodup hmem a
  rw [hentry, Option.toList_some, List.singleton_append] at hnew
  exact hnew.trans (hold.symm.cons entry)

variable (view table) in
theorem roster_clear (hnodup : keys.Nodup) (hmem : i ∈ keys) {entry : β}
    (hentry : view (table i) = some entry) {a : α} (hclear : view a = none) :
    (roster keys view table).Perm (entry :: roster keys view (update table i a)) := by
  have hold := roster_perm view table hmem
  rw [hentry, Option.toList_some, List.singleton_append] at hold
  have hnew := roster_update view table hnodup hmem a
  rw [hclear, Option.toList_none, List.nil_append] at hnew
  exact hold.trans (hnew.symm.cons entry)

variable (table) in
/-- Used slots stay apart when the new entry is apart from all of them. -/
theorem apart_update (used : α -> Prop) (shared : α -> α -> Prop) {a : α}
    (hsymm : ∀ x y, shared x y -> shared y x)
    (hapart : ∀ j k, used (table j) -> used (table k) -> shared (table j) (table k) -> j = k)
    (hnew : used a -> ∀ j, used (table j) -> ¬ shared (table j) a) (j k : ι)
    (hj : used (update table i a j)) (hk : used (update table i a k))
    (hshared : shared (update table i a j) (update table i a k)) : j = k := by
  by_cases hji : j = i
  · by_cases hki : k = i
    · exact hji.trans hki.symm
    · rw [hji, update_self] at hj hshared
      rw [update_of_ne hki] at hk hshared
      exact absurd (hsymm _ _ hshared) (hnew hj k hk)
  · rw [update_of_ne hji] at hj hshared
    by_cases hki : k = i
    · rw [hki, update_self] at hk hshared
      exact absurd hshared (hnew hk j hj)
    · rw [update_of_ne hki] at hk hshared
      exact hapart j k hj hk hshared

end Update

end AgentOs.Library.Slots
