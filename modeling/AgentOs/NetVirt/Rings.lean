import AgentOs.Library.Ring
import AgentOs.NetVirt.Service

/-!
# Rings of an undisturbed memory

What the ring operations do to the contents of the rings when no other party touches the
memory meanwhile.  Copies and driver calls leave all rings alone.
-/

open Function (update update_self update_of_ne)

namespace AgentOs.NetVirt

open Library Prog Ipc List

/-- Free-running indices count modulo `2 ^ 16`. -/
@[simp]
def ringWord : Nat := 2 ^ 16

@[simp]
def ringCap : Nat := 32

theorem ringCap_dvd : ringCap ∣ ringWord := by decide

theorem index_succ_toNat (index : UInt16) : (index + 1).toNat = (index.toNat + 1) % ringWord :=
  UInt16.toNat_add index 1

theorem slot_mod_toNat (index : UInt16) :
    (index.toUInt32 % aosNetCapacity).toNat = index.toNat % ringCap := by
  rw [UInt32.toNat_mod, UInt16.toNat_toUInt32]
  rfl

namespace NetHeap

/-- The descriptors of a ring, oldest first. -/
def ring (h : NetHeap) (q : NetPtr) : List NetBuffDesc :=
  Ring.contents ringWord ringCap (h.buffer q) (h.index q).head.toNat (h.index q).tail.toNat

theorem ring_length (h : NetHeap) (q : NetPtr) : (h.ring q).length = (h.len q).toNat := by
  rw [ring, Ring.contents_length, len, UInt16.toNat_sub]
  rfl

theorem len_eq_zero_iff (h : NetHeap) (q : NetPtr) : h.len q = 0 ↔ h.ring q = [] := by
  rw [<- length_eq_zero_iff, ring_length, <- UInt16.toNat_inj]
  rfl

/-- Advance the head. -/
def pop (h : NetHeap) (q : NetPtr) : NetHeap := h.store (.index .head q) ((h.index q).head + 1)

/-- Write the slot at the tail and advance the tail. -/
def push (h : NetHeap) (q : NetPtr) (buf : NetBuffDesc) : NetHeap :=
  (h.store (.buffer q ((h.index q).tail.toUInt32 % aosNetCapacity).toNat) buf).store
    (.index .tail q) ((h.index q).tail + 1)

theorem ring_pop (h : NetHeap) (q : NetPtr) (hsome : h.ring q ≠ []) :
    h.ring q = h.buffer q ((h.index q).head.toUInt32 % aosNetCapacity).toNat ::
      (h.pop q).ring q := by
  have hpos : 0 < Ring.len ringWord (h.index q).head.toNat (h.index q).tail.toNat := by
    have hlength : (h.ring q).length =
        Ring.len ringWord (h.index q).head.toNat (h.index q).tail.toNat := Ring.contents_length _
    rw [<- hlength]
    exact length_pos_iff.mpr hsome
  have hindex : (h.pop q).index q = ⟨(h.index q).head + 1, (h.index q).tail⟩ := by
    simp [pop, store, NetIndices.set]
  have hbuffer : (h.pop q).buffer q = h.buffer q := rfl
  simp only [ring, hindex, hbuffer, index_succ_toNat, slot_mod_toNat]
  exact Ring.contents_pop ringCap_dvd (UInt16.toNat_lt _) (UInt16.toNat_lt _) hpos _

theorem ring_push (h : NetHeap) (q : NetPtr) (buf : NetBuffDesc)
    (hroom : (h.ring q).length < ringCap) : (h.push q buf).ring q = h.ring q ++ [buf] := by
  rw [ring, Ring.contents_length] at hroom
  have hindex : (h.push q buf).index q = ⟨(h.index q).head, (h.index q).tail + 1⟩ := by
    simp [push, store, NetIndices.set]
  have hbuffer : (h.push q buf).buffer q =
      update (h.buffer q) ((h.index q).tail.toNat % ringCap) buf := by
    rw [<- slot_mod_toNat]
    simp [push, store]
  simp only [ring, hindex, hbuffer, index_succ_toNat]
  exact Ring.contents_push ringCap_dvd (UInt16.toNat_lt _) (UInt16.toNat_lt _) (by decide) hroom
    (update_self _ _ _) fun k hk => update_of_ne hk _ _

theorem ring_pop_of_ne (h : NetHeap) {q q' : NetPtr} (hne : q' ≠ q) :
    (h.pop q).ring q' = h.ring q' := by
  simp [ring, pop, store, hne]

theorem ring_push_of_ne (h : NetHeap) {q q' : NetPtr} (hne : q' ≠ q) (buf : NetBuffDesc) :
    (h.push q buf).ring q' = h.ring q' := by
  simp [ring, push, store, hne]

theorem rings_pop (h : NetHeap) {q : NetPtr} {buf : NetBuffDesc} {rest : List NetBuffDesc}
    (hring : h.ring q = buf :: rest) : (h.pop q).ring = update h.ring q rest := by
  funext q'
  by_cases hq : q' = q
  · subst hq
    have hpop := h.ring_pop q' (by rw [hring]; simp)
    rw [update_self]
    exact (List.cons.inj (hpop.symm.trans hring)).2
  · rw [update_of_ne hq, ring_pop_of_ne h hq]

theorem rings_push (h : NetHeap) (q : NetPtr) (buf : NetBuffDesc)
    (hroom : (h.ring q).length < ringCap) :
    (h.push q buf).ring = update h.ring q (h.ring q ++ [buf]) := by
  funext q'
  by_cases hq : q' = q
  · subst hq
    rw [update_self, ring_push h q' buf hroom]
  · rw [update_of_ne hq, ring_push_of_ne h hq]

end NetHeap

/-! ## Evaluating the ring operations -/

section Eval

variable {μ : Type} {driver : NetDriver μ} {s : NetHeap × μ} {q : NetPtr}

theorem evalsTo_load {α : Type} {Q : α -> NetHeap × μ -> Prop} (cell : NetCell)
    (next : cell.Val -> NetM α) :
    EvalsTo (handler driver) Q (load cell >>= next) s ↔
      EvalsTo (handler driver) Q (next (s.1.load cell)) s := Iff.rfl

theorem evalsTo_attempt {α : Type} {Q : α -> NetHeap × μ -> Prop} (ring : NetPtr)
    (next : Unit -> NetM α) :
    EvalsTo (handler driver) Q (attempt ring >>= next) s ↔
      EvalsTo (handler driver) Q (next ()) s := Iff.rfl

theorem guard_eq_false (hq : isNull q = false) :
    (isNull q || aosNetCapacity == 0 || decide (aosNetCapacity > aosNetCapacity)) = false := by
  rw [hq]
  decide

/-- A ring with at most `capacity` descriptors gives up its oldest one. -/
theorem evalsTo_dequeue (hq : isNull q = false) (hlength : (s.1.ring q).length <= ringCap) :
    EvalsTo (handler driver)
      (fun out s' => (s.1.ring q = [] /\ out = none /\ s'.1.ring = s.1.ring) \/
        ∃ buf rest, s.1.ring q = buf :: rest /\ out = some buf /\ s'.1.ring = update s.1.ring q rest)
      (aosNetQueueDequeue q aosNetCapacity) s := by
  have hcap : aosNetCapacity.toNat = 32 := rfl
  rw [NetHeap.ring_length] at hlength
  have hfits : ¬ (s.1.len q).toUInt32 > aosNetCapacity := by
    rw [gt_iff_lt, UInt32.lt_iff_toNat_lt, UInt16.toNat_toUInt32, hcap]
    simp only [ringCap] at hlength
    omega
  unfold aosNetQueueDequeue
  rw [guard_eq_false hq, if_neg Bool.false_ne_true, evalsTo_load, evalsTo_load]
  dsimp only [NetHeap.load, NetIndices.get]
  rw [<- NetHeap.len, decide_eq_false hfits, Bool.or_false]
  cases hring : s.1.ring q with
  | nil =>
    rw [if_pos (beq_iff_eq.mpr ((s.1.len_eq_zero_iff q).mpr hring))]
    exact Or.inl ⟨rfl, rfl, rfl⟩
  | cons buf rest =>
    have hsome : s.1.len q ≠ 0 := by
      rw [Ne, s.1.len_eq_zero_iff q, hring]
      exact cons_ne_nil _ _
    rw [if_neg fun h => hsome (beq_iff_eq.mp h)]
    have hpop := s.1.ring_pop q (by rw [hring]; exact cons_ne_nil _ _)
    have hhead := (List.cons.inj (hring.symm.trans hpop)).1
    exact Or.inr ⟨buf, rest, rfl, congrArg some hhead.symm, s.1.rings_pop hring⟩

theorem evalsTo_enqueue (hq : isNull q = false) (buf : NetBuffDesc)
    (hroom : (s.1.ring q).length < ringCap) :
    EvalsTo (handler driver)
      (fun queued s' => queued = true /\ s'.1.ring = update s.1.ring q (s.1.ring q ++ [buf]))
      (aosNetQueueEnqueue q aosNetCapacity buf) s := by
  have hcap : aosNetCapacity.toNat = 32 := rfl
  have hlength := hroom
  rw [NetHeap.ring_length] at hlength
  have hfits : ¬ (s.1.len q).toUInt32 >= aosNetCapacity := by
    rw [ge_iff_le, UInt32.le_iff_toNat_le, UInt16.toNat_toUInt32, hcap]
    simp only [ringCap] at hlength
    omega
  unfold aosNetQueueEnqueue
  rw [guard_eq_false hq, if_neg Bool.false_ne_true, evalsTo_load, evalsTo_load]
  dsimp only [NetHeap.load, NetIndices.get]
  rw [<- NetHeap.len, if_neg hfits]
  exact ⟨rfl, s.1.rings_push q buf hroom⟩

theorem evalsTo_copyBytes (dst src : NetPtr) (n : Nat) (s : NetHeap × μ) :
    EvalsTo (handler driver) (fun _ s' => s'.1.ring = s.1.ring) (copyBytes dst src n) s := by
  induction n generalizing dst src s with
  | zero => rfl
  | succ n ih => exact ih (dst + 1) (src + 1) _

theorem evalsTo_nvFence (s : NetHeap × μ) :
    EvalsTo (handler driver) (fun _ s' => s'.1.ring = s.1.ring) nvFence s :=
  rfl

theorem evalsTo_netPdCall (opcode arg0 arg1 : UInt32) (s : NetHeap × μ) :
    EvalsTo (handler driver) (fun _ s' => s'.1.ring = s.1.ring) (netPdCall opcode arg0 arg1) s :=
  rfl

end Eval

end AgentOs.NetVirt
