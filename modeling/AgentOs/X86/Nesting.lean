import AgentOs.X86.LevelInterrupts

/-!
# Interrupts nest

A processor takes a vector only if its class is above that of every vector it serves, so the
vectors in service are a stack.
-/

namespace AgentOs.X86

open Library List Option

/-- What happens to one controller, resets apart.  `route` is an interrupt of a device or of
another processor, and `publish` the sending side of a command to other processors. -/
inductive ApicAction where
  | io (off : Nat) (write : Bool) (value : UInt32) (ticks : UInt64)
  | route (vector : Nat) (destination : UInt32) (logical level : Bool)
  | pending (ticks : UInt64)
  | accept (vector : Nat)
  | publish (command : UInt32) (ticks : UInt64)

/-- The controller after the action; no result is a refusal, which changes nothing. -/
def Apic.act (a : Apic) : ApicAction -> Option Apic
  | .io off write value ticks => (apicIo a off write value ticks).map Prod.snd
  | .route vector destination logical level => apicRoute a vector destination logical level
  | .pending ticks => some (apicPending a ticks).2
  | .accept vector => apicAccept a vector
  | .publish command ticks => some (SmpCpu.publish ⟨a, .running, false, 0⟩ command ticks).apic

def ApicAction.accepts : ApicAction -> List Nat
  | .accept vector => [vector]
  | _ => []

/-- The action, and the accepted vectors that are still in service, the last first. -/
def apicStep (s : Apic × List Nat) (action : ApicAction) : Option (Apic × List Nat) :=
  (s.1.act action).map fun b => (b, (action.accepts ++ s.2).filter b.isr.test)

/-- The vectors in service are those of the stack, and their classes fall from its top. -/
structure Nested (a : Apic) (served : List Nat) : Prop where
  members : ∀ v, a.isr.test v = true ↔ v ∈ served
  range : ∀ v ∈ served, 16 <= v /\ v < 256
  classes : served.Pairwise fun newer older => older >>> 4 < newer >>> 4

variable {a b : Apic} {served : List Nat} {v : Nat} {ticks : UInt64}

theorem class_le {v w : Nat} (h : v <= w) : v >>> 4 <= w >>> 4 := by
  rw [Nat.shiftRight_eq_div_pow, Nat.shiftRight_eq_div_pow]
  exact Nat.div_le_div_right h

theorem Nested.of_isr (h : Nested a served) (hisr : b.isr = a.isr) : Nested b served :=
  ⟨hisr ▸ h.members, h.range, h.classes⟩

theorem Nested.highest_eq (h : Nested a served) : highest a.isr = served.headD 0 := by
  rcases highestFrom_cases a.isr 240 with ⟨hzero, hnone⟩ | ⟨hlow, hhigh, htest, -⟩
  · cases served with
    | nil => exact hzero
    | cons v rest =>
      have hv := h.range v mem_cons_self
      exact absurd ((h.members v).mpr mem_cons_self) (by rw [hnone v hv.1 hv.2]; nofun)
  · have hmem := (h.members _).mp htest
    cases served with
    | nil => exact absurd hmem nofun
    | cons v rest =>
      rcases mem_cons.mp hmem with hv | hrest
      · exact hv
      · have hle : v <= highest a.isr := le_highest (h.range v mem_cons_self)
          ((h.members v).mpr mem_cons_self)
        exact absurd ((pairwise_cons.mp h.classes).1 _ hrest) (Nat.not_lt.mpr (class_le hle))

theorem Nested.accept {vector : Nat} (h : Nested a served) (hrange : 16 <= vector /\ vector < 256)
    (hclass : vector >>> 4 > a.priority >>> 4) : Nested (a.serve vector) (vector :: served) where
  members v := by
    show (a.isr.set vector).test v = true ↔ _
    rw [BitTable.test_set, Bool.or_eq_true, h.members, decide_eq_true_iff, mem_cons, or_comm,
      eq_comm]
  range := forall_mem_cons.mpr ⟨hrange, h.range⟩
  classes := by
    refine pairwise_cons.mpr ⟨fun w hw => ?_, h.classes⟩
    have hle := class_le (le_highest (h.range w hw) ((h.members w).mpr hw))
    have hpriority := highest_class_le_priority a
    omega

theorem Nested.filter_eq (h : Nested a served) : served.filter a.isr.test = served :=
  filter_eq_self.mpr fun v hv => (h.members v).mpr hv

/-- The end of an interrupt retires the vector accepted last. -/
theorem Nested.tail (h : Nested a served) :
    Nested a.endOfInterrupt served.tail /\
      served.filter a.endOfInterrupt.isr.test = served.tail := by
  have hend : Nested a.endOfInterrupt served.tail := by
    unfold Apic.endOfInterrupt
    rw [h.highest_eq]
    cases served with
    | nil => exact h
    | cons v rest =>
      have hv := h.range v mem_cons_self
      obtain ⟨hbelow, hclasses⟩ := pairwise_cons.mp h.classes
      have hzero : v ≠ 0 := by omega
      refine ⟨fun w => ?_, fun w hw => h.range w (mem_cons_of_mem _ hw), hclasses⟩
      simp only [headD_cons, hzero, ↓reduceIte, tail_cons]
      rw [BitTable.test_clear, Bool.and_eq_true, h.members, mem_cons, Bool.not_eq_true',
        decide_eq_false_iff_not]
      constructor
      · rintro ⟨rfl | hw, hne⟩
        · exact absurd rfl hne
        · exact hw
      · intro hw
        refine ⟨.inr hw, ?_⟩
        rintro rfl
        exact absurd (hbelow v hw) (Nat.lt_irrefl _)
  refine ⟨hend, ?_⟩
  cases served with
  | nil => rfl
  | cons v rest =>
    have hnot : ¬ a.endOfInterrupt.isr.test v = true := fun htest =>
      absurd ((pairwise_cons.mp h.classes).1 v ((hend.members v).mp htest)) (Nat.lt_irrefl _)
    rw [filter_cons_of_neg hnot]
    exact hend.filter_eq

theorem publish_grows (cpu : SmpCpu) (command : UInt32) (ticks : UInt64) :
    cpu.apic.Grows (cpu.publish command ticks).apic := by
  unfold SmpCpu.publish
  cases h : apicIo cpu.apic 0x300 false 0 ticks with
  | none => exact ⟨fun _ h => h, fun _ h => h, rfl, rfl⟩
  | some result =>
    rcases apicIo_cases h with hgrows | ⟨hoff, -⟩
    · exact ⟨hgrows.irr, hgrows.irrLevel, hgrows.isr, hgrows.tmr⟩
    · cases hoff

/-- Every action adds requests, or accepts a vector, or ends the highest. -/
theorem act_cases {action : ApicAction} (h : a.act action = some b) :
    (a.Grows b /\ action.accepts = []) \/
      (∃ vector c, action = .accept vector /\ a.Grows c /\ b = c.serve vector /\
        (16 <= vector /\ vector < 256) /\ vector >>> 4 > c.priority >>> 4) \/
      (∃ c, a.Grows c /\ b = c.endOfInterrupt /\ action.accepts = []) := by
  cases action with
  | io off write value ticks =>
    obtain ⟨⟨out, next⟩, hio, rfl⟩ := map_eq_some_iff.mp h
    rcases apicIo_cases hio with hgrows | ⟨-, -, hend⟩
    · exact .inl ⟨hgrows, rfl⟩
    · exact .inr (.inr ⟨_, advance_grows a ticks, hend, rfl⟩)
  | route vector destination logical level => exact .inl ⟨apicRoute_grows h, rfl⟩
  | pending ticks => exact .inl ⟨some.inj h ▸ apicPending_grows a ticks, rfl⟩
  | accept vector =>
    obtain ⟨c, hgrows, hserve, hrange, -, hclass⟩ := apicAccept_cases h
    exact .inr (.inl ⟨vector, c, rfl, hgrows, hserve, hrange, hclass⟩)
  | publish command ticks =>
    exact .inl ⟨some.inj h ▸ publish_grows ⟨a, .running, false, 0⟩ command ticks, rfl⟩

theorem Nested.step {action : ApicAction} {r : Apic × List Nat} (h : Nested a served)
    (hstep : apicStep (a, served) action = some r) : Nested r.1 r.2 := by
  obtain ⟨b, hact, rfl⟩ := map_eq_some_iff.mp hstep
  dsimp only
  rcases act_cases hact with ⟨hgrows, hnone⟩ | ⟨vector, c, rfl, hgrows, rfl, hrange, hclass⟩ |
    ⟨c, hgrows, rfl, hnone⟩
  · have hb := h.of_isr hgrows.isr
    rwa [hnone, nil_append, hb.filter_eq]
  · have hb := (h.of_isr hgrows.isr).accept hrange hclass
    rwa [ApicAction.accepts, singleton_append, hb.filter_eq]
  · obtain ⟨hb, hfilter⟩ := (h.of_isr hgrows.isr).tail
    rwa [hnone, nil_append, hfilter]

theorem Nested.run {actions : List ApicAction} {s r : Apic × List Nat} (h : Nested s.1 s.2)
    (hrun : actions.foldlM apicStep s = some r) : Nested r.1 r.2 := by
  induction actions generalizing s with
  | nil => exact some.inj hrun ▸ h
  | cons action actions ih =>
    rw [foldlM_cons] at hrun
    obtain ⟨next, hstep, hrest⟩ := bind_eq_some_iff.mp hrun
    exact ih (h.step hstep) hrest

theorem nested_init {id : Nat} {bootstrap : Bool} (h : apicInitCpu ticks id bootstrap = some a) :
    Nested a [] := by
  obtain ⟨-, h⟩ := ite_none_left_eq_some.mp h
  obtain rfl := some.inj h
  refine ⟨fun v => ?_, nofun, List.Pairwise.nil⟩
  simp [BitTable.test]

/-! ## What is offered -/

theorem tpr_class_le_priority (a : Apic) : a.tpr.toNat >>> 4 <= a.priority >>> 4 := by
  by_cases hle : a.tpr.toNat >>> 4 >= highest a.isr >>> 4
  · rw [Apic.priority, if_pos hle]
  · exact Nat.le_trans (Nat.le_of_not_ge hle) (highest_class_le_priority a)

theorem advance_tpr (a : Apic) (ticks : UInt64) : (a.advance ticks).tpr = a.tpr := by
  unfold Apic.advance Apic.expire
  dsimp only
  split_ifs <;> rfl

theorem apicPending_tpr (a : Apic) (ticks : UInt64) : (apicPending a ticks).2.tpr = a.tpr := by
  rw [apicPending_state]
  split
  · rfl
  · exact advance_tpr a ticks

/-- A vector that is offered is above the task priority and above every vector in service. -/
theorem Nested.offered (h : Nested a served) (hv : v ≠ 0 /\ v < 256)
    (hpending : v = (apicPending a ticks).1) :
    a.tpr.toNat >>> 4 < v >>> 4 /\ ∀ w ∈ served, w >>> 4 < v >>> 4 := by
  obtain ⟨-, hclass⟩ := apicPending_eq hv hpending
  have htpr := tpr_class_le_priority (apicPending a ticks).2
  have hserved := highest_class_le_priority (apicPending a ticks).2
  rw [apicPending_tpr] at htpr
  rw [(apicPending_grows a ticks).isr] at hserved
  refine ⟨Nat.lt_of_le_of_lt htpr hclass, fun w hw => ?_⟩
  have hle := class_le (le_highest (h.range w hw) ((h.members w).mpr hw))
  omega

/-- A request is there until it is accepted. -/
theorem act_requested {action : ApicAction} (h : a.act action = some b)
    (hv : a.irr.test v = true) : b.irr.test v = true \/ action = .accept v := by
  rcases act_cases h with ⟨hgrows, -⟩ | ⟨vector, c, rfl, hgrows, rfl, -⟩ | ⟨c, hgrows, rfl, -⟩
  · exact .inl (hgrows.irr v hv)
  · by_cases hsame : vector = v
    · exact .inr (hsame ▸ rfl)
    · exact .inl ((BitTable.test_clear_of_ne hsame).trans (hgrows.irr v hv))
  · refine .inl ?_
    unfold Apic.endOfInterrupt
    dsimp only
    split <;> exact hgrows.irr v hv

theorem act_eoi {value : UInt32} (h : a.act (.io 0xb0 true value ticks) = some b) :
    b = (a.advance ticks).endOfInterrupt := by
  obtain ⟨⟨out, next⟩, hio, rfl⟩ := map_eq_some_iff.mp h
  obtain ⟨-, ⟨hread, -⟩ | ⟨-, register, hregister, hwrite⟩⟩ := apicIo_eq_some hio
  · exact absurd hread nofun
  obtain rfl := some.inj ((by decide : apicRegister 0xb0 = some .eoi).symm.trans hregister)
  exact (some.inj (ite_none_left_eq_some.mp hwrite).2).symm

/-- After any actions on a controller that was started, resets apart: the vectors in service are
the accepted ones not yet retired, their classes rise in the order of acceptance, and an end
retires the last.  What is offered is above the task priority and all of them, and a request is
only taken away when it is accepted. -/
theorem apic_nests {id : Nat} {bootstrap : Bool} {start : Apic} {actions : List ApicAction}
    (hinit : apicInitCpu ticks id bootstrap = some start)
    (hrun : actions.foldlM apicStep (start, []) = some (a, served)) :
    (∀ v, a.isr.test v = true ↔ v ∈ served) /\
      served.Pairwise (fun newer older => older >>> 4 < newer >>> 4) /\
      (∀ value now b, a.act (.io 0xb0 true value now) = some b ->
        ∀ v, b.isr.test v = true ↔ v ∈ served.tail) /\
      (∀ v now, v ≠ 0 /\ v < 256 -> v = (apicPending a now).1 ->
        a.tpr.toNat >>> 4 < v >>> 4 /\ ∀ w ∈ served, w >>> 4 < v >>> 4) /\
      (∀ action b v, a.act action = some b -> a.irr.test v = true ->
        b.irr.test v = true \/ action = .accept v) := by
  have h : Nested a served := (nested_init hinit).run (s := (start, [])) hrun
  refine ⟨h.members, h.classes, fun value now b hact => ?_, fun v now => h.offered,
    fun action b v => act_requested⟩
  obtain rfl := act_eoi hact
  exact (h.of_isr (advance_grows a now).isr).tail.1.members

/-- The controller is enabled, takes vector 48 and in it vector 65. -/
def nestedActions : List ApicAction :=
  [.io 0xf0 true 0x1ff 0, .route 48 0 false false, .accept 48, .route 65 0 false false, .accept 65]

theorem apic_nests_twice :
    ∃ start a, apicInitCpu 0 0 true = some start /\
      nestedActions.foldlM apicStep (start, []) = some (a, [65, 48]) /\
      ∀ v, a.isr.test v = true ↔ v ∈ [65, 48] := by
  have hrun : ((apicInitCpu 0 0 true).bind fun start =>
      (nestedActions.foldlM apicStep (start, [])).map Prod.snd) = some [65, 48] := by decide +kernel
  obtain ⟨start, hstart, hrun⟩ := bind_eq_some_iff.mp hrun
  obtain ⟨⟨a, _⟩, ha, rfl⟩ := map_eq_some_iff.mp hrun
  exact ⟨start, a, hstart, ha, (apic_nests hstart ha).1⟩

end AgentOs.X86
