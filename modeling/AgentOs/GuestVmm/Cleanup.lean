import AgentOs.GuestVmm.Recreate
import Mathlib.Data.List.Range

/-!
# The cleanup of a failed re-creation

The mask of services and the cursor over the resources record which stages are done.  So one
call is an attempt at what is left of a fixed sequence: detach, then release.
-/

namespace AgentOs.GuestVmm

open Library Prog Resumable List

variable {Step : Type}

/-! ## Cleanup as a resumable sequence -/

inductive CleanupStage where
  | detach (backend : Nat)
  | release (resource : Nat)

def cleanupStages : Stages (RecreateIo Step) (Recreate Step) CleanupStage where
  done s
    | .detach i => !hasBit s.attemptedBackends i
    | .release i => i < s.releaseNext
  act
    | .detach i => perform (I := RecreateIo Step) (.detach i)
    | .release i => perform (I := RecreateIo Step) (.release i)
  mark
    | .detach i, s => { s with attemptedBackends := s.attemptedBackends &&& ~~~bit i }
    | .release _, s => { s with releaseNext := s.releaseNext + 1 }

/-- First the services, then the memory. -/
def cleanupOrder (kind : RecreateKind Step) : List CleanupStage :=
  (range kind.backends).map .detach ++ (range kind.releases).map .release

theorem detachBackends_eq (backends : List Nat) (s : Recreate Step) :
    detachBackends backends s = cleanupStages.attempt (backends.map .detach) s := by
  induction backends generalizing s with
  | nil => rfl
  | cons i rest ih =>
    rw [map_cons]
    unfold detachBackends Stages.attempt
    simp only [ih]
    rfl

variable {s : Recreate Step}

theorem recreateCleanup_eq (kind : RecreateKind Step) (hpending : s.cleanupPending = true) :
    recreateCleanup kind s = (do
      perform (I := RecreateIo Step) .retire
      let result <- cleanupStages.attempt (cleanupOrder kind) s
      if result.1 then pure (true, { result.2 with cleanupPending := false })
      else pure (false, result.2)) := by
  unfold recreateCleanup
  rw [hpending, if_neg (by decide)]
  show Prog.op _ _ = Prog.op _ _
  congr 1
  funext _
  show detachBackends _ s >>= _ = cleanupStages.attempt (cleanupOrder kind) s >>= _
  unfold cleanupOrder
  rw [detachBackends_eq, Stages.attempt_append, Prog.bind_assoc]
  congr 1
  funext result
  obtain ⟨ok, s'⟩ := result
  cases ok with
  | false => rfl
  | true =>
    have hloop : releaseResources kind kind.releases s' =
        cleanupStages.attempt ((range kind.releases).map .release) s' := by
      rw [range_eq_range']
      exact cleanupStages.countedLoop_eq .release Recreate.releaseNext (fun _ _ => rfl)
        (fun _ _ => rfl) (fun _ => rfl) (Nat.zero_add _) (Nat.zero_le _) (Nat.sub_le _ _)
    show releaseResources kind kind.releases s' >>= _ = cleanupStages.attempt _ s' >>= _
    rw [hloop]
    congr 1
    funext result
    obtain ⟨ok, s''⟩ := result
    cases ok with
    | false => rfl
    | true => rfl

/-- What a request of the cleanup says about a stage. -/
def cleanupView : Event (RecreateIo Step) -> Option (CleanupStage × Bool)
  | ⟨.detach i, ok⟩ => some (.detach i, ok)
  | ⟨.release i, ok⟩ => some (.release i, ok)
  | _ => none

/-- A request that only a cleanup makes. -/
def IsCleanup : Event (RecreateIo Step) -> Prop
  | ⟨.retire, _⟩ => True
  | ⟨.detach _, _⟩ => True
  | ⟨.release _, _⟩ => True
  | _ => False

theorem act_shown {stage : CleanupStage} {trace : Trace (RecreateIo Step)} {ok : Bool}
    (hrun : Run (cleanupStages.act stage) trace ok) :
    trace.filterMap cleanupView = [(stage, ok)] /\ ∀ event ∈ trace, IsCleanup event := by
  cases stage with
  | detach i | release i =>
    obtain ⟨answer, rest, rfl, hrest⟩ := run_op_iff.mp hrun
    obtain ⟨rfl, rfl⟩ := run_ret_iff.mp hrest
    exact ⟨rfl, forall_mem_singleton.mpr trivial⟩

/-- The order of two stages. -/
def CleanupStage.Before : CleanupStage -> CleanupStage -> Prop
  | .detach i, .detach j => i < j
  | .detach _, .release _ => True
  | .release _, .detach _ => False
  | .release i, .release j => i < j

theorem cleanupOrder_pairwise (kind : RecreateKind Step) :
    (cleanupOrder kind).Pairwise CleanupStage.Before := by
  unfold cleanupOrder
  rw [pairwise_append, pairwise_map, pairwise_map]
  refine ⟨pairwise_lt_range, pairwise_lt_range, ?_⟩
  rintro a ha b hb
  obtain ⟨i, -, rfl⟩ := mem_map.mp ha
  obtain ⟨j, -, rfl⟩ := mem_map.mp hb
  trivial

theorem CleanupStage.Before.asymm {a b : CleanupStage} (h : a.Before b) : ¬b.Before a := by
  cases a <;> cases b
  · exact Nat.lt_asymm h
  · exact id
  · exact h.elim
  · exact Nat.lt_asymm h

theorem cleanupOrder_nodup (kind : RecreateKind Step) : (cleanupOrder kind).Nodup :=
  (cleanupOrder_pairwise kind).imp fun {a b} h (heq : a = b) => h.asymm (heq ▸ h)

variable {kind : RecreateKind Step} {i : Nat}

theorem detach_mem_order : .detach i ∈ cleanupOrder kind ↔ i < kind.backends := by
  simp [cleanupOrder]

theorem release_mem_order : .release i ∈ cleanupOrder kind ↔ i < kind.releases := by
  simp [cleanupOrder]

/-- The cursor stands at the first resource that is not released. -/
theorem releaseNext_eq {before after : List CleanupStage}
    (horder : cleanupOrder kind = before ++ .release i :: after)
    (hbefore : ∀ b ∈ before, cleanupStages.done s b = true)
    (hopen : cleanupStages.done s (.release i) = false) : s.releaseNext = i := by
  refine Stages.cursor_eq (S := cleanupStages) (fun _ => rfl) (fun j hj => ?_) hbefore hopen
  have hi : .release i ∈ cleanupOrder kind := by rw [horder]; simp
  exact mem_before_of_sorted (cleanupOrder_pairwise kind) CleanupStage.Before.asymm horder
    (release_mem_order.mpr (hj.trans (release_mem_order.mp hi))) hj

theorem cleanup_marksInOrder (hsmall : kind.backends <= 32) :
    Stages.MarksInOrder (cleanupStages : Stages (RecreateIo Step) (Recreate Step) _)
      (cleanupOrder kind) := by
  have hbit {before after : List CleanupStage} {stage : CleanupStage} {i : Nat}
      (horder : cleanupOrder kind = before ++ stage :: after)
      (hmem : .detach i ∈ before ++ stage :: after) : i < 32 :=
    (detach_mem_order.mp (horder ▸ hmem)).trans_le hsmall
  refine ⟨?_, ?_, ?_⟩
  · intro before stage after s horder hbefore hopen
    cases stage with
    | detach i =>
      have hi := hbit horder (mem_append_right _ mem_cons_self)
      show (!hasBit (s.attemptedBackends &&& ~~~bit i) i) = true
      simp [hasBit_and_not_bit hi hi]
    | release i =>
      have hcursor := releaseNext_eq horder hbefore hopen
      exact decide_eq_true (by show i < s.releaseNext + 1; omega)
  · intro before stage after s horder hbefore hopen b hb
    have hdone := hbefore b hb
    cases stage with
    | detach i =>
      cases b with
      | detach j =>
        have hi := hbit horder (mem_append_right _ mem_cons_self)
        have hj := hbit horder (mem_append_left _ hb)
        have hclear : hasBit s.attemptedBackends j = false := (Bool.not_eq_true' _).mp hdone
        show (!hasBit (s.attemptedBackends &&& ~~~bit i) j) = true
        rw [hasBit_and_not_bit hi hj, hclear]
        rfl
      | release j => exact hdone
    | release i =>
      cases b with
      | detach j => exact hdone
      | release j => exact decide_eq_true (Nat.lt_succ_of_lt (of_decide_eq_true hdone))
  · intro before stage after s horder hbefore hopen b hb
    have hpairwise := cleanupOrder_pairwise kind
    rw [horder, pairwise_append, pairwise_cons] at hpairwise
    have hlater := hpairwise.2.1.1 b hb
    cases stage with
    | detach i =>
      cases b with
      | detach j =>
        have hi := hbit horder (mem_append_right _ mem_cons_self)
        have hj := hbit horder (mem_append_right _ (mem_cons_of_mem _ hb))
        show (!hasBit (s.attemptedBackends &&& ~~~bit i) j) = !hasBit s.attemptedBackends j
        rw [hasBit_and_not_bit hi hj, decide_eq_false (Nat.ne_of_lt hlater), Bool.not_false,
          Bool.and_true]
      | release j => rfl
    | release i =>
      cases b with
      | detach j => exact hlater.elim
      | release j =>
        have hcursor := releaseNext_eq horder hbefore hopen
        have hlt : i < j := hlater
        refine decide_eq_decide.mpr ?_
        show j < s.releaseNext + 1 ↔ j < s.releaseNext
        omega

/-! ## One call -/

theorem cleanup_run (hsmall : kind.backends <= 32) {s' : Recreate Step}
    {trace : Trace (RecreateIo Step)} {ok : Bool} (hpending : s.cleanupPending = true)
    (hrun : Run (recreateCleanup kind s) trace (ok, s')) :
    Attempt (cleanupStages.left (cleanupOrder kind) s) (trace.filterMap cleanupView)
      (cleanupStages.left (cleanupOrder kind) s') /\
    (s'.cleanupPending = false ↔ cleanupStages.left (cleanupOrder kind) s' = []) /\
    s'.generation = s.generation /\ s'.failed = s.failed /\ ∀ event ∈ trace, IsCleanup event := by
  rw [recreateCleanup_eq kind hpending, perform_bind] at hrun
  obtain ⟨_, rest, rfl, hrest⟩ := run_op_iff.mp hrun
  obtain ⟨first, second, ⟨ok1, s1⟩, rfl, hattempt, htail⟩ := run_bind_iff.mp hrest
  obtain ⟨hstages, hdone, -⟩ := Stages.attempt_run (cleanup_marksInOrder hsmall)
    (fun _ _ _ _ hact _ => (act_shown hact).1)
    (fun _ _ _ _ _ hshown => absurd hshown (by decide : true ≠ false))
    (nil_append _).symm (nofun) hattempt
  unfold Stages.leftShown at hstages
  rw [filter_true, filter_true] at hstages
  obtain ⟨⟨hgeneration, hfailed, hstill⟩, hevents⟩ := Stages.attempt_keeps
    (P := fun t => t.generation = s.generation /\ t.failed = s.failed /\ t.cleanupPending = true)
    (E := IsCleanup) (fun stage t ht => by cases stage <;> exact ht)
    (fun _ _ _ h => (act_shown h).2) ⟨rfl, rfl, hpending⟩ hattempt
  have hretire (event : Event (RecreateIo Step))
      (hmem : event ∈ (⟨.retire, ()⟩ : Event (RecreateIo Step)) :: first) : IsCleanup event := by
    rcases mem_cons.mp hmem with rfl | hmem
    · trivial
    · exact hevents event hmem
  cases ok1 with
  | true =>
    obtain ⟨rfl, ⟨⟩⟩ := run_ret_iff.mp htail
    rw [append_nil]
    exact ⟨hstages, iff_of_true rfl (hdone.mp rfl), hgeneration, hfailed, hretire⟩
  | false =>
    obtain ⟨rfl, ⟨⟩⟩ := run_ret_iff.mp htail
    rw [append_nil]
    refine ⟨hstages, iff_of_false ?_ fun hnil => ?_, hgeneration, hfailed, hretire⟩
    · exact fun hopen => Bool.false_ne_true (hopen.symm.trans hstill)
    · cases hdone.mpr hnil

end AgentOs.GuestVmm
