import AgentOs.GuestVmm.Teardown
import Mathlib.Data.List.Infix
import Mathlib.Data.List.Nodup
import Mathlib.Data.List.Range

/-!
# The order of a teardown

The teardown step is an attempt at a fixed sequence of stages, of which the record says which
are done.  What the build leaves out is a stage without a request.
-/

namespace AgentOs.GuestVmm

open Library Prog Resumable List

/-! ## Stages -/

inductive TeardownStage where
  | quiesce
  | detach (backend : Backend)
  | queuePool (index : Nat)
  | graphicsPool (index : Nat)
  | execution
  | ram
  | paging

def Teardown.detached (s : Teardown) : Backend -> Bool
  | .network => s.networkDetached
  | .block => s.blockDetached
  | .serial => s.serialDetached
  | .input => s.inputDetached
  | .graphics => s.graphicsDetached

def Teardown.setDetached (s : Teardown) : Backend -> Teardown
  | .network => { s with networkDetached := true }
  | .block => { s with blockDetached := true }
  | .serial => { s with serialDetached := true }
  | .input => { s with inputDetached := true }
  | .graphics => { s with graphicsDetached := true }

section Stages

variable (build : TeardownBuild) (ramSize : Nat)

/-- The backends that the build has. -/
def hasBackend : Backend -> Bool
  | .input => build.input
  | .graphics => build.graphics
  | _ => true

def teardownStages : Stages TeardownIo Teardown TeardownStage where
  done s
    | .quiesce => s.devicesQuiesced
    | .detach backend => s.detached backend
    | .queuePool i => decide (i < s.queuePoolsReleased)
    | .graphicsPool i => decide (i < s.graphicsPoolsReleased)
    | .execution => s.executionReleased
    | .ram => s.ramReleased
    | .paging => s.pagingReleased
  act
    | .quiesce => quiesceDevices build
    | .detach backend => if hasBackend build backend then detachBackend backend else pure true
    | .queuePool i => revokePool (aosGuestQueuePoolBase + i)
    | .graphicsPool i => revokePool (aosGuestGraphicsPoolBase + i)
    | .execution => revokePool aosGuestExecutionPoolCap
    | .ram => perform (I := TeardownIo) (.ramRelease ramSize)
    | .paging =>
      if build.firmwareReset then pure true else perform (I := TeardownIo) .pagingRelease
  mark
    | .quiesce, s => { s with devicesQuiesced := true }
    | .detach backend, s => s.setDetached backend
    | .queuePool _, s => { s with queuePoolsReleased := s.queuePoolsReleased + 1 }
    | .graphicsPool _, s => { s with graphicsPoolsReleased := s.graphicsPoolsReleased + 1 }
    | .execution, s => { s with executionReleased := true }
    | .ram, s => { s with ramReleased := true }
    | .paging, s => { s with pagingReleased := true }

/-- The stages that make a request in this build. -/
def shownStage : TeardownStage -> Bool
  | .detach backend => hasBackend build backend
  | .paging => !build.firmwareReset
  | _ => true

def detachOrder : List TeardownStage :=
  [.detach .network, .detach .block, .detach .serial, .detach .input, .detach .graphics]

def poolOrder : List TeardownStage :=
  (range (queueCount build)).map .queuePool ++
    (range (if build.graphics then aosGuestGraphicsPoolCount else 0)).map .graphicsPool

def teardownOrder : List TeardownStage :=
  [.quiesce] ++ (detachOrder ++ (poolOrder build ++ [.execution, .ram, .paging]))

variable {build ramSize} {s : Teardown}

theorem orReturn_attempt (first : List TeardownStage) {second : List TeardownStage}
    {next : Teardown -> TeardownM (Bool × Teardown)}
    (hnext : ∀ s, next s = (teardownStages build ramSize).attempt second s) :
    orReturn ((teardownStages build ramSize).attempt first s) next =
      (teardownStages build ramSize).attempt (first ++ second) s := by
  rw [Stages.attempt_append, <- funext hnext]
  rfl

theorem detachDevices_eq (s : Teardown) :
    detachDevices build s = (teardownStages build ramSize).attempt detachOrder s := by
  refine orReturn_attempt [.detach .network] fun s => ?_
  refine orReturn_attempt [.detach .block] fun s => ?_
  refine orReturn_attempt [.detach .serial] fun s => ?_
  refine orReturn_attempt [.detach .input] fun s => ?_
  rfl

theorem releaseMemory_eq (s : Teardown) : releaseMemory build ramSize s =
      (teardownStages build ramSize).attempt [.execution, .ram, .paging] s := by
  refine orReturn_attempt [.execution] fun s => ?_
  refine orReturn_attempt [.ram] fun s => ?_
  rfl

theorem releaseQueuePools_eq (s : Teardown) : releaseQueuePools build (queueCount build) s =
      (teardownStages build ramSize).attempt ((range (queueCount build)).map .queuePool) s :=
        by
  rw [range_eq_range']
  exact (teardownStages build ramSize).countedLoop_eq .queuePool Teardown.queuePoolsReleased
    (fun _ _ => rfl) (fun _ _ => rfl) (fun _ => rfl) (Nat.zero_add _) (Nat.zero_le _)
    (Nat.sub_le _ _)

theorem releaseGraphicsPools_eq (s : Teardown) :
    (if build.graphics then releaseGraphicsPools aosGuestGraphicsPoolCount s
      else pure (true, s)) = (teardownStages build ramSize).attempt
        ((range (if build.graphics then aosGuestGraphicsPoolCount else 0)).map
          .graphicsPool) s := by
  cases build.graphics with
  | false => rfl
  | true =>
    rw [if_pos rfl, if_pos rfl, range_eq_range']
    exact (teardownStages build ramSize).countedLoop_eq .graphicsPool
      Teardown.graphicsPoolsReleased (fun _ _ => rfl) (fun _ _ => rfl) (fun _ => rfl)
      (Nat.zero_add _) (Nat.zero_le _) (Nat.sub_le _ _)

theorem aosGuestTeardownStep_eq (hram : ramSize ≠ 0) (s : Teardown) :
    aosGuestTeardownStep build ramSize s =
      (teardownStages build ramSize).attempt (teardownOrder build) s := by
  unfold aosGuestTeardownStep
  rw [if_neg hram]
  refine orReturn_attempt [.quiesce] fun s => ?_
  rw [detachDevices_eq]
  refine orReturn_attempt detachOrder fun s => ?_
  rw [poolOrder, append_assoc, releaseQueuePools_eq]
  refine orReturn_attempt _ fun s => ?_
  rw [releaseGraphicsPools_eq]
  exact orReturn_attempt _ releaseMemory_eq

/-! ## The order -/

/-- The place of a stage in the order. -/
def TeardownStage.rank : TeardownStage -> Nat
  | .quiesce => 0
  | .detach .network => 1
  | .detach .block => 2
  | .detach .serial => 3
  | .detach .input => 4
  | .detach .graphics => 5
  | .queuePool i => 6 + i
  | .graphicsPool i => 16 + i
  | .execution => 32
  | .ram => 33
  | .paging => 34

theorem teardownOrder_sorted (build : TeardownBuild) :
    (teardownOrder build).Pairwise fun a b => a.rank < b.rank := by
  obtain ⟨input, graphics, firmwareReset⟩ := build
  cases input <;> cases graphics <;> cases firmwareReset <;> decide

theorem teardownOrder_nodup (build : TeardownBuild) : (teardownOrder build).Nodup :=
  (teardownOrder_sorted build).imp fun h => ne_of_apply_ne TeardownStage.rank (Nat.ne_of_lt h)

variable {i : Nat}

theorem queuePool_mem_order : .queuePool i ∈ teardownOrder build ↔ i < queueCount build := by
  simp [teardownOrder, detachOrder, poolOrder]

theorem graphicsPool_mem_order : .graphicsPool i ∈ teardownOrder build ↔
    i < (if build.graphics then aosGuestGraphicsPoolCount else 0) := by
  simp [teardownOrder, detachOrder, poolOrder]

variable (stage : TeardownStage)

/-- Marking never takes anything back. -/
theorem done_mark (b : TeardownStage) (hdone : (teardownStages build ramSize).done s b = true) :
    (teardownStages build ramSize).done ((teardownStages build ramSize).mark stage s) b = true := by
  cases stage with
  | detach backend =>
    cases b with
    | detach other => cases backend <;> cases other <;> first | rfl | exact hdone
    | _ => cases backend <;> exact hdone
  | queuePool i =>
    cases b with
    | queuePool j => exact decide_eq_true (Nat.lt_succ_of_lt (of_decide_eq_true hdone))
    | detach other => cases other <;> exact hdone
    | _ => exact hdone
  | graphicsPool i =>
    cases b with
    | graphicsPool j => exact decide_eq_true (Nat.lt_succ_of_lt (of_decide_eq_true hdone))
    | detach other => cases other <;> exact hdone
    | _ => exact hdone
  | _ =>
    cases b with
    | detach other => cases other <;> exact hdone
    | _ => first | rfl | exact hdone

/-- In order, the counters stand at the pool that is next. -/
theorem queuePools_eq {before after : List TeardownStage}
    (horder : teardownOrder build = before ++ .queuePool i :: after)
    (hbefore : ∀ b ∈ before, (teardownStages build ramSize).done s b = true)
    (hopen : (teardownStages build ramSize).done s (.queuePool i) = false) :
    s.queuePoolsReleased = i := by
  refine Stages.cursor_eq (S := teardownStages build ramSize) (fun _ => rfl) (fun j hj => ?_)
    hbefore hopen
  have hi : .queuePool i ∈ teardownOrder build := by rw [horder]; simp
  refine mem_before_of_sorted (teardownOrder_sorted build) Nat.lt_asymm horder ?_
    (Nat.add_lt_add_left hj 6)
  exact queuePool_mem_order.mpr (hj.trans (queuePool_mem_order.mp hi))

theorem graphicsPools_eq {before after : List TeardownStage}
    (horder : teardownOrder build = before ++ .graphicsPool i :: after)
    (hbefore : ∀ b ∈ before, (teardownStages build ramSize).done s b = true)
    (hopen : (teardownStages build ramSize).done s (.graphicsPool i) = false) :
    s.graphicsPoolsReleased = i := by
  refine Stages.cursor_eq (S := teardownStages build ramSize) (fun _ => rfl) (fun j hj => ?_)
    hbefore hopen
  have hi : .graphicsPool i ∈ teardownOrder build := by rw [horder]; simp
  refine mem_before_of_sorted (teardownOrder_sorted build) Nat.lt_asymm horder ?_
    (Nat.add_lt_add_left hj 16)
  exact graphicsPool_mem_order.mpr (hj.trans (graphicsPool_mem_order.mp hi))

theorem teardown_marksInOrder :
    (teardownStages build ramSize).MarksInOrder (teardownOrder build) := by
  constructor
  · intro before stage after s horder hbefore hopen
    cases stage with
    | detach backend => cases backend <;> rfl
    | queuePool i =>
      have hcursor := queuePools_eq horder hbefore hopen
      exact decide_eq_true (by show i < s.queuePoolsReleased + 1; omega)
    | graphicsPool i =>
      have hcursor := graphicsPools_eq horder hbefore hopen
      exact decide_eq_true (by show i < s.graphicsPoolsReleased + 1; omega)
    | _ => rfl
  · intro before stage after s horder hbefore hopen b hb
    exact done_mark stage b (hbefore b hb)
  · intro before stage after s horder hbefore hopen b hb
    have hsorted := teardownOrder_sorted build
    rw [horder, pairwise_append, pairwise_cons] at hsorted
    have hlater := hsorted.2.1.1 b hb
    cases stage with
    | detach backend =>
      cases b with
      | detach other =>
        cases backend <;> cases other <;> first | rfl | exact absurd hlater (by decide)
      | _ => cases backend <;> rfl
    | queuePool i =>
      have hcursor := queuePools_eq horder hbefore hopen
      cases b with
      | queuePool j =>
        have hlt : 6 + i < 6 + j := hlater
        refine decide_eq_decide.mpr ?_
        show j < s.queuePoolsReleased + 1 ↔ j < s.queuePoolsReleased
        omega
      | detach other => cases other <;> rfl
      | _ => rfl
    | graphicsPool i =>
      have hcursor := graphicsPools_eq horder hbefore hopen
      cases b with
      | graphicsPool j =>
        have hlt : 16 + i < 16 + j := hlater
        refine decide_eq_decide.mpr ?_
        show j < s.graphicsPoolsReleased + 1 ↔ j < s.graphicsPoolsReleased
        omega
      | detach other => cases other <;> rfl
      | _ => rfl
    | _ =>
      cases b with
      | detach other => cases other <;> rfl
      | _ => first | rfl | exact absurd hlater (by decide)

/-! ## What a trace shows -/

/-- The pool in a slot. -/
def poolAt (slot : Nat) : TeardownStage :=
  if slot = aosGuestExecutionPoolCap then .execution
  else if slot < aosGuestGraphicsPoolBase then .queuePool (slot - aosGuestQueuePoolBase)
  else .graphicsPool (slot - aosGuestGraphicsPoolBase)

def teardownView (build : TeardownBuild) : Event TeardownIo -> Option (TeardownStage × Bool)
  | ⟨.quiesce, quiesced⟩ => some (.quiesce, quiesced.consoleDone && quiesced.blockDone &&
      (!build.graphics || quiesced.graphicsDone))
  | ⟨.detach backend, ok⟩ => some (.detach backend, ok)
  | ⟨.revoke slot, ok⟩ => some (poolAt slot, ok)
  | ⟨.ramRelease _, ok⟩ => some (.ram, ok)
  | ⟨.pagingRelease, ok⟩ => some (.paging, ok)
  | _ => none

theorem poolAt_queue (hi : .queuePool i ∈ teardownOrder build) :
    poolAt (aosGuestQueuePoolBase + i) = .queuePool i := by
  have hcount := queuePool_mem_order.mp hi
  have hsmall : i < 4 := by
    refine hcount.trans_le ?_
    unfold queueCount
    split <;> decide
  unfold poolAt
  rw [if_neg (by simp; omega), if_pos (by simp; omega), Nat.add_sub_cancel_left]

theorem poolAt_graphics (i : Nat) : poolAt (aosGuestGraphicsPoolBase + i) = .graphicsPool i := by
  unfold poolAt
  rw [if_neg (by simp; omega), if_neg (by simp), Nat.add_sub_cancel_left]

variable {trace : Trace TeardownIo} {ok : Bool}

theorem view_request (request : TeardownOp) (reading : TeardownAns request -> Bool)
    {program : TeardownM Bool} {stage : TeardownStage}
    (hprogram : program = .op (I := TeardownIo) request fun answer => .ret (reading answer))
    (hview : ∀ answer, teardownView build ⟨request, answer⟩ = some (stage, reading answer))
    (hrun : Run program trace ok) : trace.filterMap (teardownView build) = [(stage, ok)] := by
  rw [hprogram] at hrun
  obtain ⟨answer, rest, rfl, hrest⟩ := run_op_iff.mp hrun
  obtain ⟨rfl, rfl⟩ := run_ret_iff.mp hrest
  rw [filterMap_cons, hview answer]
  rfl

theorem view_act (hmem : stage ∈ teardownOrder build) (trace : Trace TeardownIo) (ok : Bool)
    (hrun : Run ((teardownStages build ramSize).act stage) trace ok)
    (hshown : shownStage build stage = true) :
    trace.filterMap (teardownView build) = [(stage, ok)] := by
  cases stage with
  | quiesce => exact view_request .quiesce _ rfl (fun _ => rfl) hrun
  | detach backend =>
    exact view_request (.detach backend) id (if_pos hshown) (fun _ => rfl) hrun
  | queuePool i =>
    refine view_request (.revoke (aosGuestQueuePoolBase + i)) id rfl (fun ok => ?_) hrun
    rw [<- poolAt_queue hmem]
    rfl
  | graphicsPool i =>
    refine view_request (.revoke (aosGuestGraphicsPoolBase + i)) id rfl (fun ok => ?_) hrun
    rw [<- poolAt_graphics]
    rfl
  | execution =>
    exact view_request (.revoke aosGuestExecutionPoolCap) id rfl (fun _ => rfl) hrun
  | ram => exact view_request (.ramRelease ramSize) id rfl (fun _ => rfl) hrun
  | paging =>
    have hreset : ¬build.firmwareReset = true := by simpa [shownStage] using hshown
    exact view_request .pagingRelease id (if_neg hreset) (fun _ => rfl) hrun

theorem silent_act (trace : Trace TeardownIo) (ok : Bool)
    (hrun : Run ((teardownStages build ramSize).act stage) trace ok)
    (hshown : shownStage build stage = false) :
    trace.filterMap (teardownView build) = [] /\ ok = true := by
  have hact : (teardownStages build ramSize).act stage = pure true := by
    cases stage with
    | detach backend => exact if_neg (by rw [show hasBackend build backend = false from hshown]; decide)
    | paging => exact if_pos (by simpa [shownStage] using hshown)
    | _ => cases hshown
  rw [hact] at hrun
  obtain ⟨rfl, rfl⟩ := run_ret_iff.mp hrun
  exact ⟨rfl, rfl⟩

/-- The stages of this build that are not done. -/
abbrev teardownLeft (build : TeardownBuild) (ramSize : Nat) (s : Teardown) : List TeardownStage :=
  (teardownStages build ramSize).leftShown (shownStage build) (teardownOrder build) s

/-- One call goes on from where the calls before it stopped. -/
theorem aosGuestTeardownStep_run {s' : Teardown}
    (hrun : Run (aosGuestTeardownStep build ramSize s) trace (ok, s'))
    {stages : List TeardownStage} {log : List (TeardownStage × Bool)}
    (hprogress : Progress stages log (teardownLeft build ramSize s)) :
    Progress stages (log ++ trace.filterMap (teardownView build)) (teardownLeft build ramSize s') /\
      (ok = true -> teardownLeft build ramSize s' = []) := by
  by_cases hram : ramSize = 0
  · unfold aosGuestTeardownStep at hrun
    rw [if_pos hram] at hrun
    obtain ⟨rfl, ⟨⟩⟩ := run_ret_iff.mp hrun
    rw [filterMap_nil, append_nil]
    exact ⟨hprogress, nofun⟩
  · rw [aosGuestTeardownStep_eq hram] at hrun
    obtain ⟨hattempt, hok, -⟩ := Stages.attempt_run teardown_marksInOrder view_act
      (fun stage _ => silent_act stage) (nil_append _).symm
      (nofun) hrun
    refine ⟨hprogress.attempt hattempt, fun h => ?_⟩
    unfold teardownLeft Stages.leftShown
    rw [hok.mp h, filter_nil]

theorem controlTeardown_run {s' : Teardown}
    (hrun : Run (controlTeardown build ramSize s) trace (ok, s')) {stages : List TeardownStage}
    {log : List (TeardownStage × Bool)}
    (hprogress : Progress stages log (teardownLeft build ramSize s)) :
    Progress stages (log ++ trace.filterMap (teardownView build)) (teardownLeft build ramSize s') /\
      (ok = true -> teardownLeft build ramSize s' = []) := by
  unfold controlTeardown at hrun
  rw [perform_bind] at hrun
  obtain ⟨idle, rest, rfl, hrest⟩ := run_op_iff.mp hrun
  cases idle with
  | false =>
    obtain ⟨rfl, ⟨⟩⟩ := run_ret_iff.mp hrest
    have hcheck : [(⟨.controlTransition, false⟩ : Event TeardownIo)].filterMap
        (teardownView build) = [] := rfl
    rw [hcheck, append_nil]
    exact ⟨hprogress, nofun⟩
  | true =>
    obtain ⟨first, second, ⟨done, s1⟩, rfl, hstep, htail⟩ := run_bind_iff.mp hrest
    obtain ⟨hstepped, hdone⟩ := aosGuestTeardownStep_run hstep hprogress
    have hview : (⟨.controlTransition, true⟩ :: (first ++ second)).filterMap
        (teardownView build) = first.filterMap (teardownView build) ++
          second.filterMap (teardownView build) := filterMap_append
    rw [hview]
    cases done with
    | false =>
      obtain ⟨rfl, ⟨⟩⟩ := run_ret_iff.mp htail
      rw [filterMap_nil, append_nil]
      exact ⟨hstepped, hdone⟩
    | true =>
      obtain ⟨_, last, rfl, hlast⟩ := run_op_iff.mp htail
      obtain ⟨rfl, ⟨⟩⟩ := run_ret_iff.mp hlast
      have hretire : [(⟨.retire, ()⟩ : Event TeardownIo)].filterMap (teardownView build) = [] := rfl
      rw [hretire, append_nil]
      exact ⟨hstepped, hdone⟩

end Stages

end AgentOs.GuestVmm
