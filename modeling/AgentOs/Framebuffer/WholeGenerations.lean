import AgentOs.Framebuffer.Rebind
import AgentOs.Library.Lifecycle

/-!
# A committed generation is a whole one

The frames in the kernel's slots agree with the service's counter, so a commit finds all
thirteen.
-/

open Function (update update_self update_of_ne update_eq_self)

namespace AgentOs.Framebuffer

open Library Prog Ipc List

/-- A frame capability: the request that brought its pool, and where it is mapped. -/
structure FrameCap where
  pool : FbRebindReq
  mapped : Option UInt64

abbrev FrameSlots := Nat -> Option FrameCap

/-- What a kernel call does to the slots; a failed call does nothing. -/
def frameEffect (pool : FbRebindReq) (slots : FrameSlots) (e : Prog.Event RebindIo) : FrameSlots :=
  match e.request, e.answer with
  | .cnodeDelete slot, true => update slots slot none
  | .untypedRetype slot, true => update slots slot (some ⟨pool, none⟩)
  | .pageMap slot address, true =>
    update slots slot ((slots slot).map fun cap => { cap with mapped := some address })
  | _, _ => slots

structure RebindState where
  service : FbService
  slots : FrameSlots

namespace RebindState

variable (s : RebindState) (n : Fin aosFbClients)

def generation : Nat := (s.service.clients n).generation.toNat

def nextFrame : Nat := (s.service.pending n).nextFrame.toNat

/-- Client `n` asks for its terminal detach. -/
def detach : RebindState :=
  { s with service := s.service.put n (s.service.clients n).detach (s.service.pending n) }

end RebindState

/-- The kernel calls of one request and their answers. -/
abbrev KernelTrace := List (Prog.Event RebindIo)

/-- One request is handled, with any answers of the kernel. -/
def Answers (s : RebindState) (call : RebindCall) (trace : KernelTrace) (status : FbRebindStatus)
    (s' : RebindState) : Prop :=
  Prog.Run (execute s.service call) trace (status, s'.service) /\
    s'.slots = trace.foldl (frameEffect call.q) s.slots

/-- Frame `i` of client `n` is there: retyped from the pool staged under that index
for the generation, and mapped at its own address. -/
def Staged (slots : FrameSlots) (n i generation : Nat) : Prop :=
  ∃ pool, slots (frameSlot n i) = some ⟨pool, some (frameAddress n i)⟩ /\
    pool.client.toNat = n /\ pool.index.toNat = i /\ pool.generation.toNat = generation

/-- The kernel answers the deletions of an abort alike: none fails after one succeeded. -/
def WholeAbort (call : RebindCall) (trace : KernelTrace) : Prop :=
  call.op = fbRebindAbort -> ∀ deleted kept,
    ⟨.cnodeDelete deleted, true⟩ ∈ trace -> ⟨.cnodeDelete kept, false⟩ ∉ trace

/-- States reached from empty slots by requests and terminal detaches. -/
inductive RebindReach (fair : RebindCall -> KernelTrace -> Prop) : RebindState -> Prop where
  | start (clients : Fin aosFbClients -> FbClient) :
      RebindReach fair ⟨⟨clients, fun _ => {}⟩, fun _ => none⟩
  | request {s s' : RebindState} {call : RebindCall} {trace : KernelTrace}
      {status : FbRebindStatus} :
      RebindReach fair s -> Answers s call trace status s' -> fair call trace -> RebindReach fair s'
  | detach {s : RebindState} (n : Fin aosFbClients) : RebindReach fair s -> RebindReach fair (s.detach n)

/-! ## What one request can do -/

/-- The request is valid for client `n`. -/
def Valid (s : RebindState) (n : Fin aosFbClients) (call : RebindCall) : Prop :=
  call.q.client.toNat = n /\ aosFbRebindValidate (s.service.clients n) (s.service.pending n)
    call.badge call.op call.q = .ok

/-- What a valid request has been checked for. -/
structure Accepted (s : RebindState) (n : Fin aosFbClients) (call : RebindCall) : Prop where
  badge : call.badge = virtClientBadge call.q.client
  consumes : call.op = fbRebindAbort /\ s.service.pending n = {} /\
      call.q.generation = (s.service.clients n).generation \/
    call.q.generation.toNat = s.generation n + 1
  stage : call.op = fbRebindStage ->
    call.q.index < fbRebindFrames /\ call.q.index = (s.service.pending n).nextFrame
  commit : call.op = fbRebindCommit -> (s.service.pending n).nextFrame = fbRebindFrames
  bound : (s.service.pending n).nextFrame <= fbRebindFrames
  op : call.op = fbRebindStage \/ call.op = fbRebindCommit \/ call.op = fbRebindAbort

variable {s s' : RebindState} {n : Fin aosFbClients} {call : RebindCall}

theorem Valid.accepted (hvalid : Valid s n call) : Accepted s n call := by
  obtain ⟨badge, op, q⟩ := call
  have h := hvalid.2
  unfold aosFbRebindValidate at h
  split at h
  · cases h
  rename_i hop
  simp only [not_or] at hop
  obtain ⟨-, hlow, hhigh⟩ := hop
  have hop : op = fbRebindStage \/ op = fbRebindCommit \/ op = fbRebindAbort := by
    simp only [fbRebindStage, fbRebindAbort, fbRebindCommit, <- UInt32.toNat_inj,
      UInt32.lt_iff_toNat_lt, UInt32.reduceToNat] at hlow hhigh ⊢
    omega
  split at h
  · cases h
  rename_i hclient
  push Not at hclient
  have hbadge := (virtClientAuthorized_iff.mp (Bool.eq_true_of_not_eq_false hclient.2)).2.2
  split at h
  · rename_i hagain
    obtain ⟨rfl, -, -, -, -, hnext, hgen, hsame⟩ := hagain
    refine ⟨hbadge, .inl ⟨rfl, ?_, hsame⟩, ?_, ?_, ?_, hop⟩
    · rw [FbRebind.mk.injEq]
      exact ⟨hgen, hnext⟩
    · exact fun h => absurd h (by decide : fbRebindAbort ≠ fbRebindStage)
    · exact fun h => absurd h (by decide : fbRebindAbort ≠ fbRebindCommit)
    · exact hnext ▸ by decide
  split at h
  · cases h
  rename_i hstate
  push Not at hstate
  obtain ⟨-, -, hmax, -, hsucc, -, -⟩ := hstate
  have hgeneration : q.generation.toNat = s.generation n + 1 := hsucc ▸ toNat_next hmax
  split at h
  case isTrue hstage =>
    split at h
    case isTrue hindex =>
      exact ⟨hbadge, .inr hgeneration, fun _ => hindex,
        fun hcommit => absurd (hstage.symm.trans hcommit) (by decide),
        hindex.2 ▸ UInt32.le_of_lt hindex.1, hop⟩
    case isFalse => cases h
  case isFalse hstage =>
    split at h
    · cases h
    split at h
    case isTrue hcommit =>
      split at h
      case isTrue hall =>
        exact ⟨hbadge, .inr hgeneration, fun h => absurd h hstage, fun _ => hall,
          hall ▸ UInt32.le_refl _, hop⟩
      case isFalse => cases h
    case isFalse hcommit =>
      split at h
      case isTrue hle =>
        exact ⟨hbadge, .inr hgeneration, fun h => absurd h hstage, fun h => absurd h hcommit,
          hle, hop⟩
      case isFalse => cases h

theorem FbService.put_self (v : FbService) (n : Fin aosFbClients) :
    v.put n (v.clients n) (v.pending n) = v := by
  rw [FbService.put, update_eq_self, update_eq_self]

variable {slots : FrameSlots} {c : FbClient} {p : FbRebind} {badge : UInt64} {q : FbRebindReq}

/-- Only the listed frames go, and all of them when the loop gets to its end. -/
theorem deleteFrames_tracks (pool : FbRebindReq) (indices : List Nat) :
    Tracks (frameEffect pool)
      (fun ok slots' => (∀ slot, (∀ i ∈ indices, slot ≠ frameSlot n i) -> slots' slot = slots slot) /\
        (∀ slot, slots' slot = slots slot \/ slots' slot = none) /\
        (ok = true -> ∀ i ∈ indices, slots' (frameSlot n i) = none))
      (deleteFrames n indices) slots := by
  induction indices generalizing slots with
  | nil => exact ⟨fun _ _ => rfl, fun _ => .inl rfl, nofun⟩
  | cons i rest ih =>
    rintro (_ | _)
    · exact ⟨fun _ _ => rfl, fun _ => .inl rfl, nofun⟩
    refine Tracks.mono ih ?_
    rintro ok slots' ⟨hkept, hless, hgone⟩
    have hempty : slots' (frameSlot n i) = none :=
      (hless _).elim (fun h => h.trans (update_self ..)) id
    refine ⟨fun slot hslot => ?_, fun slot => ?_, fun hok =>
      forall_mem_cons.mpr ⟨hempty, hgone hok⟩⟩
    · rw [hkept slot fun j hj => hslot j (mem_cons_of_mem _ hj)]
      exact update_of_ne (hslot i mem_cons_self) ..
    · by_cases hslot : slot = frameSlot n i
      · exact .inr (hslot ▸ hempty)
      · exact (hless slot).imp_left fun h => h.trans (update_of_ne hslot ..)

/-- The loop stops at a deletion that fails; if none succeeded before, nothing is gone. -/
theorem deleteFrames_stopped (slots : FrameSlots) (pool : FbRebindReq) {indices : List Nat}
    {trace : KernelTrace} (hrun : Run (deleteFrames n indices) trace false) :
    (∃ slot, ⟨.cnodeDelete slot, false⟩ ∈ trace) /\
      ((∃ slot, ⟨.cnodeDelete slot, true⟩ ∈ trace) \/ trace.foldl (frameEffect pool) slots = slots) := by
  induction indices generalizing trace with
  | nil => cases hrun
  | cons i rest ih =>
    obtain ⟨answer, later, rfl, hlater⟩ := run_op_iff.mp hrun
    cases answer with
    | false =>
      cases hlater
      exact ⟨⟨_, mem_cons_self⟩, .inr rfl⟩
    | true =>
      obtain ⟨⟨slot, hslot⟩, -⟩ := ih hlater
      exact ⟨⟨slot, mem_cons_of_mem _ hslot⟩, .inl ⟨_, mem_cons_self⟩⟩

/-- A stage either leaves its mapped frame, or nothing mapped in its slot. -/
theorem stageFrame_tracks (hvalid : aosFbRebindValidate c p badge fbRebindStage q = .ok) :
    Tracks (frameEffect q)
      (fun r slots' => (∀ slot ≠ frameSlot q.client.toNat q.index.toNat, slots' slot = slots slot) /\
        (r = (.ok, ⟨q.generation, p.nextFrame + 1⟩) /\
            slots' (frameSlot q.client.toNat q.index.toNat) =
              some ⟨q, some (frameAddress q.client.toNat q.index.toNat)⟩ \/
          r = (.resource, p) /\ (slots' = slots \/
            ∀ cap, slots' (frameSlot q.client.toNat q.index.toNat) = some cap -> cap.mapped = none)))
      (stageFrame c p badge q) slots := by
  rintro (_ | _)
  · exact ⟨fun _ _ => rfl, .inr ⟨rfl, .inl rfl⟩⟩
  rintro (_ | _)
  · refine ⟨fun slot h => update_of_ne h .., .inr ⟨rfl, .inr fun cap h => ?_⟩⟩
    cases (update_self ..).symm.trans h
  rintro (_ | _)
  · rintro (_ | _)
    · refine ⟨fun slot h => ?_, .inr ⟨rfl, .inr fun cap h => ?_⟩⟩
      · exact (update_of_ne h ..).trans (update_of_ne h ..)
      · cases (update_self ..).symm.trans h
        rfl
    · refine ⟨fun slot h => ?_, .inr ⟨rfl, .inr fun cap h => ?_⟩⟩
      · exact (update_of_ne h ..).trans ((update_of_ne h ..).trans (update_of_ne h ..))
      · cases (update_self ..).symm.trans h
  · simp only [aosFbRebindStaged, hvalid]
    refine ⟨fun slot h => ?_, .inl ⟨rfl, ?_⟩⟩
    · exact (update_of_ne h ..).trans ((update_of_ne h ..).trans (update_of_ne h ..))
    · simp [frameEffect]

theorem aosFbRebindCommit_tracks {region arena : UInt64}
    (hvalid : aosFbRebindValidate c p badge fbRebindCommit q = .ok) :
    Tracks (frameEffect q)
      (fun r slots' => slots' = slots /\
        (r = (.resource, c, p) \/ ∃ fresh, r = (.ok, fresh, {}) /\ fresh.generation = q.generation))
      (aosFbRebindCommit c p badge q region arena) slots := by
  simp only [aosFbRebindCommit, hvalid]
  intro words
  simp only [Prog.bind]
  split
  case h_1 => exact ⟨rfl, .inl rfl⟩
  case h_2 fresh hfresh => exact ⟨rfl, .inr ⟨fresh, rfl, aosFbClientRebind_generation hfresh⟩⟩

/-- How a valid request for client `n` can end. -/
inductive Did (s : RebindState) (n : Fin aosFbClients) (call : RebindCall) :
    FbRebindStatus -> RebindState -> Prop where
  | failed : Did s n call .resource s
  | unmapped {slots : FrameSlots} : call.op = fbRebindStage ->
      (∀ slot ≠ frameSlot n (s.nextFrame n), slots slot = s.slots slot) ->
      (∀ cap, slots (frameSlot n (s.nextFrame n)) = some cap -> cap.mapped = none) ->
      Did s n call .resource ⟨s.service, slots⟩
  | staged {slots : FrameSlots} : call.op = fbRebindStage ->
      (∀ slot ≠ frameSlot n (s.nextFrame n), slots slot = s.slots slot) ->
      slots (frameSlot n (s.nextFrame n)) = some ⟨call.q, some (frameAddress n (s.nextFrame n))⟩ ->
      Did s n call .ok ⟨s.service.put n (s.service.clients n)
        ⟨call.q.generation, (s.service.pending n).nextFrame + 1⟩, slots⟩
  | committed {fresh : FbClient} : call.op = fbRebindCommit ->
      fresh.generation = call.q.generation -> Did s n call .ok ⟨s.service.put n fresh {}, s.slots⟩
  | aborted {slots : FrameSlots} : call.op = fbRebindAbort ->
      (∀ slot, (∀ i < s.nextFrame n, slot ≠ frameSlot n i) -> slots slot = s.slots slot) ->
      (∀ slot, slots slot = s.slots slot \/ slots slot = none) ->
      Did s n call .ok ⟨s.service.put n
        { s.service.clients n with generation := call.q.generation } {}, slots⟩
  | stopped {slots : FrameSlots} : call.op = fbRebindAbort ->
      (∀ slot, (∀ i < s.nextFrame n, slot ≠ frameSlot n i) -> slots slot = s.slots slot) ->
      Did s n call .resource ⟨s.service, slots⟩

theorem executeValid_tracks (hvalid : Valid s n call) :
    Tracks (frameEffect call.q) (fun r slots => Did s n call r.1 ⟨r.2, slots⟩)
      (executeValid s.service n call) s.slots := by
  have hacc := hvalid.accepted
  have hsame {slots : FrameSlots} (h : Did s n call .resource ⟨s.service, slots⟩) :
      Did s n call .resource ⟨s.service.put n (s.service.clients n) (s.service.pending n), slots⟩ :=
    (s.service.put_self n).symm ▸ h
  obtain ⟨hn, hvalid⟩ := hvalid
  unfold executeValid
  split
  case isTrue hop =>
    rw [hop] at hvalid
    refine (aosFbRebindCommit_tracks hvalid).bind ?_
    rintro r _ ⟨rfl, rfl | ⟨fresh, rfl, hfresh⟩⟩
    · exact hsame .failed
    · exact .committed hop hfresh
  case isFalse hcommit =>
    split
    case isTrue hop =>
      rw [hop] at hvalid
      refine (deleteFrames_tracks call.q _).bind ?_
      rintro (_ | _) slots ⟨hkept, hless, -⟩
      · exact .stopped hop fun slot h => hkept slot fun i hi => h i (mem_range.mp hi)
      · simp only [aosFbRebindAborted, hvalid]
        exact .aborted hop (fun slot h => hkept slot fun i hi => h i (mem_range.mp hi)) hless
    case isFalse habort =>
      have hop := hacc.op.resolve_right (not_or.mpr ⟨hcommit, habort⟩)
      rw [hop] at hvalid
      have hindex : call.q.index.toNat = s.nextFrame n := congrArg _ (hacc.stage hop).2
      refine (stageFrame_tracks hvalid).bind ?_
      rw [hn, hindex]
      rintro r slots ⟨hkept, ⟨rfl, hframe⟩ | ⟨rfl, rfl | hleft⟩⟩
      · exact .staged hop hkept hframe
      · exact hsame .failed
      · exact hsame (.unmapped hop hkept hleft)

variable {status : FbRebindStatus} {trace : KernelTrace}

theorem answers_ret {service : FbService} {r : FbRebindStatus}
    (hexecute : execute s.service call = .ret (r, service)) (h : Answers s call trace status s') :
    status = r /\ s' = ⟨service, s.slots⟩ := by
  obtain ⟨hrun, hslots⟩ := h
  rw [hexecute] at hrun
  obtain ⟨rfl, hresult⟩ := run_ret_iff.mp hrun
  obtain ⟨service', slots'⟩ := s'
  cases hresult
  cases hslots
  exact ⟨rfl, rfl⟩

theorem Answers.cases (h : Answers s call trace status s') :
    status ≠ .ok /\ s' = s \/ ∃ n, Valid s n call /\ Did s n call status s' /\
      Run (executeValid s.service n call) trace (status, s'.service) := by
  by_cases hlt : call.q.client.toNat < aosFbClients
  · let n : Fin aosFbClients := ⟨call.q.client.toNat, hlt⟩
    have hexecute : execute s.service call = if aosFbRebindValidate (s.service.clients n)
        (s.service.pending n) call.badge call.op call.q ≠ .ok then .ret (_, s.service)
      else executeValid s.service n call := dif_pos hlt
    split at hexecute
    case isTrue hrefused =>
      obtain ⟨rfl, rfl⟩ := answers_ret hexecute h
      exact .inl ⟨hrefused, rfl⟩
    case isFalse hvalid =>
      obtain ⟨hrun, hslots⟩ := h
      rw [hexecute] at hrun
      have hdid := (executeValid_tracks ⟨rfl, not_not.mp hvalid⟩).run hrun
      rw [<- hslots] at hdid
      exact .inr ⟨n, ⟨rfl, not_not.mp hvalid⟩, hdid, hrun⟩
  · obtain ⟨rfl, rfl⟩ := answers_ret (dif_neg hlt) h
    exact .inl ⟨nofun, rfl⟩

/-- An abort that fails has deleted no frame if the kernel treated its deletions alike. -/
theorem Answers.whole (h : Answers s call trace status s') (hwhole : WholeAbort call trace)
    (hop : call.op = fbRebindAbort) (hstatus : status = .resource) : s'.slots = s.slots := by
  obtain ⟨-, rfl⟩ | ⟨n, hvalid, -, hrun⟩ := h.cases
  · rfl
  rw [executeValid, if_neg (hop ▸ by decide), if_pos hop] at hrun
  obtain ⟨first, second, ok, rfl, hdelete, hend⟩ := run_bind_iff.mp hrun
  have hvalid := hvalid.2
  cases ok with
  | false =>
    obtain ⟨rfl, -⟩ := run_ret_iff.mp hend
    obtain ⟨⟨kept, hkept⟩, ⟨deleted, hdeleted⟩ | hsame⟩ :=
      deleteFrames_stopped s.slots call.q hdelete
    · rw [append_nil] at hwhole
      exact absurd hkept (hwhole hop deleted kept hdeleted)
    · rw [h.2, append_nil, hsame]
  | true =>
    rw [hop] at hvalid
    simp only [aosFbRebindAborted, hvalid] at hend
    cases hstatus ▸ congrArg Prod.fst (run_ret_iff.mp hend).2

/-! ## The frames and their shadow -/

/-- The mapped frames of the generation to come are the ones the service counts. -/
structure Shadowed (s : RebindState) (n : Fin aosFbClients) : Prop where
  staged : ∀ i < fbRebindFrames.toNat, Staged s.slots n i (s.generation n + 1) ↔ i < s.nextFrame n
  old : ∀ i < fbRebindFrames.toNat, ∀ pool address,
    s.slots (frameSlot n i) = some ⟨pool, some address⟩ -> pool.generation.toNat <= s.generation n + 1

theorem frameSlot_inj {m n : Fin aosFbClients} {i j : Nat} (hi : i < fbRebindFrames.toNat)
    (hj : j < fbRebindFrames.toNat) (h : frameSlot m i = frameSlot n j) : m = n /\ i = j := by
  have hframes : fbRebindFrames.toNat = 13 := rfl
  simp only [frameSlot, hframes] at h hi hj
  exact ⟨Fin.ext (by omega), by omega⟩

/-- The next frame joins the counted ones, or stays out. -/
theorem Shadowed.next (h : Shadowed s n) (hgeneration : s'.generation n = s.generation n)
    (hkept : ∀ i < fbRebindFrames.toNat, i ≠ s.nextFrame n ->
      s'.slots (frameSlot n i) = s.slots (frameSlot n i))
    (hold : ∀ pool address, s'.slots (frameSlot n (s.nextFrame n)) = some ⟨pool, some address⟩ ->
      pool.generation.toNat <= s.generation n + 1)
    (hnext : s'.nextFrame n = s.nextFrame n /\
        ¬ Staged s'.slots n (s.nextFrame n) (s.generation n + 1) \/
      s'.nextFrame n = s.nextFrame n + 1 /\
        Staged s'.slots n (s.nextFrame n) (s.generation n + 1)) : Shadowed s' n := by
  constructor
  · intro i hi
    rw [hgeneration]
    by_cases hlast : i = s.nextFrame n
    · subst hlast
      obtain ⟨hsame, hnot⟩ | ⟨hsucc, hstaged⟩ := hnext
      · exact iff_of_false hnot (hsame ▸ Nat.lt_irrefl _)
      · exact iff_of_true hstaged (hsucc ▸ Nat.lt_succ_self _)
    · have hcount : i < s'.nextFrame n ↔ i < s.nextFrame n := by omega
      rw [hcount, <- h.staged i hi, Staged, Staged, hkept i hi hlast]
  · intro i hi pool address hslot
    rw [hgeneration]
    by_cases hlast : i = s.nextFrame n
    · exact hold pool address (hlast ▸ hslot)
    · exact h.old i hi pool address (hkept i hi hlast ▸ hslot)

/-- Nothing is staged for the generation after the one to come. -/
theorem Shadowed.advance (h : Shadowed s n) (hgeneration : s'.generation n = s.generation n + 1)
    (hnext : s'.nextFrame n = 0)
    (hless : ∀ slot, s'.slots slot = s.slots slot \/ s'.slots slot = none) : Shadowed s' n := by
  have hold : ∀ i < fbRebindFrames.toNat, ∀ pool address,
      s'.slots (frameSlot n i) = some ⟨pool, some address⟩ ->
        pool.generation.toNat <= s.generation n + 1 := by
    intro i hi pool address hslot
    refine h.old i hi pool address ((hless _).elim (fun hsame => hsame ▸ hslot) fun hnone => ?_)
    cases hslot.symm.trans hnone
  constructor
  · intro i hi
    rw [hnext, hgeneration]
    refine iff_of_false ?_ (Nat.not_lt_zero i)
    rintro ⟨pool, hslot, -, -, hpool⟩
    have := hold i hi pool _ hslot
    omega
  · intro i hi pool address hslot
    rw [hgeneration]
    exact Nat.le_succ_of_le (hold i hi pool address hslot)

/-- Clients whose record, counter and slots are untouched. -/
structure Untouched (s s' : RebindState) (n : Fin aosFbClients) : Prop where
  client : s'.service.clients n = s.service.clients n
  pending : s'.service.pending n = s.service.pending n
  slots : ∀ i < fbRebindFrames.toNat, s'.slots (frameSlot n i) = s.slots (frameSlot n i)

theorem Untouched.generation (h : Untouched s s' n) : s'.generation n = s.generation n := by
  rw [RebindState.generation, h.client, RebindState.generation]

theorem Shadowed.congr (h : Shadowed s n) (hgeneration : s'.generation n = s.generation n)
    (hnext : s'.nextFrame n = s.nextFrame n)
    (hslots : ∀ i < fbRebindFrames.toNat, s'.slots (frameSlot n i) = s.slots (frameSlot n i)) :
    Shadowed s' n := by
  constructor
  · intro i hi
    rw [hnext, hgeneration, <- h.staged i hi, Staged, Staged, hslots i hi]
  · intro i hi pool address hslot
    rw [hgeneration]
    exact h.old i hi pool address (hslots i hi ▸ hslot)

theorem Shadowed.untouched (h : Shadowed s n) (hsame : Untouched s s' n) : Shadowed s' n :=
  h.congr hsame.generation (by rw [RebindState.nextFrame, hsame.pending, RebindState.nextFrame])
    hsame.slots

theorem Accepted.next_lt (hacc : Accepted s n call) (hop : call.op = fbRebindStage) :
    s.nextFrame n < fbRebindFrames.toNat :=
  UInt32.lt_iff_toNat_lt.mp ((hacc.stage hop).2 ▸ (hacc.stage hop).1)

theorem Did.untouched {m : Fin aosFbClients} (h : Did s n call status s') (hacc : Accepted s n call)
    (hne : m ≠ n) : Untouched s s' m := by
  have hstage (hop : call.op = fbRebindStage) (i : Nat) (hi : i < fbRebindFrames.toNat) :
      frameSlot m i ≠ frameSlot n (s.nextFrame n) := fun heq =>
    hne (frameSlot_inj hi (hacc.next_lt hop) heq).1
  have habort (i : Nat) (hi : i < fbRebindFrames.toNat) (j : Nat) (hj : j < s.nextFrame n) :
      frameSlot m i ≠ frameSlot n j := fun heq =>
    hne (frameSlot_inj hi (Nat.lt_of_lt_of_le hj (UInt32.le_iff_toNat_le.mp hacc.bound)) heq).1
  have hclient (c : FbClient) (p : FbRebind) : (s.service.put n c p).clients m = s.service.clients m :=
    update_of_ne hne ..
  have hpending (c : FbClient) (p : FbRebind) : (s.service.put n c p).pending m = s.service.pending m :=
    update_of_ne hne ..
  cases h with
  | failed => exact ⟨rfl, rfl, fun _ _ => rfl⟩
  | unmapped hop hkept _ => exact ⟨rfl, rfl, fun i hi => hkept _ (hstage hop i hi)⟩
  | staged hop hkept _ => exact ⟨hclient .., hpending .., fun i hi => hkept _ (hstage hop i hi)⟩
  | committed => exact ⟨hclient .., hpending .., fun _ _ => rfl⟩
  | aborted _ hkept _ => exact ⟨hclient .., hpending .., fun i hi => hkept _ (habort i hi)⟩
  | stopped _ hkept => exact ⟨rfl, rfl, fun i hi => hkept _ (habort i hi)⟩

@[simp]
theorem generation_put :
    RebindState.generation ⟨s.service.put n c p, slots⟩ n = c.generation.toNat :=
  congrArg (UInt32.toNat ∘ FbClient.generation) (update_self ..)

@[simp]
theorem nextFrame_put : RebindState.nextFrame ⟨s.service.put n c p, slots⟩ n = p.nextFrame.toNat :=
  congrArg (UInt32.toNat ∘ FbRebind.nextFrame) (update_self ..)

theorem Did.shadowed (h : Shadowed s n) (hvalid : Valid s n call) (hdid : Did s n call status s')
    (hwhole : call.op = fbRebindAbort -> status = .resource -> s'.slots = s.slots) :
    Shadowed s' n := by
  have hacc := hvalid.accepted
  have hothers {slots : FrameSlots} (hop : call.op = fbRebindStage)
      (hkept : ∀ slot ≠ frameSlot n (s.nextFrame n), slots slot = s.slots slot) (i : Nat)
      (hi : i < fbRebindFrames.toNat) (hne : i ≠ s.nextFrame n) :
      slots (frameSlot n i) = s.slots (frameSlot n i) :=
    hkept _ fun heq => hne (frameSlot_inj hi (hacc.next_lt hop) heq).2
  cases hdid with
  | failed => exact h
  | @unmapped slots hop hkept hleft =>
    have hnone (pool : FbRebindReq) (address : UInt64) :
        slots (frameSlot n (s.nextFrame n)) ≠ some ⟨pool, some address⟩ := fun hslot =>
      absurd (hleft _ hslot) (Option.some_ne_none _)
    refine h.next rfl (hothers hop hkept)
      (fun pool address hslot => absurd hslot (hnone pool address)) (.inl ⟨rfl, ?_⟩)
    rintro ⟨pool, hslot, -⟩
    exact hnone pool _ hslot
  | staged hop hkept hframe =>
    have hpool : call.q.generation.toNat = s.generation n + 1 :=
      hacc.consumes.resolve_left fun h => absurd (hop.symm.trans h.1) (by decide)
    refine h.next generation_put (hothers hop hkept) ?_
      (.inr ⟨?_, call.q, hframe, hvalid.1, congrArg UInt32.toNat (hacc.stage hop).2, hpool⟩)
    · intro pool address hslot
      cases hframe.symm.trans hslot
      exact hpool.le
    · rw [nextFrame_put, UInt32.toNat_add, UInt32.toNat_one]
      exact Nat.mod_eq_of_lt (Nat.lt_of_le_of_lt (hacc.next_lt hop) (by decide))
  | committed hop hfresh =>
    refine h.advance ?_ nextFrame_put fun _ => .inl rfl
    rw [generation_put, hfresh]
    exact hacc.consumes.resolve_left fun h => absurd (hop.symm.trans h.1) (by decide)
  | aborted hop hkept hless =>
    obtain ⟨-, hpend, hsame⟩ | hpool := hacc.consumes
    · have hzero : s.nextFrame n = 0 := by rw [RebindState.nextFrame, hpend]; rfl
      refine h.congr (generation_put.trans (congrArg _ hsame)) (nextFrame_put.trans hzero.symm)
        fun i _ => hkept _ fun j hj => absurd hj (hzero ▸ Nat.not_lt_zero j)
    · exact h.advance (generation_put.trans hpool) nextFrame_put hless
  | stopped hop =>
    exact h.congr rfl rfl fun _ _ => congrFun (hwhole hop rfl) _

/-- In every run whose aborts are whole, the counted frames are the mapped ones. -/
theorem RebindReach.shadowed (hreach : RebindReach WholeAbort s) (n : Fin aosFbClients) :
    Shadowed s n := by
  induction hreach with
  | start clients =>
    exact ⟨fun i _ => iff_of_false (fun ⟨_, h, _⟩ => nomatch h) (Nat.not_lt_zero i), nofun⟩
  | request _ hanswers hwhole ih =>
    obtain ⟨-, rfl⟩ | ⟨m, hvalid, hdid, -⟩ := hanswers.cases
    · exact ih
    · by_cases hne : n = m
      · subst hne
        exact hdid.shadowed ih hvalid (hanswers.whole hwhole)
      · exact ih.untouched (hdid.untouched hvalid.accepted hne)
  | @detach s m _ ih =>
    by_cases hne : n = m
    · subst hne
      exact ih.congr generation_put nextFrame_put fun _ _ => rfl
    · exact ih.untouched ⟨update_of_ne hne .., update_of_ne hne .., fun _ _ => rfl⟩

/-! ## The protocol -/

/-- The request uses up the generation to come of client `n`. -/
def Consumes (s : RebindState) (n : Fin aosFbClients) (call : RebindCall)
    (status : FbRebindStatus) : Prop :=
  status = .ok /\ call.q.client.toNat = n /\
    (call.op = fbRebindCommit \/ call.op = fbRebindAbort /\ call.q.generation.toNat ≠ s.generation n)

/-- What the handling of one request keeps. -/
structure RebindLaw (s : RebindState) (call : RebindCall) (status : FbRebindStatus)
    (s' : RebindState) : Prop where
  whole : call.op = fbRebindCommit -> status = .ok -> ∀ n : Fin aosFbClients,
    call.q.client.toNat = n -> ∀ i < fbRebindFrames.toNat, Staged s'.slots n i (s.generation n + 1)
  own : ∀ n : Fin aosFbClients, call.badge ≠ virtClientBadge (.ofNat n) -> Untouched s s' n
  consumed : ∀ n, Consumes s n call status -> s'.generation n = s.generation n + 1
  kept : ∀ n, ¬ Consumes s n call status -> s'.generation n = s.generation n
  repeated : call.op = fbRebindAbort -> status = .ok -> ∀ trace again s'',
    Answers s' call trace again s'' -> again = .ok /\ s'' = s'

/-- An abort that went through leaves a client for which it is valid again. -/
theorem validate_again (h : aosFbRebindValidate c p badge fbRebindAbort q = .ok) :
    aosFbRebindValidate { c with generation := q.generation } {} badge fbRebindAbort q = .ok := by
  unfold aosFbRebindValidate at h ⊢
  split at h
  · cases h
  split at h
  · cases h
  rename_i hversion hclient
  rw [if_neg hversion, if_neg hclient, if_pos]
  split at h
  case isTrue hagain =>
    exact ⟨rfl, hagain.2.1, hagain.2.2.1, hagain.2.2.2.1, hagain.2.2.2.2.1, rfl, rfl, rfl⟩
  case isFalse =>
    split at h
    · cases h
    rename_i hstate
    push Not at hstate
    rw [if_neg (by decide : fbRebindAbort ≠ fbRebindStage)] at h
    split at h
    · cases h
    rename_i hindex
    exact ⟨rfl, not_not.mp hindex, hstate.2.2.2.1, Bool.eq_true_of_not_eq_false hstate.2.1,
      hstate.1, rfl, rfl, rfl⟩

theorem repeated_abort (hop : call.op = fbRebindAbort) (hvalid : Valid s n call)
    (hpending : s.service.pending n = {})
    (hgeneration : (s.service.clients n).generation = call.q.generation)
    (hanswers : Answers s call trace status s') : status = .ok /\ s' = s := by
  obtain ⟨hn, hvalid⟩ := hvalid
  obtain ⟨k, hk⟩ := n
  obtain rfl : call.q.client.toNat = k := hn
  rw [hpending, hop] at hvalid
  have hdone : executeValid s.service ⟨call.q.client.toNat, hk⟩ call = .ret (.ok, s.service) := by
    simp only [executeValid, aosFbRebindAborted, hop, hpending, hvalid, <- hgeneration]
    exact congrArg ret (Prod.ext rfl (hpending ▸ s.service.put_self _))
  refine answers_ret ?_ hanswers
  simp only [execute, dif_pos hk, hop, hpending, hvalid, hdone]
  rfl

theorem rebindLaw (hreach : RebindReach WholeAbort s) (hanswers : Answers s call trace status s') :
    RebindLaw s call status s' := by
  obtain ⟨hrefused, rfl⟩ | ⟨m, hvalid, hdid, -⟩ := hanswers.cases
  · exact ⟨fun _ h => absurd h hrefused, fun _ _ => ⟨rfl, rfl, fun _ _ => rfl⟩,
      fun n h => absurd h.1 hrefused, fun _ _ => rfl, fun _ h => absurd h hrefused⟩
  have hacc := hvalid.accepted
  refine ⟨?_, fun n hbadge => hdid.untouched hacc ?_, ?_, ?_, ?_⟩
  · rintro hop rfl n hn i hi
    obtain rfl : n = m := Fin.ext (hn.symm.trans hvalid.1)
    have hall : i < s.nextFrame n := by rwa [RebindState.nextFrame, hacc.commit hop]
    cases hdid with
    | staged h => cases hop.symm.trans h
    | committed => exact ((hreach.shadowed n).staged i hi).mpr hall
    | aborted h => cases hop.symm.trans h
  · rintro rfl
    refine hbadge (hacc.badge.trans ?_)
    rw [<- hvalid.1, UInt32.ofNat_toNat]
  · rintro n ⟨rfl, hn, hop⟩
    obtain rfl : n = m := Fin.ext (hn.symm.trans hvalid.1)
    cases hdid with
    | staged h => obtain hop | ⟨hop, -⟩ := hop <;> cases hop.symm.trans h
    | committed h hfresh =>
      rw [generation_put, hfresh]
      exact hacc.consumes.resolve_left fun h' => absurd (h.symm.trans h'.1) (by decide)
    | aborted h =>
      refine generation_put.trans (hacc.consumes.resolve_left fun h' => ?_)
      exact hop.elim (fun hop => absurd (hop.symm.trans h) (by decide)) fun hop =>
        hop.2 (congrArg UInt32.toNat h'.2.2)
  · intro n hnot
    by_cases hne : n = m
    · subst hne
      cases hdid with
      | failed | unmapped | stopped => rfl
      | staged => exact generation_put
      | committed h => exact absurd ⟨rfl, hvalid.1, .inl h⟩ hnot
      | aborted h =>
        exact generation_put.trans (not_not.mp fun hne => hnot ⟨rfl, hvalid.1, .inr ⟨h, hne⟩⟩)
    · exact (hdid.untouched hacc hne).generation
  · rintro hop rfl trace again s'' hagain
    cases hdid with
    | staged h => cases hop.symm.trans h
    | committed h => cases hop.symm.trans h
    | aborted =>
      have hclient := update_self m
        { s.service.clients m with generation := call.q.generation } s.service.clients
      have hpending := update_self m ({} : FbRebind) s.service.pending
      refine repeated_abort hop ⟨hvalid.1, ?_⟩ hpending (congrArg FbClient.generation hclient) hagain
      simp only [FbService.put]
      rw [hclient, hpending, hop]
      exact validate_again (hop ▸ hvalid.2)

/-- Along every run in which the kernel lets no deletion of an abort fail after another one
succeeded, the mapped frames of the next generation are the first `next_frame` ones, and every
request keeps the protocol. -/
theorem rebind_whole_generations (hreach : RebindReach WholeAbort s) :
    (∀ (n : Fin aosFbClients), ∀ i < fbRebindFrames.toNat,
      Staged s.slots n i (s.generation n + 1) ↔ i < s.nextFrame n) /\
    ∀ call trace status s', Answers s call trace status s' -> RebindLaw s call status s' :=
  ⟨fun n => (hreach.shadowed n).staged, fun _ _ _ _ => rebindLaw hreach⟩

/-! ## Runs -/

/-- A kernel that only refuses to delete the named slots; the new region is zeroed. -/
def kernelAnswer (fails : Nat -> Bool) : (request : RebindOp) -> FrameSlots -> RebindIo.Ans request
  | .cnodeDelete slot, _ => !fails slot
  | .untypedRetype _, _ => true
  | .pageMap _ _, _ => true
  | .loadRegion _, _ => ⟨0, 0, 0, 0, 0, 0, 0⟩

def answered (fails : Nat -> Bool) (s : RebindState) (call : RebindCall) :
    FbRebindStatus × RebindState :=
  let r := Prog.eval (I := RebindIo) (fun request slots => (kernelAnswer fails request slots,
    frameEffect call.q slots ⟨request, kernelAnswer fails request slots⟩))
    (execute s.service call) s.slots
  (r.1.1, ⟨r.1.2, r.2⟩)

theorem answers_answered (fails : Nat -> Bool) (s : RebindState) (call : RebindCall) :
    ∃ trace, Answers s call trace (answered fails s call).1 (answered fails s call).2 := by
  obtain ⟨trace, hslots, hrun⟩ := run_eval_foldl (I := RebindIo) (kernelAnswer fails)
    (frameEffect call.q) (execute s.service call) s.slots
  exact ⟨trace, hrun, hslots.symm⟩

/-- A request of the first client for its first generation after boot. -/
def firstCall (op : UInt32) (index : Nat) : RebindCall :=
  ⟨virtClientBadgePrimary, op, ⟨1, 0, 1, index.toUInt32⟩⟩

def bootState : RebindState := ⟨⟨fun _ => FbClient.detach {}, fun _ => {}⟩, fun _ => none⟩

/-- All thirteen frames staged, one request each. -/
def allStaged : RebindState :=
  (range 13).foldl
    (fun s i => (answered (fun _ => false) s (firstCall fbRebindStage i)).2) bootState

theorem allStaged_reach {fair : RebindCall -> KernelTrace -> Prop}
    (hfair : ∀ call trace, call.op = fbRebindStage -> fair call trace) :
    RebindReach fair allStaged := by
  have hruns (indices : List Nat) {s : RebindState} (hs : RebindReach fair s) :
      RebindReach fair (indices.foldl
        (fun s i => (answered (fun _ => false) s (firstCall fbRebindStage i)).2) s) := by
    induction indices generalizing s with
    | nil => exact hs
    | cons i rest ih =>
      obtain ⟨trace, hanswers⟩ := answers_answered (fun _ => false) s (firstCall fbRebindStage i)
      exact ih (hs.request hanswers (hfair _ _ rfl))
  exact hruns _ (.start _)

/-- A commit of the thirteen frames goes through and takes the next generation. -/
theorem rebind_whole_generations_first :
    (∀ i < fbRebindFrames.toNat, Staged allStaged.slots 0 i (allStaged.generation 0 + 1)) /\
      ∃ trace s', Answers allStaged (firstCall fbRebindCommit 0) trace .ok s' /\
        (∀ i < fbRebindFrames.toNat, Staged s'.slots 0 i (allStaged.generation 0 + 1)) /\
        s'.generation 0 = allStaged.generation 0 + 1 := by
  have hreach : RebindReach WholeAbort allStaged :=
    allStaged_reach fun _ _ hop habort => absurd (hop.symm.trans habort) (by decide)
  obtain ⟨hstaged, hlaw⟩ := rebind_whole_generations hreach
  refine ⟨fun i hi => (hstaged 0 i hi).mpr (Nat.lt_of_lt_of_le hi (by decide +kernel)), ?_⟩
  obtain ⟨trace, hanswers⟩ :=
    answers_answered (fun _ => false) allStaged (firstCall fbRebindCommit 0)
  have hok : (answered (fun _ => false) allStaged (firstCall fbRebindCommit 0)).1 = .ok := by
    decide +kernel
  rw [hok] at hanswers
  have hcommit := hlaw _ _ _ _ hanswers
  exact ⟨trace, _, hanswers, hcommit.whole rfl rfl 0 rfl, hcommit.consumed 0 ⟨rfl, rfl, .inl rfl⟩⟩

/-- The second deletion of an abort fails: thirteen frames stay counted, the queue frame is
gone, and a commit is still found valid. -/
theorem stopped_abort_counts_deleted : ∃ s, RebindReach (fun _ _ => True) s /\
    s.nextFrame 0 = 13 /\ ¬ Staged s.slots 0 0 (s.generation 0 + 1) /\
    aosFbRebindValidate (s.service.clients 0) (s.service.pending 0) virtClientBadgePrimary
      fbRebindCommit (firstCall fbRebindCommit 0).q = .ok := by
  obtain ⟨trace, hanswers⟩ :=
    answers_answered (fun slot => slot == 516) allStaged (firstCall fbRebindAbort 0)
  refine ⟨_, (allStaged_reach fun _ _ _ => trivial).request hanswers trivial, by decide +kernel, ?_,
    by decide +kernel⟩
  rintro ⟨pool, hslot, -⟩
  have hgone : (answered (fun slot => slot == 516) allStaged
    (firstCall fbRebindAbort 0)).2.slots (frameSlot 0 0) = none := by decide +kernel
  exact absurd (hgone.symm.trans hslot) nofun

end AgentOs.Framebuffer
