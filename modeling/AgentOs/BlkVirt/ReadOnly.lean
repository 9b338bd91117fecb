import AgentOs.BlkVirt.Lifecycle

/-!
# Write policy of read-only media

ATTACH records the policy in the storage-info page, which the client can write, and the pump
reads it back for every write.
-/

namespace AgentOs.BlkVirt

open Library Prog Ipc List

/-- States in which client `i` is attached to host media that the driver reported
read-only in the INFO reply of the turn that attached it. -/
inductive AttachedReadOnly (build : Build) (i : Nat) : BvState -> Prop where
  | attach {s s' : BvState} {msg : Incoming} {trace : Trace BlkIo}
      {reply : Option Reply} {info : HostReply} :
      Reachable build s -> Run (blkVirtRun build msg s) trace (s', reply) ->
      (s.clients i).attached = false -> (s'.clients i).attached = true ->
      (s'.clients i).hw = true ->
      (⟨.hostCall (hostCallWords (.ofNat i) aosHostBlkOpInfo 0 0), info⟩ : Event BlkIo)
        ∈ trace ->
      (hostBlkReply info ⟨0, true⟩).2.readOnly = true ->
      AttachedReadOnly build i s'
  | later {s s' : BvState} {msg : Incoming} {trace : Trace BlkIo}
      {reply : Option Reply} :
      AttachedReadOnly build i s -> Run (blkVirtRun build msg s) trace (s', reply) ->
      (s'.clients i).attached = true -> AttachedReadOnly build i s'

variable {build : Build} {i : Nat} {s : BvState}

theorem AttachedReadOnly.reachable (h : AttachedReadOnly build i s) : Reachable build s := by
  induction h with
  | attach hreach hrun _ _ _ _ _ => exact .turn hreach hrun
  | later _ hrun _ ih => exact .turn ih hrun

theorem AttachedReadOnly.attached (h : AttachedReadOnly build i s) :
    (s.clients i).attached = true := by
  cases h with
  | attach _ _ _ hattached _ _ _ => exact hattached
  | later _ _ hattached => exact hattached

/-- A message that leaves a client attached leaves its binding alone. -/
theorem ControlStep.keeps_attached {D : BlkVirtClient -> Prop} {msg : Incoming} {s s' : BvState}
    {rep : Sel4Msg} (hstep : ControlStep D msg s s' rep) {i : Nat}
    (hbefore : (s.clients i).attached = true) (hafter : (s'.clients i).attached = true) :
    s'.clients i = s.clients i := by
  cases hstep with
  | rejected _ => rfl
  | @attached _ j c _ _ _ hzero _ =>
    refine Function.update_of_ne ?_ _ _
    rintro rfl
    rw [hzero] at hbefore
    cases hbefore
  | @detached _ j _ _ _ _ _ =>
    refine Function.update_of_ne ?_ _ _
    rintro rfl
    simp only [Function.update_self] at hafter
    cases hafter
  | @rebound _ j c _ _ _ _ hretired _ _ =>
    refine Function.update_of_ne ?_ _ _
    rintro rfl
    rw [hretired] at hbefore
    cases hbefore

/-- A turn that leaves a client attached leaves its binding alone. -/
theorem ensures_turn_binding {A : (request : BlkOp) -> BlkOp.Ans request -> Prop}
    {msg : Incoming} (hs : TableOk s.clients) (hbefore : (s.clients i).attached = true) :
    Ensures A (fun _ => True)
      (fun result => (result.1.clients i).attached = true ->
        (result.1.clients i).binding = (s.clients i).binding)
      (blkVirtRun build msg s) := by
  have hservice : ∀ s' : BvState, Ensures A (fun _ => True)
      (fun s'' => (s''.clients i).binding = (s'.clients i).binding) (serviceState s') :=
    fun s' => (ensures_bvService s'.clients).bind fun _ hserved => (hserved i).1
  refine Ensures.bind ?_ fun result hresult => ensures_skip.bind fun _ _ => hresult
  unfold blkVirtHandle
  split
  · exact (hservice s).bind fun _ hsame _ => hsame
  split
  · refine (ensures_blkVirtControl detachMeans_true hs).bind fun result hstep => ?_
    refine (hservice result.1).bind fun s'' hsame hafter => ?_
    have hattached : (result.1.clients i).attached = true :=
      (eq_of_binding BvClient.attached hsame).symm.trans hafter
    exact hsame.trans (congrArg BvClient.binding (hstep.keeps_attached hbefore hattached))
  · split
    · exact (hservice s).bind fun _ hsame _ => hsame
    · exact fun _ => rfl

theorem AttachedReadOnly.hw (h : AttachedReadOnly build i s) : (s.clients i).hw = true := by
  induction h with
  | attach _ _ _ _ hhw _ _ => exact hhw
  | later hbefore hrun hafter ih =>
    have hsame := (ensures_turn_binding (A := anyAnswer (I := BlkIo)) hbefore.reachable.tableOk
      hbefore.attached).result hrun hafter
    exact (eq_of_binding BvClient.hw hsame).trans ih

/-! ## The policy bit in a run of the pump -/

/-- The pump read the policy bit as writable. -/
def ReadWritable (q : BlkVirtClient) : Event BlkIo := ⟨.load (.info q.info .readOnly), false⟩

/-- A write request was passed to the backend. -/
def PassesWrite (trace : Trace BlkIo) : Prop :=
  ∃ req : BlkReq, (⟨.backendCall req, ()⟩ : Event BlkIo) ∈ trace /\ req.code = aosBlkReqWrite

/-- Requests other than a load of the policy bit. -/
def NoPolicyLoad : BlkOp -> Prop
  | .load (.info _ .readOnly) => False
  | _ => True

/-- Requests other than a write passed to the backend. -/
def NoWriteCall : BlkOp -> Prop
  | .backendCall req => req.code ≠ aosBlkReqWrite
  | _ => True

/-- A run in which the bit always reads as read-only passes no write. -/
theorem Bound.ensures_noWriteCall {c : BvClient} (h : Bound i c) (hhw : c.hw = true) :
    Ensures (I := BlkIo)
      (fun request answer => (⟨request, answer⟩ : Event BlkIo) ≠ ReadWritable c.q)
      NoWriteCall (fun _ => True) (aosBlkVirtPump callBackend c.virt c) := by
  have hring : ∀ q, RingPermits NoWriteCall q := fun q =>
    ⟨trivial, fun _ _ => trivial, fun _ _ _ => trivial, fun _ _ => trivial, fun _ _ _ => trivial⟩
  have hbytes : ∀ p n, BytesPermitted NoWriteCall p n := fun _ _ _ _ => ⟨trivial, fun _ => trivial⟩
  refine (ensures_aosBlkVirtPump (R := fun _ => True) (fun q _ => hring q) ?_ trivial)
  intro q hq
  rw [h.clients, mem_singleton] at hq
  subst hq
  refine ⟨trivial, ?_, ?_⟩
  · intro fn _ ctx req _ haccepted
    cases fn
    have hread : req.code ≠ aosBlkReqWrite := fun hwrite => haccepted.2 hwrite rfl
    refine ⟨hread, (ensures_hostBlkBackend haccepted.1 ?_).weaken fun _ _ => trivial⟩
    exact ⟨trivial, hbytes _ _, hbytes _ _, fun _ _ _ _ _ _ => trivial, trivial⟩
  · intro hnone
    rcases h.medium with ⟨_, hfn⟩ | ⟨hram, _⟩
    · exact absurd (hfn.symm.trans hnone) (by simp)
    · cases hram.symm.trans hhw

/-- Reading the bit as writable is followed by passing a write on. -/
def WritableLeadsToWrite (q : BlkVirtClient) (trace : Trace BlkIo) : Prop :=
  ReadWritable q ∈ trace -> PassesWrite trace

theorem writableLeadsToWrite_rule (q : BlkVirtClient) :
    TraceRule (WritableLeadsToWrite q) NoPolicyLoad where
  append xs ys hxs hys hmem := by
    rcases mem_append.mp hmem with hleft | hright
    · obtain ⟨req, hcall, hcode⟩ := hxs hleft
      exact ⟨req, mem_append_left _ hcall, hcode⟩
    · obtain ⟨req, hcall, hcode⟩ := hys hright
      exact ⟨req, mem_append_right _ hcall, hcode⟩
  quiet trace hquiet hmem := (hquiet _ hmem).elim

/-- The bit is read for a valid write only, and the write is passed on when it reads
as writable. -/
theorem allTraces_serveRequest {v : AosBlkVirt} (hbackend : v.backend = some .hostBlkBackend)
    (q : BlkVirtClient) (req : BlkReq) (ctx : BvClient) :
    AllTraces (WritableLeadsToWrite q) (serveRequest callBackend v q req ctx) := by
  have hrule := writableLeadsToWrite_rule q
  unfold serveRequest
  split
  · rename_i hvalid
    have hbytes : ∀ p n, BytesPermitted NoPolicyLoad p n :=
      fun _ _ _ _ => ⟨trivial, fun _ => trivial⟩
    have hrest : AllTraces (WritableLeadsToWrite q) (do
        let result <- callBackend .hostBlkBackend ctx q req
        return (({ status := result.1, successCount := successCount req result.1, id := req.id } :
          BlkResp), result.2)) := by
      refine allTraces_of_ensures (Q := fun _ => True) ((ensures_hostBlkBackend hvalid ?_).bind
        fun _ _ => trivial) hrule.quiet
      exact ⟨trivial, hbytes _ _, hbytes _ _, fun _ _ _ _ _ _ => trivial, trivial⟩
    have hcall : ∀ trace value, Run (do
        perform (I := BlkIo) (.backendCall req)
        let result <- callBackend .hostBlkBackend ctx q req
        return (({ status := result.1, successCount := successCount req result.1, id := req.id } :
          BlkResp), result.2)) trace value ->
        (⟨.backendCall req, ()⟩ : Event BlkIo) ∈ trace /\ WritableLeadsToWrite q trace := by
      intro trace value hrun
      obtain ⟨_, rest, rfl, htail⟩ := run_op_iff.mp hrun
      refine ⟨mem_cons_self, fun hmem => ?_⟩
      rcases mem_cons.mp hmem with heq | hmem
      · exact absurd (congrArg Event.request heq) (by simp [ReadWritable])
      · obtain ⟨written, hwritten, hcode⟩ := hrest _ _ htail hmem
        exact ⟨written, mem_cons_of_mem _ hwritten, hcode⟩
    rw [hbackend]
    unfold writeRefused
    split
    · rename_i hwrite
      intro trace value hrun
      obtain ⟨refused, rest, rfl, htail⟩ := run_op_iff.mp hrun
      cases refused with
      | true =>
        obtain ⟨rfl, _⟩ := run_ret_iff.mp htail
        intro hmem
        have heq := mem_singleton.mp hmem
        simp [ReadWritable] at heq
      | false =>
        obtain ⟨hmem, _⟩ := hcall rest value htail
        exact fun _ => ⟨req, mem_cons_of_mem _ hmem, beq_iff_eq.mp hwrite⟩
    · exact fun trace value hrun => (hcall trace value hrun).2
  · exact allTraces_of_ensures (Q := fun _ => True) trivial hrule.quiet

theorem Bound.allTraces_writable {c : BvClient} (h : Bound i c) (hhw : c.hw = true) :
    AllTraces (WritableLeadsToWrite c.q) (aosBlkVirtPump callBackend c.virt c) := by
  have hbackend : c.virt.backend = some .hostBlkBackend := by
    rcases h.medium with ⟨_, hfn⟩ | ⟨hram, _⟩
    · exact hfn
    · cases hram.symm.trans hhw
  refine allTraces_aosBlkVirtPump (writableLeadsToWrite_rule c.q) ?_ ?_ c
  · exact fun q _ =>
      ⟨trivial, fun _ _ => trivial, fun _ _ _ => trivial, fun _ _ => trivial, fun _ _ _ => trivial⟩
  · intro q hq req ctx
    rw [h.clients, mem_singleton] at hq
    subst hq
    exact allTraces_serveRequest hbackend c.q req ctx

/-- A client on read-only media passes a write to the backend exactly in the runs in
which the pump reads the policy bit in the client's own page as writable. -/
theorem blkVirt_readOnly_iff (hs : AttachedReadOnly build i s) {trace : Trace BlkIo}
    {result : UInt32 × BvClient}
    (hrun : Run (aosBlkVirtPump callBackend (s.clients i).virt (s.clients i)) trace result) :
    ¬ PassesWrite trace ↔ ReadWritable (s.clients i).q ∉ trace := by
  have hbound := (hs.reachable.tableOk i).of_attached hs.attached
  constructor
  · intro hno hmem
    exact hno (hbound.allTraces_writable hs.hw trace result hrun hmem)
  · rintro hread ⟨req, hmem, hcode⟩
    have hops := ((hbound.ensures_noWriteCall hs.hw).run hrun fun event hevent heq =>
      hread (heq ▸ hevent)).1
    exact hops _ hmem hcode

/-! ## A guest that clears the bit -/

/-- The INFO reply of 64 read-only sectors. -/
def readOnlyInfo : HostReply := ⟨8, 20, (64 : UInt64) <<< 32, 0, 1⟩

def readOnlyDriver : Driver Unit := fun call h m =>
  if call.op == aosHostBlkOpInfo then (readOnlyInfo, h, m) else (⟨3, 4, 0, 0, 0⟩, h, m)

/-- The state after the primary guest attached to that driver. -/
def readOnlyAttached : BvState :=
  (eval (handler readOnlyDriver) (blkVirtRun ⟨true, true⟩ primaryAttach .zero) (.zero, ())).1.1

theorem readOnlyAttached_spec : AttachedReadOnly ⟨true, true⟩ 0 readOnlyAttached := by
  have hinfo : eventAt (handler readOnlyDriver) 0
      (blkVirtRun ⟨true, true⟩ primaryAttach .zero) (.zero, ()) =
      some ⟨.hostCall (hostCallWords (.ofNat 0) aosHostBlkOpInfo 0 0), readOnlyInfo⟩ := rfl
  obtain ⟨trace, hrun, hmem⟩ := run_eval_of_eventAt (I := BlkIo) (handler readOnlyDriver) hinfo
  exact .attach .init hrun rfl (by decide +kernel) (by decide +kernel) hmem (by decide)

/-- The guest's page afterwards: one write is published and the policy bit is clear. -/
def writePublished : BlkHeap :=
  let req := clientPage shmem 0 + aosBlkReqQueueOff
  (BlkHeap.zero.store (.reqBuffer req 0) ⟨aosBlkReqWrite, 0, 0, 1, 9⟩).store
    (.index .req .tail req) (1 : UInt32)

def isWriteCall (event : Event BlkIo) : Bool :=
  match event.request with
  | .backendCall req => req.code == aosBlkReqWrite
  | _ => false

theorem passesWrite_of_eventAt {n : Nat} {α : Type} {program : BlkM α} {h : BlkHeap}
    (hevent : (eventAt (handler readOnlyDriver) n program (h, ())).any isWriteCall = true) :
    ∃ trace value, Run program trace value /\ PassesWrite trace := by
  cases hcase : eventAt (handler readOnlyDriver) n program (h, ()) with
  | none => simp [hcase] at hevent
  | some event =>
    obtain ⟨trace, hrun, hmem⟩ := run_eval_of_eventAt (I := BlkIo) (handler readOnlyDriver) hcase
    rw [hcase, Option.any_some] at hevent
    obtain ⟨request, answer⟩ := event
    cases request with
    | backendCall req => exact ⟨trace, _, hrun, req, hmem, beq_iff_eq.mp hevent⟩
    | _ => exact absurd hevent (by simp [isWriteCall])

theorem readOnly_write_passed : ∃ s trace result, AttachedReadOnly ⟨true, true⟩ 0 s /\
      Run (aosBlkVirtPump callBackend (s.clients 0).virt (s.clients 0)) trace result /\
      PassesWrite trace := by
  have hevent : (eventAt (handler readOnlyDriver) 19
      (aosBlkVirtPump callBackend (readOnlyAttached.clients 0).virt (readOnlyAttached.clients 0))
      (writePublished, ())).any isWriteCall = true := by decide +kernel
  obtain ⟨trace, result, hrun, hpasses⟩ := passesWrite_of_eventAt hevent
  exact ⟨readOnlyAttached, trace, result, readOnlyAttached_spec, hrun, hpasses⟩

theorem blkVirt_readOnly_iff_attached : ∃ trace result,
      Run (aosBlkVirtPump callBackend (readOnlyAttached.clients 0).virt
        (readOnlyAttached.clients 0)) trace result /\
      (¬ PassesWrite trace ↔ ReadWritable (readOnlyAttached.clients 0).q ∉ trace) := by
  obtain ⟨trace, hrun⟩ := run_eval (handler readOnlyDriver)
    (aosBlkVirtPump callBackend (readOnlyAttached.clients 0).virt (readOnlyAttached.clients 0))
    (writePublished, ())
  exact ⟨trace, _, hrun, blkVirt_readOnly_iff readOnlyAttached_spec hrun⟩

end AgentOs.BlkVirt
