import AgentOs.BlkVirt.Host

/-!
# What every run of the pump does

One rule per function of the pump, for any assumption on the answers and any predicate on the
requests.  A client record is described by the requests the ring code makes for it
(`RingPermits`).
-/

namespace AgentOs.BlkVirt

open Library Prog

/-- The ring of a client by its kind. -/
def BlkVirtClient.ring (c : BlkVirtClient) : RingKind -> BlkPtr
  | .req => c.req
  | .resp => c.resp

/-- The requests the ring operations make for one client. -/
structure RingPermits (P : BlkOp -> Prop) (c : BlkVirtClient) : Prop where
  fence : P .fence
  loadIndex : ∀ kind side, P (.load (.index kind side (c.ring kind)))
  storeIndex : ∀ kind side value, P (.store (.index kind side (c.ring kind)) value)
  loadReq : ∀ i, i < c.capacity.toNat -> P (.load (.reqBuffer c.req i))
  storeResp : ∀ i, i < c.capacity.toNat -> ∀ r, P (.store (.respBuffer c.resp i) r)

section Rings

variable {A : (request : BlkOp) -> BlkOp.Ans request -> Prop} {P : BlkOp -> Prop} {c : BlkVirtClient}

section

variable (hload : ∀ kind side, P (.load (.index kind side (c.ring kind))))

include hload

variable (kind : RingKind)

theorem ensures_ringLen : Ensures A P (fun _ => True) (ringLen kind (c.ring kind)) :=
  ⟨hload kind .tail, fun _ _ => ⟨hload kind .head, fun _ _ => trivial⟩⟩

theorem ensures_ringLength : Ensures A P (fun _ => True) (ringLength kind (c.ring kind)) := by
  unfold ringLength
  split
  · simp
  · exact ensures_ringLen hload kind

theorem ensures_ringValid (capacity : UInt32) :
    Ensures A P (fun valid => valid = true -> capacity ≠ 0)
      (ringValid kind (c.ring kind) capacity) := by
  unfold ringValid
  split
  · rename_i hguard
    simp only [Bool.and_eq_true, bne_iff_ne] at hguard
    exact (ensures_ringLen hload kind).bind fun len _ => by simp [hguard.1.2]
  · simp

end

theorem ensures_resetRing (hp : RingPermits P c) (kind : RingKind) :
    Ensures A P (fun _ => True) (resetRing kind (c.ring kind)) :=
  ⟨hp.loadIndex kind .tail, fun _ _ => ⟨hp.fence, fun _ _ =>
    ⟨hp.storeIndex kind .head _, fun _ _ => ⟨hp.fence, fun _ _ => trivial⟩⟩⟩⟩

theorem ensures_reqEmpty (hp : RingPermits P c) : Ensures A P (fun _ => True) (reqEmpty c.req) :=
  (ensures_ringLen hp.loadIndex .req).bind fun _ _ => by simp

theorem ensures_respFull (hp : RingPermits P c) (capacity : UInt32) :
    Ensures A P (fun _ => True) (respFull c.resp capacity) :=
  (ensures_ringLen hp.loadIndex .resp).bind fun _ _ => by simp

theorem ringIndex_lt {index capacity : UInt32} (hcapacity : capacity ≠ 0) :
    (index % capacity).toNat < capacity.toNat := by
  rw [UInt32.toNat_mod]
  exact Nat.mod_lt _ (Nat.pos_of_ne_zero fun h => hcapacity (UInt32.toNat_inj.mp h))

theorem ensures_dequeueReq (hp : RingPermits P c) :
    Ensures A P (fun _ => True) (dequeueReq c.req c.capacity) := by
  refine (ensures_ringValid hp.loadIndex .req c.capacity).bind fun valid hvalid => ?_
  cases valid with
  | false => simp
  | true =>
    refine (ensures_reqEmpty hp).bind fun empty _ => ?_
    cases empty with
    | true => simp
    | false =>
      refine ⟨hp.fence, fun _ _ => ⟨hp.loadIndex .req .head, fun head _ => ?_⟩⟩
      refine ⟨hp.loadReq _ (ringIndex_lt (hvalid rfl)), fun out _ => ?_⟩
      refine ⟨hp.fence, fun _ _ => ⟨hp.loadIndex .req .head, fun head _ => ?_⟩⟩
      exact ⟨hp.storeIndex .req .head _, fun _ _ => trivial⟩

theorem ensures_enqueueResp (hp : RingPermits P c) (r : BlkResp) :
    Ensures A P (fun _ => True) (enqueueResp c.resp c.capacity r) := by
  refine (ensures_ringValid hp.loadIndex .resp c.capacity).bind fun valid hvalid => ?_
  cases valid with
  | false => simp
  | true =>
    refine (ensures_respFull hp c.capacity).bind fun full _ => ?_
    cases full with
    | true => simp
    | false =>
      refine ⟨hp.loadIndex .resp .tail, fun tail _ => ?_⟩
      refine ⟨hp.storeResp _ (ringIndex_lt (hvalid rfl)) r, fun _ _ => ?_⟩
      refine ⟨hp.fence, fun _ _ => ⟨hp.loadIndex .resp .tail, fun tail _ => ?_⟩⟩
      exact ⟨hp.storeIndex .resp .tail _, fun _ _ => ⟨hp.fence, fun _ _ => trivial⟩⟩

end Rings

/-- What serving one accepted request may assume: the request passed the checks,
and a write was not refused. -/
def Accepted (A : (request : BlkOp) -> BlkOp.Ans request -> Prop) (c : BlkVirtClient)
    (req : BlkReq) : Prop :=
  requestValid c req = true /\ (req.code = aosBlkReqWrite -> A (.load (.info c.info .readOnly)) false)

section Pump

variable {γ : Type} {A : (request : BlkOp) -> BlkOp.Ans request -> Prop} {P : BlkOp -> Prop}
  {R : γ -> Prop} {v : AosBlkVirt} {c : BlkVirtClient}
  {call : BackendFn -> γ -> BlkVirtClient -> BlkReq -> BlkM (BlkRespStatus × γ)}

theorem ensures_writeRefused (hload : P (.load (.info c.info .readOnly))) (req : BlkReq) :
    Ensures A P
      (fun refused => refused = false -> req.code = aosBlkReqWrite ->
        A (.load (.info c.info .readOnly)) false)
      (writeRefused c req) := by
  unfold writeRefused
  split
  · refine ⟨hload, fun answer hanswer => ?_⟩
    rintro rfl _
    exact hanswer
  · rename_i hcode
    simp only [beq_iff_eq] at hcode
    exact fun _ h => absurd h hcode

/-- How requests reach a medium: through the backend pointer or the RAM image. -/
structure ServePermits (A : (request : BlkOp) -> BlkOp.Ans request -> Prop)
    (P : BlkOp -> Prop) (R : γ -> Prop) (v : AosBlkVirt) (c : BlkVirtClient)
    (call : BackendFn -> γ -> BlkVirtClient -> BlkReq -> BlkM (BlkRespStatus × γ)) : Prop where
  loadReadOnly : P (.load (.info c.info .readOnly))
  backend : ∀ fn, v.backend = some fn -> ∀ ctx req, R ctx -> Accepted A c req ->
    P (.backendCall req) /\ Ensures A P (fun result => R result.2) (call fn ctx c req)
  ram : v.backend = none -> ∀ req, Accepted A c req -> Ensures A P (fun _ => True) (serveRam c req)

variable {ctx : γ}

theorem ensures_serveRequest (hs : ServePermits A P R v c call) (req : BlkReq) (hctx : R ctx) :
    Ensures A P (fun result => R result.2) (serveRequest call v c req ctx) := by
  unfold serveRequest
  split
  · rename_i hvalid
    refine (ensures_writeRefused hs.loadReadOnly req).bind fun refused hrefused => ?_
    cases refused with
    | true => exact hctx
    | false =>
      have haccepted : Accepted A c req := ⟨hvalid, hrefused rfl⟩
      cases hbackend : v.backend with
      | none =>
        exact (hs.ram hbackend req haccepted).bind fun _ _ => hctx
      | some fn =>
        obtain ⟨hmark, hcall⟩ := hs.backend fn hbackend ctx req hctx haccepted
        exact ⟨hmark, fun _ _ => hcall.bind fun _ hresult => hresult⟩
  · exact hctx

/-- What is said of programs, holds of everything that makes only requests in `P`, and is kept
by sequencing. -/
structure Judgement (A : (request : BlkOp) -> BlkOp.Ans request -> Prop) (P : BlkOp -> Prop) where
  Holds : {α : Type} -> (α -> Prop) -> BlkM α -> Prop
  quiet : ∀ {α : Type} {Q : α -> Prop} {program : BlkM α}, Ensures A P Q program -> Holds Q program
  bind : ∀ {α β : Type} {Q : α -> Prop} {R : β -> Prop} {program : BlkM α} {next : α -> BlkM β},
    Holds Q program -> (∀ value, Q value -> Holds R (next value)) -> Holds R (program >>= next)

section Judged

variable (J : Judgement A P)

theorem Judgement.ret {α : Type} {Q : α -> Prop} {value : α} (h : Q value) : J.Holds Q (pure value) :=
  J.quiet h

theorem judged_pumpLoop (hp : RingPermits P c)
    (hserve : ∀ req ctx, R ctx -> J.Holds (fun result => R result.2) (serveRequest call v c req ctx))
    (budget : Nat) (completed : UInt32) (hctx : R ctx) :
    J.Holds (fun result => R result.2) (pumpLoop call v c budget completed ctx) := by
  induction budget generalizing completed ctx with
  | zero => exact J.ret hctx
  | succ budget ih =>
    refine J.bind (J.quiet (ensures_reqEmpty hp)) fun empty _ => ?_
    cases empty with
    | true => exact J.ret hctx
    | false =>
      refine J.bind (J.quiet (ensures_respFull hp c.capacity)) fun full _ => ?_
      cases full with
      | true => exact J.ret hctx
      | false =>
        refine J.bind (J.quiet (ensures_dequeueReq hp)) fun dequeued _ => ?_
        cases dequeued with
        | none => exact J.ret hctx
        | some req =>
          refine J.bind (hserve req ctx hctx) fun result hresult => ?_
          refine J.bind (J.quiet (ensures_enqueueResp hp result.1)) fun posted _ => ?_
          cases posted with
          | true => exact ih (completed + 1) hresult
          | false => exact J.ret hresult

theorem judged_pumpClient (hp : RingPermits P c)
    (hserve : ∀ req ctx, R ctx -> J.Holds (fun result => R result.2) (serveRequest call v c req ctx))
    (completed : UInt32) (hctx : R ctx) :
    J.Holds (fun result => R result.2) (pumpClient call v c completed ctx) := by
  unfold pumpClient
  split
  · exact J.ret hctx
  refine J.bind (J.quiet (ensures_ringValid hp.loadIndex .resp c.capacity)) fun respValid _ => ?_
  cases respValid with
  | false => exact J.quiet ((ensures_resetRing hp .resp).bind fun _ _ => hctx)
  | true =>
    refine J.bind (J.quiet (ensures_ringValid hp.loadIndex .req c.capacity)) fun reqValid _ => ?_
    cases reqValid with
    | false => exact J.quiet ((ensures_resetRing hp .req).bind fun _ _ => hctx)
    | true => exact judged_pumpLoop J hp hserve _ completed hctx

theorem judged_pumpClients {clients : List BlkVirtClient} (hp : ∀ c ∈ clients, RingPermits P c)
    (hserve : ∀ c ∈ clients, ∀ req ctx, R ctx ->
      J.Holds (fun result => R result.2) (serveRequest call v c req ctx))
    (completed : UInt32) (hctx : R ctx) :
    J.Holds (fun result => R result.2) (pumpClients call v clients completed ctx) := by
  induction clients generalizing completed ctx with
  | nil => exact J.ret hctx
  | cons c rest ih =>
    rw [List.forall_mem_cons] at hp hserve
    refine J.bind (judged_pumpClient J hp.1 hserve.1 completed hctx) fun result hresult => ?_
    exact ih hp.2 hserve.2 result.1 hresult

end Judged

theorem ensures_aosBlkVirtPump (hp : ∀ c ∈ v.clients, RingPermits P c)
    (hs : ∀ c ∈ v.clients, ServePermits A P R v c call) (hctx : R ctx) :
    Ensures A P (fun result => R result.2) (aosBlkVirtPump call v ctx) :=
  judged_pumpClients ⟨Ensures A P, id, Ensures.bind⟩ hp
    (fun c hc req _ hctx => ensures_serveRequest (hs c hc) req hctx) 0 hctx

end Pump

/-! ## Trace properties -/

/-- A trace property that segments add up to, that the ring operations cannot
violate and that serving a request establishes. -/
structure TraceRule (T : Trace BlkIo -> Prop) (P : BlkOp -> Prop) : Prop where
  append : ∀ xs ys, T xs -> T ys -> T (xs ++ ys)
  quiet : ∀ trace : Trace BlkIo, (∀ event ∈ trace, P event.request) -> T trace

variable {T : Trace BlkIo -> Prop} {P : BlkOp -> Prop}

def TraceRule.judgement (hT : TraceRule T P) : Judgement (anyAnswer (I := BlkIo)) P where
  Holds Q program := ∀ trace value, Run program trace value -> T trace /\ Q value
  quiet h trace value hrun := ⟨hT.quiet trace (h.requests hrun), h.result hrun⟩
  bind h hnext trace value hrun := by
    obtain ⟨first, second, middle, rfl, hfirst, hsecond⟩ := run_bind_iff.mp hrun
    obtain ⟨htrace, hvalue⟩ := h first middle hfirst
    obtain ⟨htrace', hvalue'⟩ := hnext middle hvalue second value hsecond
    exact ⟨hT.append first second htrace htrace', hvalue'⟩

theorem allTraces_aosBlkVirtPump {γ : Type} {v : AosBlkVirt}
    {call : BackendFn -> γ -> BlkVirtClient -> BlkReq -> BlkM (BlkRespStatus × γ)}
    (hT : TraceRule T P) (hp : ∀ c ∈ v.clients, RingPermits P c)
    (hserve : ∀ c ∈ v.clients, ∀ req ctx, AllTraces T (serveRequest call v c req ctx))
    (ctx : γ) : AllTraces T (aosBlkVirtPump call v ctx) := by
  intro trace value hrun
  refine (judged_pumpClients (R := fun _ : γ => True) hT.judgement hp (fun c hc req ctx _ => ?_) 0
    trivial trace value hrun).1
  exact fun trace value hrun => ⟨hserve c hc req ctx trace value hrun, trivial⟩

end AgentOs.BlkVirt
