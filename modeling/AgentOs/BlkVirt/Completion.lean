import AgentOs.Library.Ring
import AgentOs.Library.Machine
import AgentOs.BlkVirt.Lifecycle

/-!
# Exactly-once, in-order completion

A client uses its two rings while the pump runs, one memory access at a time.  At most one
request is in flight.
-/

open Function (update_self update_of_ne)

namespace AgentOs.BlkVirt

open Library Prog Machine List

@[simp]
def ringWord : Nat := 2 ^ 32

@[simp]
def ringCap : Nat := 128

/-- The requests waiting in a ring. -/
def BlkHeap.reqs (h : BlkHeap) (q : BlkPtr) : List BlkReq :=
  Ring.contents ringWord ringCap (h.reqBuf q) (h.ring .req q).head.toNat
    (h.ring .req q).tail.toNat

/-- The responses waiting in a ring. -/
def BlkHeap.resps (h : BlkHeap) (q : BlkPtr) : List BlkResp :=
  Ring.contents ringWord ringCap (h.respBuf q) (h.ring .resp q).head.toNat
    (h.ring .resp q).tail.toNat

/-- The shared memory with the history of what the client published and consumed. -/
structure CompletionWorld where
  heap : BlkHeap
  enqueued : List BlkReq
  consumed : List BlkResp

/-- A step of the client: write a request slot that holds no request, publish the
next one, consume a response, or change anything that is not its rings. -/
inductive ClientStep (q : BlkVirtClient) : CompletionWorld -> CompletionWorld -> Prop where
  | fill {w : CompletionWorld} {k : Nat} {r : BlkReq} :
      (∀ j, j < (w.heap.reqs q.req).length ->
        Ring.slot ringCap (w.heap.ring .req q.req).head.toNat j ≠ k) ->
      ClientStep q w { w with heap := w.heap.store (.reqBuffer q.req k) r }
  | publish {w : CompletionWorld} :
      (w.heap.reqs q.req).length < ringCap ->
      ClientStep q w { w with
        heap := w.heap.store (.index .req .tail q.req) ((w.heap.ring .req q.req).tail + 1)
        enqueued := w.enqueued ++
          [w.heap.reqBuf q.req ((w.heap.ring .req q.req).tail.toNat % ringCap)] }
  | consume {w : CompletionWorld} :
      0 < (w.heap.resps q.resp).length ->
      ClientStep q w { w with
        heap := w.heap.store (.index .resp .head q.resp) ((w.heap.ring .resp q.resp).head + 1)
        consumed := w.consumed ++
          [w.heap.respBuf q.resp ((w.heap.ring .resp q.resp).head.toNat % ringCap)] }
  | other {w : CompletionWorld} {h : BlkHeap} :
      h.ring .req q.req = w.heap.ring .req q.req ->
      h.ring .resp q.resp = w.heap.ring .resp q.resp ->
      h.reqBuf q.req = w.heap.reqBuf q.req -> h.respBuf q.resp = w.heap.respBuf q.resp ->
      ClientStep q w { w with heap := h }

/-- Any number of pump calls on one client, with the client running in between. -/
def pumpServer (v : AosBlkVirt) (q : BlkVirtClient) : Server BlkIo BvClient CompletionWorld where
  exec request w answer w' := ∃ h, BlkHeap.Exec request w.heap answer h /\ w' = { w with heap := h }
  env := ClientStep q
  recv ctx w program w' := w' = w /\ program = do
    let result <- aosBlkVirtPump callBackend v ctx
    return result.2

/-- A response answers a request: same id, and the count of a transfer that was
carried out. -/
def Answers (req : BlkReq) (resp : BlkResp) : Prop :=
  resp.id = req.id /\ resp.successCount =
    if resp.status = .ok /\ (req.code = aosBlkReqRead \/ req.code = aosBlkReqWrite) then req.count
    else 0

/-- Everything ever produced: what the client consumed, then what waits for it. -/
def CompletionWorld.produced (w : CompletionWorld) (q : BlkVirtClient) : List BlkResp :=
  w.consumed ++ w.heap.resps q.resp

/-! ## The rings under single accesses -/

theorem len_toNat (head tail : UInt32) :
    (tail - head).toNat = Ring.len ringWord head.toNat tail.toNat := UInt32.toNat_sub tail head

theorem index_succ_toNat (index : UInt32) : (index + 1).toNat = (index.toNat + 1) % ringWord :=
  UInt32.toNat_add index 1

theorem slot_mod_toNat (index : UInt32) :
    (index % aosBlkQueueCapacity).toNat = index.toNat % ringCap := UInt32.toNat_mod _ _

section Heap

variable {h : BlkHeap} {q : BlkPtr}

theorem reqs_length (h : BlkHeap) (q : BlkPtr) : (h.reqs q).length = (h.ringLen .req q).toNat := by
  rw [BlkHeap.reqs, Ring.contents_length, BlkHeap.ringLen, len_toNat]

theorem resps_length (h : BlkHeap) (q : BlkPtr) :
    (h.resps q).length = (h.ringLen .resp q).toNat := by
  rw [BlkHeap.resps, Ring.contents_length, BlkHeap.ringLen, len_toNat]

theorem ringCap_dvd : ringCap ∣ ringWord := by decide

@[simp]
theorem ring_store_head (kind : RingKind) (head : UInt32) :
    (h.store (.index kind .head q) head).ring kind q = ⟨head, (h.ring kind q).tail⟩ := by
  simp [BlkHeap.store, BlkHeap.setRing, RingIndices.set]

@[simp]
theorem ring_store_tail (kind : RingKind) (tail : UInt32) :
    (h.store (.index kind .tail q) tail).ring kind q = ⟨(h.ring kind q).head, tail⟩ := by
  simp [BlkHeap.store, BlkHeap.setRing, RingIndices.set]

theorem reqs_publish (hroom : (h.reqs q).length < ringCap) :
    (h.store (.index .req .tail q) ((h.ring .req q).tail + 1)).reqs q =
      h.reqs q ++ [h.reqBuf q ((h.ring .req q).tail.toNat % ringCap)] := by
  rw [BlkHeap.reqs, Ring.contents_length] at hroom
  simp only [BlkHeap.reqs, ring_store_tail, index_succ_toNat]
  exact Ring.contents_push ringCap_dvd (UInt32.toNat_lt _) (UInt32.toNat_lt _) (by decide) hroom
    rfl fun _ _ => rfl

theorem reqs_take (hwork : 0 < (h.reqs q).length) :
    h.reqs q = h.reqBuf q ((h.ring .req q).head.toNat % ringCap) ::
      (h.store (.index .req .head q) ((h.ring .req q).head + 1)).reqs q := by
  rw [BlkHeap.reqs, Ring.contents_length] at hwork
  simp only [BlkHeap.reqs, ring_store_head, index_succ_toNat]
  exact Ring.contents_pop ringCap_dvd (UInt32.toNat_lt _) (UInt32.toNat_lt _) hwork _

theorem resps_consume (hsome : 0 < (h.resps q).length) :
    h.resps q = h.respBuf q ((h.ring .resp q).head.toNat % ringCap) ::
      (h.store (.index .resp .head q) ((h.ring .resp q).head + 1)).resps q := by
  rw [BlkHeap.resps, Ring.contents_length] at hsome
  simp only [BlkHeap.resps, ring_store_head, index_succ_toNat]
  exact Ring.contents_pop ringCap_dvd (UInt32.toNat_lt _) (UInt32.toNat_lt _) hsome _

theorem resps_post (hroom : (h.resps q).length < ringCap) {r : BlkResp}
    (hslot : h.respBuf q ((h.ring .resp q).tail.toNat % ringCap) = r) :
    (h.store (.index .resp .tail q) ((h.ring .resp q).tail + 1)).resps q = h.resps q ++ [r] := by
  rw [BlkHeap.resps, Ring.contents_length] at hroom
  simp only [BlkHeap.resps, ring_store_tail, index_succ_toNat]
  exact Ring.contents_push ringCap_dvd (UInt32.toNat_lt _) (UInt32.toNat_lt _) (by decide) hroom
    hslot fun _ _ => rfl

end Heap

/-! ## What a client step leaves alone -/

/-- All the proof needs to know about a step of the client. -/
structure ClientEffect (q : BlkVirtClient) (w w' : CompletionWorld) : Prop where
  head : (w'.heap.ring .req q.req).head = (w.heap.ring .req q.req).head
  tail : (w'.heap.ring .resp q.resp).tail = (w.heap.ring .resp q.resp).tail
  appended : ∃ new, w'.enqueued = w.enqueued ++ new /\ w'.heap.reqs q.req = w.heap.reqs q.req ++ new
  bounded : (w.heap.reqs q.req).length <= ringCap -> (w'.heap.reqs q.req).length <= ringCap
  front : 0 < (w.heap.reqs q.req).length ->
    w'.heap.reqBuf q.req ((w.heap.ring .req q.req).head.toNat % ringCap) =
      w.heap.reqBuf q.req ((w.heap.ring .req q.req).head.toNat % ringCap)
  produced : w'.produced q = w.produced q
  shrinks : (w'.heap.resps q.resp).length <= (w.heap.resps q.resp).length
  slots : w'.heap.respBuf q.resp = w.heap.respBuf q.resp

variable {w' : CompletionWorld} {q : BlkVirtClient} {w : CompletionWorld}

theorem clientStep_effect (hstep : ClientStep q w w') : ClientEffect q w w' := by
  cases hstep with
  | @fill k r hfree =>
    have hreqs : (w.heap.store (.reqBuffer q.req k) r).reqs q.req = w.heap.reqs q.req := by
      refine Ring.contents_congr fun j hj => ?_
      have hne := hfree j (by rwa [BlkHeap.reqs, Ring.contents_length])
      simp only [BlkHeap.store, update_self]
      exact update_of_ne hne _ _
    refine ⟨rfl, rfl, ⟨[], (append_nil _).symm, ?_⟩, ?_, ?_, rfl, Nat.le_refl _, rfl⟩
    · rw [hreqs, append_nil]
    · rw [hreqs]
      exact id
    · intro hwork
      have hne := hfree 0 hwork
      simp only [BlkHeap.store, update_self]
      exact update_of_ne hne _ _
  | publish hroom =>
    have hreqs := reqs_publish hroom
    refine ⟨?_, rfl, ⟨_, rfl, hreqs⟩, ?_, fun _ => rfl, rfl, Nat.le_refl _, rfl⟩
    · rw [ring_store_tail]
    · intro _
      simp only [hreqs, length_append, length_singleton]
      exact hroom
  | consume hsome =>
    have hresps := resps_consume hsome
    refine ⟨rfl, ?_, ⟨[], (append_nil _).symm, (append_nil _).symm⟩, id,
      fun _ => rfl, ?_, ?_, rfl⟩
    · rw [ring_store_head]
    · simp only [CompletionWorld.produced]
      rw [hresps, append_assoc, singleton_append]
    · rw [hresps]
      exact Nat.le_succ _
  | @other h hreq hresp hreqBuf hrespBuf =>
    have hreqs : h.reqs q.req = w.heap.reqs q.req := by simp only [BlkHeap.reqs, hreq, hreqBuf]
    have hresps : h.resps q.resp = w.heap.resps q.resp := by
      simp only [BlkHeap.resps, hresp, hrespBuf]
    refine ⟨by rw [hreq], by rw [hresp], ⟨[], (append_nil _).symm, ?_⟩, ?_, ?_, ?_, ?_,
      hrespBuf⟩
    · rw [hreqs, append_nil]
    · rw [hreqs]
      exact id
    · exact fun _ => by rw [hreqBuf]
    · simp only [CompletionWorld.produced, hresps]
    · rw [hresps]

/-! ## The invariant -/

section Pump

variable {v : AosBlkVirt} {q : BlkVirtClient}

/-- The requests already answered and the one in flight account for everything that
was published, and the responses answer the former one by one. -/
structure Accounted (q : BlkVirtClient) (served pending : List BlkReq) (w : CompletionWorld) :
    Prop where
  reqs : w.enqueued = served ++ pending ++ w.heap.reqs q.req
  resps : List.Forall₂ Answers served (w.produced q)
  reqBound : (w.heap.reqs q.req).length <= ringCap
  respBound : (w.heap.resps q.resp).length <= ringCap

/-- The invariant, with what the pump has found out: a request is waiting, a response
has room. -/
structure Known (q : BlkVirtClient) (served pending : List BlkReq) (work room : Bool)
    (w : CompletionWorld) : Prop where
  accounted : Accounted q served pending w
  waiting : work = true -> 0 < (w.heap.reqs q.req).length
  vacant : room = true -> (w.heap.resps q.resp).length < ringCap

theorem ClientEffect.known {w : CompletionWorld} (heffect : ClientEffect q w w')
    {served pending : List BlkReq} {work room : Bool} (h : Known q served pending work room w) :
    Known q served pending work room w' := by
  obtain ⟨new, henqueued, hreqs⟩ := heffect.appended
  refine ⟨⟨?_, ?_, heffect.bounded h.accounted.reqBound,
    heffect.shrinks.trans h.accounted.respBound⟩, ?_, ?_⟩
  · rw [henqueued, hreqs, h.accounted.reqs, append_assoc _ (w.heap.reqs q.req) new]
  · rw [heffect.produced]
    exact h.accounted.resps
  · intro hwork
    rw [hreqs, length_append]
    exact Nat.lt_of_lt_of_le (h.waiting hwork) (Nat.le_add_right _ _)
  · exact fun hroom => Nat.lt_of_le_of_lt heffect.shrinks (h.vacant hroom)

theorem known_stable (served pending : List BlkReq) (work room : Bool) :
    (pumpServer v q).Stable (Known q served pending work room) :=
  fun _ _ hstep h => (clientStep_effect hstep).known h

/-- Only the pump moves the tail of the response ring. -/
theorem known_tail_stable (served pending : List BlkReq) (work room : Bool) (tail : UInt32) :
    (pumpServer v q).Stable fun w => Known q served pending work room w /\
      (w.heap.ring .resp q.resp).tail = tail :=
  fun _ _ hstep h =>
    ⟨(clientStep_effect hstep).known h.1, (clientStep_effect hstep).tail.trans h.2⟩

/-- What holds at every moment. -/
def InFlight (q : BlkVirtClient) (w : CompletionWorld) : Prop :=
  ∃ served pending, pending.length <= 1 /\ Accounted q served pending w

theorem Known.inFlight {served pending : List BlkReq} {work room : Bool} {w : CompletionWorld}
    (h : Known q served pending work room w) (hone : pending.length <= 1) : InFlight q w :=
  ⟨served, pending, hone, h.accounted⟩

section Steps

variable {α : Type} {G A : CompletionWorld -> Prop} {Q : α -> CompletionWorld -> Prop}
  {w : CompletionWorld}

section

variable (hstable : (pumpServer v q).Stable A) (hw : A w) (hinv : ∀ w, A w -> G w)

include hstable hw hinv

theorem safe_load {cell : Cell} {next : cell.Val -> BlkM α}
    (hnext : ∀ w, A w -> (pumpServer v q).Safe G Q (next (w.heap.load cell)) w) :
    (pumpServer v q).Safe G Q (load cell >>= next) w := by
  refine safe_op hstable hw hinv ?_
  rintro w answer w' hA ⟨h, ⟨rfl, rfl⟩, rfl⟩
  exact hnext w hA

theorem safe_store {cell : Cell} {value : cell.Val} {next : Unit -> BlkM α} (hnext : ∀ w, A w ->
      (pumpServer v q).Safe G Q (next ()) { w with heap := w.heap.store cell value }) :
    (pumpServer v q).Safe G Q (store cell value >>= next) w := by
  refine safe_op hstable hw hinv ?_
  rintro w answer w' hA ⟨h, rfl, rfl⟩
  exact hnext w hA

theorem safe_fence {next : Unit -> BlkM α}
    (hnext : ∀ w, A w -> (pumpServer v q).Safe G Q (next ()) w) :
    (pumpServer v q).Safe G Q (aosFence >>= next) w := by
  refine safe_op hstable hw hinv ?_
  rintro w answer w' hA ⟨h, rfl, rfl⟩
  exact hnext w hA

end

end Steps

section Rings

variable {served pending : List BlkReq} {work room : Bool} {w : CompletionWorld}

/-- The length read from the request ring is one it had a moment ago; the client can
only have added to it. -/
theorem safe_reqLen (hone : pending.length <= 1) (hw : Known q served pending work room w) :
    (pumpServer v q).Safe (InFlight q)
      (fun n w => Known q served pending (work || n != 0) room w /\ n.toNat <= ringCap /\
        (work = true -> n ≠ 0))
      (ringLen .req q.req) w := by
  have hinv : ∀ w, Known q served pending work room w -> InFlight q w := fun w h => h.inFlight hone
  refine safe_load (known_stable _ _ _ _) hw hinv fun w hw => ?_
  -- the tail just read, against the head that only the pump moves
  let seen (w' : CompletionWorld) : UInt32 :=
    (w.heap.ring .req q.req).tail - (w'.heap.ring .req q.req).head
  have hseen : (seen w).toNat = (w.heap.reqs q.req).length := (reqs_length _ _).symm
  refine safe_load (A := fun w' => Known q served pending work room w' /\
      (seen w').toNat <= (w'.heap.reqs q.req).length /\ (work = true -> seen w' ≠ 0))
    ?_ ⟨hw, hseen.le, ?_⟩ (fun w h => hinv w h.1) ?_
  · intro w1 w2 hstep h
    have heffect := clientStep_effect hstep
    have hsame : seen w2 = seen w1 := by
      simp only [seen, heffect.head]
    obtain ⟨new, _, hreqs⟩ := heffect.appended
    refine ⟨heffect.known h.1, ?_, ?_⟩
    · rw [hsame, hreqs, length_append]
      exact h.2.1.trans (Nat.le_add_right _ _)
    · rw [hsame]
      exact h.2.2
  · intro hwork hzero
    have hpos := hw.waiting hwork
    rw [<- hseen, hzero] at hpos
    cases hpos
  · rintro w' ⟨hknown, hle, hnonzero⟩
    have hmore : Known q served pending (work || seen w' != 0) room w' := by
      refine ⟨hknown.accounted, fun hwork => ?_, hknown.vacant⟩
      rcases Bool.or_eq_true_iff.mp hwork with hwork | hne
      · exact hknown.waiting hwork
      · refine Nat.lt_of_lt_of_le (Nat.pos_of_ne_zero fun hzero => ?_) hle
        exact (bne_iff_ne.mp hne) (UInt32.toNat_inj.mp hzero)
    refine safe_ret (known_stable _ _ _ _) hmore fun w'' h => ?_
    exact ⟨h.inFlight hone, h, hle.trans hknown.accounted.reqBound, hnonzero⟩

/-- The length read from the response ring is exact when the head is read; the client
can only shorten it afterwards. -/
theorem safe_respLen (hone : pending.length <= 1) (hw : Known q served pending work room w) :
    (pumpServer v q).Safe (InFlight q)
      (fun n w => Known q served pending work (room || decide (n < aosBlkQueueCapacity)) w /\
        n.toNat <= ringCap /\ (room = true -> n < aosBlkQueueCapacity))
      (ringLen .resp q.resp) w := by
  have hinv : ∀ w, Known q served pending work room w -> InFlight q w := fun w h => h.inFlight hone
  refine safe_load (known_stable _ _ _ _) hw hinv fun w hw => ?_
  refine safe_load (known_tail_stable _ _ _ _ _) ⟨hw, rfl⟩ (fun w h => hinv w h.1) ?_
  rintro w' ⟨hknown, htail⟩
  change (pumpServer v q).Safe (InFlight q) _
    (.ret ((w.heap.ring .resp q.resp).tail - (w'.heap.ring .resp q.resp).head)) w'
  have hlen : ((w.heap.ring .resp q.resp).tail - (w'.heap.ring .resp q.resp).head).toNat =
      (w'.heap.resps q.resp).length := by
    rw [<- htail]
    exact (resps_length _ _).symm
  generalize (w.heap.ring .resp q.resp).tail - (w'.heap.ring .resp q.resp).head = n at hlen ⊢
  have hlt : n < aosBlkQueueCapacity ↔ (w'.heap.resps q.resp).length < ringCap := by
    rw [UInt32.lt_iff_toNat_lt, hlen]
    rfl
  have hmore : Known q served pending work (room || decide (n < aosBlkQueueCapacity)) w' := by
    refine ⟨hknown.accounted, hknown.waiting, fun hroom => ?_⟩
    rcases Bool.or_eq_true_iff.mp hroom with hroom | hless
    · exact hknown.vacant hroom
    · exact hlt.mp (of_decide_eq_true hless)
  refine safe_ret (known_stable _ _ _ _) hmore fun w'' h => ?_
  exact ⟨h.inFlight hone, h, hlen.le.trans hknown.accounted.respBound,
    fun hroom => hlt.mpr (hknown.vacant hroom)⟩

theorem Known.forget {work' room' : Bool} (h : Known q served pending work room w)
    (hwork : work' = true -> work = true) (hroom : room' = true -> room = true) :
    Known q served pending work' room' w :=
  ⟨h.accounted, fun hw => h.waiting (hwork hw), fun hr => h.vacant (hroom hr)⟩

/-- A client whose queues the pump accepts. -/
structure Ready (q : BlkVirtClient) : Prop where
  capacity : q.capacity = aosBlkQueueCapacity
  rings : ∀ kind, isNull (q.ring kind) = false
  info : isNull q.info = false
  data : isNull q.data = false

theorem ringValid_eq (hq : Ready q) (kind : RingKind) :
    ringValid kind (q.ring kind) q.capacity = (do
      let len <- ringLen kind (q.ring kind)
      return decide (len <= aosBlkQueueCapacity)) := by
  unfold ringValid
  rw [hq.capacity, hq.rings kind]
  rfl

theorem safe_ringValid (hq : Ready q) (kind : RingKind) (hone : pending.length <= 1)
    (hw : Known q served pending work room w) :
    (pumpServer v q).Safe (InFlight q)
      (fun valid w => valid = true /\ Known q served pending work room w)
      (ringValid kind (q.ring kind) q.capacity) w := by
  rw [ringValid_eq hq]
  have hvalid : ∀ {n : UInt32}, n.toNat <= ringCap -> decide (n <= aosBlkQueueCapacity) = true :=
    fun hle => decide_eq_true (UInt32.le_iff_toNat_le.mpr hle)
  have hdone : ∀ (n : UInt32) w, n.toNat <= ringCap -> Known q served pending work room w ->
      (pumpServer v q).Safe (InFlight q)
        (fun valid w => valid = true /\ Known q served pending work room w)
        (.ret (decide (n <= aosBlkQueueCapacity))) w := by
    intro n w hle h
    exact safe_ret (known_stable _ _ _ _) h fun w h => ⟨h.inFlight hone, hvalid hle, h⟩
  cases kind with
  | req =>
    refine (safe_reqLen hone hw).bind fun n w h => hdone n w h.2.1 ?_
    exact h.1.forget (fun hwork => by simp [hwork]) id
  | resp =>
    refine (safe_respLen hone hw).bind fun n w h => hdone n w h.2.1 ?_
    exact h.1.forget id fun hroom => by simp [hroom]

theorem safe_reqEmpty (hone : pending.length <= 1) (hw : Known q served pending work room w) :
    (pumpServer v q).Safe (InFlight q)
      (fun empty w => Known q served pending (work || !empty) room w /\
        (work = true -> empty = false))
      (reqEmpty q.req) w := by
  refine (safe_reqLen hone hw).bind fun n w ⟨hknown, _, hnonzero⟩ => ?_
  refine safe_ret (known_stable _ _ _ _) hknown fun w h => ?_
  exact ⟨h.inFlight hone, h, fun hwork => beq_eq_false_iff_ne.mpr (hnonzero hwork)⟩

theorem safe_respFull (hq : Ready q) (hone : pending.length <= 1)
    (hw : Known q served pending work room w) :
    (pumpServer v q).Safe (InFlight q)
      (fun full w => Known q served pending work (room || !full) w /\ (room = true -> full = false))
      (respFull q.resp q.capacity) w := by
  rw [hq.capacity]
  refine (safe_respLen hone hw).bind fun n w ⟨hknown, _, hless⟩ => ?_
  have hfull : (!decide (n >= aosBlkQueueCapacity)) = decide (n < aosBlkQueueCapacity) := by
    rw [<- decide_not]
    exact decide_eq_decide.mpr UInt32.not_le
  refine safe_ret (known_stable _ _ _ _) hknown fun w h => ⟨h.inFlight hone, ?_, ?_⟩
  · rw [hfull]
    exact h
  · exact fun hroom => decide_eq_false fun hge => UInt32.not_le.mpr (hless hroom) hge

/-- Advancing the head puts the oldest request in flight. -/
theorem Known.taken (h : Known q served [] true room w) :
    Known q served [w.heap.reqBuf q.req ((w.heap.ring .req q.req).head.toNat % ringCap)] false room
      { w with
        heap := w.heap.store (.index .req .head q.req) ((w.heap.ring .req q.req).head + 1) } := by
  have htake := reqs_take (h.waiting rfl)
  refine ⟨⟨?_, h.accounted.resps, ?_, h.accounted.respBound⟩, nofun, h.vacant⟩
  · rw [h.accounted.reqs, htake, append_nil, append_assoc, singleton_append]
  · have hbound := h.accounted.reqBound
    rw [htake, length_cons] at hbound
    exact (Nat.le_succ _).trans hbound

variable {r : BlkResp} {req : BlkReq}

/-- Advancing the tail over a matching response answers the request in flight. -/
theorem Known.posted (h : Known q served [req] work true w) (hanswers : Answers req r)
    (hslot : w.heap.respBuf q.resp ((w.heap.ring .resp q.resp).tail.toNat % ringCap) = r) :
    Known q (served ++ [req]) [] work false
      { w with
        heap := w.heap.store (.index .resp .tail q.resp)
          ((w.heap.ring .resp q.resp).tail + 1) } := by
  have hpost := resps_post (h.vacant rfl) hslot
  refine ⟨⟨?_, ?_, h.accounted.reqBound, ?_⟩, h.waiting, nofun⟩
  · rw [append_nil]
    exact h.accounted.reqs
  · simp only [CompletionWorld.produced]
    rw [hpost, <- append_assoc]
    exact rel_append h.accounted.resps (.cons hanswers .nil)
  · simp only [hpost, length_append, length_singleton]
    exact h.vacant rfl

/-- With a request waiting, the dequeue takes the oldest one. -/
theorem safe_dequeueReq (hq : Ready q) (hw : Known q served [] true room w) :
    (pumpServer v q).Safe (InFlight q)
      (fun out w => ∃ req, out = some req /\ Known q served [req] false room w)
      (dequeueReq q.req q.capacity) w := by
  have hnone : ([] : List BlkReq).length <= 1 := Nat.zero_le _
  refine (safe_ringValid hq .req hnone hw).bind fun valid w ⟨hvalid, hw⟩ => ?_
  subst hvalid
  refine (safe_reqEmpty hnone hw).bind fun empty w ⟨hw, hempty⟩ => ?_
  rw [hempty rfl] at hw ⊢
  have hinv : ∀ w, Known q served [] true room w -> InFlight q w := fun w h => h.inFlight hnone
  have hknown := known_stable (v := v) (q := q) served [] true room
  refine safe_fence hknown hw hinv fun w hw => ?_
  refine safe_load hknown hw hinv fun w hw => ?_
  have hhead : (pumpServer v q).Stable (fun w' => Known q served [] true room w' /\
      (w'.heap.ring .req q.req).head = (w.heap.ring .req q.req).head) := by
    intro w1 w2 hstep h
    have heffect := clientStep_effect hstep
    exact ⟨heffect.known h.1, heffect.head.trans h.2⟩
  refine safe_load hhead ⟨hw, rfl⟩ (fun w h => hinv w h.1) fun w1 h1 => ?_
  rw [hq.capacity]
  -- the slot at the head holds a request, so the client leaves it alone
  have hfront : (pumpServer v q).Stable (fun w' => (Known q served [] true room w' /\
      (w'.heap.ring .req q.req).head = (w.heap.ring .req q.req).head) /\
      w'.heap.reqBuf q.req ((w'.heap.ring .req q.req).head.toNat % ringCap) =
        w1.heap.reqBuf q.req ((w.heap.ring .req q.req).head.toNat % ringCap)) := by
    intro w2 w3 hstep h
    have heffect := clientStep_effect hstep
    refine ⟨hhead w2 w3 hstep h.1, ?_⟩
    rw [heffect.head, heffect.front (h.1.1.waiting rfl)]
    exact h.2
  have hstart : w1.heap.reqBuf q.req ((w1.heap.ring .req q.req).head.toNat % ringCap) =
      w1.heap.reqBuf q.req ((w.heap.ring .req q.req).head.toNat % ringCap) := by rw [h1.2]
  refine safe_fence hfront ⟨h1, hstart⟩ (fun w h => hinv w h.1.1) fun w2 h2 => ?_
  refine safe_load hfront h2 (fun w h => hinv w h.1.1) fun w3 h3 => ?_
  refine safe_store hfront h3 (fun w h => hinv w h.1.1) fun w4 h4 => ?_
  obtain ⟨⟨hw4, hhead4⟩, hslot4⟩ := h4
  have hloaded : w3.heap.load (.index .req .head q.req) = (w4.heap.ring .req q.req).head :=
    h3.1.2.trans hhead4.symm
  have hout : w1.heap.load (.reqBuffer q.req
      (UInt32.toNat ((w.heap.ring .req q.req).head % aosBlkQueueCapacity))) =
      w4.heap.reqBuf q.req ((w4.heap.ring .req q.req).head.toNat % ringCap) := by
    rw [hslot4, slot_mod_toNat]
    rfl
  have hafter := hw4.taken
  rw [hloaded]
  refine safe_ret (known_stable _ _ _ _) hafter fun w h => ?_
  exact ⟨h.inFlight (Nat.le_refl _), _, congrArg some hout, h⟩

/-- The response waits in the slot at the tail, not yet visible to the client. -/
def Staged (q : BlkVirtClient) (served pending : List BlkReq) (work : Bool) (r : BlkResp)
    (w : CompletionWorld) : Prop :=
  Known q served pending work true w /\
    w.heap.respBuf q.resp ((w.heap.ring .resp q.resp).tail.toNat % ringCap) = r

theorem staged_stable (r : BlkResp) : (pumpServer v q).Stable (Staged q served pending work r) := by
  intro w1 w2 hstep h
  have heffect := clientStep_effect hstep
  refine ⟨heffect.known h.1, ?_⟩
  rw [heffect.slots, heffect.tail]
  exact h.2

/-- Writing the slot at the tail disturbs no waiting response. -/
theorem Known.filled {k : Nat} (h : Known q served pending work true w)
    (hk : k = (w.heap.ring .resp q.resp).tail.toNat % ringCap) :
    Staged q served pending work r { w with heap := w.heap.store (.respBuffer q.resp k) r } := by
  have hroom := h.vacant rfl
  have hsame : (w.heap.store (.respBuffer q.resp k) r).resps q.resp = w.heap.resps q.resp := by
    refine Ring.contents_congr fun j hj => ?_
    simp only [BlkHeap.store, update_self]
    refine update_of_ne (fun hslot => ?_) _ _
    rw [BlkHeap.resps, Ring.contents_length] at hroom
    rw [hk, <- Ring.slot_len ringCap_dvd (UInt32.toNat_lt _) (UInt32.toNat_lt _)] at hslot
    exact absurd (Ring.slot_inj (hj.trans hroom) hroom hslot) (Nat.ne_of_lt hj)
  refine ⟨⟨⟨h.accounted.reqs, ?_, h.accounted.reqBound, ?_⟩, h.waiting, ?_⟩, ?_⟩
  · simp only [CompletionWorld.produced, hsame]
    exact h.accounted.resps
  · simp only [hsame]
    exact h.accounted.respBound
  · intro _
    simp only [hsame]
    exact hroom
  · simp only [BlkHeap.store, hk, update_self]

theorem safe_publish (hanswers : Answers req r) (hw : Staged q served [req] work r w) :
    (pumpServer v q).Safe (InFlight q)
      (fun posted w => posted = true /\ Known q (served ++ [req]) [] work false w)
      (do
        aosFence
        let tail <- load (.index .resp .tail q.resp)
        store (.index .resp .tail q.resp) (tail + 1)
        aosFence
        return true) w := by
  have hinv : ∀ w, Staged q served [req] work r w -> InFlight q w :=
    fun w h => h.1.inFlight (Nat.le_refl _)
  refine safe_fence (staged_stable r) hw hinv fun w hw => ?_
  refine safe_load (staged_stable r) hw hinv fun w hw => ?_
  refine safe_store (A := fun w' => Staged q served [req] work r w' /\
      (w'.heap.ring .resp q.resp).tail = (w.heap.ring .resp q.resp).tail)
    ?_ ⟨hw, rfl⟩ (fun w h => hinv w h.1) fun w1 h1 => ?_
  · intro w1 w2 hstep h
    exact ⟨staged_stable (v := v) r w1 w2 hstep h.1, (clientStep_effect hstep).tail.trans h.2⟩
  · have hloaded : w.heap.load (.index .resp .tail q.resp) = (w1.heap.ring .resp q.resp).tail :=
      h1.2.symm
    rw [hloaded]
    have hposted := h1.1.1.posted hanswers h1.1.2
    have hdone : ∀ w, Known q (served ++ [req]) [] work false w -> InFlight q w :=
      fun w h => h.inFlight (Nat.zero_le _)
    refine safe_fence (known_stable _ _ _ _) hposted hdone fun w hw => ?_
    exact safe_ret (known_stable _ _ _ _) hw fun w h => ⟨hdone w h, rfl, h⟩

/-- With room for a response, posting it succeeds. -/
theorem safe_enqueueResp (hq : Ready q) (hanswers : Answers req r)
    (hw : Known q served [req] work true w) :
    (pumpServer v q).Safe (InFlight q)
      (fun posted w => posted = true /\ Known q (served ++ [req]) [] work false w)
      (enqueueResp q.resp q.capacity r) w := by
  have hone : [req].length <= 1 := Nat.le_refl _
  refine (safe_ringValid hq .resp hone hw).bind fun valid w ⟨hvalid, hw⟩ => ?_
  subst hvalid
  refine (safe_respFull hq hone hw).bind fun full w ⟨hw, hfull⟩ => ?_
  rw [hfull rfl] at hw ⊢
  have hinv : ∀ w, Known q served [req] work true w -> InFlight q w := fun w h => h.inFlight hone
  refine safe_load (known_stable _ _ _ _) hw hinv fun w hw => ?_
  refine safe_store (known_tail_stable _ _ _ _ _) ⟨hw, rfl⟩ (fun w h => hinv w h.1) fun w1 h1 => ?_
  refine safe_publish hanswers (h1.1.filled ?_)
  rw [hq.capacity, h1.2]
  exact slot_mod_toNat _

/-! ## Serving a request touches no ring -/

/-- Requests that leave both rings alone. -/
def LeavesRings : BlkOp -> Prop
  | .store (.index _ _ _) _ => False
  | .store (.reqBuffer _ _) _ => False
  | .store (.respBuffer _ _) _ => False
  | .store (.ringZero _ _) _ => False
  | _ => True

theorem leavesRings_exec {request : BlkOp} {answer : BlkOp.Ans request} {h h' : BlkHeap}
    (hrequest : LeavesRings request) (hexec : BlkHeap.Exec request h answer h') :
    h'.ring = h.ring /\ h'.reqBuf = h.reqBuf /\ h'.respBuf = h.respBuf := by
  cases request with
  | load cell =>
    obtain ⟨_, rfl⟩ := hexec
    exact ⟨rfl, rfl, rfl⟩
  | store cell value =>
    cases hexec
    cases cell <;> first | exact hrequest.elim | exact ⟨rfl, rfl, rfl⟩
  | hostCall call =>
    obtain ⟨byte, rfl⟩ := hexec
    exact ⟨rfl, rfl, rfl⟩
  | _ =>
    cases hexec
    exact ⟨rfl, rfl, rfl⟩

theorem Known.leavesRings {request : BlkOp} {answer : BlkOp.Ans request}
    (hrequest : LeavesRings request) (h : Known q served pending work room w)
    (hexec : (pumpServer v q).exec request w answer w') :
    Known q served pending work room w' := by
  obtain ⟨heap, hheap, rfl⟩ := hexec
  obtain ⟨hring, hreqBuf, hrespBuf⟩ := leavesRings_exec hrequest hheap
  -- such a request is, for the rings, a step of the client that is about other memory
  have hstep : ClientStep q w { w with heap := heap } :=
    .other (by rw [hring]) (by rw [hring]) (by rw [hreqBuf]) (by rw [hrespBuf])
  exact (clientStep_effect hstep).known h

theorem answers_successCount (req : BlkReq) (status : BlkRespStatus) :
    Answers req ⟨status, successCount req status, req.id⟩ := by
  refine ⟨rfl, ?_⟩
  by_cases htransfer : status = .ok /\ (req.code = aosBlkReqRead \/ req.code = aosBlkReqWrite)
  · rw [if_pos htransfer]
    exact if_pos (by simpa using htransfer)
  · rw [if_neg htransfer]
    exact if_neg (by simpa using htransfer)

theorem ensures_serveRequest_answers (req : BlkReq) (ctx : BvClient) :
    Ensures (anyAnswer (I := BlkIo)) LeavesRings (fun result => Answers req result.1)
      (serveRequest callBackend v q req ctx) := by
  have hbytes : ∀ p n, BytesPermitted LeavesRings p n := fun _ _ _ _ => ⟨trivial, fun _ => trivial⟩
  unfold serveRequest
  split
  · rename_i hvalid
    refine (ensures_writeRefused (P := LeavesRings) trivial req).bind fun refused _ => ?_
    cases refused with
    | true => exact ⟨rfl, by simp⟩
    | false =>
      cases v.backend with
      | none =>
        refine (ensures_serveRam hvalid (hbytes _ _) (hbytes _ _)).bind fun status _ => ?_
        exact answers_successCount req status
      | some fn =>
        cases fn
        refine ⟨trivial, fun _ _ => ?_⟩
        refine (ensures_hostBlkBackend hvalid ?_).bind fun result _ => ?_
        · exact ⟨trivial, hbytes _ _, hbytes _ _, fun _ _ _ _ _ _ => trivial, trivial⟩
        · exact answers_successCount req result.1
  · exact ⟨rfl, by simp⟩

theorem safe_serveRequest (hone : pending.length <= 1) (req : BlkReq) (ctx : BvClient)
    (hw : Known q served pending work room w) :
    (pumpServer v q).Safe (InFlight q)
      (fun result w => Answers req result.1 /\ Known q served pending work room w)
      (serveRequest callBackend v q req ctx) w := by
  refine Safe.guarantee (safe_of_frame (ensures_serveRequest_answers req ctx)
    (known_stable served pending work room) ?_ hw) fun w h => h.inFlight hone
  exact fun request w answer w' hrequest h hexec => h.leavesRings hrequest hexec

/-! ## The pump -/

theorem safe_pumpLoop (hq : Ready q) (budget : Nat) (completed : UInt32) (ctx : BvClient)
    (hw : Known q served [] false false w) :
    (pumpServer v q).Safe (InFlight q)
      (fun _ w => ∃ served, Known q served [] false false w)
      (pumpLoop callBackend v q budget completed ctx) w := by
  have hnone : ([] : List BlkReq).length <= 1 := Nat.zero_le _
  have hret : ∀ {served : List BlkReq} {work room : Bool} (value : UInt32 × BvClient) w,
      Known q served [] work room w ->
      (pumpServer v q).Safe (InFlight q) (fun _ w => ∃ served, Known q served [] false false w)
        (.ret value) w := by
    intro served work room value w h
    refine safe_ret (known_stable _ _ _ _) h fun w h => ?_
    exact ⟨h.inFlight hnone, served, h.forget nofun nofun⟩
  induction budget generalizing served completed ctx w with
  | zero => exact hret _ w hw
  | succ budget ih =>
    refine (safe_reqEmpty hnone hw).bind fun empty w ⟨hw, _⟩ => ?_
    cases empty with
    | true => exact hret _ w hw
    | false =>
      refine (safe_respFull hq hnone hw).bind fun full w ⟨hw, _⟩ => ?_
      cases full with
      | true => exact hret _ w hw
      | false =>
        refine (safe_dequeueReq hq hw).bind fun out w ⟨req, hout, hw⟩ => ?_
        subst hout
        refine (safe_serveRequest (Nat.le_refl _) req ctx hw).bind fun result w ⟨hanswers, hw⟩ => ?_
        refine (safe_enqueueResp hq hanswers hw).bind fun posted w ⟨hposted, hw⟩ => ?_
        subst hposted
        exact ih (completed + 1) result.2 hw

theorem safe_aosBlkVirtPump (hq : Ready q) (hv : v.clients = [q]) (ctx : BvClient)
    (hw : Known q served [] false false w) :
    (pumpServer v q).Safe (InFlight q)
      (fun _ w => ∃ served, Known q served [] false false w)
      (aosBlkVirtPump callBackend v ctx) w := by
  have hnone : ([] : List BlkReq).length <= 1 := Nat.zero_le _
  have hguard : (isNull q.info || isNull q.req || isNull q.resp || isNull q.data ||
      q.capacity == 0 || decide (q.capacity > aosBlkQueueCapacity)) = false := by
    have hreq : isNull q.req = false := hq.rings .req
    have hresp : isNull q.resp = false := hq.rings .resp
    rw [hq.info, hreq, hresp, hq.data, hq.capacity]
    decide
  unfold aosBlkVirtPump
  rw [hv]
  refine Safe.bind (Q := fun _ w => ∃ served, Known q served [] false false w) ?_ ?_
  · unfold pumpClient
    rw [hguard]
    refine (safe_ringValid hq .resp hnone hw).bind fun valid w ⟨hvalid, hw⟩ => ?_
    subst hvalid
    refine (safe_ringValid hq .req hnone hw).bind fun valid w ⟨hvalid, hw⟩ => ?_
    subst hvalid
    exact safe_pumpLoop hq _ _ ctx hw
  · rintro result w ⟨served, hw⟩
    refine safe_ret (known_stable _ _ _ _) hw fun w h => ⟨h.inFlight hnone, served, h⟩

end Rings

end Pump

/-- A client before its first request: both rings are empty, wherever their indices
stand. -/
structure Fresh (q : BlkVirtClient) (w : CompletionWorld) : Prop where
  rings : ∀ kind, (w.heap.ring kind (q.ring kind)).head = (w.heap.ring kind (q.ring kind)).tail
  enqueued : w.enqueued = []
  consumed : w.consumed = []

theorem Fresh.known (h : Fresh q w) : Known q [] [] false false w := by
  have hlen : ∀ kind, (w.heap.ringLen kind (q.ring kind)).toNat = 0 := by
    intro kind
    rw [BlkHeap.ringLen, h.rings kind, UInt32.sub_self]
    rfl
  have hreqs : w.heap.reqs q.req = [] :=
    length_eq_zero_iff.mp ((reqs_length _ _).trans (hlen .req))
  have hresps : w.heap.resps q.resp = [] :=
    length_eq_zero_iff.mp ((resps_length _ _).trans (hlen .resp))
  refine ⟨⟨?_, ?_, ?_, ?_⟩, nofun, nofun⟩
  · rw [h.enqueued, hreqs]
    rfl
  · rw [CompletionWorld.produced, h.consumed, hresps]
    exact .nil
  · rw [hreqs]
    exact Nat.zero_le _
  · rw [hresps]
    exact Nat.zero_le _

/-- The responses produced carry the ids of the first requests published. -/
theorem Accounted.ids {served pending : List BlkReq} (h : Accounted q served pending w) :
    (w.produced q).map BlkResp.id <+: w.enqueued.map BlkReq.id := by
  have hids : ∀ {reqs resps}, List.Forall₂ Answers reqs resps ->
      resps.map BlkResp.id = reqs.map BlkReq.id := by
    intro reqs resps hall
    induction hall with
    | nil => rfl
    | cons hanswers _ ih => rw [map_cons, map_cons, hanswers.1, ih]
  rw [hids h.resps, h.reqs, append_assoc, map_append]
  exact prefix_append _ _

theorem Bound.ready {i : Nat} {c : BvClient} (h : Bound i c) : Ready c.q := by
  have hq := h.queue
  rw [clientBind_not_null h.slot] at hq
  refine ⟨?_, ?_, ?_, ?_⟩
  · rw [<- hq]
  · intro kind
    rw [<- hq]
    cases kind <;> rfl
  · rw [<- hq]
    rfl
  · rw [<- hq]
    rfl

/-- For any interleaving of the client with any number of pump calls: the published requests are
those answered, at most one in flight and those still waiting, and the responses answer the first
of them one by one.  Between two pump calls nothing is in flight. -/
theorem blkVirt_completion {build : Build} {s : BvState} (hs : Reachable build s) {i : Nat}
    (hattached : (s.clients i).attached = true) {w : CompletionWorld}
    (hfresh : Fresh (s.clients i).q w) {config : Phase BlkIo BvClient × CompletionWorld}
    (hreach : (pumpServer (s.clients i).virt (s.clients i).q).Reach
      (.waiting (s.clients i), w) config) :
    ∃ served pending,
      config.2.enqueued = served ++ pending ++ config.2.heap.reqs (s.clients i).q.req /\
      List.Forall₂ Answers served (config.2.produced (s.clients i).q) /\
      (config.2.produced (s.clients i).q).map BlkResp.id <+: config.2.enqueued.map BlkReq.id /\
      pending.length <= 1 /\ (∀ ctx, config.1 = .waiting ctx -> pending = []) := by
  have hbound := (hs.tableOk i).of_attached hattached
  let server := pumpServer (s.clients i).virt (s.clients i).q
  let idle (_ : BvClient) (w : CompletionWorld) : Prop :=
    ∃ served, Known (s.clients i).q served [] false false w
  have hidle : ∀ ctx w, idle ctx w -> InFlight (s.clients i).q w := by
    rintro ctx w ⟨served, h⟩
    exact h.inFlight (Nat.zero_le _)
  have hstable : ∀ ctx, server.Stable (idle ctx) := by
    rintro ctx w w' hstep ⟨served, h⟩
    exact ⟨served, (clientStep_effect hstep).known h⟩
  have hrecv : ∀ ctx w program w', idle ctx w -> server.recv ctx w program w' ->
      server.Safe (InFlight (s.clients i).q) idle program w' := by
    rintro ctx w program w' ⟨served, h⟩ ⟨rfl, rfl⟩
    refine (safe_aosBlkVirtPump hbound.ready hbound.clients ctx h).bind fun result w hw => ?_
    exact safe_ret (hstable ctx) hw fun w h => ⟨hidle ctx w h, h⟩
  have hcovered := Server.reach_covered hstable hrecv hreach ⟨[], hfresh.known⟩
  obtain ⟨phase, w'⟩ := config
  cases phase with
  | waiting ctx =>
    obtain ⟨served, h⟩ := hcovered
    have hacc := h.accounted
    exact ⟨served, [], hacc.reqs, hacc.resps, hacc.ids, Nat.zero_le _, fun _ _ => rfl⟩
  | running program =>
    obtain ⟨served, pending, hone, h⟩ := Server.covered_guarantee hidle hcovered
    refine ⟨served, pending, h.reqs, h.resps, h.ids, hone, fun ctx hphase => ?_⟩
    cases hphase

/-! ## One flush -/

/-- Sequential answers for the world with its history. -/
def completionHandler (request : BlkOp) (w : CompletionWorld) :
    BlkOp.Ans request × CompletionWorld :=
  ((handler noDriver request (w.heap, ())).1,
    { w with heap := (handler noDriver request (w.heap, ())).2.1 })

theorem completionHandler_exec (v : AosBlkVirt) (q : BlkVirtClient) (request : BlkOp)
    (w : CompletionWorld) :
    (pumpServer v q).exec request w (completionHandler request w).1
      (completionHandler request w).2 :=
  ⟨_, handler_exec request w.heap, rfl⟩

/-- The primary guest has published one flush. -/
def flushPublished : CompletionWorld :=
  let req := (primaryAttached.clients 0).q.req
  ⟨((BlkHeap.zero.store (.reqBuffer req 0) ⟨aosBlkReqFlush, 0, 0, 0, 7⟩).store
    (.index .req .tail req) (1 : UInt32)), [⟨aosBlkReqFlush, 0, 0, 0, 7⟩], []⟩

/-- One undisturbed pump call later. -/
def flushServed : BvClient × CompletionWorld :=
  eval completionHandler (do
    let result <- aosBlkVirtPump callBackend (primaryAttached.clients 0).virt
      (primaryAttached.clients 0)
    return result.2) flushPublished

theorem flushServed_reach :
    (pumpServer (primaryAttached.clients 0).virt (primaryAttached.clients 0).q).Reach
      (.waiting (primaryAttached.clients 0), ⟨.zero, [], []⟩)
      (.waiting flushServed.1, flushServed.2) := by
  refine .trans (Server.reach_env _ (.fill (k := 0) (r := ⟨aosBlkReqFlush, 0, 0, 0, 7⟩) ?_)) ?_
  · exact fun j hj => absurd hj (Nat.not_lt_zero j)
  · refine .trans (Server.reach_env _ (.publish ?_)) ?_
    · decide +kernel
    · exact .head (.recv ⟨rfl, rfl⟩) (Server.reach_eval _ (completionHandler_exec _ _) _ _)

theorem blkVirt_completion_flush :
    (flushServed.2.produced (primaryAttached.clients 0).q).map BlkResp.id = [7] /\
    ∃ served pending,
      flushServed.2.enqueued =
        served ++ pending ++ flushServed.2.heap.reqs (primaryAttached.clients 0).q.req /\
      List.Forall₂ Answers served (flushServed.2.produced (primaryAttached.clients 0).q) := by
  have hfresh : Fresh (primaryAttached.clients 0).q ⟨.zero, [], []⟩ := ⟨fun _ => rfl, rfl, rfl⟩
  obtain ⟨served, pending, hreqs, hresps, _⟩ :=
    blkVirt_completion primaryAttached_reachable (by decide +kernel) hfresh flushServed_reach
  exact ⟨by decide +kernel, served, pending, hreqs, hresps⟩

end AgentOs.BlkVirt
