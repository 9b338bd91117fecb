import AgentOs.Library.Machine
import AgentOs.BlkVirt.Isolation

/-!
# Wakeups of the block virtualizer

The VMMs of `vmm_virtio_blk.c` run concurrently with the receive loop.  A VMM kicks only while
the suppression word of its client is zero, and the virtualizer looks at all queues once more
after it has cleared the words, with at most three further passes.
-/

open Function (update update_self update_of_ne)

namespace AgentOs.BlkVirt

open Library Prog Machine Ipc Relation List Option

/-! ## The VMMs -/

/-- Where a VMM stands: between two guest exits, handling one, or in one of the
accesses of `blk_virt_kick_if_pending`. -/
inductive VmmPhase where
  | idle
  | batch
  | queueCheck
  | wordCheck
  | kicking
  deriving DecidableEq

inductive VmmAction where
  | guestExit
  | respReady
  | enqueueReq (req : BlkReq)
  | dequeueResp
  | kickIfPending
  | checkQueue
  | checkWord
  | kick

/-- Shared memory, the bound notification of the virtualizer, and for each client its
VMM and the notification bound to that VMM. -/
structure WakeWorld where
  heap : BlkHeap
  kick : Bool
  vmm : Nat -> VmmPhase
  respReady : Nat -> Bool

/-- The queues as the VMM of a client binds them. -/
def clientQueues (i : Nat) : BlkVirtClient := aosBlkClientBind shmem (.ofNat i) .zero

def WakeWorld.setVmm (w : WakeWorld) (i : Nat) (phase : VmmPhase) : WakeWorld :=
  { w with vmm := update w.vmm i phase }

def enqueueReq (h : BlkHeap) (q : BlkPtr) (req : BlkReq) : BlkHeap :=
  let tail := (h.ring .req q).tail
  (h.store (.reqBuffer q (tail % aosBlkQueueCapacity).toNat) req).store
    (.index .req .tail q) (tail + 1)

def dequeueResp (h : BlkHeap) (q : BlkPtr) : BlkHeap :=
  h.store (.index .resp .head q) ((h.ring .resp q).head + 1)

/-- One step of the VMM of client `i`, when it can take it. -/
def vmmStep (i : Nat) (w : WakeWorld) : VmmAction -> Option WakeWorld
  | .guestExit => if w.vmm i = .idle then some (w.setVmm i .batch) else none
  | .respReady =>
    if w.vmm i = .idle /\ w.respReady i = true then
      some { w.setVmm i .batch with respReady := update w.respReady i false }
    else none
  | .enqueueReq req =>
    if w.vmm i = .batch /\ w.heap.ringLen .req (clientQueues i).req < aosBlkQueueCapacity then
      some { w with heap := enqueueReq w.heap (clientQueues i).req req }
    else none
  | .dequeueResp =>
    if w.vmm i = .batch /\ w.heap.ringLen .resp (clientQueues i).resp ≠ 0 then
      some { w with heap := dequeueResp w.heap (clientQueues i).resp }
    else none
  | .kickIfPending => if w.vmm i = .batch then some (w.setVmm i .queueCheck) else none
  | .checkQueue =>
    if w.vmm i = .queueCheck then
      some (w.setVmm i
        (if w.heap.ringLen .req (clientQueues i).req = 0 then .idle else .wordCheck))
    else none
  | .checkWord =>
    if w.vmm i = .wordCheck then
      some (w.setVmm i (if w.heap.signal (clientQueues i).signal = 0 then .kicking else .idle))
    else none
  | .kick =>
    if w.vmm i = .kicking then some { w.setVmm i .idle with kick := true } else none

/-! ## The virtualizer among them -/

/-- A RESP_READY signal stays pending until its VMM takes it. -/
def raise (build : Build) : BlkOp -> (Nat -> Bool) -> Nat -> Bool
  | .signal cap, pending => fun i =>
    pending i || vmmNotifyForSlot build (.ofNat i) == cap
  | _, pending => pending

/-- A kick is consumed by the receive that returns it. -/
def deliver (msg : Incoming) (w : WakeWorld) : Option WakeWorld :=
  if blkVirtServiceNotification msg.badge then
    if w.kick then some { w with kick := false } else none
  else
    some w

/-- The program of one turn, up to the next receive. -/
def turn (build : Build) (msg : Incoming) (s : BvState) : BlkM BvState := do
  let result <- blkVirtRun build msg s
  return result.1

def wakeServer (build : Build) : Server BlkIo BvState WakeWorld where
  exec request w answer w' :=
    ∃ h, BlkHeap.Exec request w.heap answer h /\
      w' = { w with heap := h, respReady := raise build request w.respReady }
  env w w' := ∃ i action, i < aosBlkMaxClients /\ vmmStep i w action = some w'
  recv s w program w' := ∃ msg, deliver msg w = some w' /\ program = turn build msg s

/-- The client has requests, and room for an answer. -/
def Servable (h : BlkHeap) (q : BlkVirtClient) : Prop :=
  h.ringLen .req q.req ≠ 0 /\ h.ringLen .req q.req <= q.capacity /\ h.ringLen .resp q.resp < q.capacity

instance (h : BlkHeap) (q : BlkVirtClient) : Decidable (Servable h q) :=
  inferInstanceAs (Decidable (_ /\ _))

/-- The virtualizer will be woken, or the VMM has its check still before it. -/
def WakeWorld.WillCheck (w : WakeWorld) (i : Nat) : Prop :=
  w.kick = true \/ w.vmm i ≠ .idle \/ w.respReady i = true

/-- No kick is pending and no VMM has anything left to do. -/
def WakeWorld.Quiet (w : WakeWorld) : Prop :=
  w.kick = false /\ ∀ i, i < aosBlkMaxClients -> w.vmm i = .idle /\ w.respReady i = false

/-- When the last pass of a round has cleared the words, every attached client that
could be served has a VMM that will check its queue. -/
def LastPassClear : BlkOp -> WakeWorld -> Prop
  | .wordsCleared 0 attached, w =>
    ∀ i, attached i = true -> Servable w.heap (clientQueues i) -> w.WillCheck i
  | _, _ => True

/-- The runs in which the pass limit never cuts off work. -/
def calmServer (build : Build) : Server BlkIo BvState WakeWorld :=
  (wakeServer build).restrict LastPassClear fun _ _ => True

/-! ## What one step of a VMM can do -/

/-- The effect of a VMM on its own client and on everything else. -/
structure VmmEffect (i : Nat) (w w' : WakeWorld) : Prop where
  words : w'.heap.signal = w.heap.signal
  kick : w.kick = true -> w'.kick = true
  others : ∀ j, j < aosBlkMaxClients -> j ≠ i ->
    (∀ kind, w'.heap.ring kind ((clientQueues j).ring kind) =
      w.heap.ring kind ((clientQueues j).ring kind)) /\
    w'.vmm j = w.vmm j /\ w'.respReady j = w.respReady j
  rings : (∀ kind, w'.heap.ring kind ((clientQueues i).ring kind) =
      w.heap.ring kind ((clientQueues i).ring kind)) \/ w'.vmm i ≠ .idle
  idle : w'.vmm i = .idle -> w'.kick = true \/
    w'.heap.ringLen .req (clientQueues i).req = 0 \/
    w'.heap.signal (clientQueues i).signal ≠ 0

variable {j : Nat} {i : Nat}

theorem clientQueues_ring_ne (hi : i < aosBlkMaxClients) (hj : j < aosBlkMaxClients) (hne : j ≠ i)
    (kind : RingKind) :
    (clientQueues j).ring kind ≠ (clientQueues i).ring kind := by
  simp only [aosBlkMaxClients] at hi hj
  have hcase : (i = 0 /\ j = 1) \/ (i = 1 /\ j = 0) := by omega
  rcases hcase with ⟨rfl, rfl⟩ | ⟨rfl, rfl⟩ <;> cases kind <;> decide

theorem setVmm_self (w : WakeWorld) (i : Nat) (phase : VmmPhase) :
    (w.setVmm i phase).vmm i = phase := by
  simp [WakeWorld.setVmm]

variable {w : WakeWorld}

/-- A VMM that only moves on leaves memory and the other VMMs alone. -/
theorem VmmEffect.setVmm {phase : VmmPhase}
    (hidle : phase = .idle -> w.kick = true \/ w.heap.ringLen .req (clientQueues i).req = 0 \/
      w.heap.signal (clientQueues i).signal ≠ 0) : VmmEffect i w (w.setVmm i phase) where
  words := rfl
  kick h := h
  others _ _ hne := ⟨fun _ => rfl, update_of_ne hne _ _, rfl⟩
  rings := Or.inl fun _ => rfl
  idle h := hidle ((setVmm_self w i phase).symm.trans h)

variable {h : BlkHeap}

/-- A VMM that moves one of its indices is in the middle of its work. -/
theorem VmmEffect.setRing (kind : RingKind) (hi : i < aosBlkMaxClients) (hbusy : w.vmm i ≠ .idle)
    (hwords : h.signal = w.heap.signal)
    (hrings : ∀ kind' q, (kind' = kind -> q ≠ (clientQueues i).ring kind) -> h.ring kind' q =
      w.heap.ring kind' q) :
    VmmEffect i w { w with heap := h } where
  words := hwords
  kick h := h
  others j hj hne := by
    refine ⟨fun kind' => hrings kind' _ ?_, rfl, rfl⟩
    intro hkind
    rw [hkind]
    exact clientQueues_ring_ne hi hj hne kind
  rings := Or.inr hbusy
  idle h := absurd h hbusy

theorem setRing_of_ne {kind kind' : RingKind} {q q' : BlkPtr} {r : RingIndices}
    (hne : kind' = kind -> q' ≠ q) : (h.setRing kind q r).ring kind' q' = h.ring kind' q' :=
  if_neg fun hsame => hne hsame.1 hsame.2

theorem vmmStep_effect (hi : i < aosBlkMaxClients) {w' : WakeWorld} {action : VmmAction}
    (hstep : vmmStep i w action = some w') : VmmEffect i w w' := by
  have hstarted : VmmPhase.batch ≠ .idle := by decide
  cases action with
  | guestExit =>
    obtain ⟨_, ⟨⟩⟩ := ite_none_right_eq_some.mp hstep
    exact .setVmm fun h => absurd h hstarted
  | respReady =>
    obtain ⟨_, ⟨⟩⟩ := ite_none_right_eq_some.mp hstep
    refine ⟨rfl, id, fun j _ hne => ?_, Or.inl fun _ => rfl, fun h => ?_⟩
    · exact ⟨fun _ => rfl, update_of_ne hne _ _, update_of_ne hne _ _⟩
    · exact absurd ((setVmm_self w i .batch).symm.trans h) hstarted
  | enqueueReq req =>
    obtain ⟨⟨hbatch, _⟩, ⟨⟩⟩ := ite_none_right_eq_some.mp hstep
    refine .setRing .req hi (by rw [hbatch]; exact hstarted) rfl fun kind' q hne => ?_
    exact setRing_of_ne hne
  | dequeueResp =>
    obtain ⟨⟨hbatch, _⟩, ⟨⟩⟩ := ite_none_right_eq_some.mp hstep
    refine .setRing .resp hi (by rw [hbatch]; exact hstarted) rfl fun kind' q hne => ?_
    exact setRing_of_ne hne
  | kickIfPending =>
    obtain ⟨_, ⟨⟩⟩ := ite_none_right_eq_some.mp hstep
    exact .setVmm nofun
  | checkQueue =>
    obtain ⟨_, ⟨⟩⟩ := ite_none_right_eq_some.mp hstep
    refine .setVmm fun h => Or.inr (Or.inl ?_)
    by_contra hwork
    rw [if_neg hwork] at h
    cases h
  | checkWord =>
    obtain ⟨_, ⟨⟩⟩ := ite_none_right_eq_some.mp hstep
    refine .setVmm fun h => Or.inr (Or.inr ?_)
    intro hword
    rw [if_pos hword] at h
    cases h
  | kick =>
    obtain ⟨_, ⟨⟩⟩ := ite_none_right_eq_some.mp hstep
    refine ⟨rfl, fun _ => rfl, fun j _ hne => ?_, Or.inl fun _ => rfl, fun _ => Or.inl rfl⟩
    exact ⟨fun _ => rfl, update_of_ne hne _ _, rfl⟩

/-! ## Clients that cannot be forgotten -/

section Settled

variable {build : Build} {i : Nat} {w w' : WakeWorld}

/-- Kicks are asked for, and work that could be served will be noticed. -/
def Settled (i : Nat) (w : WakeWorld) : Prop :=
  w.heap.signal (clientQueues i).signal = 0 /\ (Servable w.heap (clientQueues i) -> w.WillCheck i)

/-- The rings of a client as they were in `h`, with kicks asked for. -/
def Frozen (i : Nat) (h : BlkHeap) (w : WakeWorld) : Prop :=
  w.heap.signal (clientQueues i).signal = 0 /\
    ∀ kind, w.heap.ring kind ((clientQueues i).ring kind) = h.ring kind ((clientQueues i).ring kind)

theorem servable_congr {h' : BlkHeap} {q : BlkVirtClient}
    (hrings : ∀ kind, h'.ring kind (q.ring kind) = h.ring kind (q.ring kind)) :
    Servable h' q ↔ Servable h q := by
  have hreq : h'.ring .req q.req = h.ring .req q.req := hrings .req
  have hresp : h'.ring .resp q.resp = h.ring .resp q.resp := hrings .resp
  simp only [Servable, BlkHeap.ringLen, hreq, hresp]

theorem VmmEffect.settled (heffect : VmmEffect j w w') (hi : i < aosBlkMaxClients)
    (hsettled : Settled i w) : Settled i w' := by
  obtain ⟨hword, hcheck⟩ := hsettled
  have hword' : w'.heap.signal (clientQueues i).signal = 0 := by
    rw [heffect.words]
    exact hword
  refine ⟨hword', fun hwork => ?_⟩
  by_cases hij : i = j
  · subst hij
    by_cases hidle : w'.vmm i = .idle
    · rcases heffect.idle hidle with hkick | hempty | hsuppressed
      · exact Or.inl hkick
      · exact absurd hempty hwork.1
      · exact absurd hword' hsuppressed
    · exact Or.inr (Or.inl hidle)
  · obtain ⟨hrings, hvmm, hready⟩ := heffect.others i hi hij
    rcases hcheck ((servable_congr hrings).mp hwork) with hkick | hbusy | hpending
    · exact Or.inl (heffect.kick hkick)
    · exact Or.inr (Or.inl (by rw [hvmm]; exact hbusy))
    · exact Or.inr (Or.inr (hready.trans hpending))

theorem VmmEffect.frozen (heffect : VmmEffect j w w') (hi : i < aosBlkMaxClients)
    (hfrozen : Frozen i h w) : Frozen i h w' \/ Settled i w' := by
  obtain ⟨hword, hsame⟩ := hfrozen
  have hword' : w'.heap.signal (clientQueues i).signal = 0 := by
    rw [heffect.words]
    exact hword
  by_cases hij : i = j
  · subst hij
    rcases heffect.rings with hrings | hbusy
    · exact Or.inl ⟨hword', fun kind => (hrings kind).trans (hsame kind)⟩
    · exact Or.inr ⟨hword', fun _ => Or.inr (Or.inl hbusy)⟩
  · obtain ⟨hrings, _, _⟩ := heffect.others i hi hij
    exact Or.inl ⟨hword', fun kind => (hrings kind).trans (hsame kind)⟩

theorem settled_stable (hi : i < aosBlkMaxClients) : (calmServer build).Stable (Settled i) := by
  rintro w w' ⟨_, j, action, hj, hstep⟩ hsettled
  exact (vmmStep_effect hj hstep).settled hi hsettled

theorem word_stable (build : Build) (p : BlkPtr) :
    (calmServer build).Stable (fun w => w.heap.signal p = 0) := by
  rintro w w' ⟨_, j, action, hj, hstep⟩ hword
  rw [(vmmStep_effect hj hstep).words]
  exact hword

/-- A request that neither stores nor reaches the driver leaves the memory alone, and
a signal can only raise a notification. -/
def Looks : BlkOp -> Prop
  | .store _ _ => False
  | .hostCall _ => False
  | _ => True

variable {request : BlkOp}

theorem exec_looks {answer : BlkOp.Ans request} (hlooks : Looks request)
    (hexec : (calmServer build).exec request w answer w') :
    w' = { w with respReady := raise build request w.respReady } := by
  obtain ⟨_, h, hheap, rfl⟩ := hexec
  cases request with
  | store cell value => exact absurd hlooks id
  | hostCall call => exact absurd hlooks id
  | load cell => rw [hheap.2]
  | _ =>
    cases hheap
    rfl

theorem raise_of_pending {pending : Nat -> Bool} (h : pending i = true) :
    raise build request pending i = true := by
  cases request with
  | signal cap => simp [raise, h]
  | _ => exact h

theorem Settled.looks {answer : BlkOp.Ans request} (hlooks : Looks request)
    (hexec : (calmServer build).exec request w answer w') (hsettled : Settled i w) :
    Settled i w' := by
  rw [exec_looks hlooks hexec]
  refine ⟨hsettled.1, fun hwork => ?_⟩
  rcases hsettled.2 hwork with hkick | hbusy | hpending
  · exact Or.inl hkick
  · exact Or.inr (Or.inl hbusy)
  · exact Or.inr (Or.inr (raise_of_pending hpending))

end Settled

/-! ## The second look -/

section Rescan

variable {build : Build} {i : Nat} {w : WakeWorld} {c : BvClient}

theorem Bound.queues (h : Bound i c) : (∀ kind, c.q.ring kind = (clientQueues i).ring kind) /\
      c.q.signal = (clientQueues i).signal /\ c.q.capacity = (clientQueues i).capacity := by
  obtain ⟨_, hsignal, hreq, hresp, _, hcapacity⟩ := h.fields
  rw [clientQueues, clientBind_not_null h.slot]
  refine ⟨fun kind => ?_, hsignal, hcapacity⟩
  cases kind with
  | req => exact hreq
  | resp => exact hresp

/-- A load of an index of one client. -/
def OwnIndex (q : BlkVirtClient) (request : BlkOp) : Prop :=
  ∃ kind side, request = .load (.index kind side (q.ring kind))

theorem OwnIndex.looks {q : BlkVirtClient} {request : BlkOp} (h : OwnIndex q request) :
    Looks request := by
  obtain ⟨kind, side, rfl⟩ := h
  trivial

theorem ensures_clientNeedsScan (q : BlkVirtClient) :
    Ensures (anyAnswer (I := BlkIo)) (OwnIndex q) (fun _ => True) (clientNeedsScan q) := by
  have hload : ∀ kind side, OwnIndex q (.load (.index kind side (q.ring kind))) :=
    fun kind side => ⟨kind, side, rfl⟩
  refine (ensures_ringValid hload .req q.capacity).bind fun reqValid _ => ?_
  cases reqValid with
  | false => trivial
  | true =>
    refine (ensures_ringValid hload .resp q.capacity).bind fun respValid _ => ?_
    cases respValid with
    | false => trivial
    | true =>
      refine (ensures_ringLength hload .req).bind fun pending _ => ?_
      split
      · exact (ensures_ringLength hload .resp).bind fun _ _ => trivial
      · trivial

theorem ensures_rescanFrom (g : BvTable) (order : List Nat) :
    Ensures (anyAnswer (I := BlkIo)) Looks (fun _ => True) (rescanFrom g order) := by
  induction order with
  | nil => trivial
  | cons j rest ih =>
    unfold rescanFrom
    split
    · have hscan : Ensures (anyAnswer (I := BlkIo)) Looks (fun _ => True)
          (clientNeedsScan (g j).q) :=
        (ensures_clientNeedsScan (g j).q).mono (fun _ h => h.looks) fun _ h => h
      refine hscan.bind fun needed _ => ?_
      cases needed with
      | true => trivial
      | false => exact ih
    · exact ih

/-- The answers of a memory. -/
def answersOf (h : BlkHeap) (request : BlkOp) : BlkOp.Ans request :=
  (handler noDriver request (h, ())).1

theorem resolve_ringLen (h : BlkHeap) (kind : RingKind) (q : BlkPtr) :
    resolve (answersOf h) (ringLen kind q) = h.ringLen kind q := rfl

theorem resolve_ringValid {kind : RingKind} {q : BlkPtr} (hq : isNull q = false) :
    resolve (answersOf h) (ringValid kind q aosBlkQueueCapacity) =
      decide (h.ringLen kind q <= aosBlkQueueCapacity) := by
  simp only [ringValid, hq]
  rfl

/-- A look at a memory that stands still finds the work. -/
theorem resolve_clientNeedsScan (hi : i < aosBlkMaxClients) (hwork : Servable h (clientQueues i)) :
    resolve (answersOf h) (clientNeedsScan (clientQueues i)) = true := by
  have hnull : ∀ kind, isNull ((clientQueues i).ring kind) = false := by
    simp only [aosBlkMaxClients] at hi
    interval_cases i <;> intro kind <;> cases kind <;> decide
  have hcapacity : (clientQueues i).capacity = aosBlkQueueCapacity := by
    rw [clientQueues, clientBind_not_null hi]
  obtain ⟨hpending, hvalid, hroom⟩ := hwork
  rw [hcapacity] at hvalid hroom
  have hreq : isNull (clientQueues i).req = false := hnull .req
  have hresp : isNull (clientQueues i).resp = false := hnull .resp
  have hrespValid : h.ringLen .resp (clientQueues i).resp <= aosBlkQueueCapacity :=
    UInt32.le_of_lt hroom
  simp only [clientNeedsScan, aosBlkQueueReqValid, aosBlkQueueRespValid, aosBlkQueueReqLength,
    aosBlkQueueRespLength, ringLength, hcapacity, resolve_bind, resolve_ringValid hreq, hvalid,
    resolve_ringValid hresp, hrespValid, hreq, hresp, resolve_ringLen, decide_true, if_true,
    Bool.false_eq_true, if_false, bne_iff_ne, ne_eq, hpending, not_false_eq_true, pure_eq_ret,
    resolve_ret, hroom]

theorem clientNeedsScan_congr (h : Bound i c) :
    clientNeedsScan c.q = clientNeedsScan (clientQueues i) := by
  obtain ⟨hrings, _, hcapacity⟩ := h.queues
  have hreq : c.q.req = (clientQueues i).req := hrings .req
  have hresp : c.q.resp = (clientQueues i).resp := hrings .resp
  simp only [clientNeedsScan, hreq, hresp, hcapacity]

/-- A look that finds nothing leaves a client that cannot be forgotten: either its
rings stood still while they were read, or its VMM became busy. -/
theorem safe_clientNeedsScan (hbound : Bound i c)
    (hword : w.heap.signal (clientQueues i).signal = 0) :
    (calmServer build).Safe (fun _ => True) (fun needed w => needed = false -> Settled i w)
      (clientNeedsScan c.q) w := by
  have hi := hbound.slot
  have hkeep : ∀ request w answer w', OwnIndex (clientQueues i) request -> Settled i w ->
      (calmServer build).exec request w answer w' -> Settled i w' :=
    fun request w answer w' hown hsettled hexec => hsettled.looks hown.looks hexec
  rw [clientNeedsScan_congr hbound]
  by_cases hwork : Servable w.heap (clientQueues i)
  · refine (safe_resolve (F := Frozen i w.heap) (a := answersOf w.heap)
      (ensures_clientNeedsScan _)
      (settled_stable hi) ?_ hkeep ?_ (Or.inl ⟨hword, fun _ => rfl⟩)).mono
        fun needed w' h hneeded => ?_
    · rintro v v' ⟨_, j, action, hj, hstep⟩ hfrozen
      exact (vmmStep_effect hj hstep).frozen hi hfrozen
    · rintro request v answer v' ⟨kind, side, rfl⟩ hfrozen hexec
      refine ⟨?_, ?_⟩
      · rw [exec_looks (by trivial) hexec]
        exact hfrozen
      · obtain ⟨_, _, ⟨hanswer, _⟩, _⟩ := hexec
        rw [hanswer]
        exact congrArg (RingIndices.get · side) (hfrozen.2 kind)
    · rw [resolve_clientNeedsScan hi hwork, hneeded] at h
      exact h.resolve_right (by decide)
  · have hsettled : Settled i w := ⟨hword, fun h => absurd h hwork⟩
    have hframe := safe_of_frame (ensures_clientNeedsScan _)
      (settled_stable hi) hkeep hsettled
    exact (hframe.guarantee fun _ _ => trivial).mono fun _ _ h _ => h.2

/-- An assertion the VMMs keep and that only reads survives a look at the queues. -/
theorem safe_rescanFrom_keeps {A : WakeWorld -> Prop} (g : BvTable) (order : List Nat)
    (hstable : (calmServer build).Stable A)
    (hkeep : ∀ request w answer w', Looks request -> A w ->
      (calmServer build).exec request w answer w' -> A w') (hw : A w) :
    (calmServer build).Safe (fun _ => True) (fun _ w => A w) (rescanFrom g order) w :=
  ((safe_of_frame (ensures_rescanFrom g order) hstable hkeep hw).guarantee
    fun _ _ => trivial).mono fun _ _ h => h.2

theorem word_looks {request : BlkOp} {answer : BlkOp.Ans request} {w' : WakeWorld} {p : BlkPtr}
    (hlooks : Looks request) (hword : w.heap.signal p = 0)
    (hexec : (calmServer build).exec request w answer w') : w'.heap.signal p = 0 := by
  rw [exec_looks hlooks hexec]
  exact hword

/-- If the second look finds nothing, no attached client can be forgotten. -/
theorem safe_rescanFrom {g : BvTable} (hbound : Bound i (g i)) {order : List Nat}
    (hmem : i ∈ order) (hword : w.heap.signal (clientQueues i).signal = 0) :
    (calmServer build).Safe (fun _ => True) (fun needed w => needed = false -> Settled i w)
      (rescanFrom g order) w := by
  induction order generalizing w with
  | nil => cases hmem
  | cons j rest ih =>
    unfold rescanFrom
    by_cases hij : i = j
    · subst hij
      rw [if_pos hbound.attached]
      refine (safe_clientNeedsScan hbound hword).bind fun needed w hsettled => ?_
      cases needed with
      | true =>
        exact safe_ret (stable_const True) trivial
          fun _ _ => ⟨trivial, nofun⟩
      | false =>
        refine (safe_rescanFrom_keeps g rest (settled_stable hbound.slot) ?_
          (hsettled rfl)).mono fun _ _ h _ => h
        exact fun request w answer w' hlooks h hexec => h.looks hlooks hexec
    · have hrest : i ∈ rest := (mem_cons.mp hmem).resolve_left hij
      split
      · have hframe := safe_of_frame (ensures_clientNeedsScan (g j).q)
          (word_stable build (clientQueues i).signal)
          (fun request w answer w' h hword hexec => word_looks h.looks hword hexec) hword
        refine (hframe.guarantee fun _ _ => trivial).bind fun needed w hw => ?_
        cases needed with
        | true =>
          exact safe_ret (stable_const True) trivial
            fun _ _ => ⟨trivial, nofun⟩
        | false => exact ih hrest hw.2
      · exact ih hrest hword

end Rescan

/-! ## A service round -/

section Round

variable {build : Build} {i : Nat} {w : WakeWorld}

/-- A store of zero to a suppression word. -/
def ClearsWord (request : BlkOp) : Prop := ∃ p, request = .store (.signalWord p) (0 : UInt32)

theorem ensures_setWords_zero (g : BvTable) (order : List Nat) :
    Ensures (anyAnswer (I := BlkIo)) ClearsWord (fun _ => True) (setWords g 0 order) := by
  induction order with
  | nil => trivial
  | cons j rest ih =>
    unfold setWords
    split
    · exact ⟨⟨_, rfl⟩, fun _ _ => ih⟩
    · exact ih

theorem ClearsWord.keeps {request : BlkOp} {answer : BlkOp.Ans request} {w' : WakeWorld}
    {p : BlkPtr} (hclears : ClearsWord request) (hword : w.heap.signal p = 0)
    (hexec : (calmServer build).exec request w answer w') : w'.heap.signal p = 0 := by
  obtain ⟨p', rfl⟩ := hclears
  obtain ⟨_, _, ⟨⟩, rfl⟩ := hexec
  by_cases hp : p = p'
  · subst hp
    exact update_self p (0 : UInt32) w.heap.signal
  · exact (update_of_ne hp _ _).trans hword

variable {g : BvTable}

theorem safe_setWords_zero (hbound : Bound i (g i)) {order : List Nat} (hmem : i ∈ order) :
    (calmServer build).Safe (fun _ => True)
      (fun _ w => w.heap.signal (clientQueues i).signal = 0) (setWords g 0 order) w := by
  induction order generalizing w with
  | nil => cases hmem
  | cons j rest ih =>
    unfold setWords
    by_cases hij : i = j
    · subst hij
      rw [if_pos hbound.attached]
      refine safe_op (stable_const True) trivial (fun _ _ => trivial) ?_
      rintro v answer v' _ ⟨_, h, hheap, rfl⟩
      cases hheap
      have hcleared : (v.heap.store (.signalWord (g i).q.signal) (0 : UInt32)).signal
          (clientQueues i).signal = 0 := by
        rw [hbound.queues.2.1]
        exact update_self _ _ _
      refine ((safe_of_frame (ensures_setWords_zero g rest)
        (word_stable build (clientQueues i).signal) ?_ hcleared).guarantee
          fun _ _ => trivial).mono fun _ _ h => h.2
      exact fun request w answer w' h hword hexec => h.keeps hword hexec
    · have hrest : i ∈ rest := (mem_cons.mp hmem).resolve_left hij
      split
      · refine safe_op (stable_const True) trivial (fun _ _ => trivial) ?_
        exact fun _ _ _ _ _ => ih hrest
      · exact ih hrest

/-- The last part of a pass: ask for kicks, then look again. -/
theorem safe_lookAgain (hbound : Bound i (g i)) (passesLeft : Nat) {next : Bool -> BlkM BvTable}
    {Q : BvTable -> WakeWorld -> Prop}
    (hnext : ∀ needed w, (needed = false \/ passesLeft = 0 -> Settled i w) ->
      (calmServer build).Safe (fun _ => True) Q (next needed) w) :
    (calmServer build).Safe (fun _ => True) Q
      (setWords g 0 slots >>= fun _ => bvFence >>= fun _ =>
        perform (I := BlkIo) (.wordsCleared passesLeft fun i => (g i).attached) >>= fun _ =>
        bvRescanNeeded g >>= next) w := by
  have hmem : i ∈ slots := mem_range.mpr hbound.slot
  refine (safe_setWords_zero hbound hmem).bind fun _ w hword => ?_
  refine safe_op (word_stable build _) hword (fun _ _ => trivial) fun w _ w' hword hexec => ?_
  have hword := word_looks (by trivial) hword hexec
  refine safe_op (word_stable build _) hword (fun _ _ => trivial) fun w _ w' hword hexec => ?_
  have hword' := word_looks (by trivial) hword hexec
  have hlast : passesLeft = 0 -> Settled i w' := by
    rintro rfl
    have hcheck := hexec.1 i hbound.attached
    exact Settled.looks (by trivial) hexec ⟨hword, hcheck⟩
  have hstable : (calmServer build).Stable (fun w => passesLeft = 0 -> Settled i w) :=
    fun v v' henv h hzero => settled_stable hbound.slot v v' henv (h hzero)
  have hkept := safe_rescanFrom_keeps g slots hstable
    (fun request v answer v' hlooks h hexec hzero => (h hzero).looks hlooks hexec) hlast
  refine ((safe_rescanFrom hbound hmem hword').and hkept).bind fun needed w h => ?_
  exact hnext needed w fun hend => hend.elim h.1 h.2

/-- After a service round no attached client can be forgotten. -/
theorem safe_bvServiceFrom (passes : Nat) (hg : TableOk g) (hattached : (g i).attached = true)
    (hdone : passes = 0 -> Settled i w) :
    (calmServer build).Safe (fun _ => True) (fun _ w => Settled i w)
      (bvServiceFrom passes g) w := by
  induction passes generalizing g w with
  | zero =>
    have hslot := ((hg i).of_attached hattached).slot
    exact safe_ret (settled_stable hslot) (hdone rfl) fun _ h => ⟨trivial, h⟩
  | succ passes ih =>
    have hskip : ∀ {α : Type} (program : BlkM α) w,
        (calmServer build).Safe (fun _ => True) (fun _ _ => True) program w :=
      fun program w => safe_of_ensures (.of_forall fun _ => trivial) w
    refine (hskip (setWords g 1 slots) w).bind fun _ w _ => ?_
    refine (hskip bvFence w).bind fun _ w _ => ?_
    refine (safe_of_ensures (ensures_pumpAttached slots g) w).bind fun g' w hserved => ?_
    have hg' := hg.serviced hserved
    have hattached' := (hserved.attached i).trans hattached
    have hbound := (hg' i).of_attached hattached'
    refine safe_lookAgain hbound passes fun needed w hsettled => ?_
    cases needed with
    | true => exact ih hg' hattached' fun hzero => hsettled (Or.inr hzero)
    | false =>
      exact safe_ret (settled_stable hbound.slot) (hsettled (Or.inl rfl))
        fun _ h => ⟨trivial, h⟩

/-- The client cannot be forgotten while it is attached. -/
def KeepsUp (i : Nat) (s : BvState) (w : WakeWorld) : Prop :=
  (s.clients i).attached = true -> Settled i w

theorem keepsUp_stable (hi : i < aosBlkMaxClients) (s : BvState) :
    (calmServer build).Stable (KeepsUp i s) :=
  fun w w' henv h hattached => settled_stable hi w w' henv (h hattached)

variable {s : BvState}

theorem safe_serviceState (i : Nat) (hs : TableOk s.clients) :
    (calmServer build).Safe (fun _ => True) (KeepsUp i) (serviceState s) w := by
  by_cases hattached : (s.clients i).attached = true
  · have hslot := ((hs i).of_attached hattached).slot
    refine (safe_bvServiceFrom 4 hs hattached nofun).bind fun g w h => ?_
    exact safe_ret (settled_stable hslot) h fun _ h => ⟨trivial, fun _ => h⟩
  · refine (safe_of_ensures (ensures_bvService s.clients) w).bind fun g w hserved => ?_
    refine safe_ret (stable_const True) trivial fun _ _ => ⟨trivial, fun h => ?_⟩
    exact absurd ((hserved.attached i).symm.trans h) hattached

theorem safe_blkVirtHandle {msg : Incoming} (hs : TableOk s.clients) (hi : i < aosBlkMaxClients)
    (hkeeps : blkVirtServiceNotification msg.badge = false -> KeepsUp i s w) :
    (calmServer build).Safe (fun _ => True) (fun result w => KeepsUp i result.1 w)
      (blkVirtHandle build msg s) w := by
  have hserve : ∀ {s : BvState} {reply : Option Reply} {w : WakeWorld}, TableOk s.clients ->
      (calmServer build).Safe (fun _ => True) (fun result w => KeepsUp i result.1 w)
        (serviceState s >>= fun s => pure (s, reply)) w := by
    intro s reply w hs
    refine (safe_serviceState i hs).bind fun s' w h => ?_
    exact safe_ret (keepsUp_stable hi s') h fun _ h => ⟨trivial, h⟩
  unfold blkVirtHandle
  split
  · exact hserve hs
  rename_i hmessage
  split
  · refine (safe_of_ensures (ensures_blkVirtControl detachMeans_true hs) w).bind
      fun result w hstep => ?_
    exact hserve (hstep.tableOk hs)
  · split
    · exact hserve hs
    · exact safe_ret (keepsUp_stable hi s) (hkeeps (Bool.eq_false_iff.mpr hmessage))
        fun _ h => ⟨trivial, h⟩

theorem safe_turn {msg : Incoming} (hs : TableOk s.clients) (hi : i < aosBlkMaxClients)
    (hkeeps : blkVirtServiceNotification msg.badge = false -> KeepsUp i s w) :
    (calmServer build).Safe (fun _ => True) (KeepsUp i) (turn build msg s) w := by
  have hrun : (calmServer build).Safe (fun _ => True) (fun result w => KeepsUp i result.1 w)
      (blkVirtRun build msg s) w := by
    refine (safe_blkVirtHandle hs hi hkeeps).bind fun result w h => ?_
    refine safe_op (keepsUp_stable hi result.1) h (fun _ _ => trivial) ?_
    intro w _ w' h hexec
    have h' : KeepsUp i result.1 w' := fun hattached => (h hattached).looks (by trivial) hexec
    exact safe_ret (keepsUp_stable hi result.1) h' fun _ h => ⟨trivial, h⟩
  refine hrun.bind fun result w h => ?_
  exact safe_ret (keepsUp_stable hi result.1) h fun _ h => ⟨trivial, h⟩

/-- Between two receives the table is in order and no attached client can be
forgotten. -/
def Attentive (s : BvState) (w : WakeWorld) : Prop :=
  TableOk s.clients /\ ∀ i, i < aosBlkMaxClients -> KeepsUp i s w

theorem attentive_stable (s : BvState) : (calmServer build).Stable (Attentive s) :=
  fun w w' henv h => ⟨h.1, fun i hi => keepsUp_stable hi s w w' henv (h.2 i hi)⟩

theorem attentive_recv {program : BlkM BvState} {w' : WakeWorld} (hs : Attentive s w)
    (hrecv : (calmServer build).recv s w program w') :
    (calmServer build).Safe (fun _ => True) Attentive program w' := by
  obtain ⟨msg, hdeliver, rfl⟩ := hrecv
  have htable : Ensures (anyAnswer (I := BlkIo)) (fun _ => True)
      (fun s' : BvState => TableOk s'.clients) (turn build msg s) :=
    (ensures_blkVirtRun hs.1).bind fun _ h => h
  have hsame : blkVirtServiceNotification msg.badge = false -> w' = w := by
    intro hmessage
    rw [deliver, hmessage] at hdeliver
    exact (some.inj hdeliver).symm
  refine (safe_of_ensures htable w').and (Safe.forall fun i => ?_)
  by_cases hi : i < aosBlkMaxClients
  · have hkeeps : blkVirtServiceNotification msg.badge = false -> KeepsUp i s w' := by
      intro hmessage
      rw [hsame hmessage]
      exact hs.2 i hi
    exact (safe_turn hs.1 hi hkeeps).mono fun _ _ h _ => h
  · have hnone : Ensures (anyAnswer (I := BlkIo)) (fun _ => True) (fun _ => True)
        (turn build msg s) := .of_forall fun _ => trivial
    exact (safe_of_ensures hnone w').mono fun _ _ _ hslot => absurd hslot hi

end Round

/-- In a run whose pass limit never cuts off work: when the virtualizer waits with no kick
pending and every VMM has done its last check, no attached client has requests that could be
answered. -/
theorem blkVirt_wakeup {build : Build} {first : WakeWorld} {s : BvState} {w : WakeWorld}
    (hreach : (calmServer build).Reach (.waiting .zero, first) (.waiting s, w))
    (hquiet : w.Quiet) {i : Nat} (hattached : (s.clients i).attached = true) :
    ¬ Servable w.heap (s.clients i).q := by
  have hinit : Attentive .zero first :=
    ⟨fun _ => Or.inl rfl, fun i _ h => absurd h (by simp [BvState.zero, BvClient.zero])⟩
  have hattentive : Attentive s w :=
    Server.reach_covered (S := calmServer build) attentive_stable
      (fun _ _ _ _ => attentive_recv) hreach hinit
  have hbound := (hattentive.1 i).of_attached hattached
  obtain ⟨hrings, _, hcapacity⟩ := hbound.queues
  have hreq : (s.clients i).q.req = (clientQueues i).req := hrings .req
  have hresp : (s.clients i).q.resp = (clientQueues i).resp := hrings .resp
  intro hwork
  rw [Servable, hreq, hresp, hcapacity] at hwork
  obtain ⟨hidle, hready⟩ := hquiet.2 i hbound.slot
  rcases (hattentive.2 i hbound.slot hattached).2 hwork with hkick | hbusy | hpending
  · cases hkick.symm.trans hquiet.1
  · exact hbusy hidle
  · cases hpending.symm.trans hready

/-! ## Schedules -/

/-- Sequential answers with no medium, raising notifications. -/
def wakeHandler (build : Build) (request : BlkOp) (w : WakeWorld) : BlkOp.Ans request × WakeWorld :=
  ((handler noDriver request (w.heap, ())).1,
    { w with
      heap := (handler noDriver request (w.heap, ())).2.1
      respReady := raise build request w.respReady })

theorem wakeHandler_exec (build : Build) (request : BlkOp) (w : WakeWorld) :
    (wakeServer build).exec request w (wakeHandler build request w).1
      (wakeHandler build request w).2 :=
  ⟨_, handler_exec request w.heap, rfl⟩

/-- A move of the schedule: a receive, the virtualizer up to a request, that request,
the end of a turn, or a VMM. -/
inductive WakeMove where
  | receive (msg : Incoming)
  | serveTo (stop : BlkOp -> Bool)
  | serveOne
  | block
  | vmm (i : Nat) (action : VmmAction)

abbrev WakeConfig := Phase BlkIo BvState × WakeWorld

def wakeMove (build : Build) : WakeMove -> WakeConfig -> Option WakeConfig
  | .receive msg, (.waiting s, w) =>
    (deliver msg w).map fun w' => (.running (turn build msg s), w')
  | .serveTo stop, (.running program, w) =>
    let next := Server.advance (wakeHandler build) stop program w
    some (.running next.1, next.2)
  | .serveOne, (.running (.op request next), w) =>
    some (.running (next (wakeHandler build request w).1), (wakeHandler build request w).2)
  | .block, (.running (.ret s), w) => some (.waiting s, w)
  | .vmm i action, (phase, w) =>
    if i < aosBlkMaxClients then (vmmStep i w action).map fun w' => (phase, w') else none
  | _, _ => none

/-- The requests a move of the virtualizer makes. -/
def WakeMove.Makes : WakeMove -> BlkOp -> Prop
  | .serveTo stop, request => stop request = false
  | .serveOne, _ => True
  | _, _ => False

theorem wakeMove_reach {build : Build} {own : BlkOp -> WakeWorld -> Prop} {move : WakeMove}
    (hown : ∀ request w, move.Makes request -> own request w) {config config' : WakeConfig}
    (hmove : wakeMove build move config = some config') :
    ((wakeServer build).restrict own fun _ _ => True).Reach config config' := by
  obtain ⟨phase, w⟩ := config
  have hexec : ∀ request w, move.Makes request ->
      ((wakeServer build).restrict own fun _ _ => True).exec request w
        (wakeHandler build request w).1 (wakeHandler build request w).2 :=
    fun request w hmakes => ⟨hown request w hmakes, wakeHandler_exec build request w⟩
  cases move with
  | receive msg =>
    cases phase with
    | running program => cases hmove
    | waiting s =>
      obtain ⟨w', hdeliver, ⟨⟩⟩ := map_eq_some_iff.mp hmove
      exact .single (.recv ⟨msg, hdeliver, rfl⟩)
  | serveTo stop =>
    cases phase with
    | waiting s => cases hmove
    | running program =>
      cases hmove
      exact Server.reach_advance _ stop hexec program w
  | serveOne =>
    cases phase with
    | waiting s => cases hmove
    | running program =>
      cases program with
      | ret s => cases hmove
      | op request next =>
        cases hmove
        exact .single (.op (hexec request w trivial))
  | block =>
    cases phase with
    | waiting s => cases hmove
    | running program =>
      cases program with
      | ret s =>
        cases hmove
        exact .single .done
      | op request next => cases hmove
  | vmm i action =>
    obtain ⟨hi, hmapped⟩ := ite_none_right_eq_some.mp hmove
    obtain ⟨w', hstep, ⟨⟩⟩ := map_eq_some_iff.mp hmapped
    exact .single (.env ⟨trivial, i, action, hi, hstep⟩)

/-- Nothing in memory, nothing pending, every VMM idle. -/
def WakeWorld.zero : WakeWorld := ⟨.zero, false, fun _ => .idle, fun _ => false⟩

instance (w : WakeWorld) : Decidable w.Quiet := inferInstanceAs (Decidable (_ /\ _))

/-- The kick of the primary guest. -/
def primaryKick : Incoming where
  badge := 1
  label := 0
  mrLength := 0
  extraCaps := 0
  capsUnwrapped := 0
  mrs := ⟨0, 0, fun _ => 0⟩

/-- The primary VMM publishes a flush and checks whether to kick. -/
def publishFlush (id : UInt32) : List WakeMove :=
  [.vmm 0 .guestExit, .vmm 0 (.enqueueReq ⟨aosBlkReqFlush, 0, 0, 0, id⟩),
    .vmm 0 .kickIfPending, .vmm 0 .checkQueue, .vmm 0 .checkWord]

/-- The virtualizer is about to clear a suppression word. -/
def clearsWord : BlkOp -> Bool
  | .store (.signalWord _) value => value == (0 : UInt32)
  | _ => false

/-- One pass in which the VMM takes its response and publishes the next flush after
the pump has left its queue, and before its word is cleared. -/
def racedPass (id : UInt32) : List WakeMove :=
  [.serveTo clearsWord, .vmm 0 .respReady, .vmm 0 .dequeueResp, .vmm 0 .kickIfPending,
    .vmm 0 .checkQueue] ++ publishFlush id ++ [.serveOne]

def strandingSchedule : List WakeMove :=
  [.receive primaryAttach, .serveTo fun _ => false, .block] ++ publishFlush 1 ++
    [.vmm 0 .kick, .receive primaryKick] ++ racedPass 2 ++ racedPass 3 ++ racedPass 4 ++
    racedPass 5 ++ [.serveTo fun _ => false, .block]

/-- With a request published behind each of the four pumps of a round, the last one
stays: the virtualizer waits with no kick pending and the VMM has done its check. -/
theorem blkVirt_wakeup_lost :
    ∃ s w, (wakeServer ⟨true, true⟩).Reach (.waiting .zero, .zero) (.waiting s, w) /\
      w.Quiet /\ (s.clients 0).attached = true /\ Servable w.heap (s.clients 0).q := by
  have hends : Server.endsWaiting (fun s w => decide (w.Quiet /\ (s.clients 0).attached = true /\
      Servable w.heap (s.clients 0).q))
      (Server.play (wakeMove ⟨true, true⟩) strandingSchedule (.waiting .zero, .zero)) = true := by
    decide +kernel
  obtain ⟨s, w, hplay, htest⟩ := Server.exists_of_endsWaiting hends
  have hreach : ((wakeServer ⟨true, true⟩).restrict (fun _ _ => True) fun _ _ => True).Reach
      (.waiting .zero, .zero) (.waiting s, w) :=
    Server.reach_play _ (fun _ _ _ _ => wakeMove_reach fun _ _ _ => trivial) hplay
  exact ⟨s, w, Server.reach_of_restrict hreach, of_decide_eq_true htest⟩

/-- A round that ended before its last pass. -/
def lastPass : BlkOp -> Bool
  | .wordsCleared 0 _ => true
  | _ => false

/-- The primary guest attaches, publishes one flush and kicks. -/
def servedSchedule : List WakeMove :=
  [.receive primaryAttach, .serveTo lastPass, .block] ++ publishFlush 1 ++
    [.vmm 0 .kick, .receive primaryKick, .serveTo lastPass, .block, .vmm 0 .respReady,
      .vmm 0 .dequeueResp, .vmm 0 .kickIfPending, .vmm 0 .checkQueue]

theorem lastPassClear_of_not_lastPass {request : BlkOp} (hnot : lastPass request = false) :
    LastPassClear request w := by
  unfold LastPassClear
  split
  · exact absurd hnot (by simp [lastPass])
  · trivial

theorem servedSchedule_calm : ∀ move ∈ servedSchedule, ∀ request w,
    move.Makes request -> LastPassClear request w := by
  have hserve : ∀ request w, (WakeMove.serveTo lastPass).Makes request ->
      LastPassClear request w := fun _ _ hmakes => lastPassClear_of_not_lastPass hmakes
  have hother : ∀ request w, False -> LastPassClear request w := fun _ _ h => h.elim
  simp only [servedSchedule, publishFlush, cons_append, nil_append, forall_mem_cons]
  exact ⟨hother, hserve, hother, hother, hother, hother, hother, hother, hother, hother, hserve,
    hother, hother, hother, hother, hother, nofun⟩

theorem blkVirt_wakeup_served :
    ∃ s w, (calmServer ⟨true, true⟩).Reach (.waiting .zero, .zero) (.waiting s, w) /\
      w.Quiet /\ (s.clients 0).attached = true /\ ¬ Servable w.heap (s.clients 0).q := by
  have hends : Server.endsWaiting (fun s w => decide (w.Quiet /\ (s.clients 0).attached = true))
      (Server.play (wakeMove ⟨true, true⟩) servedSchedule (.waiting .zero, .zero)) = true := by
    decide +kernel
  obtain ⟨s, w, hplay, htest⟩ := Server.exists_of_endsWaiting hends
  obtain ⟨hquiet, hattached⟩ := of_decide_eq_true htest
  have hreach : (calmServer ⟨true, true⟩).Reach (.waiting .zero, .zero) (.waiting s, w) :=
    Server.reach_play _ (fun move hmem _ _ => wakeMove_reach (servedSchedule_calm move hmem)) hplay
  exact ⟨s, w, hreach, hquiet, hattached, blkVirt_wakeup hreach hquiet hattached⟩

end AgentOs.BlkVirt
