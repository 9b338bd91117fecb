import AgentOs.NetVirt.Control
import AgentOs.NetVirt.Rules

/-!
# The client table, the hub and the driver sessions

A slot of the client table is untouched, retired, or bound to its own page.  Serving queues
changes nothing but counters, marks and the probe flag of attached clients, and no driver
session.
-/

namespace AgentOs.NetVirt

open Library Prog Ipc List

/-! ## Driver sessions -/

/-- A complete reply to RAW_OPEN: the driver accepted and sent every field. -/
def sessionOpened (rep : Sel4Msg) : Bool := netPdOk rep && decide (rep.length >= 18)

/-- The driver's open sessions by their handles, followed along the requests of the
virtualizer. -/
def sessionStep (sessions : List UInt32) (event : Event NetIo) : List UInt32 :=
  match event with
  | ⟨.netCall opcode arg0 _, rep⟩ =>
    if opcode == netSvcOpRawOpen then
      if sessionOpened rep then rd32 (Sel4Msg.data rep) 4 :: sessions else sessions
    else if opcode == netSvcOpRawClose then
      if netPdOk rep then sessions.erase arg0 else sessions
    else
      sessions
  | _ => sessions

def openSessions (history : Trace NetIo) : List UInt32 := history.foldl sessionStep []

/-- Requests that neither open nor close a session. -/
def LeavesSessions : NetOp -> Prop
  | .netCall opcode _ _ => opcode ≠ netSvcOpRawOpen /\ opcode ≠ netSvcOpRawClose
  | _ => True

theorem LeavesSessions.step {request : NetOp} (h : LeavesSessions request)
    (sessions : List UInt32) (answer : NetOp.Ans request) :
    sessionStep sessions ⟨request, answer⟩ = sessions := by
  cases request with
  | netCall opcode arg0 arg1 =>
    unfold sessionStep
    dsimp only
    rw [if_neg fun heq => h.1 (beq_iff_eq.mp heq), if_neg fun heq => h.2 (beq_iff_eq.mp heq)]
  | _ => rfl

/-! ## Service rounds -/

section Service

theorem leavesSessions_memory : MemoryPermits LeavesSessions :=
  ⟨fun _ => trivial, fun _ _ => trivial, trivial⟩

theorem leavesSessions_driver (c : NvClient) : DriverPermits LeavesSessions c :=
  ⟨trivial, fun _ => trivial, fun _ => ⟨by decide, by decide⟩, ⟨by decide, by decide⟩,
    leavesSessions_memory.bytes _ _, leavesSessions_memory.bytes _ _⟩

/-- What a service round may do to the table. -/
def Serviced (g g' : NvTable) : Prop :=
  ∀ i, (g' i).binding = (g i).binding /\ ((g i).attached = false -> g' i = g i)

theorem Serviced.refl (g : NvTable) : Serviced g g := fun _ => ⟨rfl, fun _ => rfl⟩

variable {g : NvTable}

theorem Serviced.attached {g' : NvTable} (h : Serviced g g') (i : Nat) :
    (g' i).attached = (g i).attached :=
  eq_of_binding NvClient.attached (h i).1

theorem Serviced.trans {g' g'' : NvTable} (hfirst : Serviced g g') (hsecond : Serviced g' g'') :
    Serviced g g'' := by
  intro i
  refine ⟨(hsecond i).1.trans (hfirst i).1, fun hfree => ?_⟩
  rw [(hsecond i).2 ((hfirst.attached i).trans hfree), (hfirst i).2 hfree]

theorem Serviced.update {i : Nat} {c : NvClient} (hattached : (g i).attached = true)
    (hc : c.binding = (g i).binding) : Serviced g (Function.update g i c) := by
  refine (Function.forall_update_iff g fun j c => c.binding = (g j).binding /\
    ((g j).attached = false -> c = g j)).mpr ⟨⟨hc, fun hfree => ?_⟩, fun _ _ => ⟨rfl, fun _ => rfl⟩⟩
  cases hfree.symm.trans hattached

/-- What the virtualizer does for one client, at any time between two control messages: only
counters, marks and the probe flag of the record may have moved.  The words and the buffers of
its rings are also written when it is attached and rebound. -/
inductive WorkFor (s : NvState) (i : Nat) : Trace NetIo -> Prop where
  | words {q : NetPtr} {trace : Trace NetIo} {value : UInt32} :
      q = (s.clients i).q.txActive \/ q = (s.clients i).q.rxFree ->
      Run (store (.signalled q) value) trace () -> WorkFor s i trace
  | buffers {trace : Trace NetIo} :
      Run (aosNetClientInitBuffers (s.clients i).q) trace () -> WorkFor s i trace
  | send {c : NvClient} {trace : Trace NetIo} {result : UInt32 × NvClient} :
      c.binding = (s.clients i).binding -> (s.clients i).hw = true ->
      Run (nvTxToNetPd c) trace result -> WorkFor s i trace
  | receive {c : NvClient} {trace : Trace NetIo} {result : UInt32 × NvClient} :
      c.binding = (s.clients i).binding -> (s.clients i).hw = true ->
      Run (nvRxFromNetPd c) trace result -> WorkFor s i trace
  | pump {srcI : Nat} {forwarded result : UInt32} {trace : Trace NetIo} :
      (s.clients i).hw = false -> s.hub.clients[srcI]? = some (s.clients i).q ->
      Run (pumpFrames s.hub srcI (s.clients i).q (s.clients i).q.capacity.toNat forwarded) trace
        result -> WorkFor s i trace
  | unread {trace : Trace NetIo} {result : UInt16} :
      Run (aosNetQueueLength (s.clients i).q.rxActive) trace result -> WorkFor s i trace
  | rescan {c : NvClient} {trace : Trace NetIo} {result : Bool} :
      c.binding = (s.clients i).binding -> Run (clientNeedsRescan c) trace result ->
      WorkFor s i trace

/-- What is asked for on behalf of no client: a fence, a wakeup, the mark of a pass. -/
def Shared : NetOp -> Prop
  | .fence => True
  | .signal _ => True
  | .wordsCleared _ _ => True
  | _ => False

/-- A part of a service round. -/
def Attributed (s : NvState) (piece : Trace NetIo) : Prop :=
  (∃ event, piece = [event] /\ Shared event.request) \/
    ∃ i, (s.clients i).attached = true /\ WorkFor s i piece

/-- Every run consists of such parts. -/
def Works (s : NvState) {α : Type} (Q : α -> Prop) (program : NetM α) : Prop :=
  ∀ trace value, Run program trace value ->
    (∃ pieces : List (Trace NetIo), trace = pieces.flatten /\
      ∀ piece ∈ pieces, Attributed s piece) /\ Q value

variable {s : NvState} {α β : Type} {program : NetM α} {Q : α -> Prop}

theorem works_pure {value : α} (hvalue : Q value) : Works s Q (pure value) := by
  intro trace result hrun
  obtain ⟨rfl, rfl⟩ := run_ret_iff.mp hrun
  exact ⟨⟨[], rfl, nofun⟩, hvalue⟩

theorem works_piece (hpiece : ∀ trace value, Run program trace value -> Attributed s trace /\ Q value) :
    Works s Q program := by
  intro trace value hrun
  obtain ⟨hpiece, hvalue⟩ := hpiece trace value hrun
  exact ⟨⟨[trace], by simp, forall_mem_singleton.mpr hpiece⟩, hvalue⟩

theorem works_shared (request : NetOp) (hshared : Shared request) :
    Works s (fun _ => True) (perform (I := NetIo) request) := by
  refine works_piece fun trace value hrun => ?_
  obtain ⟨answer, rest, rfl, hrest⟩ := run_op_iff.mp hrun
  obtain ⟨rfl, -⟩ := run_ret_iff.mp hrest
  exact ⟨.inl ⟨_, rfl, hshared⟩, trivial⟩

theorem Works.bind {R : β -> Prop} {next : α -> NetM β} (hfirst : Works s Q program)
    (hnext : ∀ value, Q value -> Works s R (next value)) : Works s R (program >>= next) := by
  intro trace result hrun
  obtain ⟨first, second, value, rfl, hprogram, hrest⟩ := run_bind_iff.mp hrun
  obtain ⟨⟨before, rfl, hbefore⟩, hvalue⟩ := hfirst _ _ hprogram
  obtain ⟨⟨after, rfl, hafter⟩, hresult⟩ := hnext value hvalue _ _ hrest
  exact ⟨⟨before ++ after, flatten_append.symm,
    forall_mem_append.mpr ⟨hbefore, hafter⟩⟩, hresult⟩

/-! ### The loops, in states that served the queues of `s` -/

variable (hg : Serviced s.clients g)

include hg

theorem works_setTxWords (value : UInt32) (order : List Nat) :
    Works s (fun _ => True) (setTxWords g value order) := by
  induction order with
  | nil => exact works_pure trivial
  | cons i rest ih =>
    unfold setTxWords
    split
    · rename_i hattached
      refine (works_piece fun trace _ hrun => ⟨.inr ⟨i, (hg.attached i).symm.trans hattached, ?_⟩,
        trivial⟩).bind fun _ _ => ih
      exact .words (.inl (congrArg _ (eq_of_binding NvClient.q (hg i).1))) hrun
    · exact ih

theorem works_rescanFrom (order : List Nat) :
    Works s (fun _ => True) (rescanFrom g order) := by
  induction order with
  | nil => exact works_pure trivial
  | cons i rest ih =>
    unfold rescanFrom
    split
    · rename_i hattached
      refine (works_piece fun trace _ hrun => ⟨.inr ⟨i, (hg.attached i).symm.trans hattached,
        .rescan (hg i).1 hrun⟩, trivial⟩).bind fun needed _ => ?_
      cases needed with
      | true => exact works_pure trivial
      | false => exact ih
    · exact ih

theorem works_markDelivered (order : List Nat) (deliver : Nat -> UInt32) :
    Works s (fun _ => True) (markDelivered g order deliver) := by
  induction order generalizing deliver with
  | nil => exact works_pure trivial
  | cons i rest ih =>
    unfold markDelivered
    split
    · rename_i hhub
      have hattached := (hg.attached i).symm.trans (Bool.and_eq_true_iff.mp hhub).1
      refine (works_piece fun trace _ hrun => ⟨.inr ⟨i, hattached, ?_⟩, trivial⟩).bind fun _ _ => ih _
      rw [eq_of_binding NvClient.q (hg i).1] at hrun
      exact .unread hrun
    · exact ih deliver

omit hg in
theorem works_serviceHw {i : Nat} {p : PassState} (hp : Serviced s.clients p.clients)
    (hattached : (p.clients i).attached = true) (hhw : (p.clients i).hw = true) :
    Works s (fun p' => Serviced s.clients p'.clients) (serviceHw i p) := by
  have hown := (hp.attached i).symm.trans hattached
  have hdriver := (eq_of_binding NvClient.hw (hp i).1).symm.trans hhw
  refine (works_piece (Q := fun sent => sent.2.binding = (p.clients i).binding)
    fun trace sent hrun => ⟨.inr ⟨i, hown, .send (hp i).1 hdriver hrun⟩, ?_⟩).bind fun sent hsent => ?_
  · exact (ensures_nvTxToNetPd (fun _ => trivial) (leavesSessions_driver _)
      (leavesSessions_memory.tx _)).result hrun
  obtain ⟨_, c⟩ := sent
  refine (works_piece (Q := fun received => received.2.binding = (p.clients i).binding)
    fun trace received hrun => ⟨.inr ⟨i, hown,
      .receive (c := { c with rxPending := true }) (hsent.trans (hp i).1) hdriver hrun⟩,
      ?_⟩).bind fun received hreceived => ?_
  · exact ((ensures_nvRxFromNetPd (fun _ => trivial) (leavesSessions_driver _)
      (leavesSessions_memory.rx _)).result hrun).trans hsent
  exact works_pure (hp.trans (Serviced.update hattached hreceived))

omit hg in
theorem works_serviceClients (order : List Nat) (p : PassState)
    (hp : Serviced s.clients p.clients) :
    Works s (fun p' => Serviced s.clients p'.clients) (serviceClients order p) := by
  induction order generalizing p with
  | nil => exact works_pure hp
  | cons i rest ih =>
    unfold serviceClients
    split
    · rename_i hattached
      split
      · rename_i hhw
        exact (works_serviceHw hp hattached hhw).bind fun p' hp' => ih p' hp'
      · exact ih { p with anyHub := true } hp
    · exact ih p hp

omit hg in
theorem works_notifyDelivered (g : NvTable) (deliver : Nat -> UInt32) (order : List Nat) :
    Works s (fun _ => True) (notifyDelivered g deliver order) := by
  induction order with
  | nil => exact works_pure trivial
  | cons i rest ih =>
    unfold notifyDelivered
    split
    · refine Works.bind (Q := fun _ => True) ?_ fun _ _ => ih
      unfold nvNotifyVmm
      split
      · exact works_shared (.signal _) trivial
      · split
        · exact works_shared (.signal _) trivial
        · exact works_pure trivial
    · exact ih

omit hg

/-- Two states between which the virtualizer only served its queues. -/
structure ServicedState (s s' : NvState) : Prop where
  clients : Serviced s.clients s'.clients
  generation : s'.generation = s.generation
  hub : s'.hub = s.hub

variable (hhub : ∀ q ∈ s.hub.clients,
  ∃ i, (s.clients i).attached = true /\ (s.clients i).hw = false /\ q = (s.clients i).q)

include hhub

theorem works_pumpSources (clients : List NetVirtClient) (srcI : Nat) (forwarded : UInt32)
    (hclients : s.hub.clients.drop srcI = clients) :
    Works s (fun _ => True) (pumpSources s.hub clients srcI forwarded) := by
  induction clients generalizing srcI forwarded with
  | nil => exact works_pure trivial
  | cons src rest ih =>
    have hsrc : s.hub.clients[srcI]? = some src := by
      rw [<- head?_drop, hclients]
      rfl
    have hrest : s.hub.clients.drop (srcI + 1) = rest := by
      rw [<- tail_drop, hclients]
      rfl
    obtain ⟨i, hattached, hhw, rfl⟩ := hhub src (mem_of_getElem? hsrc)
    exact (works_piece fun trace _ hrun => ⟨.inr ⟨i, hattached, .pump hhw hsrc hrun⟩,
      trivial⟩).bind fun _ _ => ih _ _ hrest

theorem works_pumpHub {s' : NvState} {p : PassState} (hs : ServicedState s s')
    (hp : Serviced s.clients p.clients) :
    Works s (fun result => ServicedState s result.1) (pumpHub s' p) := by
  unfold pumpHub
  split
  · have hpump : Works s (fun _ => True) (aosNetVirtPump s'.hub) := by
      unfold aosNetVirtPump
      rw [hs.hub]
      exact works_pumpSources hhub _ 0 0 rfl
    refine hpump.bind fun moved _ => (works_markDelivered hp slots p.deliver).bind fun _ _ => ?_
    exact works_pure ⟨hp, hs.generation, hs.hub⟩
  · exact works_pure ⟨hp, hs.generation, hs.hub⟩

theorem works_nvPass {s' : NvState} (hs : ServicedState s s') :
    Works s (ServicedState s) (nvPass s') := by
  refine (works_setTxWords hs.clients 1 slots).bind fun _ _ => ?_
  refine (works_shared .fence trivial).bind fun _ _ => ?_
  refine (works_serviceClients slots _ hs.clients).bind fun p hp => ?_
  refine (works_pumpHub hhub hs hp).bind fun result hresult => ?_
  exact (works_notifyDelivered _ _ slots).bind fun _ _ => works_pure hresult

theorem works_nvServiceFrom (passes : Nat) {s' : NvState} (hs : ServicedState s s') :
    Works s (ServicedState s) (nvServiceFrom passes s') := by
  induction passes generalizing s' with
  | zero => exact works_pure hs
  | succ passes ih =>
    refine (works_nvPass hhub hs).bind fun s'' hs'' => ?_
    refine (works_setTxWords hs''.clients 0 slots).bind fun _ _ => ?_
    refine (works_shared .fence trivial).bind fun _ _ => ?_
    refine (works_shared (.wordsCleared _ _) trivial).bind fun _ _ => ?_
    refine (works_rescanFrom hs''.clients slots).bind fun needed _ => ?_
    cases needed with
    | true => exact ih hs''
    | false => exact works_pure hs''

/-- A service round is made of work for attached clients and of what is shared. -/
theorem works_nvService : Works s (ServicedState s) (nvService s) :=
  works_nvServiceFrom hhub 4 ⟨.refl _, rfl, rfl⟩

omit hhub

theorem ensures_clientNeedsRescan {P : NetOp -> Prop} {c : NvClient}
    (htx : ∀ side, P (.load (.index side c.q.txActive)))
    (hrx : ∀ side, P (.load (.index side c.q.rxFree))) :
    Ensures anyAnswer P (fun _ => True) (clientNeedsRescan c) := by
  refine (ensures_aosNetQueueLength htx).bind fun pending _ => ?_
  split
  · trivial
  · split
    · exact (ensures_aosNetQueueLength hrx).bind fun _ _ => trivial
    · trivial

end Service

/-! ## Client records -/

/-- The queues of a slot. -/
def slotQueues (i : Nat) : NetVirtClient := aosNetClientBind shmem (.ofNat i) .zero

/-- An attached client: its queues are the ones of its own page, and hardware means an
open driver session whose slot passed the check. -/
structure Bound (i : Nat) (c : NvClient) : Prop where
  slot : i < aosNetQueueClients
  attached : c.attached = true
  live : c.retired = false
  clientId : c.clientId = .ofNat i
  vmmEp : c.vmmEp ≠ 0
  queue : c.q = slotQueues i
  hardware : c.hw = true -> c.rawOpen = true /\ slotAccepted c.slotOff = true

variable {i : Nat} {c : NvClient}

theorem Bound.of_binding {c' : NvClient} (h : Bound i c) (hsame : c'.binding = c.binding) :
    Bound i c' := by
  have hbinding : Bound i c'.binding := by
    rw [hsame]
    exact { h with }
  exact { hbinding with }

/-- A slot is untouched, retired or bound. -/
def Record (i : Nat) (c : NvClient) : Prop := c = .zero \/ c = retiredClient \/ Bound i c

theorem Record.of_attached (h : Record i c) (hattached : c.attached = true) : Bound i c := by
  rcases h with rfl | rfl | hbound
  · cases hattached
  · cases hattached
  · exact hbound

theorem Record.of_retired (h : Record i c) (hretired : c.retired = true) : c = retiredClient := by
  rcases h with rfl | rfl | hbound
  · cases hretired
  · rfl
  · cases hretired.symm.trans hbound.live

theorem Record.of_free (h : Record i c) (hattached : c.attached = false)
    (hretired : c.retired = false) : c = .zero := by
  rcases h with rfl | rfl | hbound
  · rfl
  · cases hretired
  · cases hattached.symm.trans hbound.attached

/-- The invariant of the client table. -/
def TableOk (g : NvTable) : Prop := ∀ i, Record i (g i)

theorem TableOk.update {g : NvTable} (h : TableOk g) (hc : Record i c) :
    TableOk (Function.update g i c) :=
  (Function.forall_update_iff g Record).mpr ⟨hc, fun j _ => h j⟩

theorem TableOk.serviced {g g' : NvTable} (h : TableOk g) (hserved : Serviced g g') :
    TableOk g' := by
  intro i
  cases hattached : (g i).attached with
  | false =>
    rw [(hserved i).2 hattached]
    exact h i
  | true => exact Or.inr (Or.inr (((h i).of_attached hattached).of_binding (hserved i).1))

theorem slot_toNat (hi : i < aosNetQueueClients) : (UInt32.ofNat i).toNat = i :=
  UInt32.toNat_ofNat_of_lt' (Nat.lt_trans hi (by decide))

theorem slotQueues_eq (hi : i < aosNetQueueClients) : slotQueues i =
      { rxFree := clientBase shmem (.ofNat i) + aosNetRxFreeOff
        rxActive := clientBase shmem (.ofNat i) + aosNetRxActiveOff
        txFree := clientBase shmem (.ofNat i) + aosNetTxFreeOff
        txActive := clientBase shmem (.ofNat i) + aosNetTxActiveOff
        rxData := clientBase shmem (.ofNat i) + aosNetRxDataOff
        txData := clientBase shmem (.ofNat i) + aosNetTxDataOff
        capacity := aosNetCapacity } := by
  have hguard : (isNull shmem || decide ((UInt32.ofNat i).toNat >= aosNetMaxClients)) = false := by
    simp only [aosNetQueueClients] at hi
    rw [slot_toNat hi]
    simp only [Bool.or_eq_false_iff, decide_eq_false_iff_not]
    exact ⟨by decide, by simp only [aosNetMaxClients]; omega⟩
  unfold slotQueues aosNetClientBind
  rw [hguard]
  rfl

theorem slotQueues_txActive_inj {j : Nat} (hi : i < aosNetQueueClients)
    (hj : j < aosNetQueueClients) (hsame : (slotQueues i).txActive = (slotQueues j).txActive) :
    i = j := by
  rw [slotQueues_eq hi, slotQueues_eq hj] at hsame
  have hoff := congrArg Ptr.off hsame
  simp only [clientBase, Ptr.add_off, slot_toNat hi, slot_toNat hj, aosNetClientStride] at hoff
  omega

end AgentOs.NetVirt
