import AgentOs.NetVirt.Lifecycle
import AgentOs.NetVirt.Rings

/-!
# Isolation of network clients

Which bytes the virtualizer touches on behalf of an attached client, and how often its loops
turn, whatever the shared memory and the driver answer.
-/

namespace AgentOs.NetVirt

open Library Prog Ipc List

variable {build : NetBuild}

/-- The parts of a client's page. -/
inductive NetArea where
  | rxFree
  | rxActive
  | txFree
  | txActive
  | rxData
  | txData
  deriving DecidableEq

def NetArea.span (i : Nat) : NetArea -> Span NetRegion
  | .rxFree => ⟨clientBase shmem (.ofNat i) + aosNetRxFreeOff, aosNetQueueBytes⟩
  | .rxActive => ⟨clientBase shmem (.ofNat i) + aosNetRxActiveOff, aosNetQueueBytes⟩
  | .txFree => ⟨clientBase shmem (.ofNat i) + aosNetTxFreeOff, aosNetQueueBytes⟩
  | .txActive => ⟨clientBase shmem (.ofNat i) + aosNetTxActiveOff, aosNetQueueBytes⟩
  | .rxData => ⟨clientBase shmem (.ofNat i) + aosNetRxDataOff, 65536⟩
  | .txData => ⟨clientBase shmem (.ofNat i) + aosNetTxDataOff, 65536⟩

/-- The parts a frame is delivered into. -/
def NetArea.IsRx : NetArea -> Prop
  | .rxFree => True
  | .rxActive => True
  | .rxData => True
  | _ => False

/-- The page the driver and the virtualizer share. -/
def transferPage : Span NetRegion := ⟨shmem + netSvcSlotBase.toNat, 0x200000⟩

/-- The bytes that may be touched on behalf of client `i`. -/
inductive OwnBytes (s : NvState) (i : Nat) (bytes : Span NetRegion) : Prop where
  | own (area : NetArea) : bytes.Within (area.span i) -> OwnBytes s i bytes
  | transfer : bytes.Within transferPage -> OwnBytes s i bytes
  | peer {j : Nat} (area : NetArea) :
      (s.clients i).hw = false -> j ≠ i -> (s.clients j).attached = true ->
      (s.clients j).hw = false -> area.IsRx -> bytes.Within (area.span j) -> OwnBytes s i bytes

/-- What may be asked for on behalf of a client: accesses to those bytes, and calls about
its own driver session. -/
def Isolated (s : NvState) (i : Nat) : NetOp -> Prop
  | .load cell => OwnBytes s i cell.span
  | .store cell _ => OwnBytes s i cell.span
  | .netCall _ handle _ => (s.clients i).hw = true /\ handle = (s.clients i).handle
  | .fence => True
  | .attempt _ => True
  | _ => False

/-- Iterations of the loops that drain a ring. -/
def attemptStep (n : Nat) (event : Event NetIo) : Nat :=
  match event.request with
  | .attempt _ => n + 1
  | _ => n

def attempts (trace : Trace NetIo) : Nat := trace.foldl attemptStep 0

/-! ## Permitted bytes -/

section Permits

variable {s : NvState} {i : Nat} {q : NetPtr}

theorem isolated_signalled (hown : ∀ bytes, bytes.Within ⟨q, aosNetQueueBytes⟩ -> OwnBytes s i bytes)
    (value : UInt32) :
    Isolated s i (.store (.signalled q) value) :=
  hown _ (Span.within_add q (by decide))

theorem isolated_index (hown : ∀ bytes, bytes.Within ⟨q, aosNetQueueBytes⟩ -> OwnBytes s i bytes)
    (side : NetEnd) :
    OwnBytes s i (NetCell.span (.index side q)) := by
  cases side with
  | head => exact hown _ (Span.within_add q (by decide))
  | tail =>
    have hwithin : (⟨q + 0, 2⟩ : Span NetRegion).Within ⟨q, aosNetQueueBytes⟩ :=
      Span.within_add q (by decide)
    rw [Ptr.add_zero] at hwithin
    exact hown _ hwithin

theorem queuePermits_of_own
    (hown : ∀ bytes, bytes.Within ⟨q, aosNetQueueBytes⟩ -> OwnBytes s i bytes) :
    QueuePermits (Isolated s i) q aosNetCapacity := by
  have hcapacity : aosNetCapacity.toNat = 32 := rfl
  have hbuffer : ∀ k, k < aosNetCapacity.toNat -> OwnBytes s i (NetCell.span (.buffer q k)) := by
    intro k hk
    exact hown _ (Span.within_add q (by simp only [aosNetQueueBytes]; omega))
  exact ⟨trivial, isolated_index hown, fun side _ => isolated_index hown side, hbuffer,
    fun k hk _ => hbuffer k hk, hown _ ⟨rfl, Nat.le_refl _, Nat.le_refl _⟩⟩

theorem bytesPermitted_of_own {p : NetPtr} {n : Nat}
    (hown : ∀ bytes, bytes.Within ⟨p, n⟩ -> OwnBytes s i bytes) :
    BytesPermitted (Isolated s i) p n := by
  intro k hk
  have hbyte : OwnBytes s i ⟨p + k, 1⟩ := hown _ (Span.within_add p hk)
  exact ⟨hbyte, fun _ => hbyte⟩

theorem txPermits_own (hi : i < aosNetQueueClients) : TxPermits (Isolated s i) (slotQueues i) := by
  rw [slotQueues_eq hi]
  exact ⟨queuePermits_of_own fun _ h => .own .txActive h,
    queuePermits_of_own fun _ h => .own .txFree h, bytesPermitted_of_own fun _ h => .own .txData h⟩

theorem rxPermits_own (hi : i < aosNetQueueClients) : RxPermits (Isolated s i) (slotQueues i) := by
  rw [slotQueues_eq hi]
  exact ⟨queuePermits_of_own fun _ h => .own .rxActive h,
    queuePermits_of_own fun _ h => .own .rxFree h, bytesPermitted_of_own fun _ h => .own .rxData h⟩

theorem rxPermits_peer {j : Nat} (hj : Bound j (s.clients j)) (hne : j ≠ i)
    (hhw : (s.clients i).hw = false) (hpeer : (s.clients j).hw = false) :
    RxPermits (Isolated s i) (slotQueues j) := by
  have hown : ∀ area : NetArea, area.IsRx -> ∀ bytes, bytes.Within (area.span j) ->
      OwnBytes s i bytes := fun area harea _ h => .peer area hhw hne hj.attached hpeer harea h
  rw [slotQueues_eq hj.slot]
  exact ⟨queuePermits_of_own (hown .rxActive trivial), queuePermits_of_own (hown .rxFree trivial),
    bytesPermitted_of_own (hown .rxData trivial)⟩

end Permits

/-- The driver's slot for a client lies in the transfer page, computed without wrapping. -/
def SlotInPage (c : NvClient) : Prop :=
  c.hw = true -> c.slotOff.toNat + netSvcSlotSize.toNat <= agentosNetSharedSize.toNat

instance (c : NvClient) : Decidable (SlotInPage c) := inferInstanceAs (Decidable (_ -> _))

theorem slotAccepted_low {slot : UInt32} (h : slotAccepted slot = true) :
    0x600000 <= slot.toNat := by
  simp only [slotAccepted, Bool.and_eq_true, decide_eq_true_eq] at h
  exact UInt32.le_iff_toNat_le.mp h.1

variable {i : Nat} {s : NvState}

theorem transferBytes : BytesPermitted (Isolated s i) (shmem + netSvcSlotBase.toNat) 0x200000 :=
  bytesPermitted_of_own fun _ h => .transfer h

theorem driverPermits (hbound : Bound i (s.clients i)) (hhw : (s.clients i).hw = true)
    (hpage : SlotInPage (s.clients i)) :
    DriverPermits (Isolated s i) (s.clients i) where
  fence := trivial
  word value := by
    have hqueue : (s.clients i).q.rxFree = (NetArea.rxFree.span i).start := by
      rw [hbound.queue, slotQueues_eq hbound.slot]
      rfl
    rw [hqueue]
    exact isolated_signalled (fun _ h => .own .rxFree h) value
  send _ := ⟨hhw, rfl⟩
  recv := ⟨hhw, rfl⟩
  slot := by
    have hlow := slotAccepted_low (hbound.hardware hhw).2
    have hhigh := hpage hhw
    have hsize : netSvcSlotSize.toNat = 0x4000 := rfl
    have hshared : agentosNetSharedSize.toNat = 0x800000 := rfl
    have hbase : netSvcSlotBase.toNat = 0x600000 := rfl
    have hmax : netSvcMaxFrameBytes.toNat = 1514 := rfl
    have hsub : BytesPermitted (Isolated s i) (shmem + netSvcSlotBase.toNat +
        ((s.clients i).slotOff.toNat + netSvcTxOffset - 0x600000)) netSvcMaxFrameBytes.toNat :=
      transferBytes.sub (by simp only [netSvcTxOffset]; omega)
    rw [Ptr.add_add, hbase, Nat.add_sub_cancel' (by omega), <- Ptr.add_add] at hsub
    exact hsub
  transfer := transferBytes

/-! ## Every access is isolated -/

section Ensures

variable {A : (request : NetOp) -> NetOp.Ans request -> Prop} {s : NvState} {i : Nat}

/-- The receivers of a hub client are itself or other hub clients. -/
theorem rxPermits_receives {sessions : List UInt32} (hs : StateOk s sessions)
    (hbound : Bound i (s.clients i)) (hhw : (s.clients i).hw = false) {srcI : Nat}
    {dst : NetVirtClient} (hdst : Receives s.hub srcI (s.clients i).q dst) :
    RxPermits (Isolated s i) dst := by
  rcases hdst with ⟨_, rfl⟩ | ⟨j, hj, _⟩
  · rw [hbound.queue]
    exact rxPermits_own hbound.slot
  · obtain ⟨k, hattached, hpeer, rfl⟩ := hs.hub_member (mem_of_getElem? hj)
    have hother := (hs.table k).of_attached hattached
    rw [hother.queue]
    by_cases hk : k = i
    · subst hk
      exact rxPermits_own hother.slot
    · exact rxPermits_peer hother hk hhw hpeer

theorem WorkFor.isolated {sessions : List UInt32} (hs : StateOk s sessions)
    (hattached : (s.clients i).attached = true) (hpage : SlotInPage (s.clients i))
    {trace : Trace NetIo} (hwork : WorkFor s i trace) :
    ∀ event ∈ trace, Isolated s i event.request := by
  have hbound := (hs.table i).of_attached hattached
  have htx : TxPermits (Isolated s i) (s.clients i).q := by
    rw [hbound.queue]
    exact txPermits_own hbound.slot
  have hrx : RxPermits (Isolated s i) (s.clients i).q := by
    rw [hbound.queue]
    exact rxPermits_own hbound.slot
  cases hwork with
  | @words q _ value hq hrun =>
    rw [hbound.queue, slotQueues_eq hbound.slot] at hq
    have hword : Isolated s i (.store (.signalled q) value) := by
      rcases hq with rfl | rfl
      · exact isolated_signalled (fun _ h => .own .txActive h) value
      · exact isolated_signalled (fun _ h => .own .rxFree h) value
    have hstore : Ensures (anyAnswer (I := NetIo)) (Isolated s i) (fun _ => True)
        (store (.signalled q) value) := ⟨hword, fun _ _ => trivial⟩
    exact hstore.requests hrun
  | buffers hrun => exact (ensures_aosNetClientInitBuffers htx hrx).requests hrun
  | send hsame hhw hrun =>
    rw [<- eq_of_binding NvClient.q hsame] at htx
    have hdriver := (driverPermits hbound hhw hpage).of_binding hsame
    exact (ensures_nvTxToNetPd (fun _ => trivial) hdriver htx).requests hrun
  | receive hsame hhw hrun =>
    rw [<- eq_of_binding NvClient.q hsame] at hrx
    have hdriver := (driverPermits hbound hhw hpage).of_binding hsame
    exact (ensures_nvRxFromNetPd (fun _ => trivial) hdriver hrx).requests hrun
  | pump hhw _ hrun =>
    exact (ensures_pumpFrames trivial htx (fun dst hdst =>
      rxPermits_receives hs hbound hhw hdst) _ _).requests hrun
  | unread hrun => exact (ensures_aosNetQueueLength hrx.active.loadIndex).requests hrun
  | rescan hsame hrun =>
    have hq := eq_of_binding NvClient.q hsame
    exact (ensures_clientNeedsRescan (hq ▸ htx.active.loadIndex)
      (hq ▸ hrx.free.loadIndex)).requests hrun

end Ensures

/-! ## The loops are bounded -/

def NotAttempt : NetOp -> Prop
  | .attempt _ => False
  | _ => True

theorem notAttempt_memory : MemoryPermits NotAttempt :=
  ⟨fun _ => trivial, fun _ _ => trivial, trivial⟩

theorem notAttempt_driver (c : NvClient) : DriverPermits NotAttempt c :=
  ⟨trivial, fun _ => trivial, fun _ => trivial, trivial, notAttempt_memory.bytes _ _,
    notAttempt_memory.bytes _ _⟩

section

variable {α β : Type} {Q : α -> Prop} {R : β -> Nat -> Prop} {program : NetM α} {n : Nat}
  (hprogram : Ensures anyAnswer NotAttempt Q program)

include hprogram

/-- What is no turn of a loop leaves the count. -/
theorem tracks_notAttempt : Tracks attemptStep (fun _ n' => n' = n) program n := by
  refine (tracks_of_ensures hprogram fun request hrequest answer => ?_).mono fun _ _ h => h.2
  cases request with
  | attempt q => exact hrequest.elim
  | _ => rfl

theorem tracks_between {next : α -> NetM β} (hnext : ∀ value, Tracks attemptStep R (next value) n) :
    Tracks attemptStep R (program >>= next) n :=
  (tracks_notAttempt hprogram).bind fun value _ h => h ▸ hnext value

end

theorem tracks_nvTxLoop (left n : Nat) (sent : UInt32) (c : NvClient) :
    Tracks attemptStep (fun _ n' => n' <= n + left) (nvTxLoop left sent c) n := by
  induction left generalizing n sent c with
  | zero => exact Nat.le_refl n
  | succ left ih =>
    have hrest : ∀ sent c, Tracks attemptStep (fun _ n' => n' <= n + (left + 1))
        (nvTxLoop left sent c) (n + 1) :=
      fun sent c => (ih (n + 1) sent c).mono fun _ _ hle => by omega
    intro _
    refine tracks_between (ensures_aosNetQueueDequeue (notAttempt_memory.queue _ _))
      fun dequeued => ?_
    cases dequeued with
    | none => exact Nat.add_le_add_left (Nat.le_add_left 1 left) n
    | some buf =>
      dsimp only
      split
      · exact hrest sent c
      rename_i hvalid
      simp only [Bool.or_eq_true, not_or, Bool.not_eq_true, Bool.not_eq_false',
        decide_eq_false_iff_not] at hvalid
      refine tracks_between (ensures_nvSendFrame (notAttempt_driver c)
        (notAttempt_memory.tx _) hvalid.1.1 (UInt32.not_lt.mp hvalid.2)) fun result => ?_
      exact tracks_between (ensures_aosNetQueueEnqueue (notAttempt_memory.queue _ _) _)
        fun _ => hrest _ _

theorem tracks_nvRxLoop (left n : Nat) (received : UInt32) (c : NvClient) :
    Tracks attemptStep (fun _ n' => n' <= n + left) (nvRxLoop left received c) n := by
  induction left generalizing n received c with
  | zero => exact Nat.le_refl n
  | succ left ih =>
    have hrest : ∀ received c, Tracks attemptStep (fun _ n' => n' <= n + (left + 1))
        (nvRxLoop left received c) (n + 1) :=
      fun received c => (ih (n + 1) received c).mono fun _ _ hle => by omega
    have hdone : n + 1 <= n + (left + 1) := by omega
    intro _
    refine tracks_between (ensures_aosNetQueueDequeue (notAttempt_memory.queue _ _))
      fun dequeued => ?_
    cases dequeued with
    | none => exact fun _ _ => hdone
    | some buf =>
      dsimp only
      split
      · exact hrest received c
      refine tracks_between (ensures_nvReceiveInto (notAttempt_driver c)
        (notAttempt_memory.rx _) buf) fun ⟨arrived, c'⟩ => ?_
      cases arrived with
      | false => exact hdone
      | true => exact hrest _ _

theorem tracks_nvRxFromNetPd (n : Nat) (c : NvClient) :
    Tracks attemptStep (fun _ n' => n' <= n + aosNetCapacity.toNat) (nvRxFromNetPd c) n :=
  fun _ _ => tracks_nvRxLoop _ n 0 c

theorem tracks_pumpFrames (v : AosNetVirt) (srcI : Nat) (src : NetVirtClient) (left n : Nat)
    (forwarded : UInt32) :
    Tracks attemptStep (fun _ n' => n' <= n + left) (pumpFrames v srcI src left forwarded) n := by
  induction left generalizing n forwarded with
  | zero => exact Nat.le_refl n
  | succ left ih =>
    have hrest : ∀ forwarded, Tracks attemptStep (fun _ n' => n' <= n + (left + 1))
        (pumpFrames v srcI src left forwarded) (n + 1) :=
      fun forwarded => (ih (n + 1) forwarded).mono fun _ _ hle => by omega
    intro _
    refine tracks_between (ensures_aosNetQueueDequeue (notAttempt_memory.queue _ _))
      fun dequeued => ?_
    cases dequeued with
    | none => exact Nat.add_le_add_left (Nat.le_add_left 1 left) n
    | some tx =>
      dsimp only
      split
      · exact hrest forwarded
      refine tracks_between (ensures_deliverFrame
        (fun dst _ => notAttempt_memory.rx dst) (notAttempt_memory.bytes _ _)) fun delivered => ?_
      exact tracks_between (ensures_aosNetQueueEnqueue (notAttempt_memory.queue _ _) _)
        fun _ => hrest _

theorem Bound.capacity {c : NvClient} (hbound : Bound i c) : c.q.capacity = aosNetCapacity := by
  rw [hbound.queue, slotQueues_eq hbound.slot]

theorem WorkFor.attempts_le (hbound : Bound i (s.clients i)) {trace : Trace NetIo}
    (hwork : WorkFor s i trace) :
    attempts trace <= (s.clients i).q.capacity.toNat := by
  have hnone : ∀ {α : Type} {Q : α -> Prop} {program : NetM α} {trace : Trace NetIo}
      {result : α}, Ensures anyAnswer NotAttempt Q program -> Run program trace result ->
      attempts trace <= (s.clients i).q.capacity.toNat := by
    intro α Q program trace result hprogram hrun
    have hzero := (tracks_notAttempt (n := 0) hprogram).run hrun
    rw [attempts, hzero]
    exact Nat.zero_le _
  cases hwork with
  | @words q _ value _ hrun =>
    have hstore : Ensures (anyAnswer (I := NetIo)) NotAttempt (fun _ => True)
        (store (.signalled q) value) := ⟨trivial, fun _ _ => trivial⟩
    exact hnone hstore hrun
  | buffers hrun =>
    exact hnone (ensures_aosNetClientInitBuffers (notAttempt_memory.tx _)
      (notAttempt_memory.rx _)) hrun
  | send hsame _ hrun =>
    have hle := (tracks_nvTxLoop _ 0 0 _).run hrun
    rw [Nat.zero_add, eq_of_binding NvClient.q hsame] at hle
    exact hle
  | receive hsame _ hrun =>
    have hle := (tracks_nvRxFromNetPd 0 _).run hrun
    rw [Nat.zero_add] at hle
    rw [hbound.capacity]
    exact hle
  | pump _ _ hrun =>
    have hle := (tracks_pumpFrames _ _ _ _ 0 _).run hrun
    rw [Nat.zero_add] at hle
    exact hle
  | unread hrun => exact hnone (ensures_aosNetQueueLength fun _ => trivial) hrun
  | rescan _ hrun =>
    exact hnone (ensures_clientNeedsRescan (fun _ => trivial) fun _ => trivial) hrun

/-! ## A slot that wraps -/

/-- A memory in which every ring holds one frame of one byte. -/
def oneFrameEach : NetHeap where
  index := fun _ => ⟨0, 1⟩
  signalled := fun _ => 0
  buffer := fun _ _ => ⟨0, 1⟩
  byte := fun _ => 0

def silentDriver : NetDriver Unit := fun _ _ _ bytes state => (⟨1, 0, fun _ => 0⟩, bytes, state)

/-- Some run of the program contains the event. -/
def CanDo {α : Type} (program : NetM α) (event : Event NetIo) : Prop :=
  ∃ trace value, Run program trace value /\ event ∈ trace

section CanDo

variable {α β : Type} {program : NetM α} {next : α -> NetM β} {event : Event NetIo}

theorem CanDo.first (h : CanDo program event) : CanDo (program >>= next) event := by
  obtain ⟨trace, value, hrun, hmem⟩ := h
  obtain ⟨rest, hrest⟩ :=
    run_eval (I := NetIo) (handler silentDriver) (next value) (oneFrameEach, ())
  exact ⟨trace ++ rest, _, run_bind_iff.mpr ⟨trace, rest, value, rfl, hrun, hrest⟩,
    mem_append_left _ hmem⟩

theorem CanDo.after {trace : Trace NetIo} {value : α} (hrun : Run program trace value)
    (h : CanDo (next value) event) : CanDo (program >>= next) event := by
  obtain ⟨rest, result, hrest, hmem⟩ := h
  exact ⟨trace ++ rest, result, run_bind_iff.mpr ⟨trace, rest, value, rfl, hrun, hrest⟩,
    mem_append_right _ hmem⟩

end CanDo

theorem run_dequeue_frame {q : NetPtr} (hq : isNull q = false) :
    ∃ trace, Run (aosNetQueueDequeue q aosNetCapacity) trace (some ⟨0, 1⟩) := by
  have hring : oneFrameEach.ring q = [⟨0, 1⟩] := by
    simp [NetHeap.ring, oneFrameEach, Ring.contents, Ring.len]
  have hdequeue : EvalsTo (handler silentDriver) _ (aosNetQueueDequeue q aosNetCapacity)
      (oneFrameEach, ()) := evalsTo_dequeue hq (by rw [hring]; decide)
  have hresult : (eval (I := NetIo) (handler silentDriver) (aosNetQueueDequeue q aosNetCapacity)
      (oneFrameEach, ())).1 = some ⟨0, 1⟩ := by
    rcases hdequeue with ⟨hnil, _⟩ | ⟨buf, rest, hcons, hout, _⟩
    · exact absurd (hring.symm.trans hnil) (by simp)
    · rw [hout, (List.cons.inj (hring.symm.trans hcons)).1]
  rw [<- hresult]
  exact run_eval _ _ _

theorem canDo_copy (dst src : NetPtr) (n : Nat) :
    CanDo (copyBytes dst src (n + 1)) ⟨.store (.byte dst) 0, ()⟩ := by
  have hload : Run (load (.byte src)) [⟨.load (.byte src), (0 : UInt8)⟩] 0 := .op (.ret _)
  have hstore : CanDo (store (.byte dst) 0) ⟨.store (.byte dst) 0, ()⟩ :=
    ⟨_, (), .op (.ret _), mem_singleton.mpr rfl⟩
  exact .after hload hstore.first

/-- The first byte of a frame goes to the client's driver slot. -/
theorem canDo_nvTxToNetPd {c : NvClient} (hbound : Bound i c) :
    CanDo (nvTxToNetPd c) ⟨.store (.byte (nvTxDst c)) 0, ()⟩ := by
  have hring : isNull c.q.txActive = false := by
    rw [hbound.queue, slotQueues_eq hbound.slot]
    rfl
  have hturns : c.q.capacity.toNat = 31 + 1 := by
    rw [hbound.capacity]
    rfl
  obtain ⟨first, hfirst⟩ := run_dequeue_frame hring
  rw [<- hbound.capacity] at hfirst
  have hattempt : Run (attempt c.q.txActive) [⟨.attempt c.q.txActive, ()⟩] () := .op (.ret _)
  have hcopy := canDo_copy (nvTxDst c) (c.q.txData + (0 : UInt64).toUInt32.toNat) 0
  unfold nvTxToNetPd
  rw [hturns]
  refine .after hattempt (.after hfirst ?_)
  dsimp only
  rw [if_neg (by decide)]
  exact CanDo.first (CanDo.first hcopy)

/-- Everything a client with hardware may touch lies below the end of the region. -/
theorem OwnBytes.end_le {bytes : Span NetRegion} (hown : OwnBytes s i bytes)
    (hi : i < aosNetQueueClients) (hhw : (s.clients i).hw = true) :
    bytes.start.off + bytes.len <= agentosNetSharedSize.toNat := by
  have hshared : agentosNetSharedSize.toNat = 0x800000 := rfl
  cases hown with
  | own area hwithin =>
    have hend := hwithin.2.2
    have harea : (area.span i).start.off + (area.span i).len <= 0x600000 := by
      have hslot := slot_toNat hi
      simp only [aosNetQueueClients] at hi
      cases area <;>
        simp only [NetArea.span, clientBase, shmem, Ptr.add_off, hslot, aosNetClientStride,
          aosNetRxFreeOff, aosNetRxActiveOff, aosNetTxFreeOff, aosNetTxActiveOff,
          aosNetRxDataOff, aosNetTxDataOff, aosNetQueueBytes] <;> omega
    omega
  | transfer hwithin => exact hwithin.2.2
  | peer _ hhub _ _ _ _ _ => cases hhub.symm.trans hhw

/-- An accepted slot outside the page is one whose end wrapped. -/
theorem slotAccepted_wraps {slot : UInt32} (haccepted : slotAccepted slot = true)
    (hout : ¬ slot.toNat + netSvcSlotSize.toNat <= agentosNetSharedSize.toNat) :
    2 ^ 32 <= slot.toNat + netSvcSlotSize.toNat := by
  simp only [slotAccepted, Bool.and_eq_true, decide_eq_true_eq, UInt32.le_iff_toNat_le,
    UInt32.toNat_add] at haccepted
  by_contra hlt
  rw [Nat.mod_eq_of_lt (by omega)] at haccepted
  exact hout haccepted.2

/-- In every reachable state, a service round is made of work for attached clients, next to
fences, wakeups and the mark of a pass.  Everything done for an attached client stays in the
client's rings and data areas, the transfer page and, for a hub client, the RX side of other hub
clients, and each of its loops turns at most `capacity` times, exactly when the slot the driver
named for the client lies in the transfer page without the 32-bit sum of the check wrapping. -/
theorem netVirt_isolation_iff {history : Trace NetIo} {s : NvState}
    (hs : Reached build history s) {i : Nat} (hattached : (s.clients i).attached = true) :
    (∀ trace s', Run (nvService s) trace s' -> ∃ pieces : List (Trace NetIo),
      trace = pieces.flatten /\ ∀ piece ∈ pieces, Attributed s piece) /\
    ((∀ trace, WorkFor s i trace ->
      (∀ event ∈ trace, Isolated s i event.request) /\
        attempts trace <= (s.clients i).q.capacity.toNat) ↔
    SlotInPage (s.clients i)) := by
  have hok := hs.stateOk
  have hbound := (hok.table i).of_attached hattached
  refine ⟨fun trace s' hrun => (works_nvService (fun _ hq => hok.hub_member hq) _ _ hrun).1, ?_⟩
  constructor
  · intro hall hhw
    by_contra hout
    obtain ⟨trace, result, hrun, hmem⟩ := canDo_nvTxToNetPd hbound
    obtain ⟨hisolated, _⟩ := hall trace (.send rfl hhw hrun)
    have hown : OwnBytes s i ⟨nvTxDst (s.clients i), 1⟩ := hisolated _ hmem
    have hend := hown.end_le hbound.slot hhw
    have hwraps := slotAccepted_wraps (hbound.hardware hhw).2 hout
    have hsize : netSvcSlotSize.toNat = 0x4000 := rfl
    have hshared : agentosNetSharedSize.toNat = 0x800000 := rfl
    simp only [nvTxDst, shmem, Ptr.add_off, netSvcTxOffset] at hend
    omega
  · intro hpage trace hwork
    exact ⟨hwork.isolated hok hattached hpage, hwork.attempts_le hbound⟩

theorem netVirt_isolation_iff_attached :
    ∃ history, Reached ⟨true, true, true⟩ history primaryAttached /\
      (primaryAttached.clients 0).hw = true /\
      ∀ trace, WorkFor primaryAttached 0 trace ->
        (∀ event ∈ trace, Isolated primaryAttached 0 event.request) /\
          attempts trace <= (primaryAttached.clients 0).q.capacity.toNat := by
  obtain ⟨history, hs⟩ := primaryAttached_reached
  exact ⟨history, hs, by decide +kernel,
    (netVirt_isolation_iff hs (by decide +kernel)).2.mpr (by decide +kernel)⟩

/-- A driver that names a slot so high that the end of the slot wraps to zero. -/
def wrappingSlot : NetDriver Unit := fun opcode _ _ bytes state =>
  let reply := wr32 (wr32 (fun _ => 0) 4 7) 8 0xFFFFC000
  (if opcode == netSvcOpRawOpen || opcode == netSvcOpRawStatus then ⟨0, 18, reply⟩
    else ⟨1, 4, fun _ => 0⟩, bytes, state)

/-- The state after the primary guest attached with that driver. -/
def wrappedAttached : NvState :=
  (eval (handler wrappingSlot) (netVirtRun ⟨true, true, true⟩ primaryAttach .zero) (.zero, ())).1.1

/-- The slot is accepted, and the first frame the guest sends is copied far past the end
of the shared region. -/
theorem wrappedSlot_escapes : ∃ history, Reached ⟨true, true, true⟩ history wrappedAttached /\
      (wrappedAttached.clients 0).attached = true /\
      ∃ trace, WorkFor wrappedAttached 0 trace /\
        ∃ event ∈ trace, event.request = .store (.byte ⟨.shmem, 0xFFFFFA00⟩) 0 /\
          ¬ Isolated wrappedAttached 0 event.request := by
  obtain ⟨trace, hrun⟩ := run_eval (handler wrappingSlot)
    (netVirtRun ⟨true, true, true⟩ primaryAttach .zero) (.zero, ())
  have hs : Reached ⟨true, true, true⟩ ([] ++ trace) wrappedAttached := .turn .init hrun
  have hattached : (wrappedAttached.clients 0).attached = true := by decide +kernel
  have hhw : (wrappedAttached.clients 0).hw = true := by decide +kernel
  have hdst : nvTxDst (wrappedAttached.clients 0) = ⟨.shmem, 0xFFFFFA00⟩ := by decide +kernel
  have hbound := (hs.stateOk.table 0).of_attached hattached
  obtain ⟨sent, result, hsent, hmem⟩ := canDo_nvTxToNetPd hbound
  refine ⟨_, hs, hattached, sent, .send rfl hhw hsent, _, hmem, ?_, ?_⟩
  · rw [hdst]
  · intro hisolated
    have hend := OwnBytes.end_le hisolated hbound.slot hhw
    simp only [NetCell.span, hdst] at hend
    exact absurd hend (by decide)

end AgentOs.NetVirt
