import Mathlib.Data.List.Flatten
import AgentOs.NetVirt.Lifecycle
import AgentOs.NetVirt.Rings

/-!
# Conservation of network buffers

Each direction of a client owns a fixed set of buffers; every buffer is in the free ring, in the
active ring, or with the VMM.  A TX descriptor with a length that the code does not accept is
dropped.
-/

open Function (update update_self update_of_ne)

namespace AgentOs.NetVirt

open Library Prog Ipc List

def offsets (ring : List NetBuffDesc) : List UInt64 := ring.map NetBuffDesc.ioOrOffset

/-- The buffers of one data area. -/
def allOffsets : List UInt64 :=
  (range ringCap).map fun i => UInt64.ofNat i * aosNetBufferSize.toUInt64

abbrev RingMap := NetPtr -> List NetBuffDesc

/-- The buffers of one direction, wherever they are. -/
def pool (rings : RingMap) (free active : NetPtr) (held : List UInt64) : List UInt64 :=
  offsets (rings free) ++ offsets (rings active) ++ held

/-- Each buffer of the direction is in exactly one place. -/
def Complete (rings : RingMap) (free active : NetPtr) (held : List UInt64) : Prop :=
  (pool rings free active held).Perm allOffsets

instance (rings : RingMap) (free active : NetPtr) (held : List UInt64) :
    Decidable (Complete rings free active held) := inferInstanceAs (Decidable (List.Perm _ _))

section Pool

variable {rings rings' : RingMap} {free active : NetPtr} {held : List UInt64}
  {buf : NetBuffDesc} {rest : List NetBuffDesc}

theorem Complete.length (h : Complete rings free active held) :
    (rings free).length + (rings active).length + held.length = ringCap := by
  have hlength := h.length_eq
  simpa [pool, offsets, allOffsets, Nat.add_assoc] using hlength

theorem Complete.valid (h : Complete rings free active held) {offset : UInt64}
    (hmem : offset ∈ pool rings free active held) : aosNetBufferValid offset 0 = true := by
  have hall : allOffsets.all (aosNetBufferValid · 0) = true := by decide +kernel
  exact all_eq_true.mp hall offset (h.mem_iff.mp hmem)

theorem pool_congr (hfree : rings' free = rings free) (hactive : rings' active = rings active) :
    pool rings' free active held = pool rings free active held := by
  simp only [pool, hfree, hactive]

theorem Complete.frame (h : Complete rings free active held) (hfree : rings' free = rings free)
    (hactive : rings' active = rings active) : Complete rings' free active held := by
  rw [Complete, pool_congr hfree hactive]
  exact h

theorem Complete.take_free (h : Complete rings free active held) (hne : active ≠ free)
    (hring : rings free = buf :: rest) :
    Complete (update rings free rest) free active (buf.ioOrOffset :: held) := by
  refine List.Perm.trans ?_ h
  simp only [pool, update_self, update_of_ne hne, hring, offsets, map_cons]
  exact perm_middle

theorem Complete.give_free (h : Complete rings free active (buf.ioOrOffset :: held))
    (hne : active ≠ free) :
    Complete (update rings free (rings free ++ [buf])) free active held := by
  refine List.Perm.trans ?_ h
  simp only [pool, update_self, update_of_ne hne, offsets, map_append,
    map_cons, map_nil, append_assoc]
  refine List.Perm.append_left _ ?_
  rw [singleton_append]
  exact perm_middle.symm

theorem Complete.give_active (h : Complete rings free active (buf.ioOrOffset :: held))
    (hne : active ≠ free) :
    Complete (update rings active (rings active ++ [buf])) free active held := by
  refine List.Perm.trans ?_ h
  simp only [pool, update_self, update_of_ne hne.symm, offsets, map_append,
    map_cons, map_nil, append_assoc]
  exact .refl _

end Pool

/-! ## Draining a TX ring -/

/-- An active ring was emptied, and the buffers of the frames that `good` accepts went to
the free ring. -/
structure Drained (good : NetBuffDesc -> Bool) (free active : NetPtr) (rings rings' : RingMap) :
    Prop where
  emptied : rings' active = []
  returned : offsets (rings' free) = offsets (rings free) ++ offsets ((rings active).filter good)

section Drained

variable {good : NetBuffDesc -> Bool} {rings rings1 rings' : RingMap} {free active : NetPtr}
  {buf : NetBuffDesc} {rest : List NetBuffDesc}

theorem Drained.nil (hring : rings active = []) : Drained good free active rings rings :=
  ⟨hring, by rw [hring]; simp [offsets]⟩

theorem Drained.skip (h : Drained good free active rings1 rings')
    (hring : rings active = buf :: rest) (hbad : good buf = false) (hactive : rings1 active = rest)
    (hfree : rings1 free = rings free) : Drained good free active rings rings' := by
  refine ⟨h.emptied, ?_⟩
  rw [h.returned, hactive, hfree, hring, filter_cons_of_neg (by simp [hbad])]

theorem Drained.sent (h : Drained good free active rings1 rings')
    (hring : rings active = buf :: rest) (hgood : good buf = true) (hactive : rings1 active = rest)
    (hfree : offsets (rings1 free) = offsets (rings free) ++ [buf.ioOrOffset]) :
    Drained good free active rings rings' := by
  refine ⟨h.emptied, ?_⟩
  rw [h.returned, hactive, hfree, hring, filter_cons_of_pos hgood, append_assoc]
  rfl

/-- Draining conserves the buffers exactly when no frame is dropped. -/
theorem Drained.conserves_iff (h : Drained good free active rings rings') (held : List UInt64) :
    (pool rings' free active held).Perm (pool rings free active held) ↔
      ∀ buf ∈ rings active, good buf = true := by
  simp only [pool, h.emptied, h.returned]
  constructor
  · intro hperm
    have hlength := hperm.length_eq
    simp only [offsets, length_append, length_map, length_nil] at hlength
    exact length_filter_eq_length_iff.mp (by omega)
  · intro hall
    rw [filter_eq_self.mpr hall]
    simp [offsets]

end Drained

/-! ## Clients -/

def queueList (q : NetVirtClient) : List NetPtr := [q.rxFree, q.rxActive, q.txFree, q.txActive]

/-- Queue records as `aos_net_client_bind` makes them: four separate rings of full
capacity. -/
structure Wired (q : NetVirtClient) : Prop where
  capacity : q.capacity = aosNetCapacity
  mapped : ∀ ring ∈ queueList q, isNull ring = false
  separate : (queueList q).Nodup

/-- A hub whose clients have separate rings. -/
structure HubWired (v : AosNetVirt) : Prop where
  client : ∀ q ∈ v.clients, Wired q
  separate : (v.clients.flatMap queueList).Nodup

variable {q : NetVirtClient}

theorem Wired.ne (h : Wired q) :
    q.rxActive ≠ q.rxFree /\ q.txActive ≠ q.txFree /\ q.txFree ≠ q.rxFree /\ q.txFree ≠ q.rxActive /\
      q.txActive ≠ q.rxFree /\ q.txActive ≠ q.rxActive := by
  have hseparate := h.separate
  simp only [queueList, nodup_cons, mem_cons, not_mem_nil, or_false, not_or,
    not_false_eq_true, nodup_nil, and_true] at hseparate
  obtain ⟨⟨h1, h2, h3⟩, ⟨h4, h5⟩, h6⟩ := hseparate
  exact ⟨Ne.symm h1, Ne.symm h6, Ne.symm h2, Ne.symm h4, Ne.symm h3, Ne.symm h5⟩

theorem HubWired.apart {v : AosNetVirt} (h : HubWired v) {a b : NetVirtClient}
    (ha : a ∈ v.clients) (hb : b ∈ v.clients) (hne : a ≠ b) {ring ring' : NetPtr}
    (hring : ring ∈ queueList a) (hring' : ring' ∈ queueList b) : ring ≠ ring' := by
  have hsymm : Std.Symm (Function.onFun List.Disjoint queueList) := ⟨fun _ _ h _ ha hb => h hb ha⟩
  have hdisjoint := (nodup_flatMap.mp h.separate).2.forall ha hb hne
  rintro rfl
  exact hdisjoint hring hring'

theorem slotQueues_wired {i : Nat} (hi : i < aosNetQueueClients) : Wired (slotQueues i) := by
  refine ⟨?_, ?_, ?_⟩
  · rw [slotQueues_eq hi]
  · rw [slotQueues_eq hi]
    simp only [queueList, mem_cons, not_mem_nil, or_false]
    rintro ring (rfl | rfl | rfl | rfl) <;> rfl
  · simp only [aosNetQueueClients] at hi
    interval_cases i <;> decide +kernel

theorem StateOk.wired {s : NvState} {sessions : List UInt32} (hs : StateOk s sessions) {i : Nat}
    (hattached : (s.clients i).attached = true) : Wired (s.clients i).q := by
  have hbound := (hs.table i).of_attached hattached
  rw [hbound.queue]
  exact slotQueues_wired hbound.slot

/-! ## Delivering a frame -/

section Deliver

variable {μ : Type} {driver : NetDriver μ} {s : NetHeap × μ} {dst : NetVirtClient}
  {held : List UInt64}

/-- Only the RX rings of a client differ, and its RX buffers are all there. -/
def RxKept (dst : NetVirtClient) (held : List UInt64) (rings rings' : RingMap) : Prop :=
  Complete rings' dst.rxFree dst.rxActive held /\
    ∀ q, q ≠ dst.rxFree -> q ≠ dst.rxActive -> rings' q = rings q

theorem RxKept.trans {rings rings1 rings' : RingMap} (hfirst : RxKept dst held rings rings1)
    (hsecond : RxKept dst held rings1 rings') : RxKept dst held rings rings' :=
  ⟨hsecond.1, fun q hfree hactive => (hsecond.2 q hfree hactive).trans (hfirst.2 q hfree hactive)⟩

/-- An RX buffer goes to either ring, which always has room for it. -/
theorem evalsTo_give_rx (hdst : Wired dst) {ring : NetPtr}
    (hring : ring = dst.rxFree \/ ring = dst.rxActive) {buf : NetBuffDesc}
    (hcomplete : Complete s.1.ring dst.rxFree dst.rxActive (buf.ioOrOffset :: held)) :
    EvalsTo (handler driver) (fun queued s' => queued = true /\ RxKept dst held s.1.ring s'.1.ring)
      (aosNetQueueEnqueue ring dst.capacity buf) s := by
  have hlength := hcomplete.length
  rw [length_cons] at hlength
  have hmem : ring ∈ queueList dst := by
    rcases hring with rfl | rfl <;> simp [queueList]
  have hroom : (s.1.ring ring).length < ringCap := by
    rcases hring with rfl | rfl <;> omega
  rw [hdst.capacity]
  refine (evalsTo_enqueue (hdst.mapped _ hmem) buf hroom).mono ?_
  rintro queued s' ⟨hqueued, hrings⟩
  rw [hrings]
  rcases hring with rfl | rfl
  · exact ⟨hqueued, hcomplete.give_free hdst.ne.1, fun q hfree _ => update_of_ne hfree _ _⟩
  · exact ⟨hqueued, hcomplete.give_active hdst.ne.1, fun q _ hactive => update_of_ne hactive _ _⟩

theorem evalsTo_take_rxFree (hdst : Wired dst)
    (hcomplete : Complete s.1.ring dst.rxFree dst.rxActive held) :
    EvalsTo (handler driver)
      (fun out s' => (out = none /\ s'.1.ring = s.1.ring) \/
        ∃ buf, out = some buf /\ aosNetBufferValid buf.ioOrOffset 0 = true /\
          Complete s'.1.ring dst.rxFree dst.rxActive (buf.ioOrOffset :: held) /\
          ∀ q, q ≠ dst.rxFree -> s'.1.ring q = s.1.ring q)
      (aosNetQueueDequeue dst.rxFree dst.capacity) s := by
  have hlength := hcomplete.length
  rw [hdst.capacity]
  refine (evalsTo_dequeue (hdst.mapped _ (by simp [queueList])) (by omega)).mono ?_
  rintro out s' (⟨_, hout, hrings⟩ | ⟨buf, rest, hring, hout, hrings⟩)
  · exact Or.inl ⟨hout, hrings⟩
  · refine Or.inr ⟨buf, hout, hcomplete.valid ?_, ?_, fun q hq => ?_⟩
    · simp [pool, offsets, hring]
    · rw [hrings]
      exact hcomplete.take_free hdst.ne.1 hring
    · rw [hrings, update_of_ne hq]

/-- Validity for a length follows from validity for no length and the bound. -/
theorem aosNetBufferValid_length {offset : UInt64} {length : UInt32}
    (hvalid : aosNetBufferValid offset 0 = true) (hlength : length <= aosNetBufferSize) :
    aosNetBufferValid offset length = true := by
  obtain ⟨hrange, haligned, _⟩ := aosNetBufferValid_iff.mp hvalid
  exact aosNetBufferValid_iff.mpr ⟨hrange, haligned, UInt32.le_iff_toNat_le.mp hlength⟩

theorem evalsTo_deliverOne (hdst : Wired dst) (src : NetPtr) {len : UInt16} (hpos : len ≠ 0)
    (hlen : len.toUInt32 <= aosNetBufferSize)
    (hcomplete : Complete s.1.ring dst.rxFree dst.rxActive held) :
    EvalsTo (handler driver) (fun _ s' => RxKept dst held s.1.ring s'.1.ring)
      (deliverOne dst src len) s := by
  refine (evalsTo_take_rxFree hdst hcomplete).bind ?_
  rintro _ s1 (⟨rfl, hrings⟩ | ⟨rx, rfl, hvalid, htaken, hframe⟩)
  · change RxKept dst held s.1.ring s1.1.ring
    rw [hrings]
    exact ⟨hcomplete, fun _ _ _ => rfl⟩
  · dsimp only
    rw [aosNetBufferValid_length hvalid hlen, beq_false_of_ne hpos, if_neg (by decide)]
    refine (evalsTo_copyBytes _ _ _ s1).bind fun _ s2 hcopied => ?_
    have hfilled : Complete s2.1.ring dst.rxFree dst.rxActive
        (({ rx with len := len } : NetBuffDesc).ioOrOffset :: held) := by
      rw [hcopied]
      exact htaken
    refine (evalsTo_give_rx hdst (.inr rfl) hfilled).bind ?_
    rintro _ s3 ⟨rfl, hkept⟩
    change RxKept dst held s.1.ring s3.1.ring
    refine ⟨hkept.1, fun q hfree hactive => ?_⟩
    rw [hkept.2 q hfree hactive, hcopied, hframe q hfree]

end Deliver

/-! ## Taking and returning TX buffers -/

section Tx

variable {μ : Type} {driver : NetDriver μ} {s : NetHeap × μ} {src : NetVirtClient}

theorem evalsTo_take_txActive (hsrc : Wired src)
    (hlength : (s.1.ring src.txActive).length <= ringCap) :
    EvalsTo (handler driver)
      (fun out s' => (s.1.ring src.txActive = [] /\ out = none /\ s'.1.ring = s.1.ring) \/
        ∃ buf rest, s.1.ring src.txActive = buf :: rest /\ out = some buf /\
          s'.1.ring src.txActive = rest /\ ∀ q, q ≠ src.txActive -> s'.1.ring q = s.1.ring q)
      (aosNetQueueDequeue src.txActive src.capacity) s := by
  rw [hsrc.capacity]
  refine (evalsTo_dequeue (hsrc.mapped _ (by simp [queueList])) hlength).mono ?_
  rintro out s' (hnil | ⟨buf, rest, hring, hout, hrings⟩)
  · exact Or.inl hnil
  · refine Or.inr ⟨buf, rest, hring, hout, ?_, fun q hq => ?_⟩
    · rw [hrings, update_self]
    · rw [hrings, update_of_ne hq]

theorem evalsTo_give_txFree (hsrc : Wired src) (buf : NetBuffDesc)
    (hroom : (s.1.ring src.txFree).length < ringCap) :
    EvalsTo (handler driver)
      (fun _ s' => s'.1.ring src.txFree = s.1.ring src.txFree ++ [buf] /\
        ∀ q, q ≠ src.txFree -> s'.1.ring q = s.1.ring q)
      (aosNetQueueEnqueue src.txFree src.capacity buf) s := by
  rw [hsrc.capacity]
  refine (evalsTo_enqueue (hsrc.mapped _ (by simp [queueList])) buf hroom).mono ?_
  rintro _ s' ⟨_, hrings⟩
  refine ⟨?_, fun q hq => ?_⟩
  · rw [hrings, update_self]
  · rw [hrings, update_of_ne hq]

end Tx

/-! ## The hub pump -/

/-- The buffers the VMM of a client holds. -/
structure VmmHeld where
  rx : List UInt64
  tx : List UInt64

section Hub

variable {μ : Type} {driver : NetDriver μ} {s : NetHeap × μ} {v : AosNetVirt}
  {held : NetVirtClient -> VmmHeld}

/-- The RX buffers of every hub client are all there. -/
def HubRx (v : AosNetVirt) (held : NetVirtClient -> VmmHeld) (rings : RingMap) : Prop :=
  ∀ q ∈ v.clients, Complete rings q.rxFree q.rxActive (held q).rx

/-- Only RX rings of hub clients differ, and their RX buffers are all there. -/
def HubRxKept (v : AosNetVirt) (held : NetVirtClient -> VmmHeld) (rings rings' : RingMap) : Prop :=
  HubRx v held rings' /\ ∀ q, (∀ c ∈ v.clients, q ≠ c.rxFree /\ q ≠ c.rxActive) -> rings' q = rings q

variable {rings rings' : RingMap}

theorem HubRxKept.trans {rings1 : RingMap} (hfirst : HubRxKept v held rings rings1)
    (hsecond : HubRxKept v held rings1 rings') : HubRxKept v held rings rings' :=
  ⟨hsecond.1, fun q hq => (hsecond.2 q hq).trans (hfirst.2 q hq)⟩

theorem RxKept.hub (hv : HubWired v) {dst : NetVirtClient} (hdst : dst ∈ v.clients)
    (hrx : HubRx v held rings) (hkept : RxKept dst (held dst).rx rings rings') :
      HubRxKept v held rings rings' := by
  refine ⟨fun c hc => ?_, fun q hq => hkept.2 q (hq dst hdst).1 (hq dst hdst).2⟩
  by_cases hsame : c = dst
  · subst hsame
    exact hkept.1
  · have hout : ∀ ring ∈ queueList c, rings' ring = rings ring := fun ring hring =>
      hkept.2 ring (hv.apart hc hdst hsame hring (by simp [queueList]))
        (hv.apart hc hdst hsame hring (by simp [queueList]))
    exact (hrx c hc).frame (hout _ (by simp [queueList])) (hout _ (by simp [queueList]))

theorem evalsTo_deliverOthers (hv : HubWired v) (srcI : Nat) (payload : NetPtr) {len : UInt16}
    (hpos : len ≠ 0) (hlen : len.toUInt32 <= aosNetBufferSize) {clients : List NetVirtClient}
    (hclients : ∀ c ∈ clients, c ∈ v.clients) (dstI : Nat) (delivered : Bool)
    (hrx : HubRx v held s.1.ring) :
    EvalsTo (handler driver) (fun _ s' => HubRxKept v held s.1.ring s'.1.ring)
      (deliverOthers srcI payload len clients dstI delivered) s := by
  induction clients generalizing s dstI delivered with
  | nil => exact ⟨hrx, fun _ _ => rfl⟩
  | cons dst rest ih =>
    have hdst := hclients dst mem_cons_self
    have hrest : ∀ c ∈ rest, c ∈ v.clients := fun c hc => hclients c (mem_cons_of_mem _ hc)
    unfold deliverOthers
    split
    · exact ih hrest _ _ hrx
    refine (evalsTo_deliverOne (hv.client dst hdst) payload hpos hlen (hrx dst hdst)).bind
      fun arrived s1 hkept => ?_
    have hhub := hkept.hub hv hdst hrx
    exact (ih hrest _ _ hhub.1).mono fun _ _ hafter => hhub.trans hafter

variable {src : NetVirtClient}

theorem evalsTo_deliverFrame (hv : HubWired v) (srcI : Nat) (hsrc : src ∈ v.clients)
    (payload : NetPtr) {len : UInt16} (hpos : len ≠ 0) (hlen : len.toUInt32 <= aosNetBufferSize)
    (hrx : HubRx v held s.1.ring) :
    EvalsTo (handler driver) (fun _ s' => HubRxKept v held s.1.ring s'.1.ring)
      (deliverFrame v srcI src payload len) s := by
  unfold deliverFrame
  split
  · exact (evalsTo_deliverOne (hv.client src hsrc) payload hpos hlen (hrx src hsrc)).mono
      fun _ _ hkept => hkept.hub hv hsrc hrx
  · exact evalsTo_deliverOthers hv srcI payload hpos hlen (fun _ hc => hc) 0 false hrx

/-- A frame the hub forwards. -/
def hubGood (buf : NetBuffDesc) : Bool :=
  !(!aosNetBufferValid buf.ioOrOffset buf.len.toUInt32 || buf.len == 0)

/-- What draining the TX ring of one source does to all rings. -/
structure SourceDrained (v : AosNetVirt) (held : NetVirtClient -> VmmHeld) (src : NetVirtClient)
    (rings rings' : RingMap) : Prop where
  drained : Drained hubGood src.txFree src.txActive rings rings'
  rx : HubRx v held rings'
  frame : ∀ q, (∀ c ∈ v.clients, q ≠ c.rxFree /\ q ≠ c.rxActive) -> q ≠ src.txFree ->
    q ≠ src.txActive -> rings' q = rings q

/-- A TX ring of a hub client is no RX ring of any. -/
theorem HubWired.tx_not_rx (hv : HubWired v) (hsrc : src ∈ v.clients) {ring : NetPtr}
    (hring : ring = src.txFree \/ ring = src.txActive) :
    ∀ c ∈ v.clients, ring ≠ c.rxFree /\ ring ≠ c.rxActive := by
  intro c hc
  have hmem : ring ∈ queueList src := by
    rcases hring with rfl | rfl <;> simp [queueList]
  by_cases hsame : c = src
  · subst hsame
    obtain ⟨_, _, h1, h2, h3, h4⟩ := (hv.client c hc).ne
    rcases hring with rfl | rfl
    · exact ⟨h1, h2⟩
    · exact ⟨h3, h4⟩
  · exact ⟨hv.apart hsrc hc (Ne.symm hsame) hmem (by simp [queueList]),
      hv.apart hsrc hc (Ne.symm hsame) hmem (by simp [queueList])⟩

/-- The loop over one TX ring: dropped frames keep their buffers, the others return them. -/
theorem evalsTo_pumpFrames (hv : HubWired v) (srcI : Nat) (hsrc : src ∈ v.clients) (left : Nat)
    (forwarded : UInt32) (hleft : (s.1.ring src.txActive).length <= left)
    (hroom : (s.1.ring src.txFree).length + (s.1.ring src.txActive).length <= ringCap)
    (hrx : HubRx v held s.1.ring) :
    EvalsTo (handler driver) (fun _ s' => SourceDrained v held src s.1.ring s'.1.ring)
      (pumpFrames v srcI src left forwarded) s := by
  have hwired := hv.client src hsrc
  have htxFree := hv.tx_not_rx hsrc (Or.inl rfl)
  have htxActive := hv.tx_not_rx hsrc (Or.inr rfl)
  induction left generalizing s forwarded with
  | zero =>
    have hnil := length_eq_zero_iff.mp (Nat.le_zero.mp hleft)
    exact ⟨.nil hnil, hrx, fun _ _ _ _ => rfl⟩
  | succ left ih =>
    rw [pumpFrames, evalsTo_attempt]
    refine (evalsTo_take_txActive hwired (by omega)).bind ?_
    rintro _ s1 (⟨hring, rfl, hrings⟩ | ⟨tx, rest, hring, rfl, hactive1, hframe1⟩)
    · change SourceDrained v held src s.1.ring s1.1.ring
      rw [hrings]
      exact ⟨.nil hring, hrx, fun _ _ _ _ => rfl⟩
    · have hfree1 := hframe1 src.txFree hwired.ne.2.1.symm
      have hrx1 : HubRx v held s1.1.ring := fun c hc =>
        (hrx c hc).frame (hframe1 _ (htxActive c hc).1.symm) (hframe1 _ (htxActive c hc).2.symm)
      rw [hring, length_cons] at hleft hroom
      dsimp only
      split
      · rename_i hbad
        have hdrop : hubGood tx = false := by
          rw [hubGood, hbad]
          rfl
        refine (ih forwarded (by rw [hactive1]; omega) (by rw [hactive1, hfree1]; omega)
          hrx1).mono fun _ s' hdone => ?_
        refine ⟨hdone.drained.skip hring hdrop hactive1 hfree1, hdone.rx, ?_⟩
        intro q hq hfree hactive
        rw [hdone.frame q hq hfree hactive, hframe1 q hactive]
      · rename_i hgood
        have hforward : hubGood tx = true := by
          rw [hubGood, Bool.eq_false_of_not_eq_true hgood]
          rfl
        simp only [Bool.or_eq_true, not_or, Bool.not_eq_true, Bool.not_eq_false',
          beq_eq_false_iff_ne] at hgood
        have hlen : tx.len.toUInt32 <= aosNetBufferSize :=
          UInt32.le_iff_toNat_le.mpr (aosNetBufferValid_iff.mp hgood.1).2.2
        refine (evalsTo_deliverFrame hv srcI hsrc _ hgood.2 hlen hrx1).bind
          fun delivered s2 hkept => ?_
        have hfree2 : s2.1.ring src.txFree = s.1.ring src.txFree := (hkept.2 _ htxFree).trans hfree1
        refine (evalsTo_give_txFree hwired _ (by rw [hfree2]; omega)).bind ?_
        rintro _ s3 ⟨hfree3, hframe3⟩
        rw [hfree2] at hfree3
        have hactive3 : s3.1.ring src.txActive = rest := by
          rw [hframe3 _ hwired.ne.2.1, hkept.2 _ htxActive, hactive1]
        have hrx3 : HubRx v held s3.1.ring := fun c hc =>
          (hkept.1 c hc).frame (hframe3 _ (htxFree c hc).1.symm) (hframe3 _ (htxFree c hc).2.symm)
        refine (ih _ (by rw [hactive3]; omega)
          (by rw [hactive3, hfree3, length_append, length_singleton]; omega)
          hrx3).mono fun _ s' hdone => ?_
        refine ⟨hdone.drained.sent hring hforward hactive3 ?_, hdone.rx, ?_⟩
        · rw [hfree3]
          simp [offsets]
        · intro q hq hfree hactive
          rw [hdone.frame q hq hfree hactive, hframe3 q hfree, hkept.2 q hq, hframe1 q hactive]

/-- What the pump does: every TX ring is drained, and every RX buffer is still there. -/
structure HubDrained (v : AosNetVirt) (held : NetVirtClient -> VmmHeld)
    (sources : List NetVirtClient) (rings rings' : RingMap) : Prop where
  drained : ∀ c ∈ sources, Drained hubGood c.txFree c.txActive rings rings'
  rx : HubRx v held rings'
  frame : ∀ q, (∀ c ∈ v.clients, q ≠ c.rxFree /\ q ≠ c.rxActive) ->
    (∀ c ∈ sources, q ≠ c.txFree /\ q ≠ c.txActive) -> rings' q = rings q

theorem Drained.congr {good : NetBuffDesc -> Bool} {free active : NetPtr} {rings1 rings2 : RingMap}
    (h : Drained good free active rings1 rings2) (hfree : rings1 free = rings free)
    (hactive : rings1 active = rings active) (hfree' : rings' free = rings2 free)
    (hactive' : rings' active = rings2 active) :
    Drained good free active rings rings' :=
  ⟨hactive'.trans h.emptied, by rw [hfree', h.returned, hfree, hactive]⟩

theorem evalsTo_pumpSources (hv : HubWired v) {sources : List NetVirtClient} (srcI : Nat)
    (forwarded : UInt32) (hnodup : sources.Nodup) (hsources : ∀ c ∈ sources, c ∈ v.clients)
    (hroom : ∀ c ∈ sources, (s.1.ring c.txFree).length + (s.1.ring c.txActive).length <= ringCap)
    (hrx : HubRx v held s.1.ring) :
    EvalsTo (handler driver) (fun _ s' => HubDrained v held sources s.1.ring s'.1.ring)
      (pumpSources v sources srcI forwarded) s := by
  induction sources generalizing s srcI forwarded with
  | nil => exact ⟨nofun, hrx, fun _ _ _ => rfl⟩
  | cons src rest ih =>
    obtain ⟨hfresh, hnodup⟩ := nodup_cons.mp hnodup
    have hsrc := hsources src mem_cons_self
    have hrest : ∀ c ∈ rest, c ∈ v.clients := fun c hc => hsources c (mem_cons_of_mem _ hc)
    -- rings of different sources are different, and no TX ring is an RX ring
    have hother : ∀ c ∈ rest, ∀ ring, ring = c.txFree \/ ring = c.txActive ->
        ring ≠ src.txFree /\ ring ≠ src.txActive := by
      intro c hc ring hring
      have hne : c ≠ src := fun h => hfresh (h ▸ hc)
      have hmem : ring ∈ queueList c := by
        rcases hring with rfl | rfl <;> simp [queueList]
      exact ⟨hv.apart (hrest c hc) hsrc hne hmem (by simp [queueList]),
        hv.apart (hrest c hc) hsrc hne hmem (by simp [queueList])⟩
    have hleft : (s.1.ring src.txActive).length <= src.capacity.toNat := by
      have hle := hroom src mem_cons_self
      rw [(hv.client src hsrc).capacity]
      exact Nat.le_trans (Nat.le_add_left _ _) hle
    refine (evalsTo_pumpFrames hv srcI hsrc _ forwarded hleft (hroom src mem_cons_self)
      hrx).bind fun forwarded s1 hfirst => ?_
    have hsame : ∀ c ∈ rest, ∀ ring, ring = c.txFree \/ ring = c.txActive ->
        s1.1.ring ring = s.1.ring ring := fun c hc ring hring =>
      hfirst.frame ring (hv.tx_not_rx (hrest c hc) hring) (hother c hc ring hring).1
        (hother c hc ring hring).2
    have hroom1 : ∀ c ∈ rest,
        (s1.1.ring c.txFree).length + (s1.1.ring c.txActive).length <= ringCap := by
      intro c hc
      rw [hsame c hc _ (Or.inl rfl), hsame c hc _ (Or.inr rfl)]
      exact hroom c (mem_cons_of_mem _ hc)
    refine (ih (srcI + 1) forwarded hnodup hrest hroom1 hfirst.rx).mono fun _ s' hdone => ?_
    have hkept : ∀ ring, ring = src.txFree \/ ring = src.txActive ->
        s'.1.ring ring = s1.1.ring ring := fun ring hring =>
      hdone.frame ring (hv.tx_not_rx hsrc hring) fun c hc => by
        rcases hring with rfl | rfl
        · exact ⟨(hother c hc _ (Or.inl rfl)).1.symm, (hother c hc _ (Or.inr rfl)).1.symm⟩
        · exact ⟨(hother c hc _ (Or.inl rfl)).2.symm, (hother c hc _ (Or.inr rfl)).2.symm⟩
    refine ⟨fun c hc => ?_, hdone.rx, fun q hq hsrcs => ?_⟩
    · rcases mem_cons.mp hc with rfl | hc
      · exact hfirst.drained.congr rfl rfl (hkept _ (Or.inl rfl)) (hkept _ (Or.inr rfl))
      · exact (hdone.drained c hc).congr (hsame c hc _ (Or.inl rfl)) (hsame c hc _ (Or.inr rfl))
          rfl rfl
    · obtain ⟨hfree, hactive⟩ := hsrcs src mem_cons_self
      rw [hdone.frame q hq fun c hc => hsrcs c (mem_cons_of_mem _ hc),
        hfirst.frame q hq hfree hactive]

end Hub

/-! ## The driver path -/

section Driver

variable {μ : Type} {driver : NetDriver μ} {s : NetHeap × μ} {c : NvClient} {held : List UInt64}

/-- A frame the driver path sends. -/
def sendGood (buf : NetBuffDesc) : Bool :=
  !(!aosNetBufferValid buf.ioOrOffset buf.len.toUInt32 || buf.len == 0 ||
    decide (buf.len.toUInt32 > netSvcMaxFrameBytes))

theorem evalsTo_nvSendFrame (c : NvClient) (buf : NetBuffDesc) (s : NetHeap × μ) :
    EvalsTo (handler driver) (fun result s' => result.2.q = c.q /\ s'.1.ring = s.1.ring)
      (nvSendFrame c buf) s := by
  refine (evalsTo_copyBytes _ _ _ s).bind fun _ s1 hcopied => ?_
  refine (evalsTo_nvFence s1).bind fun _ s2 hfenced => ?_
  refine (evalsTo_netPdCall _ _ _ s2).bind fun rep s3 hcalled => ?_
  have hrings := hcalled.trans (hfenced.trans hcopied)
  split
  · exact ⟨rfl, hrings⟩
  · exact ⟨rfl, hrings⟩

/-- What draining a TX ring into the driver does to all rings. -/
structure TxDrained (src : NetVirtClient) (rings rings' : RingMap) : Prop where
  drained : Drained sendGood src.txFree src.txActive rings rings'
  frame : ∀ q, q ≠ src.txFree -> q ≠ src.txActive -> rings' q = rings q

theorem evalsTo_nvTxLoop {src : NetVirtClient} (hsrc : Wired src) (hq : c.q = src) (left : Nat)
    (sent : UInt32) (hleft : (s.1.ring src.txActive).length <= left)
    (hroom : (s.1.ring src.txFree).length + (s.1.ring src.txActive).length <= ringCap) :
    EvalsTo (handler driver) (fun _ s' => TxDrained src s.1.ring s'.1.ring)
      (nvTxLoop left sent c) s := by
  induction left generalizing s sent c with
  | zero =>
    have hnil := length_eq_zero_iff.mp (Nat.le_zero.mp hleft)
    exact ⟨.nil hnil, fun _ _ _ => rfl⟩
  | succ left ih =>
    rw [nvTxLoop, evalsTo_attempt, hq]
    refine (evalsTo_take_txActive hsrc (by omega)).bind ?_
    rintro _ s1 (⟨hring, rfl, hrings⟩ | ⟨buf, rest, hring, rfl, hactive1, hframe1⟩)
    · change TxDrained src s.1.ring s1.1.ring
      rw [hrings]
      exact ⟨.nil hring, fun _ _ _ => rfl⟩
    · have hfree1 := hframe1 src.txFree hsrc.ne.2.1.symm
      rw [hring, length_cons] at hleft hroom
      dsimp only
      split
      · rename_i hbad
        have hdrop : sendGood buf = false := by
          rw [sendGood, hbad]
          rfl
        refine (ih hq sent (by rw [hactive1]; omega) (by rw [hactive1, hfree1]; omega)).mono
          fun _ s' hdone => ?_
        refine ⟨hdone.drained.skip hring hdrop hactive1 hfree1, fun q hfree hactive => ?_⟩
        rw [hdone.frame q hfree hactive, hframe1 q hactive]
      · rename_i hgood
        have hsend : sendGood buf = true := by
          rw [sendGood, Bool.eq_false_of_not_eq_true hgood]
          rfl
        refine (evalsTo_nvSendFrame c buf s1).bind ?_
        rintro ⟨accepted, c'⟩ s2 ⟨hq', hrings2⟩
        dsimp only at hq' ⊢
        rw [hq', hq]
        have hfree2 : s2.1.ring src.txFree = s.1.ring src.txFree := by rw [hrings2, hfree1]
        refine (evalsTo_give_txFree hsrc _ (by rw [hfree2]; omega)).bind ?_
        rintro _ s3 ⟨hfree3, hframe3⟩
        rw [hfree2] at hfree3
        have hactive3 : s3.1.ring src.txActive = rest := by
          rw [hframe3 _ hsrc.ne.2.1, hrings2, hactive1]
        refine (ih (hq'.trans hq) _ (by rw [hactive3]; omega)
          (by rw [hactive3, hfree3, length_append, length_singleton]; omega)).mono
          fun _ s' hdone => ?_
        refine ⟨hdone.drained.sent hring hsend hactive3 ?_, fun q hfree hactive => ?_⟩
        · rw [hfree3]
          simp [offsets]
        · rw [hdone.frame q hfree hactive, hframe3 q hfree, hrings2, hframe1 q hactive]

variable {dst : NetVirtClient}

theorem evalsTo_nvRecycleRx (hdst : Wired dst) (hq : c.q = dst) {buf : NetBuffDesc}
    (hcomplete : Complete s.1.ring dst.rxFree dst.rxActive (buf.ioOrOffset :: held)) :
    EvalsTo (handler driver) (fun _ s' => RxKept dst held s.1.ring s'.1.ring)
      (nvRecycleRx c buf) s := by
  rw [nvRecycleRx, hq]
  exact (evalsTo_give_rx hdst (.inl rfl) hcomplete).bind fun _ _ hkept => hkept.2

theorem evalsTo_nvReceiveInto (hdst : Wired dst) (hq : c.q = dst) {buf : NetBuffDesc}
    (hcomplete : Complete s.1.ring dst.rxFree dst.rxActive (buf.ioOrOffset :: held)) :
    EvalsTo (handler driver)
      (fun result s' => result.2.q = dst /\ RxKept dst held s.1.ring s'.1.ring)
      (nvReceiveInto c buf) s := by
  refine (evalsTo_netPdCall _ _ _ s).bind fun rep s1 hcalled => ?_
  rw [<- hcalled] at hcomplete ⊢
  have hback : ∀ c' : NvClient, c'.q = dst -> EvalsTo (handler driver)
      (fun result s' => result.2.q = dst /\ RxKept dst held s1.1.ring s'.1.ring)
      (do nvRecycleRx c buf; return (false, c')) s1 := fun c' hq' =>
    (evalsTo_nvRecycleRx hdst hq hcomplete).bind fun _ _ hkept => ⟨hq', hkept⟩
  split
  · exact hback _ hq
  split
  · exact hback _ hq
  split
  · exact hback _ hq
  refine (evalsTo_nvFence s1).bind fun _ s2 hfenced => ?_
  refine (evalsTo_copyBytes _ _ _ s2).bind fun _ s3 hcopied => ?_
  rw [hfenced] at hcopied
  have hfilled : Complete s3.1.ring dst.rxFree dst.rxActive
      (({ buf with len := (rd32 rep.data 4).toUInt16 } : NetBuffDesc).ioOrOffset :: held) := by
    rw [hcopied]
    exact hcomplete
  rw [hq, <- hcopied]
  refine (evalsTo_give_rx hdst (.inr rfl) hfilled).bind ?_
  rintro _ s4 ⟨rfl, hkept⟩
  exact ⟨rfl, hkept⟩

theorem evalsTo_nvRxLoop (hdst : Wired dst) (hq : c.q = dst) (left : Nat) (received : UInt32)
    (hcomplete : Complete s.1.ring dst.rxFree dst.rxActive held) :
    EvalsTo (handler driver) (fun _ s' => RxKept dst held s.1.ring s'.1.ring)
      (nvRxLoop left received c) s := by
  induction left generalizing s received c with
  | zero => exact ⟨hcomplete, fun _ _ _ => rfl⟩
  | succ left ih =>
    rw [nvRxLoop, evalsTo_attempt, hq]
    refine (evalsTo_take_rxFree hdst hcomplete).bind ?_
    rintro _ s1 (⟨rfl, hrings⟩ | ⟨buf, rfl, hvalid, htaken, hframe⟩)
    · change RxKept dst held s.1.ring s1.1.ring
      rw [hrings]
      exact ⟨hcomplete, fun _ _ _ => rfl⟩
    · dsimp only
      rw [hvalid, if_neg (by decide)]
      refine (evalsTo_nvReceiveInto hdst hq htaken).bind ?_
      rintro ⟨arrived, c'⟩ s2 ⟨hq', hkept⟩
      have hwhole : RxKept dst held s.1.ring s2.1.ring :=
        ⟨hkept.1, fun q hfree hactive => by rw [hkept.2 q hfree hactive, hframe q hfree]⟩
      cases arrived with
      | false => exact hwhole
      | true => exact (ih hq' _ hkept.1).mono fun _ _ hafter => hwhole.trans hafter

end Driver

/-! ## Which frames are dropped -/

variable {buf : NetBuffDesc}

theorem hubGood_iff (hvalid : aosNetBufferValid buf.ioOrOffset 0 = true) :
    hubGood buf = true ↔ 1 <= buf.len.toNat /\ buf.len.toNat <= 2048 := by
  obtain ⟨hrange, haligned, _⟩ := aosNetBufferValid_iff.mp hvalid
  have hzero : buf.len = 0 ↔ buf.len.toNat = 0 := by
    rw [<- UInt16.toNat_inj]
    rfl
  simp only [hubGood, Bool.not_eq_true', Bool.or_eq_false_iff, Bool.not_eq_false',
    beq_eq_false_iff_ne, aosNetBufferValid_iff, hrange, haligned, UInt16.toNat_toUInt32, true_and,
    ne_eq, hzero]
  omega

theorem sendGood_iff (hvalid : aosNetBufferValid buf.ioOrOffset 0 = true) :
    sendGood buf = true ↔ 1 <= buf.len.toNat /\ buf.len.toNat <= 1514 := by
  have hmax : netSvcMaxFrameBytes.toNat = 1514 := rfl
  have hsplit : sendGood buf = true ↔ hubGood buf = true /\ buf.len.toNat <= 1514 := by
    simp only [sendGood, hubGood, Bool.not_eq_true', Bool.or_eq_false_iff, decide_eq_false_iff_not,
      gt_iff_lt, UInt32.lt_iff_toNat_lt, UInt16.toNat_toUInt32, hmax, Nat.not_lt]
  rw [hsplit, hubGood_iff hvalid]
  omega

/-! ## Conservation -/

/-- The rings hold only well-formed descriptors, and each buffer of either direction is in
exactly one place. -/
def Accounted (h : NetHeap) (held : VmmHeld) (q : NetVirtClient) : Prop :=
  Complete h.ring q.rxFree q.rxActive held.rx /\ Complete h.ring q.txFree q.txActive held.tx

/-- Either direction of a client has the same buffers as before. -/
def Conserved (h h' : NetHeap) (held : VmmHeld) (q : NetVirtClient) : Prop :=
  (pool h'.ring q.rxFree q.rxActive held.rx).Perm (pool h.ring q.rxFree q.rxActive held.rx) /\
    (pool h'.ring q.txFree q.txActive held.tx).Perm (pool h.ring q.txFree q.txActive held.tx)

instance (h : NetHeap) (held : VmmHeld) (q : NetVirtClient) : Decidable (Accounted h held q) :=
  inferInstanceAs (Decidable (_ /\ _))

instance (h h' : NetHeap) (held : VmmHeld) (q : NetVirtClient) :
    Decidable (Conserved h h' held q) := inferInstanceAs (Decidable (_ /\ _))

theorem Accounted.tx_valid {h : NetHeap} {held : VmmHeld} (hq : Accounted h held q)
    (hbuf : buf ∈ h.ring q.txActive) :
    aosNetBufferValid buf.ioOrOffset 0 = true := by
  refine hq.2.valid (mem_append_left _ (mem_append_right _ ?_))
  exact mem_map_of_mem hbuf

theorem Accounted.room {h : NetHeap} {held : VmmHeld} (hq : Accounted h held q) :
    (h.ring q.txFree).length + (h.ring q.txActive).length <= ringCap := by
  have hlength := hq.2.length
  omega

theorem HubWired.nodup {v : AosNetVirt} (hv : HubWired v) : v.clients.Nodup := by
  refine (nodup_flatMap.mp hv.separate).2.imp fun hdisjoint hsame => ?_
  subst hsame
  exact hdisjoint mem_cons_self mem_cons_self

/-- The page of the primary guest after its VMM initialised it. -/
def freshPage : NetHeap :=
  (eval (handler oneSession) (aosNetClientInitBuffers (slotQueues 0)) (.zero, ())).2.1

/-- The VMM has taken TX buffer 0 and published a frame of the given length in it. -/
def published (len : UInt16) : NetHeap :=
  (freshPage.pop (slotQueues 0).txFree).push (slotQueues 0).txActive ⟨0, len⟩

end AgentOs.NetVirt
