import AgentOs.BlkVirt.Control
import AgentOs.NetVirt.Rings

/-!
# Slots of free-running indices

Both pumps accept every capacity up to that of their arrays, and reduce counters of 32 and 16
bits modulo it.
-/

open Function (update update_self update_of_ne)

namespace AgentOs.BlkVirt

open Library Prog

/-- The entries of a ring, by their slots. -/
def BlkHeap.live (h : BlkHeap) (kind : RingKind) (q : BlkPtr) (capacity : UInt32) : List Nat :=
  Ring.liveSlots (2 ^ 32) capacity.toNat (h.ring kind q).head.toNat (h.ringLen kind q).toNat

/-- Live indices have different slots, and a response never overwrites one of them. -/
structure SlotsApart (capacity : UInt32) : Prop where
  distinct : Ring.Apart (2 ^ 32) capacity.toNat
  kept : ∀ h q r, BlkHeap.ringLen h .resp q <= capacity ->
    EvalsTo (handler noDriver)
      (fun _ s => ∀ i ∈ h.live .resp q capacity, s.1.respBuf q i = h.respBuf q i)
      (enqueueResp q capacity r) (h, ())

variable {capacity : UInt32}

/-- A response is refused, or goes into the slot of the tail. -/
theorem evalsTo_enqueueResp {Q : Bool -> BlkHeap × Unit -> Prop} {h : BlkHeap} {q : BlkPtr}
    {r : BlkResp} (hrefused : Q false (h, ()))
    (hposted : ¬ h.ringLen .resp q >= capacity ->
      Q true ((h.store (.respBuffer q ((h.ring .resp q).tail % capacity).toNat) r).store
        (.index .resp .tail q) ((h.ring .resp q).tail + 1), ())) :
    EvalsTo (handler noDriver) Q (enqueueResp q capacity r) (h, ()) := by
  unfold enqueueResp aosBlkQueueRespValid ringValid
  split
  · show EvalsTo _ _ (ite (decide (h.ringLen .resp q <= capacity) = true) _ _) _
    split
    · show EvalsTo _ _ (ite (decide (h.ringLen .resp q >= capacity) = true) _ _) _
      split
      · exact hrefused
      · next hfull => exact hposted fun h => hfull (decide_eq_true h)
    · exact hrefused
  · exact hrefused

theorem SlotsApart.of_distinct (hapart : Ring.Apart (2 ^ 32) capacity.toNat) :
    SlotsApart capacity := by
  refine ⟨hapart, fun h q r _ => evalsTo_enqueueResp (fun _ _ => rfl) fun hfull i hi => ?_⟩
  have hroom := UInt32.lt_iff_toNat_lt.mp (UInt32.not_le.mp hfull)
  rw [BlkHeap.ringLen, UInt32.toNat_sub] at hroom
  rw [BlkHeap.live, BlkHeap.ringLen, UInt32.toNat_sub] at hi
  have hne := hapart.ne_tail (UInt32.toNat_lt _) (UInt32.toNat_lt _) hroom hi
  rw [<- UInt32.toNat_mod] at hne
  show update h.respBuf q (update (h.respBuf q) _ r) q i = _
  rw [update_self, update_of_ne hne]

end AgentOs.BlkVirt

namespace AgentOs.NetVirt

open Library Prog

def NetHeap.live (h : NetHeap) (q : NetPtr) (capacity : UInt32) : List Nat :=
  Ring.liveSlots ringWord capacity.toNat (h.index q).head.toNat (h.len q).toNat

/-- Live indices have different slots, and a buffer never overwrites one of them. -/
structure SlotsApart (capacity : UInt32) : Prop where
  distinct : Ring.Apart ringWord capacity.toNat
  kept : ∀ {μ : Type} (driver : NetDriver μ) m h q buf, (NetHeap.len h q).toUInt32 <= capacity ->
    EvalsTo (handler driver) (fun _ s => ∀ i ∈ h.live q capacity, s.1.buffer q i = h.buffer q i)
      (aosNetQueueEnqueue q capacity buf) (h, m)

variable {capacity : UInt32}

theorem SlotsApart.of_distinct (hapart : Ring.Apart ringWord capacity.toNat) :
    SlotsApart capacity := by
  refine ⟨hapart, fun driver m h q buf _ => ?_⟩
  unfold aosNetQueueEnqueue
  split
  · exact fun _ _ => rfl
  rw [evalsTo_load, evalsTo_load]
  dsimp only [NetHeap.load, NetIndices.get]
  split
  · exact fun _ _ => rfl
  · next hfull =>
    intro i hi
    have hroom := UInt32.lt_iff_toNat_lt.mp (UInt32.not_le.mp hfull)
    rw [UInt16.toNat_toUInt32, UInt16.toNat_sub] at hroom
    rw [NetHeap.live, NetHeap.len, UInt16.toNat_sub] at hi
    have hne := hapart.ne_tail (UInt16.toNat_lt _) (UInt16.toNat_lt _) hroom hi
    rw [<- UInt16.toNat_toUInt32, <- UInt32.toNat_mod] at hne
    show update h.buffer q (update (h.buffer q) _ buf) q i = _
    rw [update_self, update_of_ne hne]

def threeBlocks : BlkVirt.BlkVirtClient :=
  { BlkVirt.aosBlkClientBind BlkVirt.shmem 0 .zero with capacity := 3, mediaBlocks := 1 }

def threeBuffers : NetVirtClient := { aosNetClientBind shmem 0 .zero with capacity := 3 }

/-- For a capacity that a client may have, slots never collide exactly if it divides the number
of index values. -/
theorem ringSlots_apart_iff (blk : BlkVirt.BlkVirtClient) (net : NetVirtClient) :
    (∀ v, (BlkVirt.aosBlkVirtAddClient v blk).clients = v.clients ++ [blk] ->
      (BlkVirt.SlotsApart blk.capacity ↔ blk.capacity.toNat ∣ 2 ^ 32)) /\
    ∀ v v', aosNetVirtAddClient v net = some v' ->
      (SlotsApart net.capacity ↔ net.capacity.toNat ∣ 2 ^ 16) := by
  have hpos {capacity : UInt32} (hne : ¬ capacity = 0) : 0 < capacity.toNat :=
    Nat.pos_of_ne_zero fun hzero => hne (UInt32.toNat_inj.mp hzero)
  constructor
  · intro v hadded
    rw [<- Ring.apart_iff (hpos fun hzero => ?_)]
    · exact ⟨BlkVirt.SlotsApart.distinct, .of_distinct⟩
    · simp [BlkVirt.aosBlkVirtAddClient, hzero] at hadded
  · intro v v' hadded
    rw [<- Ring.apart_iff (hpos fun hzero => ?_)]
    · exact ⟨SlotsApart.distinct, .of_distinct⟩
    · simp [aosNetVirtAddClient, hzero] at hadded

/-- With three slots, the last index and the first share slot 0. -/
theorem threeSlots_collide :
    (BlkVirt.aosBlkVirtAddClient BlkVirt.aosBlkVirtReset threeBlocks).clients = [threeBlocks] /\
    Ring.liveSlots (2 ^ 32) threeBlocks.capacity.toNat 0xffffffff 2 = [0, 0] /\
    aosNetVirtAddClient aosNetVirtReset threeBuffers = some ⟨[threeBuffers]⟩ /\
    Ring.liveSlots (2 ^ 16) threeBuffers.capacity.toNat 0xffff 2 = [0, 0] := by
  decide

end AgentOs.NetVirt
