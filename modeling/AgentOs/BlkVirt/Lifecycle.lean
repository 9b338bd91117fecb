import AgentOs.Library.Lifecycle
import AgentOs.BlkVirt.Table

/-!
# Block client lifecycle

ATTACH, DETACH and REBIND as steps of the abstract client lifecycle, for every
message, every content of the queues and every failure of the kernel calls.
-/

open Function (update update_idem update_self update_of_ne update_eq_self)

namespace AgentOs.BlkVirt

open Library Prog Ipc List

variable {A : (request : BlkOp) -> BlkOp.Ans request -> Prop} {build : Build}

theorem ensures_skip {α : Type} {p : BlkM α} : Ensures A (fun _ => True) (fun _ => True) p :=
  .of_forall fun _ => trivial

/-! ## ATTACH -/

theorem hostBlocks_ne_zero {sectors : UInt64}
    (hsectors : sectors >= (aosBlkTransferSize / aosHostBlkSectorSize).toUInt64) :
    (hostBlocks sectors).toUInt32 ≠ 0 := by
  have hunit : (aosBlkTransferSize / aosHostBlkSectorSize).toUInt64 = 8 := by decide
  rw [hunit] at hsectors
  have hmin : 8 <= sectors.toNat := UInt64.le_iff_toNat_le.mp hsectors
  intro hzero
  have hnat := congrArg UInt32.toNat hzero
  unfold hostBlocks at hnat
  rw [hunit] at hnat
  dsimp only at hnat
  split at hnat
  · exact absurd hnat (by decide)
  rename_i hclamp
  have hle := UInt64.le_iff_toNat_le.mp (UInt64.not_lt.mp hclamp)
  rw [UInt64.toNat_toUInt32, UInt64.toNat_div] at hnat
  rw [UInt64.toNat_div] at hle
  have height : (8 : UInt64).toNat = 8 := rfl
  have hzero : (0 : UInt32).toNat = 0 := rfl
  have hmax : (0xFFFFFFFF : UInt64).toNat = 4294967295 := rfl
  rw [height, hzero] at hnat
  rw [height, hmax] at hle
  omega

variable {i : Nat}

theorem slot_toNat (hi : i < aosBlkMaxClients) : (UInt32.ofNat i).toNat = i :=
  UInt32.toNat_ofNat_of_lt' (Nat.lt_trans hi (by decide))

theorem clientBind_not_null (hi : i < aosBlkMaxClients) (q : BlkVirtClient) :
    aosBlkClientBind shmem (.ofNat i) q =
      { q with
        info := clientPage shmem (.ofNat i) + aosBlkStorageInfoOff
        signal := clientPage shmem (.ofNat i) + aosBlkSignalOff
        req := clientPage shmem (.ofNat i) + aosBlkReqQueueOff
        resp := clientPage shmem (.ofNat i) + aosBlkRespQueueOff
        data := clientPage shmem (.ofNat i) + aosBlkDataOff
        capacity := aosBlkQueueCapacity } := by
  have hguard : (isNull shmem || decide ((UInt32.ofNat i).toNat >= aosBlkMaxClients)) = false := by
    rw [slot_toNat hi]
    simp only [Bool.or_eq_false_iff, decide_eq_false_iff_not]
    exact ⟨by decide, by omega⟩
  unfold aosBlkClientBind
  rw [hguard]
  rfl

theorem addClient_bound (hi : i < aosBlkMaxClients) {q : BlkVirtClient}
    (hq : aosBlkClientBind shmem (.ofNat i) q = q) (hmedia : q.mediaBlocks ≠ 0)
    (backend : Option BackendFn) :
    aosBlkVirtAddClient ⟨[], backend⟩ q = ⟨[q], backend⟩ := by
  rw [clientBind_not_null hi] at hq
  have hguard : (isNull q.info || isNull q.req || isNull q.resp || isNull q.data ||
      q.capacity == 0 || decide (q.capacity > aosBlkQueueCapacity) || q.mediaBlocks == 0 ||
      decide (([] : List BlkVirtClient).length >= aosBlkMaxClients)) = false := by
    rw [<- hq]
    simp only [Bool.or_eq_false_iff, decide_eq_false_iff_not, beq_eq_false_iff_ne]
    refine ⟨⟨⟨⟨⟨⟨⟨rfl, rfl⟩, rfl⟩, rfl⟩, by decide⟩, by decide⟩, hmedia⟩, by decide⟩
  unfold aosBlkVirtAddClient
  rw [hguard]
  rfl

variable {vmmNotify : UInt64}

theorem finishAttach_bound (hi : i < aosBlkMaxClients) (hnotify : vmmNotify ≠ 0)
    {q : BlkVirtClient} {backend : Option BackendFn} {hw : Bool}
    (hq : aosBlkClientBind shmem (.ofNat i) q = q) (hmedia : q.mediaBlocks ≠ 0)
    (hmedium : (hw = true /\ backend = some .hostBlkBackend) \/ (hw = false /\ backend = none /\
      q = aosBlkClientSetRamDisk q (gRamDisk (.ofNat i)) aosBlkDiskBlocks)) :
    Bound i (finishAttach { bindSlot (.ofNat i) (.ofNat i) vmmNotify .zero with
      q := q, virt := ⟨[], backend⟩, hw := hw }) := by
  have hadd := addClient_bound hi hq hmedia backend
  exact {
    slot := hi, attached := rfl, live := rfl, clientId := rfl, mediaId := rfl,
    notify := hnotify, queue := hq, media := hmedia,
    clients := congrArg AosBlkVirt.clients hadd,
    medium := by
      have hbackend := congrArg AosBlkVirt.backend hadd
      rcases hmedium with ⟨hhw, hfn⟩ | ⟨hhw, hfn, hdisk⟩
      · exact Or.inl ⟨hhw, hbackend.trans hfn⟩
      · exact Or.inr ⟨hhw, hbackend.trans hfn, hdisk⟩ }

theorem ensures_selectMedium (hi : i < aosBlkMaxClients) (hnotify : vmmNotify ≠ 0) (rc : UInt32)
    (host : HostInfo) :
    Ensures A (fun _ => True) (fun result => Bound i (finishAttach result.1))
      (selectMedium (bindSlot (.ofNat i) (.ofNat i) vmmNotify .zero)
        (.ofNat i) rc host) := by
  have hbind := clientBind_not_null hi
  unfold selectMedium
  split
  · rename_i hhost
    simp only [Bool.and_eq_true, decide_eq_true_eq] at hhost
    refine ensures_skip.bind fun _ _ => ensures_skip.bind fun _ _ => ?_
    refine ensures_skip.bind fun _ _ => ensures_skip.bind fun _ _ => ?_
    refine finishAttach_bound hi hnotify ?_ (hostBlocks_ne_zero hhost.2) (Or.inl ⟨rfl, rfl⟩)
    simp only [bindSlot, aosBlkClientSetMedia, hbind]
  · refine ensures_skip.bind fun _ _ => ?_
    have hblocks : aosBlkDiskBlocks ≠ 0 := by decide
    refine finishAttach_bound hi hnotify ?_ hblocks (Or.inr ⟨rfl, rfl, rfl⟩)
    simp only [bindSlot, aosBlkClientSetRamDisk, hbind]

/-- Attaching an untouched slot binds it, whatever the driver answers. -/
theorem ensures_attachClient (hi : i < aosBlkMaxClients) (hnotify : vmmNotify ≠ 0) :
    Ensures A (fun _ => True) (fun result => Bound i result.1)
      (attachClient (.ofNat i) (.ofNat i) vmmNotify .zero) := by
  refine (ensures_skip (p := hostBlkCall _ _ _ _ _)).bind fun result _ => ?_
  refine (ensures_selectMedium hi hnotify result.1 result.2).bind fun bound hbound => ?_
  exact ensures_skip.bind fun _ _ => ensures_skip.bind fun _ _ => hbound

variable {badge : UInt64} {g : BvTable}

theorem attachStatus_ok {req : Sel4Msg} (hok : attachStatus build badge req g = blkVirtOk) :
    ∃ i, i < aosBlkMaxClients /\ badge = virtClientBadge (.ofNat i) /\
      rd32 req.data 4 = .ofNat i /\ rd32 req.data 12 = .ofNat i /\
      vmmNotifyForSlot build (rd32 req.data 8) ≠ 0 /\
      (g i).attached = false /\ (g i).retired = false := by
  unfold attachStatus at hok
  dsimp only at hok
  split at hok
  · exact absurd hok (by decide)
  split at hok
  · exact absurd hok (by decide)
  rename_i hauthority
  split at hok
  · exact absurd hok (by decide)
  rename_i hfree
  simp only [Bool.or_eq_true, not_or, Bool.not_eq_true, Bool.not_eq_false',
    decide_eq_true_eq, beq_eq_false_iff_ne] at hauthority hfree
  obtain ⟨⟨⟨hmedia, hclient⟩, _⟩, hnotify⟩ := hauthority
  obtain ⟨_, hsame, hmedium, hbadge⟩ := virtMediaAuthorized_iff.mp hmedia
  refine ⟨(rd32 req.data 4).toNat, by omega, ?_, ?_, ?_, hnotify, hfree.1, hfree.2⟩
  · rw [UInt32.ofNat_toNat, hbadge, hsame]
  · rw [UInt32.ofNat_toNat]
  · rw [UInt32.ofNat_toNat, hmedium, hsame]

theorem replyStatus_attachReply (status hwState : UInt32) (capacity : UInt64) (rep : Sel4Msg) :
    replyStatus (attachReply status hwState capacity rep) = status := by
  unfold replyStatus attachReply
  dsimp only
  repeat rw [rd32_wr32_of_apart _ _ (by decide)]
  exact rd32_wr32 _ _ _

theorem replyStatus_rebindReply (status generation hwState : UInt32) :
    replyStatus (rebindReply status generation hwState) = status := by
  unfold replyStatus rebindReply
  dsimp only
  repeat rw [rd32_wr32_of_apart _ _ (by decide)]
  exact rd32_wr32 _ _ _

variable {rep : Sel4Msg}

/-- ATTACH binds the untouched slot its badge names, or changes nothing. -/
theorem ensures_handleAttach {req : Sel4Msg} (hg : TableOk g) : Ensures A (fun _ => True)
      (fun result =>
        (replyStatus result.2 ≠ blkVirtOk /\ result.1 = g) \/
        (replyStatus result.2 = blkVirtOk /\ ∃ i c, badge = virtClientBadge (.ofNat i) /\
          rd32 req.data 4 = .ofNat i /\ g i = .zero /\ Bound i c /\
          result.1 = update g i c))
      (handleAttach build badge req rep g) := by
  unfold handleAttach
  dsimp only
  split
  · rename_i hok
    obtain ⟨i, hi, hbadge, hclient, hmedia, hnotify, hfree, hlive⟩ :=
      attachStatus_ok (beq_iff_eq.mp hok)
    have hzero := (hg i).of_free hfree hlive
    rw [hclient, hmedia, slot_toNat hi, hzero]
    refine (ensures_attachClient hi hnotify).bind fun result hbound => ?_
    refine Or.inr ⟨?_, i, result.1, hbadge, rfl, hzero, hbound, rfl⟩
    exact (replyStatus_attachReply _ _ _ _).trans (beq_iff_eq.mp hok)
  · rename_i hrejected
    refine Or.inl ⟨?_, rfl⟩
    rw [replyStatus_attachReply]
    exact fun h => hrejected (beq_iff_eq.mpr h)

/-! ## DETACH -/

/-- The queues of a client are valid and empty in this memory. -/
def Drained (h : BlkHeap) (q : BlkVirtClient) : Prop :=
  ∀ kind, isNull (q.ring kind) = false /\ q.capacity ≠ 0 /\ q.capacity <= aosBlkQueueCapacity /\
    h.ringLen kind (q.ring kind) = 0

theorem ensures_agrees_ringLen (h : BlkHeap) (kind : RingKind) (q : BlkPtr) :
    Ensures h.Agrees (fun _ => True) (fun len => len = h.ringLen kind q) (ringLen kind q) := by
  refine ⟨trivial, fun tail htail => ⟨trivial, fun head hhead => ?_⟩⟩
  change tail - head = h.ringLen kind q
  rw [htail, hhead]
  rfl

theorem ensures_agrees_ringValid (h : BlkHeap) (kind : RingKind) (q : BlkPtr) (capacity : UInt32) :
    Ensures h.Agrees (fun _ => True)
      (fun valid => valid = true -> isNull q = false /\ capacity ≠ 0 /\ capacity <= aosBlkQueueCapacity)
      (ringValid kind q capacity) := by
  unfold ringValid
  split
  · rename_i hguard
    simp only [Bool.and_eq_true, Bool.not_eq_true', bne_iff_ne, decide_eq_true_eq] at hguard
    exact ensures_skip.bind fun _ _ _ => ⟨hguard.1.1, hguard.1.2, hguard.2⟩
  · exact nofun

/-- The detach check passes only on drained queues. -/
theorem ensures_agrees_detachReady (h : BlkHeap) (clients : List BlkVirtClient) :
    Ensures h.Agrees (fun _ => True)
      (fun ready => ready = true -> ∀ q ∈ clients, Drained h q) (detachReady clients) := by
  induction clients with
  | nil => exact fun _ q hq => absurd hq not_mem_nil
  | cons q rest ih =>
    refine (ensures_agrees_ringValid h .req q.req q.capacity).bind fun reqValid hreq => ?_
    cases reqValid with
    | false => exact nofun
    | true =>
      refine (ensures_agrees_ringValid h .resp q.resp q.capacity).bind fun respValid hresp => ?_
      cases respValid with
      | false => exact nofun
      | true =>
        refine (ensures_agrees_ringLen h .req q.req).bind fun pending hpending => ?_
        dsimp only
        split
        · exact nofun
        rename_i hnone
        refine (ensures_agrees_ringLen h .resp q.resp).bind fun unread hunread => ?_
        dsimp only
        split
        · exact nofun
        rename_i hread
        simp only [bne_iff_ne, ne_eq, not_not] at hnone hread
        have hdrained : Drained h q := by
          intro kind
          obtain ⟨hnull, hpos, hcap⟩ := hreq rfl
          obtain ⟨hnull', _, _⟩ := hresp rfl
          cases kind with
          | req => exact ⟨hnull, hpos, hcap, hpending.symm.trans hnone⟩
          | resp => exact ⟨hnull', hpos, hcap, hunread.symm.trans hread⟩
        refine ih.weaken fun ready hrest hready c hc => ?_
        rcases mem_cons.mp hc with rfl | hmem
        · exact hdrained
        · exact hrest hready c hmem

/-- What the detach check is known to establish under an assumption on the answers. -/
def DetachMeans (A : (request : BlkOp) -> BlkOp.Ans request -> Prop)
    (D : BlkVirtClient -> Prop) : Prop :=
  ∀ clients, Ensures A (fun _ => True) (fun ready => ready = true -> ∀ q ∈ clients, D q)
    (detachReady clients)

theorem detachMeans_true : DetachMeans A (fun _ => True) :=
  fun _ => .of_forall fun _ _ _ _ => trivial

variable {D : BlkVirtClient -> Prop}

theorem ensures_detachClient (hmeans : DetachMeans A D) (hg : TableOk g) : Ensures A (fun _ => True)
      (fun result =>
        (result.2 ≠ blkVirtOk /\ result.1 = g) \/
        (result.2 = blkVirtOk /\ ((g i).attached = true -> D (g i).q) /\
          result.1 = update g i retiredClient))
      (detachClient i g) := by
  unfold detachClient
  split
  · rename_i hattached
    have hbound := (hg i).of_attached hattached
    unfold aosBlkVirtDetach
    rw [hbound.clients]
    refine Ensures.bind (Q := fun detached : Option AosBlkVirt =>
      detached.isSome = true -> D (g i).q) ?_ ?_
    · refine (hmeans [(g i).q]).bind fun ready hready => ?_
      cases ready with
      | false => exact nofun
      | true => exact fun _ => hready rfl _ (mem_singleton.mpr rfl)
    · intro detached hdetached
      cases detached with
      | none => exact Or.inl ⟨by simp, rfl⟩
      | some _ => exact Or.inr ⟨rfl, fun _ => hdetached rfl, rfl⟩
  · rename_i hfree
    exact Or.inr ⟨rfl, fun hattached => absurd hattached hfree, rfl⟩

/-- DETACH retires the slot its badge names, or changes nothing. -/
theorem ensures_handleDetach (hmeans : DetachMeans A D) {req : Sel4Msg} (hg : TableOk g) :
    Ensures A (fun _ => True)
      (fun result =>
        (replyStatus result.2 ≠ blkVirtOk /\ result.1 = g) \/
        (replyStatus result.2 = blkVirtOk /\ ∃ i, i < aosBlkMaxClients /\
          badge = virtClientBadge (.ofNat i) /\ ((g i).attached = true -> D (g i).q) /\
          result.1 = update g i retiredClient))
      (handleDetach build badge req rep g) := by
  unfold handleDetach detachRequest
  simp only [ensures_bind_iff, pure_eq_ret, ensures_ret, replyStatus_shortReply]
  split
  · exact Or.inl ⟨by simp, rfl⟩
  split
  · exact Or.inl ⟨by simp, rfl⟩
  rename_i hauthority
  simp only [Bool.or_eq_true, not_or, Bool.not_eq_true, Bool.not_eq_false',
    decide_eq_true_eq] at hauthority
  obtain ⟨⟨⟨hmedia, hclient⟩, _⟩, _⟩ := hauthority
  obtain ⟨_, hsame, _, hbadge⟩ := virtMediaAuthorized_iff.mp hmedia
  refine (ensures_detachClient hmeans hg).weaken fun result hresult => ?_
  refine hresult.imp id fun hdone => ⟨hdone.1, (rd32 req.data 4).toNat, by omega, ?_, hdone.2⟩
  rw [UInt32.ofNat_toNat, hbadge, hsame]

/-! ## REBIND -/

variable {req : RebindReq}

theorem aosBlkRebindValidate_ok {attached retired : Bool} {generation : UInt32}
    (hok : aosBlkRebindValidate badge req attached retired generation = blkVirtOk) :
    req.version = blkVirtRebindVersion /\ retired = true /\ req.generation = generation + 1 /\
      generation.toNat < 2 ^ 32 - 1 := by
  unfold aosBlkRebindValidate at hok
  split at hok
  · exact absurd hok (by decide)
  rename_i hversion
  split at hok
  · exact absurd hok (by decide)
  split at hok
  · exact absurd hok (by decide)
  rename_i hbusy
  simp only [Bool.or_eq_true, not_or, Bool.not_eq_true, Bool.not_eq_false',
    bne_iff_ne, ne_eq, not_not, beq_iff_eq] at hversion hbusy
  obtain ⟨⟨⟨⟨_, hretired⟩, hmax⟩, _⟩, hnext⟩ := hbusy
  exact ⟨hversion, hretired, hnext, toNat_lt_last hmax⟩

theorem rebindAttachMsg_client (client : UInt32) :
    rd32 (rebindAttachMsg client).data 4 = client := by
  unfold rebindAttachMsg
  dsimp only
  rw [rd32_wr32_of_apart _ _ (by decide), rd32_wr32_of_apart _ _ (by decide), rd32_wr32]

variable {s : BvState}

/-- The nested ATTACH binds the retired slot under the requested generation, or
leaves it retired. -/
theorem ensures_rebindAttach (hs : TableOk s.clients)
    (hretired : s.clients req.client.toNat = retiredClient) :
    Ensures A (fun _ => True)
      (fun result =>
        (result.2 ≠ blkVirtOk /\ result.1 = s) \/
        (result.2 = blkVirtOk /\ ∃ c, Bound req.client.toNat c /\
          result.1 = ⟨update s.clients req.client.toNat c,
            update s.generation req.client.toNat req.generation⟩))
      (rebindAttach build badge req s) := by
  have hcleared : ({ s.clients req.client.toNat with retired := false } : BvClient) = .zero := by
    rw [hretired]
    rfl
  refine ensures_skip.bind fun _ _ => ?_
  dsimp only
  rw [hcleared]
  have htable : TableOk (update s.clients req.client.toNat .zero) := hs.update (Or.inl rfl)
  refine (ensures_handleAttach htable).bind fun result hresult => ?_
  dsimp only
  rcases hresult with ⟨hfailed, hsame⟩ | ⟨hok, i, c, _, hclient, _, hbound, hnew⟩
  · rw [if_neg fun h => hfailed (beq_iff_eq.mp h)]
    refine Or.inl ⟨hfailed, ?_⟩
    -- the slot was retired before, so marking it retired again restores the state
    simp only [hsame, update_idem]
    rw [<- hretired, update_eq_self]
  · rw [if_pos (beq_iff_eq.mpr hok)]
    rw [rebindAttachMsg_client] at hclient
    have hslot : req.client.toNat = i := by rw [hclient, slot_toNat hbound.slot]
    subst hslot
    exact Or.inr ⟨hok, c, hbound, by rw [hnew, update_idem]⟩

/-- REBIND brings a retired slot back under the next generation, or changes nothing. -/
theorem ensures_rebindQueue (hs : TableOk s.clients) : Ensures A (fun _ => True)
      (fun result =>
        (result.2 ≠ blkVirtOk /\ result.1 = s) \/
        (result.2 = blkVirtOk /\ ∃ i c, badge = virtClientBadge (.ofNat i) /\
          req = ⟨blkVirtRebindVersion, UInt32.ofNat i, s.generation i + 1⟩ /\
          s.clients i = retiredClient /\ (s.generation i).toNat < 2 ^ 32 - 1 /\ Bound i c /\
          result.1 = ⟨update s.clients i c, update s.generation i (s.generation i + 1)⟩))
      (rebindQueue build badge req s) := by
  unfold rebindQueue
  dsimp only
  split
  · exact Or.inl ⟨by simp, rfl⟩
  rename_i hauthority
  simp only [Bool.not_eq_true, Bool.not_eq_false'] at hauthority
  obtain ⟨_, _, _, hbadge⟩ := virtMediaAuthorized_iff.mp hauthority
  split
  · rename_i hrejected
    exact Or.inl ⟨by simpa using hrejected, rfl⟩
  · rename_i hvalid
    simp only [bne_iff_ne, ne_eq, not_not] at hvalid
    obtain ⟨hversion, hretired, hnext, hlimit⟩ := aosBlkRebindValidate_ok hvalid
    have hslot := (hs req.client.toNat).of_retired hretired
    refine ensures_skip.bind fun deleted _ => ?_
    split
    · exact Or.inl ⟨by simp, rfl⟩
    refine ensures_skip.bind fun retyped _ => ?_
    split
    · exact Or.inl ⟨by simp, rfl⟩
    refine ensures_skip.bind fun mapped _ => ?_
    refine Ensures.bind ?_ fun result hresult => ensures_skip.bind fun _ _ => hresult
    cases mapped with
    | false => exact Or.inl ⟨by simp, rfl⟩
    | true =>
      refine (ensures_rebindAttach hs hslot).weaken fun result hresult => ?_
      refine hresult.imp id fun ⟨hok, c, hbound, hnew⟩ => ?_
      refine ⟨hok, req.client.toNat, c, ?_, ?_, hslot, hlimit, hbound, ?_⟩
      · rw [UInt32.ofNat_toNat, hbadge]
      · rw [UInt32.ofNat_toNat, <- hversion, <- hnext]
      · rw [hnew, hnext]

/-! ## Messages as lifecycle steps -/

/-- What one lifecycle message can do to the state, by the reply it gets. -/
inductive ControlStep (D : BlkVirtClient -> Prop) (msg : Incoming) (s : BvState) :
    BvState -> Sel4Msg -> Prop where
  | rejected {rep : Sel4Msg} : replyStatus rep ≠ blkVirtOk -> ControlStep D msg s s rep
  | attached {rep : Sel4Msg} {i : Nat} {c : BvClient} :
      replyStatus rep = blkVirtOk -> msg.label = blkVirtOpAttach ->
      msg.badge = virtClientBadge (.ofNat i) -> s.clients i = .zero -> Bound i c ->
      ControlStep D msg s { s with clients := update s.clients i c } rep
  | detached {rep : Sel4Msg} {i : Nat} :
      replyStatus rep = blkVirtOk -> msg.label ≠ blkVirtOpRebind -> i < aosBlkMaxClients ->
      msg.badge = virtClientBadge (.ofNat i) ->
      ((s.clients i).attached = true -> D (s.clients i).q) ->
      ControlStep D msg s { s with clients := update s.clients i retiredClient } rep
  | rebound {rep : Sel4Msg} {i : Nat} {c : BvClient} :
      replyStatus rep = blkVirtOk -> msg.label = blkVirtOpRebind ->
      msg.badge = virtClientBadge (.ofNat i) ->
      rebindRequest msg (sel4MrsToMsg msg.mrs) =
        some ⟨blkVirtRebindVersion, UInt32.ofNat i, s.generation i + 1⟩ ->
      s.clients i = retiredClient -> (s.generation i).toNat < 2 ^ 32 - 1 -> Bound i c ->
      ControlStep D msg s ⟨update s.clients i c, update s.generation i (s.generation i + 1)⟩ rep

variable {msg : Incoming}

theorem ensures_blkVirtControl (hmeans : DetachMeans A D) (hs : TableOk s.clients) :
    Ensures A (fun _ => True) (fun result => ControlStep D msg s result.1 result.2.msg)
      (blkVirtControl build msg s) := by
  unfold blkVirtControl
  dsimp only
  split
  · rename_i hlabel
    unfold handleRebind
    split
    · refine .rejected ?_
      rw [replyStatus_rebindReply]
      simp
    · rename_i rebind hrequest
      refine (ensures_rebindQueue hs).bind fun result hresult => ?_
      obtain ⟨state, status⟩ := result
      rcases hresult with
        ⟨hfailed, hsame⟩ | ⟨hok, i, c, hbadge, hreq, hretired, hlimit, hbound, hnew⟩
      · cases hsame
        refine .rejected ?_
        rw [replyStatus_rebindReply]
        exact hfailed
      · cases hnew
        exact .rebound ((replyStatus_rebindReply _ _ _).trans hok) (beq_iff_eq.mp hlabel) hbadge
          (by rw [hrequest, hreq]) hretired hlimit hbound
  · rename_i hother
    split
    · unfold handleQueueOp
      split
      · rename_i hlabel
        refine (ensures_handleAttach hs).bind fun result hresult => ?_
        obtain ⟨table, rep⟩ := result
        rcases hresult with ⟨hfailed, hsame⟩ | ⟨hok, i, c, hbadge, _, hzero, hbound, hnew⟩
        · cases hsame
          exact .rejected hfailed
        · cases hnew
          exact .attached hok (beq_iff_eq.mp hlabel) hbadge hzero hbound
      · refine (ensures_handleDetach hmeans hs).bind fun result hresult => ?_
        obtain ⟨table, rep⟩ := result
        rcases hresult with ⟨hfailed, hsame⟩ | ⟨hok, i, hi, hbadge, hdrained, hnew⟩
        · cases hsame
          exact .rejected hfailed
        · cases hnew
          exact .detached hok (fun h => hother (beq_iff_eq.mpr h)) hi hbadge hdrained
    · refine .rejected ?_
      rw [replyStatus_shortReply]
      simp

/-- The lifecycle of every client as the abstract model sees it. -/
def life (s : BvState) (i : Nat) : ClientLife where
  phase :=
    if (s.clients i).attached then .attached
    else if (s.clients i).retired then .retired
    else .fresh
  generation := (s.generation i).toNat

theorem life_update {c : BvClient} {generation : Nat -> UInt32} (phase : ClientPhase)
    (hphase : phase = if c.attached then .attached else if c.retired then .retired else .fresh)
    (hothers : ∀ j, j ≠ i -> generation j = s.generation j) :
    life ⟨update s.clients i c, generation⟩ = update (life s) i ⟨phase, (generation i).toNat⟩ := by
  funext j
  by_cases hj : j = i
  · subst hj
    simp only [life, update_self, hphase]
  · simp only [life, update_of_ne hj, hothers j hj]

variable {s' : BvState}

/-- Every lifecycle message refines one step of the abstract lifecycle, about the
client its badge names. -/
theorem ControlStep.life_step (hstep : ControlStep D msg s s' rep) :
    ∃ event, LifeStep (2 ^ 32 - 1) (life s) event (life s') /\
      (∀ i, event.Concerns i ->
        i < aosBlkMaxClients /\ msg.badge = virtClientBadge (.ofNat i)) /\
      (∀ i generation, event = .rebind i generation -> msg.label = blkVirtOpRebind /\
        rebindRequest msg (sel4MrsToMsg msg.mrs) =
          some ⟨blkVirtRebindVersion, UInt32.ofNat i, s.generation i + 1⟩) := by
  cases hstep with
  | rejected _ =>
    exact ⟨.reject, .reject, fun _ h => h.elim, nofun⟩
  | @attached rep i c _ _ hbadge hzero hbound =>
    refine ⟨.attach i, ?_, ?_, nofun⟩
    · rw [life_update .attached (by rw [hbound.attached]; rfl) fun _ _ => rfl]
      refine .attach ?_
      simp only [life, hzero]
      rfl
    · rintro j rfl
      exact ⟨hbound.slot, hbadge⟩
  | @detached rep i _ _ hi hbadge _ =>
    refine ⟨.detach i, ?_, ?_, nofun⟩
    · rw [life_update .retired rfl fun _ _ => rfl]
      exact .detach
    · rintro j rfl
      exact ⟨hi, hbadge⟩
  | @rebound rep i c _ hlabel hbadge hrequest hretired hlimit hbound =>
    refine ⟨.rebind i ((life s i).generation + 1), ?_, ?_, ?_⟩
    · rw [life_update .attached (by rw [hbound.attached]; rfl)
        fun j hj => update_of_ne hj _ _, update_self, toNat_succ hlimit]
      refine .rebind ?_ hlimit
      simp only [life, hretired]
      rfl
    · rintro j rfl
      exact ⟨hbound.slot, hbadge⟩
    · intro j generation hevent
      cases hevent
      exact ⟨hlabel, hrequest⟩

theorem ControlStep.tableOk (hstep : ControlStep D msg s s' rep) (hs : TableOk s.clients) :
    TableOk s'.clients := by
  cases hstep with
  | rejected _ => exact hs
  | attached _ _ _ _ hbound => exact hs.update (Or.inr (Or.inr hbound))
  | detached _ _ _ _ _ => exact hs.update (Or.inr (Or.inl rfl))
  | rebound _ _ _ _ _ _ hbound => exact hs.update (Or.inr (Or.inr hbound))

/-! ## Reachable states -/

/-- The states between two receives, for every sequence of messages and every
behaviour of memory, driver and kernel. -/
inductive Reachable (build : Build) : BvState -> Prop where
  | init : Reachable build .zero
  | turn {s s' : BvState} {msg : Incoming} {trace : Trace BlkIo}
      {reply : Option Reply} :
      Reachable build s -> Run (blkVirtRun build msg s) trace (s', reply) ->
      Reachable build s'

theorem ensures_serviceState (hs : TableOk s.clients) :
    Ensures A (fun _ => True) (fun s' => TableOk s'.clients) (serviceState s) :=
  (ensures_bvService s.clients).bind fun _ hserved => hs.serviced hserved

theorem ensures_blkVirtRun (hs : TableOk s.clients) :
    Ensures A (fun _ => True) (fun result => TableOk result.1.clients)
      (blkVirtRun build msg s) := by
  refine Ensures.bind ?_ fun result hresult => ensures_skip.bind fun _ _ => hresult
  unfold blkVirtHandle
  split
  · exact (ensures_serviceState hs).bind fun _ hserved => hserved
  split
  · refine (ensures_blkVirtControl detachMeans_true hs).bind fun result hstep => ?_
    exact (ensures_serviceState (hstep.tableOk hs)).bind fun _ hserved => hserved
  · split
    · exact (ensures_serviceState hs).bind fun _ hserved => hserved
    · exact hs

theorem Reachable.tableOk (hs : Reachable build s) : TableOk s.clients := by
  induction hs with
  | init => exact fun _ => Or.inl rfl
  | turn _ hrun ih =>
    exact (ensures_blkVirtRun (A := anyAnswer (I := BlkIo)) ih).result hrun

theorem virtClientBadge_inj {j : Nat} (hi : i < aosBlkMaxClients) (hj : j < aosBlkMaxClients)
    (hsame : virtClientBadge (.ofNat i) = virtClientBadge (.ofNat j)) : i = j := by
  simp only [aosBlkMaxClients] at hi hj
  interval_cases i <;> interval_cases j <;> first | rfl | exact absurd hsame (by decide)

theorem ControlStep.drained (hstep : ControlStep D msg s s' rep)
    (hlabel : msg.label = blkVirtOpDetach) (hok : replyStatus rep = blkVirtOk)
    (hi : i < aosBlkMaxClients) (hbadge : msg.badge = virtClientBadge (.ofNat i))
    (hattached : (s.clients i).attached = true) : D (s.clients i).q := by
  cases hstep with
  | rejected hfailed => exact absurd hok hfailed
  | attached _ hother _ _ _ => cases hlabel.symm.trans hother
  | detached _ _ hj hbadge' hdrained =>
    cases virtClientBadge_inj hi hj (hbadge.symm.trans hbadge')
    exact hdrained hattached
  | rebound _ hother _ _ _ _ _ => cases hlabel.symm.trans hother

/-- A REBIND answered OK brings the client of its badge back under the next generation. -/
theorem ControlStep.rebound_ok (hstep : ControlStep D msg s s' rep)
    (hlabel : msg.label = blkVirtOpRebind) (hok : replyStatus rep = blkVirtOk)
    (hi : i < aosBlkMaxClients) (hbadge : msg.badge = virtClientBadge (.ofNat i)) :
    (s.clients i).retired = true /\ (s'.clients i).attached = true /\
      (s'.generation i).toNat = (s.generation i).toNat + 1 := by
  cases hstep with
  | rejected hfailed => exact absurd hok hfailed
  | attached _ hother _ _ _ => cases hlabel.symm.trans hother
  | detached _ hother _ _ _ => exact absurd hlabel hother
  | rebound _ _ hbadge' _ hretired hlimit hbound =>
    cases virtClientBadge_inj hi hbound.slot (hbadge.symm.trans hbadge')
    simp only [update_self]
    exact ⟨by rw [hretired]; rfl, hbound.attached, toNat_succ hlimit⟩

/-- A client whose record or generation changed changed its abstract lifecycle, or
was retired again. -/
theorem ControlStep.authority (hstep : ControlStep D msg s s' rep)
    (hchange : s'.clients i ≠ s.clients i \/ s'.generation i ≠ s.generation i) :
    i < aosBlkMaxClients /\ msg.badge = virtClientBadge (.ofNat i) := by
  cases hstep with
  | rejected _ => exact absurd rfl (hchange.resolve_left fun h => h rfl)
  | attached _ _ hbadge _ hbound =>
    cases eq_of_update_ne (hchange.resolve_right fun h => h rfl)
    exact ⟨hbound.slot, hbadge⟩
  | detached _ _ hj hbadge _ =>
    cases eq_of_update_ne (hchange.resolve_right fun h => h rfl)
    exact ⟨hj, hbadge⟩
  | rebound _ _ hbadge _ _ _ hbound =>
    cases hchange.elim eq_of_update_ne eq_of_update_ne
    exact ⟨hbound.slot, hbadge⟩

theorem life_retired (hs : TableOk s.clients) :
    (life s i).phase = .retired ↔ (s.clients i).retired = true := by
  rcases hs i with hzero | hretired | hbound
  · simp [life, hzero, BvClient.zero]
  · simp [life, hretired, retiredClient, BvClient.zero]
  · simp [life, hbound.attached, hbound.live]

theorem life_attached : (life s i).phase = .attached ↔ (s.clients i).attached = true := by
  unfold life
  cases (s.clients i).attached <;> cases (s.clients i).retired <;> simp

/-- No client is ever both attached and retired.  A message changes a client only under the badge
minted for it; a retired client comes back only by a REBIND naming the successor of its
generation, which is the only change of a generation and never wraps, and every REBIND answered
OK does so; an attached client is given up only when both its queues are valid and empty; a
message not answered OK changes nothing, and neither does serving the queues. -/
theorem blkVirt_lifecycle {s : BvState} (hs : Reachable build s) :
    (∀ i, ¬ ((s.clients i).attached = true /\ (s.clients i).retired = true)) /\
    (∀ msg trace s' reply, Run (blkVirtControl build msg s) trace (s', reply) ->
      (∀ i, s'.clients i ≠ s.clients i \/ s'.generation i ≠ s.generation i ->
        i < aosBlkMaxClients /\ msg.badge = virtClientBadge (.ofNat i)) /\
      (∀ i, (s.clients i).retired = true -> (s'.clients i).attached = true ->
        msg.label = blkVirtOpRebind /\
        rebindRequest msg (sel4MrsToMsg msg.mrs) =
          some ⟨blkVirtRebindVersion, UInt32.ofNat i, s.generation i + 1⟩ /\
        (s'.generation i).toNat = (s.generation i).toNat + 1) /\
      (∀ i, s'.generation i ≠ s.generation i ->
        (s.clients i).retired = true /\ (s'.clients i).attached = true) /\
      (msg.label = blkVirtOpRebind -> replyStatus reply.msg = blkVirtOk ->
        ∀ i, i < aosBlkMaxClients -> msg.badge = virtClientBadge (.ofNat i) ->
        (s.clients i).retired = true /\ (s'.clients i).attached = true /\
          (s'.generation i).toNat = (s.generation i).toNat + 1) /\
      (msg.label = blkVirtOpDetach -> replyStatus reply.msg = blkVirtOk ->
        ∀ i, i < aosBlkMaxClients -> msg.badge = virtClientBadge (.ofNat i) ->
        (s.clients i).attached = true ->
        ∀ h : BlkHeap, (∀ event ∈ trace, h.Agrees event.request event.answer) ->
        Drained h (s.clients i).q) /\
      (replyStatus reply.msg ≠ blkVirtOk ->
        ∀ i, (s'.clients i).attached = (s.clients i).attached /\
          (s'.clients i).retired = (s.clients i).retired /\
          s'.generation i = s.generation i)) /\
    (∀ trace g', Run (bvService s.clients) trace g' ->
      ∀ i, (g' i).attached = (s.clients i).attached /\ (g' i).retired = (s.clients i).retired) := by
  have htable := hs.tableOk
  refine ⟨?_, ?_, ?_⟩
  · rintro i ⟨hattached, hretired⟩
    have hbound := (htable i).of_attached hattached
    cases hretired.symm.trans hbound.live
  · intro msg trace s' reply hrun
    have hstep : ControlStep (fun _ => True) msg s s' reply.msg :=
      (ensures_blkVirtControl detachMeans_true htable).result hrun
    obtain ⟨event, hlife, _, hrebind⟩ := hstep.life_step
    have htable' := hstep.tableOk htable
    refine ⟨fun i hchange => hstep.authority hchange, ?_, ?_,
      fun hlabel hok i => hstep.rebound_ok hlabel hok, ?_, ?_⟩
    · intro i hretired hattached
      obtain ⟨hevent, hnext, _⟩ :=
        hlife.reattached ((life_retired htable).mpr hretired) (life_attached.mpr hattached)
      obtain ⟨hlabel, hrequest⟩ := hrebind i _ hevent
      exact ⟨hlabel, hrequest, hnext⟩
    · intro i hmoved
      have hnat : (life s' i).generation ≠ (life s i).generation :=
        fun h => hmoved (UInt32.toNat_inj.mp h)
      obtain ⟨hretired, hattached⟩ := hlife.generation_moved hnat
      exact ⟨(life_retired htable).mp hretired, life_attached.mp hattached⟩
    · intro hlabel hok i hi hbadge hattached h hagrees
      have hstep' : ControlStep (Drained h) msg s s' reply.msg :=
        ((ensures_blkVirtControl (ensures_agrees_detachReady h) htable).run hrun hagrees).2
      exact hstep'.drained hlabel hok hi hbadge hattached
    · intro hfailed i
      cases hstep with
      | rejected _ => exact ⟨rfl, rfl, rfl⟩
      | attached hok _ _ _ _ => exact absurd hok hfailed
      | detached hok _ _ _ _ => exact absurd hok hfailed
      | rebound hok _ _ _ _ _ _ => exact absurd hok hfailed
  · intro trace g' hrun i
    have hserved : Serviced s.clients g' :=
      (ensures_bvService (A := anyAnswer (I := BlkIo)) s.clients).result hrun
    exact ⟨hserved.attached i, hserved.retired i⟩

/-- The primary guest's ATTACH. -/
def primaryAttach : Incoming where
  badge := virtClientBadgePrimary
  label := blkVirtOpAttach
  mrLength := sel4MrCount
  extraCaps := 0
  capsUnwrapped := 0
  mrs := { rebindAttachMsg 0 with opcode := 0x2C01 }

/-- The state after the primary guest attached with no host medium. -/
def primaryAttached : BvState :=
  (eval (handler noDriver) (blkVirtRun ⟨true, true⟩ primaryAttach .zero) (.zero, ())).1.1

theorem Reachable.eval_turn (hs : Reachable build s) (msg : Incoming) :
    Reachable build (eval (handler noDriver) (blkVirtRun build msg s) (.zero, ())).1.1 := by
  obtain ⟨trace, hrun⟩ := run_eval (handler noDriver) (blkVirtRun build msg s) (.zero, ())
  exact .turn hs hrun

theorem primaryAttached_reachable : Reachable ⟨true, true⟩ primaryAttached :=
  Reachable.init.eval_turn _

/-- A later message of the primary guest. -/
def primaryMsg (label : UInt64) (mrs : Sel4Msg) (caps : UInt64) : Incoming :=
  { primaryAttach with label := label, mrs := mrs, extraCaps := caps }

/-- The state after the primary guest gave its empty queues back. -/
def primaryRetired : BvState :=
  (eval (handler noDriver) (blkVirtRun ⟨true, true⟩
    (primaryMsg blkVirtOpDetach { rebindAttachMsg 0 with opcode := 0x2C02 } 0) primaryAttached)
    (.zero, ())).1.1

theorem primaryRetired_reachable : Reachable ⟨true, true⟩ primaryRetired :=
  primaryAttached_reachable.eval_turn _

/-- The primary guest's REBIND for generation 1. -/
def primaryRebind : Incoming :=
  primaryMsg blkVirtOpRebind ⟨0x2C03, 12, wr32 (wr32 (fun _ => 0) 0 2) 8 1⟩ 1

theorem blkVirt_lifecycle_rebound : ∃ trace s' reply,
      Run (blkVirtControl ⟨true, true⟩ primaryRebind primaryRetired) trace (s', reply) /\
      (primaryRetired.clients 0).retired = true /\ (s'.clients 0).attached = true /\
      (s'.generation 0).toNat = (primaryRetired.generation 0).toNat + 1 := by
  obtain ⟨trace, hrun⟩ := run_eval (handler noDriver)
    (blkVirtControl ⟨true, true⟩ primaryRebind primaryRetired) (.zero, ())
  obtain ⟨_, _, _, hrebound, _, _⟩ :=
    (blkVirt_lifecycle primaryRetired_reachable).2.1 _ _ _ _ hrun
  exact ⟨_, _, _, hrun, hrebound rfl (by decide +kernel) 0 (by decide) rfl⟩

end AgentOs.BlkVirt
