import AgentOs.Library.Lifecycle
import AgentOs.Library.Slots
import AgentOs.NetVirt.Table

/-!
# Network client lifecycle

ATTACH, DETACH and REBIND as steps of the abstract client lifecycle, with the members of the hub
and the driver's open sessions, for every message and every answer.
-/

open Function (update update_idem update_self update_of_ne update_eq_self)

namespace AgentOs.NetVirt

open Library Prog Ipc List Option

variable {build : NetBuild}

/-! ## What is recorded in the table -/

/-- The hub entry a client should have. -/
def hubEntry (c : NvClient) : Option NetVirtClient := if c.attached && !c.hw then some c.q else none

/-- The driver session a client records. -/
def rawHandle (c : NvClient) : Option UInt32 := if c.rawOpen then some c.handle else none

/-- What the clients record, in the order of the array. -/
def roster {β : Type} (view : NvClient -> Option β) (g : NvTable) : List β :=
  slots.filterMap (view ∘ g)

/-- What the clients other than `i` record. -/
def others {β : Type} (view : NvClient -> Option β) (g : NvTable) (i : Nat) : List β :=
  (slots.erase i).filterMap (view ∘ g)

section Roster

variable {β : Type} (view : NvClient -> Option β) (g : NvTable) {i : Nat}

theorem mem_slots (hi : i < aosNetQueueClients) : i ∈ slots := mem_range.mpr hi

theorem roster_update (hi : i < aosNetQueueClients) (c : NvClient) :
    (roster view (update g i c)).Perm ((view c).toList ++ others view g i) :=
  Slots.roster_update _ _ nodup_range (mem_slots hi) c

theorem roster_split (hi : i < aosNetQueueClients) :
    (roster view g).Perm ((view (g i)).toList ++ others view g i) :=
  Slots.roster_perm _ _ (mem_slots hi)

/-- A client that recorded nothing adds what it now records. -/
theorem roster_join (hi : i < aosNetQueueClients) (hnone : view (g i) = none) (c : NvClient) :
    (roster view (update g i c)).Perm ((view c).toList ++ roster view g) := by
  have hold := roster_split view g hi
  rw [hnone] at hold
  exact (roster_update view g hi c).trans (hold.symm.append_left _)

theorem roster_serviced {g g' : NvTable} (hserved : Serviced g g')
    (hview : ∀ c, view c.binding = view c) : roster view g' = roster view g := by
  refine filterMap_congr fun j _ => ?_
  simp only [Function.comp]
  rw [<- hview (g' j), (hserved j).1, hview]

theorem roster_length : (roster view g).length <= aosNetQueueClients := by
  have hle := length_filterMap_le (view ∘ g) slots
  rw [show slots.length = aosNetQueueClients from rfl] at hle
  exact hle

end Roster

/-- The invariant between two messages, with the sessions the driver has open. -/
structure StateOk (s : NvState) (sessions : List UInt32) : Prop where
  table : TableOk s.clients
  hub : s.hub.clients.Perm (roster hubEntry s.clients)
  sessions : sessions.Perm (roster rawHandle s.clients)

variable {s : NvState} {sessions : List UInt32}

theorem StateOk.hub_length (hs : StateOk s sessions) : s.hub.clients.length < aosNetMaxClients := by
  have hlength := roster_length hubEntry s.clients
  rw [<- hs.hub.length_eq] at hlength
  exact Nat.lt_of_le_of_lt hlength (by decide)

variable {s' : NvState}

theorem StateOk.serviced (hs : StateOk s sessions) (hserved : ServicedState s s') :
    StateOk s' sessions where
  table := hs.table.serviced hserved.clients
  hub := by
    rw [hserved.hub, roster_serviced _ hserved.clients fun _ => rfl]
    exact hs.hub
  sessions := by
    rw [roster_serviced _ hserved.clients fun _ => rfl]
    exact hs.sessions

/-! ## The hub -/

variable {hub : AosNetVirt} {i : Nat}

theorem slotQueues_not_null (hi : i < aosNetQueueClients)
    (hroom : hub.clients.length < aosNetMaxClients) :
    aosNetVirtAddClient hub (slotQueues i) = some ⟨hub.clients ++ [slotQueues i]⟩ := by
  unfold aosNetVirtAddClient
  rw [slotQueues_eq hi, if_neg]
  simp only [Bool.or_eq_true, decide_eq_true_eq, not_or, Nat.not_le, Bool.not_eq_true]
  exact ⟨⟨⟨⟨⟨⟨⟨⟨hroom, rfl⟩, rfl⟩, rfl⟩, rfl⟩, rfl⟩, rfl⟩, by decide⟩, by decide⟩

variable {c : NvClient}

/-- A new client joins the hub exactly when it has no hardware. -/
theorem joinHub_perm (hroom : hub.clients.length < aosNetMaxClients) (hbound : Bound i c) :
    (joinHub hub c).clients.Perm ((hubEntry c).toList ++ hub.clients) := by
  unfold joinHub hubEntry
  rw [hbound.attached]
  cases c.hw with
  | true => exact .refl _
  | false =>
    simp only [Bool.false_eq_true, if_false, Bool.not_false, Bool.and_true, if_true]
    rw [hbound.queue, slotQueues_not_null hbound.slot hroom]
    exact perm_append_comm

/-- Removing a member by its TX ring leaves the other members. -/
theorem removeHub_perm (hs : StateOk s sessions) (hbound : Bound i (s.clients i))
    (hhw : (s.clients i).hw = false) :
    ∃ hub, aosNetVirtRemoveClient s.hub (s.clients i).q = some hub /\
      hub.clients.Perm (others hubEntry s.clients i) := by
  refine ⟨⟨s.hub.clients.filter fun entry => entry.txActive != (s.clients i).q.txActive⟩, ?_, ?_⟩
  · unfold aosNetVirtRemoveClient
    rw [if_neg]
    simp only [Bool.or_eq_true, decide_eq_true_eq, not_or, Bool.not_eq_true, Nat.not_lt]
    refine ⟨?_, hs.hub_length.le⟩
    rw [hbound.queue, slotQueues_eq hbound.slot]
    rfl
  · have hentry : hubEntry (s.clients i) = some (s.clients i).q := by
      simp only [hubEntry, hbound.attached, hhw]
      rfl
    have hsplit := hs.hub.trans (roster_split _ _ hbound.slot)
    rw [hentry] at hsplit
    refine (hsplit.filter _).trans (.of_eq ?_)
    rw [toList_some, singleton_append, filter_cons_of_neg (by simp)]
    refine filter_eq_self.mpr fun entry hmem => ?_
    obtain ⟨j, hj, hview⟩ := mem_filterMap.mp hmem
    obtain ⟨hne, hslot⟩ := (List.Nodup.mem_erase_iff nodup_range).mp hj
    simp only [Function.comp, hubEntry] at hview
    split at hview
    · rename_i hmember
      have hother := (hs.table j).of_attached (Bool.and_eq_true_iff.mp hmember).1
      rw [<- some.inj hview, hother.queue, hbound.queue, bne_iff_ne]
      exact fun hsame => hne (slotQueues_txActive_inj hother.slot hbound.slot hsame)
    · exact absurd hview (by simp)

/-! ## ATTACH -/

/-- Attaching an untouched slot binds it, and records the session the driver opened
for it. -/
theorem tracks_openRaw (hi : i < aosNetQueueClients) {vmmEp : UInt64} (hep : vmmEp ≠ 0)
    (sessions : List UInt32) :
    Tracks sessionStep
      (fun result sessions' => Bound i { result.1 with attached := true } /\
        sessions' = (rawHandle result.1).toList ++ sessions)
      (openRaw (bindSlot (.ofNat i) vmmEp .zero)) sessions := by
  have hqueue : aosNetClientBind shmem (.ofNat i) NvClient.zero.q = slotQueues i := rfl
  refine Tracks.bind (Q := fun rep sessions' => sessions' =
    if sessionOpened rep then rd32 rep.data 4 :: sessions else sessions) (fun rep => rfl) ?_
  rintro rep sessions' rfl
  unfold sessionOpened
  split
  · dsimp only
    split
    · rename_i hslot
      intro status
      change Tracks sessionStep _ (if _ then _ else _) _
      split
      · exact ⟨⟨hi, rfl, rfl, rfl, hep, hqueue, fun _ => ⟨rfl, hslot⟩⟩, rfl⟩
      · exact ⟨⟨hi, rfl, rfl, rfl, hep, hqueue, nofun⟩, rfl⟩
    · exact ⟨⟨hi, rfl, rfl, rfl, hep, hqueue, nofun⟩, rfl⟩
  · exact ⟨⟨hi, rfl, rfl, rfl, hep, hqueue, nofun⟩, rfl⟩

theorem tracks_attachClient (hi : i < aosNetQueueClients) {vmmEp : UInt64} (hep : vmmEp ≠ 0)
    (sessions : List UInt32) :
    Tracks sessionStep
      (fun result sessions' => Bound i result.1 /\
        sessions' = (rawHandle result.1).toList ++ sessions)
      (attachClient (.ofNat i) vmmEp .zero) sessions :=
  (tracks_openRaw hi hep sessions).bind fun _ _ hopened _ _ _ => hopened

variable {badge : UInt64}

theorem attachStatus_ok {req : Sel4Msg} {g : NvTable}
    (hok : attachStatus build badge req g = netVirtOk) :
    ∃ i, i < aosNetQueueClients /\ rd32 req.data 4 = .ofNat i /\
      vmmEpForSlot build (rd32 req.data 8) ≠ 0 /\
      (g i).attached = false /\ (g i).retired = false := by
  unfold attachStatus at hok
  dsimp only at hok
  split at hok
  · exact absurd hok (by decide)
  split at hok
  · exact absurd hok (by decide)
  rename_i hauthority
  split at hok
  · exact absurd hok (by decide)
  rename_i hfree
  simp only [Bool.or_eq_true, not_or, Bool.not_eq_true, Bool.not_eq_false',
    decide_eq_true_eq, beq_eq_false_iff_ne] at hauthority hfree
  obtain ⟨⟨_, hclient⟩, hep⟩ := hauthority
  exact ⟨(rd32 req.data 4).toNat, by omega, (UInt32.ofNat_toNat).symm, hep, hfree.1, hfree.2⟩

theorem rd32_putMac (data : Payload) {off at_ : Nat} (mac : Nat -> UInt8) (hapart : off + 4 <= at_) :
    rd32 (putMac data at_ mac) off = rd32 data off := by
  have hbyte : ∀ k, k < 4 -> putMac data at_ mac (off + k) = data (off + k) := by
    intro k hk
    exact if_neg (by omega)
  have h0 := hbyte 0 (by omega)
  rw [Nat.add_zero] at h0
  simp only [rd32, h0, hbyte 1 (by omega), hbyte 2 (by omega), hbyte 3 (by omega)]

theorem replyStatus_attachReply (status : UInt32) (attachment : Attachment) (rep : Sel4Msg) :
    replyStatus (attachReply status attachment rep) = status := by
  unfold replyStatus attachReply
  dsimp only
  rw [rd32_putMac _ _ (by decide)]
  repeat rw [rd32_wr32_of_apart _ _ (by decide)]
  exact rd32_wr32 _ _ _

theorem replyStatus_rebindReply (status generation : UInt32) (attachment : Attachment) :
    replyStatus (rebindReply status generation attachment) = status := by
  unfold replyStatus rebindReply
  dsimp only
  rw [rd32_putMac _ _ (by decide)]
  repeat rw [rd32_wr32_of_apart _ _ (by decide)]
  exact rd32_wr32 _ _ _

/-- The state after slot `i` was bound to `c`. -/
def bindState (s : NvState) (i : Nat) (c : NvClient) : NvState :=
  { s with clients := update s.clients i c, hub := joinHub s.hub c }

variable {rep : Sel4Msg}

/-- ATTACH binds the untouched slot it names, or changes nothing. -/
theorem tracks_handleAttach {req : Sel4Msg} (hs : TableOk s.clients) (sessions : List UInt32) :
    Tracks sessionStep
      (fun result sessions' =>
        (replyStatus result.2 ≠ netVirtOk /\ result.1 = s /\ sessions' = sessions) \/
        (replyStatus result.2 = netVirtOk /\ ∃ i c, rd32 req.data 4 = .ofNat i /\
          s.clients i = .zero /\ Bound i c /\ result.1 = bindState s i c /\
          sessions' = (rawHandle c).toList ++ sessions))
      (handleAttach build badge req rep s) sessions := by
  unfold handleAttach
  dsimp only
  split
  · rename_i hok
    obtain ⟨i, hi, hclient, hep, hfree, hlive⟩ := attachStatus_ok (beq_iff_eq.mp hok)
    have hzero := (hs i).of_free hfree hlive
    rw [hclient, slot_toNat hi, hzero]
    refine (tracks_attachClient hi hep sessions).bind fun result sessions' hbound => ?_
    refine Or.inr ⟨?_, i, result.1, rfl, hzero, hbound.1, rfl, hbound.2⟩
    exact (replyStatus_attachReply _ _ _).trans (beq_iff_eq.mp hok)
  · rename_i hrejected
    refine Or.inl ⟨?_, rfl, rfl⟩
    rw [replyStatus_attachReply]
    exact fun h => hrejected (beq_iff_eq.mpr h)

/-! ## DETACH -/

/-- The state after slot `i` was retired. -/
def retireState (s : NvState) (i : Nat) (hub : AosNetVirt) : NvState :=
  { s with clients := update s.clients i retiredClient, hub := hub }

theorem leaveHub_eq (hs : StateOk s sessions) (hi : i < aosNetQueueClients) :
    ∃ hub, leaveHub i s = (retireState s i hub, netVirtOk) /\
      hub.clients.Perm (others hubEntry s.clients i) := by
  unfold leaveHub
  dsimp only
  split
  · rename_i hmember
    obtain ⟨hattached, hhw⟩ := Bool.and_eq_true_iff.mp hmember
    have hbound := (hs.table i).of_attached hattached
    obtain ⟨hub, hremove, hperm⟩ := removeHub_perm hs hbound (by simpa using hhw)
    rw [hremove]
    exact ⟨hub, rfl, hperm⟩
  · rename_i hmember
    refine ⟨s.hub, rfl, ?_⟩
    have hsplit := hs.hub.trans (roster_split _ _ hi)
    rw [show hubEntry (s.clients i) = none from if_neg hmember] at hsplit
    exact hsplit

theorem tracks_closeRaw (hrecord : Record i c) (sessions : List UInt32) : Tracks sessionStep
      (fun closed sessions' =>
        sessions' = if closed then sessions.diff (rawHandle c).toList else sessions)
      (closeRaw c) sessions := by
  unfold closeRaw
  split
  · rename_i hopen
    intro rep
    change (if netPdOk rep then sessions.erase c.handle else sessions) = _
    rw [rawHandle, (Bool.and_eq_true_iff.mp hopen).2]
    simp
  · rename_i hclosed
    have hnone : rawHandle c = none := by
      rcases hrecord with rfl | rfl | hbound
      · rfl
      · rfl
      · rw [hbound.attached, Bool.true_and] at hclosed
        exact if_neg hclosed
    change sessions = _
    rw [hnone]
    simp

/-- DETACH retires the slot it names and closes its session, or changes nothing. -/
theorem tracks_handleDetach {req : Sel4Msg} (hs : StateOk s sessions) : Tracks sessionStep
      (fun result sessions' =>
        (replyStatus result.2 ≠ netVirtOk /\ result.1 = s /\ sessions' = sessions) \/
        (replyStatus result.2 = netVirtOk /\ ∃ i hub, i < aosNetQueueClients /\
          hub.clients.Perm (others hubEntry s.clients i) /\ result.1 = retireState s i hub /\
          sessions' = sessions.diff (rawHandle (s.clients i)).toList))
      (handleDetach build badge req rep s) sessions := by
  unfold handleDetach detachRequest
  simp only [tracks_bind_iff, pure_eq_ret, Tracks, replyStatus_shortReply]
  split
  · exact Or.inl ⟨by simp, rfl, rfl⟩
  split
  · exact Or.inl ⟨by simp, rfl, rfl⟩
  rename_i hauthority
  simp only [Bool.or_eq_true, not_or, decide_eq_true_eq, Nat.not_le] at hauthority
  have hi := hauthority.1.2
  refine (tracks_closeRaw (hs.table _) sessions).bind fun closed sessions' hclosed => ?_
  subst hclosed
  cases closed with
  | false => exact Or.inl ⟨by simp, rfl, rfl⟩
  | true =>
    obtain ⟨hub, hleave, hperm⟩ := leaveHub_eq hs hi
    simp only [if_true, hleave]
    exact Or.inr ⟨rfl, _, hub, hi, hperm, rfl, rfl⟩

/-! ## REBIND -/

variable {req : RebindReq}

theorem aosNetRebindValidate_ok {attached retired : Bool} {generation : UInt32}
    (hok : aosNetRebindValidate badge req attached retired generation = netVirtOk) :
    retired = true /\ req.generation = generation + 1 /\ generation.toNat < 2 ^ 32 - 1 := by
  unfold aosNetRebindValidate at hok
  split at hok
  · exact absurd hok (by decide)
  split at hok
  · exact absurd hok (by decide)
  split at hok
  · exact absurd hok (by decide)
  rename_i hbusy
  simp only [Bool.or_eq_true, not_or, Bool.not_eq_true, Bool.not_eq_false',
    bne_iff_ne, ne_eq, not_not, beq_eq_false_iff_ne] at hbusy
  obtain ⟨⟨⟨⟨_, hretired⟩, hmax⟩, _⟩, hnext⟩ := hbusy
  exact ⟨hretired, hnext, toNat_lt_last hmax⟩

theorem rebindAttachMsg_client (client : UInt32) :
    rd32 (rebindAttachMsg client).data 4 = client := by
  unfold rebindAttachMsg
  dsimp only
  rw [rd32_wr32_of_apart _ _ (by decide), rd32_wr32]

/-- The state after slot `i` came back as `c` under a new generation. -/
def reboundState (s : NvState) (i : Nat) (c : NvClient) (generation : UInt32) : NvState :=
  { bindState s i c with generation := update s.generation i generation }

section Buffers

variable {P : NetOp -> Prop} {q : NetVirtClient} (htx : TxPermits P q) (hrx : RxPermits P q)

include htx hrx

theorem ensures_fillFreeRings {order : List Nat} (horder : ∀ i ∈ order, i < q.capacity.toNat) :
    Ensures anyAnswer P (fun _ => True) (fillFreeRings q order) := by
  induction order with
  | nil => trivial
  | cons i rest ih =>
    obtain ⟨hi, hrest⟩ := forall_mem_cons.mp horder
    exact ⟨hrx.free.storeBuffer i hi _, fun _ _ =>
      ⟨htx.free.storeBuffer i hi _, fun _ _ => ih hrest⟩⟩

theorem ensures_aosNetClientInitBuffers :
    Ensures anyAnswer P (fun _ => True) (aosNetClientInitBuffers q) := by
  unfold aosNetClientInitBuffers
  split
  · trivial
  · refine ⟨hrx.free.clear, fun _ _ => ⟨hrx.active.clear, fun _ _ =>
      ⟨htx.free.clear, fun _ _ => ⟨htx.active.clear, fun _ _ => ?_⟩⟩⟩⟩
    refine (ensures_fillFreeRings htx hrx fun _ hi => mem_range.mp hi).bind fun _ _ =>
      ⟨htx.free.fence, fun _ _ => ?_⟩
    exact ⟨hrx.free.storeIndex _ _, fun _ _ =>
      ⟨htx.free.storeIndex _ _, fun _ _ => ⟨htx.free.fence, fun _ _ => trivial⟩⟩⟩

end Buffers

/-- The nested ATTACH binds the retired slot under the requested generation, or
leaves it retired. -/
theorem tracks_rebindAttach (hs : TableOk s.clients)
    (hretired : s.clients req.client.toNat = retiredClient) :
    Tracks sessionStep
      (fun result sessions' =>
        (result.status ≠ netVirtOk /\ result.state = s /\ sessions' = sessions) \/
        (result.status = netVirtOk /\ ∃ c, Bound req.client.toNat c /\
          result.state = reboundState s req.client.toNat c req.generation /\
          sessions' = (rawHandle c).toList ++ sessions))
      (rebindAttach build badge req s) sessions := by
  have hcleared : ({ s.clients req.client.toNat with retired := false } : NvClient) = .zero := by
    rw [hretired]
    rfl
  have hquiet : Tracks sessionStep (fun _ sessions' => True /\ sessions' = sessions)
      (aosNetClientInitBuffers (aosNetClientBind shmem req.client .zero)) sessions :=
    tracks_of_ensures (ensures_aosNetClientInitBuffers (leavesSessions_memory.tx _)
      (leavesSessions_memory.rx _))
      fun _ hrequest answer => hrequest.step sessions answer
  refine hquiet.bind ?_
  rintro _ _ ⟨_, rfl⟩
  dsimp only
  rw [hcleared]
  have htable : TableOk (update s.clients req.client.toNat .zero) := hs.update (Or.inl rfl)
  refine (tracks_handleAttach htable _).bind fun result sessions' hresult => ?_
  rcases hresult with ⟨hfailed, hsame, hsessions⟩ | ⟨hok, i, c, hclient, _, hbound, hnew, hopened⟩
  · rw [if_neg fun h => hfailed (beq_iff_eq.mp h)]
    refine Or.inl ⟨hfailed, ?_, hsessions⟩
    -- the slot was retired before, so marking it retired again restores the state
    simp only [hsame, update_idem]
    rw [<- hretired, update_eq_self]
  · rw [if_pos (beq_iff_eq.mpr hok)]
    rw [rebindAttachMsg_client] at hclient
    have hslot : req.client.toNat = i := by rw [hclient, slot_toNat hbound.slot]
    subst hslot
    refine Or.inr ⟨hok, c, hbound, ?_, hopened⟩
    simp only [hnew, bindState, reboundState, update_idem]

theorem tracks_dropFrame (frame : Nat) (status : UInt32) (sessions : List UInt32) :
    Tracks sessionStep (fun _ sessions' => sessions' = sessions) (dropFrame frame status)
      sessions := by
  unfold dropFrame
  split
  · exact fun _ => rfl
  · rfl

/-- REBIND brings a retired slot back under the next generation, or changes nothing. -/
theorem tracks_rebindQueue (hs : TableOk s.clients) : Tracks sessionStep
      (fun result sessions' =>
        (result.status ≠ netVirtOk /\ result.state = s /\ sessions' = sessions) \/
        (result.status = netVirtOk /\ ∃ i c, badge = virtClientBadge (.ofNat i) /\
          req.client = .ofNat i /\ s.clients i = retiredClient /\
          (s.generation i).toNat < 2 ^ 32 - 1 /\ Bound i c /\
          result.state = reboundState s i c (s.generation i + 1) /\
          sessions' = (rawHandle c).toList ++ sessions))
      (rebindQueue build badge req s) sessions := by
  unfold rebindQueue
  dsimp only
  split
  · exact Or.inl ⟨by simp, rfl, rfl⟩
  rename_i hauthority
  simp only [Bool.not_eq_true, Bool.not_eq_false'] at hauthority
  obtain ⟨_, _, hbadge⟩ := virtClientAuthorized_iff.mp hauthority
  split
  · rename_i hrejected
    exact Or.inl ⟨by simpa using hrejected, rfl, rfl⟩
  · rename_i hvalid
    simp only [bne_iff_ne, ne_eq, not_not] at hvalid
    obtain ⟨hretired, hnext, hlimit⟩ := aosNetRebindValidate_ok hvalid
    have hslot := (hs req.client.toNat).of_retired hretired
    split
    · exact Or.inl ⟨by simp, rfl, rfl⟩
    intro deleted
    cases deleted with
    | false => exact Or.inl ⟨by simp, rfl, rfl⟩
    | true =>
      intro retyped
      cases retyped with
      | false => exact Or.inl ⟨by simp, rfl, rfl⟩
      | true =>
        intro mapped
        cases mapped with
        | false =>
          refine (tracks_dropFrame _ _ _).bind ?_
          rintro _ _ rfl
          exact Or.inl ⟨by simp, rfl, rfl⟩
        | true =>
          refine (tracks_rebindAttach hs hslot).bind fun result sessions' hresult => ?_
          refine (tracks_dropFrame _ _ _).bind ?_
          rintro _ _ rfl
          refine hresult.imp id fun ⟨hok, c, hbound, hnew, hopened⟩ => ?_
          refine ⟨hok, req.client.toNat, c, ?_, (UInt32.ofNat_toNat).symm, hslot, hlimit,
            hbound, ?_, hopened⟩
          · rw [UInt32.ofNat_toNat, hbadge]
          · rw [hnew, hnext]

/-! ## Messages as lifecycle steps -/

/-- What one lifecycle message can do to the state and to the driver's sessions, by the
reply it gets. -/
inductive ControlStep (msg : Incoming) (s : NvState) (sessions : List UInt32) :
    NvState -> List UInt32 -> Sel4Msg -> Prop where
  | rejected {rep : Sel4Msg} :
      replyStatus rep ≠ netVirtOk -> ControlStep msg s sessions s sessions rep
  | attached {rep : Sel4Msg} {i : Nat} {c : NvClient} :
      msg.label = netVirtOpAttach -> s.clients i = .zero -> Bound i c ->
      ControlStep msg s sessions (bindState s i c) ((rawHandle c).toList ++ sessions) rep
  | detached {rep : Sel4Msg} {i : Nat} {hub : AosNetVirt} :
      msg.label ≠ netVirtOpRebind -> i < aosNetQueueClients ->
      hub.clients.Perm (others hubEntry s.clients i) ->
      ControlStep msg s sessions (retireState s i hub)
        (sessions.diff (rawHandle (s.clients i)).toList) rep
  | rebound {rep : Sel4Msg} {i : Nat} {c : NvClient} {req : RebindReq} :
      replyStatus rep = netVirtOk -> msg.label = netVirtOpRebind ->
      msg.badge = virtClientBadge (.ofNat i) ->
      rebindRequest msg (sel4MrsToMsg msg.mrs) = some req -> req.client = .ofNat i ->
      s.clients i = retiredClient -> (s.generation i).toNat < 2 ^ 32 - 1 -> Bound i c ->
      ControlStep msg s sessions (reboundState s i c (s.generation i + 1))
        ((rawHandle c).toList ++ sessions) rep

variable {msg : Incoming}

theorem tracks_netVirtControl (hs : StateOk s sessions) : Tracks sessionStep
      (fun result sessions' => ControlStep msg s sessions result.1 sessions' result.2.msg)
      (netVirtControl build msg s) sessions := by
  unfold netVirtControl
  dsimp only
  split
  · rename_i hlabel
    unfold handleRebind
    split
    · refine .rejected ?_
      rw [replyStatus_rebindReply]
      simp
    · rename_i rebind hrequest
      refine (tracks_rebindQueue hs.table).bind fun result sessions' hresult => ?_
      obtain ⟨state, status, attachment⟩ := result
      rcases hresult with ⟨hfailed, hsame, hsessions⟩ |
        ⟨hok, i, c, hbadge, hclient, hretired, hlimit, hbound, hnew, hopened⟩
      · cases hsame
        cases hsessions
        refine .rejected ?_
        rw [replyStatus_rebindReply]
        exact hfailed
      · cases hnew
        cases hopened
        exact .rebound ((replyStatus_rebindReply _ _ _).trans hok) (beq_iff_eq.mp hlabel) hbadge
          hrequest hclient hretired hlimit hbound
  · rename_i hother
    split
    · unfold handleQueueOp
      split
      · rename_i hlabel
        refine (tracks_handleAttach hs.table sessions).bind fun result sessions' hresult => ?_
        obtain ⟨state, rep⟩ := result
        rcases hresult with ⟨hfailed, hsame, hsessions⟩ | ⟨_, i, c, _, hzero, hbound, hnew, hopened⟩
        · cases hsame
          cases hsessions
          exact .rejected hfailed
        · cases hnew
          cases hopened
          exact .attached (beq_iff_eq.mp hlabel) hzero hbound
      · refine (tracks_handleDetach hs).bind fun result sessions' hresult => ?_
        obtain ⟨state, rep⟩ := result
        rcases hresult with ⟨hfailed, hsame, hsessions⟩ | ⟨_, i, hub, hi, hperm, hnew, hclosed⟩
        · cases hsame
          cases hsessions
          exact .rejected hfailed
        · cases hnew
          cases hclosed
          exact .detached (fun h => hother (beq_iff_eq.mpr h)) hi hperm
    · refine .rejected ?_
      rw [replyStatus_shortReply]
      simp

theorem diff_toList_append {β : Type} [DecidableEq β] (entry : Option β) (rest : List β) :
    (entry.toList ++ rest).diff entry.toList = rest := by
  cases entry with
  | none => rfl
  | some value =>
    rw [toList_some, singleton_append, diff_cons, erase_cons_head,
      diff_nil]

/-- Binding a slot that recorded nothing keeps the invariant. -/
theorem StateOk.bindState (hs : StateOk s sessions) (hentry : hubEntry (s.clients i) = none)
    (hhandle : rawHandle (s.clients i) = none) (hbound : Bound i c) :
    StateOk (bindState s i c) ((rawHandle c).toList ++ sessions) where
  table := hs.table.update (Or.inr (Or.inr hbound))
  hub := (joinHub_perm hs.hub_length hbound).trans
    ((hs.hub.append_left _).trans (roster_join _ _ hbound.slot hentry c).symm)
  sessions := (hs.sessions.append_left _).trans (roster_join _ _ hbound.slot hhandle c).symm

theorem StateOk.retireState (hs : StateOk s sessions) (hi : i < aosNetQueueClients)
    (hhub : hub.clients.Perm (others hubEntry s.clients i)) :
    StateOk (retireState s i hub) (sessions.diff (rawHandle (s.clients i)).toList) where
  table := hs.table.update (Or.inr (Or.inl rfl))
  hub := hhub.trans (roster_update hubEntry s.clients hi retiredClient).symm
  sessions := by
    have hsplit := (hs.sessions.trans (roster_split _ _ hi)).diff_right
      (rawHandle (s.clients i)).toList
    rw [diff_toList_append] at hsplit
    exact hsplit.trans (roster_update rawHandle s.clients hi retiredClient).symm

variable {sessions' : List UInt32}

theorem ControlStep.stateOk (hstep : ControlStep msg s sessions s' sessions' rep)
    (hs : StateOk s sessions) : StateOk s' sessions' := by
  cases hstep with
  | rejected _ => exact hs
  | attached _ hzero hbound =>
    exact hs.bindState (by rw [hzero]; rfl) (by rw [hzero]; rfl) hbound
  | detached _ hi hhub => exact hs.retireState hi hhub
  | rebound _ _ _ _ _ hretired _ hbound =>
    have hok := hs.bindState (by rw [hretired]; rfl) (by rw [hretired]; rfl) hbound
    exact ⟨hok.table, hok.hub, hok.sessions⟩

/-- The lifecycle of every client as the abstract model sees it. -/
def life (s : NvState) (i : Nat) : ClientLife where
  phase :=
    if (s.clients i).attached then .attached
    else if (s.clients i).retired then .retired
    else .fresh
  generation := (s.generation i).toNat

theorem life_update (s s' : NvState) (hclients : s'.clients = update s.clients i c)
    (hothers : ∀ j, j ≠ i -> s'.generation j = s.generation j) (phase : ClientPhase)
    (hphase : phase = if c.attached then .attached else if c.retired then .retired else .fresh) :
    life s' = update (life s) i ⟨phase, (s'.generation i).toNat⟩ := by
  funext j
  by_cases hj : j = i
  · subst hj
    simp only [life, hclients, update_self, hphase]
  · simp only [life, hclients, update_of_ne hj, hothers j hj]

/-- Every lifecycle message refines one step of the abstract lifecycle; a rebind is a
REBIND message under the client's own badge. -/
theorem ControlStep.life_step (hstep : ControlStep msg s sessions s' sessions' rep) :
    ∃ event, LifeStep (2 ^ 32 - 1) (life s) event (life s') /\
      ∀ i generation, event = .rebind i generation ->
        replyStatus rep = netVirtOk /\ msg.label = netVirtOpRebind /\
          msg.badge = virtClientBadge (.ofNat i) /\
          ∃ req, rebindRequest msg (sel4MrsToMsg msg.mrs) = some req /\
            req.client = .ofNat i := by
  cases hstep with
  | rejected _ => exact ⟨.reject, .reject, nofun⟩
  | @attached rep i c _ hzero hbound =>
    refine ⟨.attach i, ?_, nofun⟩
    rw [life_update s (bindState s i c) rfl (fun _ _ => rfl) .attached
      (by rw [hbound.attached]; rfl)]
    refine .attach ?_
    simp only [life, hzero]
    rfl
  | @detached rep i hub _ hi _ =>
    refine ⟨.detach i, ?_, nofun⟩
    rw [life_update s (retireState s i hub) rfl (fun _ _ => rfl) .retired rfl]
    exact .detach
  | @rebound rep i c req hok hlabel hbadge hrequest hclient hretired hlimit hbound =>
    refine ⟨.rebind i ((life s i).generation + 1), ?_, ?_⟩
    · rw [life_update s (reboundState s i c (s.generation i + 1)) rfl
        (fun j hj => update_of_ne hj _ _) .attached (by rw [hbound.attached]; rfl)]
      simp only [reboundState, update_self, toNat_succ hlimit]
      refine .rebind ?_ hlimit
      simp only [life, hretired]
      rfl
    · intro j generation hevent
      cases hevent
      exact ⟨hok, hlabel, hbadge, req, hrequest, hclient⟩

/-! ## Reachable states -/

/-- The states between two receives with the requests that led there, for every
sequence of messages and every behaviour of memory, driver and kernel. -/
inductive Reached (build : NetBuild) : Trace NetIo -> NvState -> Prop where
  | init : Reached build [] .zero
  | turn {history trace : Trace NetIo} {s s' : NvState} {msg : Incoming}
      {reply : Option Reply} :
      Reached build history s -> Run (netVirtRun build msg s) trace (s', reply) ->
      Reached build (history ++ trace) s'

/-- What one turn of the receive loop can do. -/
inductive TurnStep (msg : Incoming) (s : NvState) (sessions : List UInt32) :
    NvState -> List UInt32 -> Option Reply -> Prop where
  | serviced {s' : NvState} : ServicedState s s' -> TurnStep msg s sessions s' sessions none
  | control {s' : NvState} {sessions' : List UInt32} {reply : Reply} :
      ControlStep msg s sessions s' sessions' reply.msg ->
      TurnStep msg s sessions s' sessions' (some reply)

theorem hubEntry_eq_some {q : NetVirtClient} (hentry : hubEntry c = some q) :
    c.attached = true /\ c.hw = false /\ q = c.q := by
  unfold hubEntry at hentry
  split at hentry
  · rename_i hmember
    obtain ⟨hattached, hhw⟩ := Bool.and_eq_true_iff.mp hmember
    exact ⟨hattached, by simpa using hhw, (some.inj hentry).symm⟩
  · exact absurd hentry (by simp)

theorem StateOk.hub_member (hs : StateOk s sessions) {q : NetVirtClient} (hq : q ∈ s.hub.clients) :
    ∃ i, (s.clients i).attached = true /\ (s.clients i).hw = false /\ q = (s.clients i).q := by
  obtain ⟨i, _, hentry⟩ := mem_filterMap.mp (hs.hub.mem_iff.mp hq)
  exact ⟨i, hubEntry_eq_some hentry⟩

/-- No part of a service round opens or closes a session. -/
theorem Attributed.leavesSessions {piece : Trace NetIo} (hpiece : Attributed s piece) :
    ∀ event ∈ piece, LeavesSessions event.request := by
  have hstore {q : NetPtr} {value : UInt32} : Ensures (anyAnswer (I := NetIo)) LeavesSessions
      (fun _ => True) (store (.signalled q) value) := ⟨trivial, fun _ _ => trivial⟩
  rcases hpiece with ⟨⟨request, answer⟩, rfl, hshared⟩ | ⟨i, -, hwork⟩
  · rw [forall_mem_singleton]
    cases request with
    | netCall opcode arg0 arg1 => exact hshared.elim
    | _ => trivial
  cases hwork with
  | words hq hrun => exact hstore.requests hrun
  | buffers hrun =>
    exact (ensures_aosNetClientInitBuffers (leavesSessions_memory.tx _)
      (leavesSessions_memory.rx _)).requests hrun
  | send hsame hhw hrun =>
    exact (ensures_nvTxToNetPd (fun _ => trivial) (leavesSessions_driver _)
      (leavesSessions_memory.tx _)).requests hrun
  | receive hsame hhw hrun =>
    exact (ensures_nvRxFromNetPd (fun _ => trivial) (leavesSessions_driver _)
      (leavesSessions_memory.rx _)).requests hrun
  | pump hhw hsrc hrun =>
    exact (ensures_pumpFrames trivial (leavesSessions_memory.tx _)
      (fun dst _ => leavesSessions_memory.rx dst) _ _).requests hrun
  | unread hrun => exact (ensures_aosNetQueueLength fun _ => trivial).requests hrun
  | rescan hsame hrun =>
    exact (ensures_clientNeedsRescan (fun _ => trivial) fun _ => trivial).requests hrun

theorem tracks_nvService (hs : StateOk s sessions) :
    Tracks sessionStep (fun s' sessions' => ServicedState s s' /\ sessions' = sessions)
      (nvService s) sessions := by
  refine tracks_of_run fun trace s' hrun => ?_
  obtain ⟨⟨pieces, rfl, hpieces⟩, hserved⟩ :=
    works_nvService (fun _ hq => hs.hub_member hq) trace s' hrun
  refine ⟨hserved, List.foldlRecOn (motive := (· = sessions)) _ sessionStep rfl
    fun sessions' hsame event hevent => ?_⟩
  obtain ⟨piece, hpiece, hmem⟩ := mem_flatten.mp hevent
  rw [hsame]
  exact ((hpieces piece hpiece).leavesSessions event hmem).step sessions event.answer

theorem tracks_netVirtRun (hs : StateOk s sessions) : Tracks sessionStep
      (fun result sessions' => TurnStep msg s sessions result.1 sessions' result.2)
      (netVirtRun build msg s) sessions := by
  refine Tracks.bind
    (Q := fun result sessions' => TurnStep msg s sessions result.1 sessions' result.2) ?_ ?_
  rotate_left
  · intro result sessions' hstep _
    exact hstep
  have hservice : Tracks sessionStep
      (fun result sessions' => TurnStep msg s sessions result.1 sessions' result.2)
      (do let s <- nvService s; return (s, none)) sessions := by
    refine (tracks_nvService hs).bind ?_
    rintro s' _ ⟨hserved, rfl⟩
    exact .serviced hserved
  unfold netVirtHandle
  split
  · exact hservice
  split
  · exact (tracks_netVirtControl hs).bind fun result sessions' hstep => .control hstep
  · split
    · exact hservice
    · exact .serviced ⟨.refl _, rfl, rfl⟩

variable {reply : Option Reply}

theorem TurnStep.stateOk (hstep : TurnStep msg s sessions s' sessions' reply)
    (hs : StateOk s sessions) : StateOk s' sessions' := by
  cases hstep with
  | serviced hserved => exact hs.serviced hserved
  | control hstep => exact hstep.stateOk hs

theorem Reached.stateOk {history : Trace NetIo} (hs : Reached build history s) :
    StateOk s (openSessions history) := by
  induction hs with
  | init => exact ⟨fun _ => Or.inl rfl, .refl _, .refl _⟩
  | turn _ hrun ih =>
    rw [openSessions, foldl_append]
    exact ((tracks_netVirtRun ih).run hrun).stateOk ih

theorem StateOk.hub_count (hs : StateOk s sessions) (hattached : (s.clients i).attached = true)
    (hhw : (s.clients i).hw = false) :
    s.hub.clients.count (s.clients i).q = 1 := by
  have hbound := (hs.table i).of_attached hattached
  have hentry : hubEntry (s.clients i) = some (s.clients i).q := by
    simp only [hubEntry, hattached, hhw]
    rfl
  have hothers : (s.clients i).q ∉ others hubEntry s.clients i := by
    intro hmem
    obtain ⟨j, hj, hview⟩ := mem_filterMap.mp hmem
    obtain ⟨hne, _⟩ := (List.Nodup.mem_erase_iff nodup_range).mp hj
    obtain ⟨hother, _, hq⟩ := hubEntry_eq_some hview
    have hbound' := (hs.table j).of_attached hother
    rw [hbound.queue, hbound'.queue] at hq
    exact hne (slotQueues_txActive_inj hbound'.slot hbound.slot
      (congrArg NetVirtClient.txActive hq).symm)
  rw [(hs.hub.trans (roster_split _ _ hbound.slot)).count_eq, hentry, toList_some,
    singleton_append, count_cons_self, count_eq_zero.mpr hothers]

/-- A REBIND of client `i` under its own badge that was answered OK. -/
def SuccessfulRebind (msg : Incoming) (reply : Option Reply) (i : Nat) : Prop :=
  msg.label = netVirtOpRebind /\ msg.badge = virtClientBadge (.ofNat i) /\
    (∃ req, rebindRequest msg (sel4MrsToMsg msg.mrs) = some req /\ req.client = .ofNat i) /\
    ∃ sent, reply = some sent /\ replyStatus sent.msg = netVirtOk

theorem TurnStep.generation_rebound (hstep : TurnStep msg s sessions s' sessions' reply)
    (hi : i < aosNetQueueClients) (hrebind : SuccessfulRebind msg reply i) :
    (s'.generation i).toNat = (s.generation i).toNat + 1 := by
  obtain ⟨hlabel, _, ⟨req, hreq, hclient⟩, sent, hsent, hok⟩ := hrebind
  cases hstep with
  | serviced _ => exact absurd hsent (by simp)
  | control hstep =>
    cases hsent
    cases hstep with
    | rejected hfailed => exact absurd hok hfailed
    | attached hother _ _ => cases hlabel.symm.trans hother
    | detached hother _ _ => exact absurd hlabel hother
    | @rebound _ j _ req' _ _ _ hreq' hclient' _ hlimit hbound =>
      cases some.inj (hreq.symm.trans hreq')
      have hsame : j = i := by
        rw [<- slot_toNat hbound.slot, <- hclient', hclient, slot_toNat hi]
      subst hsame
      simp only [reboundState, update_self]
      exact toNat_succ hlimit

theorem TurnStep.generation_kept (hstep : TurnStep msg s sessions s' sessions' reply)
    (hnone : ¬ SuccessfulRebind msg reply i) : s'.generation i = s.generation i := by
  cases hstep with
  | serviced hserved => rw [hserved.generation]
  | @control _ sent hstep =>
    by_contra hmoved
    obtain ⟨event, hlife, hrebind⟩ := hstep.life_step
    have hchange : (life s' i).generation ≠ (life s i).generation :=
      fun h => hmoved (UInt32.toNat_inj.mp h)
    obtain ⟨hretired, hattached⟩ := hlife.generation_moved hchange
    obtain ⟨hevent, _⟩ := hlife.reattached hretired hattached
    obtain ⟨hok, hlabel, hbadge, hreq⟩ := hrebind i _ hevent
    exact hnone ⟨hlabel, hbadge, hreq, sent, rfl, hok⟩

/-- For every sequence of messages and every outcome of the driver's and the kernel's calls: no
client is both attached and retired; the hub has one entry for each attached client without
hardware and no other; the driver's open sessions are those that clients record, and a retired
client records none; and a generation moves by one with each successful REBIND of its client
under the client's own badge, and never otherwise. -/
theorem netVirt_lifecycle {history : Trace NetIo} {s : NvState}
    (hs : Reached build history s) :
    (∀ i, ¬ ((s.clients i).attached = true /\ (s.clients i).retired = true)) /\
    (∀ i, (s.clients i).attached = true -> (s.clients i).hw = false ->
      s.hub.clients.count (s.clients i).q = 1) /\
    (∀ q ∈ s.hub.clients, ∃ i, (s.clients i).attached = true /\ (s.clients i).hw = false /\
      q = (s.clients i).q) /\
    (openSessions history).Perm (roster rawHandle s.clients) /\
    (∀ i, (s.clients i).retired = true -> (s.clients i).rawOpen = false) /\
    (∀ msg trace s' reply, Run (netVirtRun build msg s) trace (s', reply) ->
      (∀ i, i < aosNetQueueClients -> SuccessfulRebind msg reply i ->
        (s'.generation i).toNat = (s.generation i).toNat + 1) /\
      (∀ i, ¬ SuccessfulRebind msg reply i -> s'.generation i = s.generation i)) := by
  have hok := hs.stateOk
  refine ⟨?_, ?_, ?_, hok.sessions, ?_, ?_⟩
  · rintro i ⟨hattached, hretired⟩
    have hbound := (hok.table i).of_attached hattached
    cases hretired.symm.trans hbound.live
  · intro i hattached hhw
    exact hok.hub_count hattached hhw
  · intro q hq
    exact hok.hub_member hq
  · intro i hretired
    rw [(hok.table i).of_retired hretired]
    rfl
  · intro msg trace s' reply hrun
    have hstep := (tracks_netVirtRun hok).run hrun
    exact ⟨fun i hi hrebind => hstep.generation_rebound hi hrebind,
      fun i hnone => hstep.generation_kept hnone⟩

/-- A driver that opens session 7 on its first slot and reports its link up. -/
def oneSession : NetDriver Unit := fun opcode _ _ bytes state =>
  let reply := wr32 (wr32 (fun _ => 0) 4 7) 8 0x600000
  (if opcode == netSvcOpRawOpen || opcode == netSvcOpRawStatus then ⟨0, 18, reply⟩
    else ⟨1, 4, fun _ => 0⟩, bytes, state)

/-- The primary guest's ATTACH. -/
def primaryAttach : Incoming where
  badge := virtClientBadgePrimary
  label := netVirtOpAttach
  mrLength := sel4MrCount
  extraCaps := 0
  capsUnwrapped := 0
  mrs := { rebindAttachMsg 0 with opcode := 0x2201 }

/-- The state after the primary guest attached with a network interface. -/
def primaryAttached : NvState :=
  (eval (handler oneSession) (netVirtRun ⟨true, true, true⟩ primaryAttach .zero) (.zero, ())).1.1

theorem primaryAttached_reached : ∃ history, Reached ⟨true, true, true⟩ history primaryAttached :=
    by
  obtain ⟨trace, hrun⟩ := run_eval (handler oneSession)
    (netVirtRun ⟨true, true, true⟩ primaryAttach .zero) (.zero, ())
  exact ⟨_, .turn .init hrun⟩

theorem netVirt_lifecycle_attached : ∃ history, Reached ⟨true, true, true⟩ history primaryAttached /\
      (primaryAttached.clients 0).attached = true /\ (primaryAttached.clients 0).hw = true /\
      openSessions history = [7] := by
  obtain ⟨history, hs⟩ := primaryAttached_reached
  obtain ⟨_, _, _, hsessions, _, _⟩ := netVirt_lifecycle hs
  have hroster : roster rawHandle primaryAttached.clients = [7] := by decide +kernel
  rw [hroster] at hsessions
  exact ⟨history, hs, by decide +kernel, by decide +kernel, perm_singleton.mp hsessions⟩

end AgentOs.NetVirt
