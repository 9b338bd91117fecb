import Mathlib.Data.Fintype.Option
import AgentOs.Console.Guests
import AgentOs.Console.Handles

/-!
# Streams of guest consoles

LOG_STREAM reads one field as the number of a log slot or as a guest's handle, depending on
whether that slot is in use.  So a handle can name a slot that streams another guest, and a
handle that names nobody still takes a slot.  The DESTROY of the boot guest leaves its slot.
-/

namespace AgentOs.Console

open Library Prog Ipc List Option
open GuestVmm (msgGuestDestroy)

/-! ## Histories -/

structure ConsoleRecord where
  request : ConsoleRequest
  before : ConsoleState
  trace : Trace ConsoleIo
  reply : ConsoleReply
  after : ConsoleState

inductive ConsoleHistory (build : ConsoleBuild) : List ConsoleRecord -> ConsoleState -> Prop where
  | init : ConsoleHistory build [] (.init build)
  | request {records : List ConsoleRecord} {s s' : ConsoleState} {request : ConsoleRequest}
      {trace : Trace ConsoleIo} {reply : ConsoleReply} : ConsoleHistory build records s ->
      Run (serveRequest build s request) trace (reply, s') ->
      ConsoleHistory build (records ++ [⟨request, s, trace, reply, s'⟩]) s'

/-- The request is for the console of the guest with this handle. -/
def Names (request : ConsoleRequest) (h : UInt32) : Prop :=
  ∃ req, request = .logStream req /\ req.mr0 = h /\
    (req.mr2 = 0 /\ isGuestVmm req.mr1 = true \/ req.mr2 = ccLogAddressHandle /\ req.mr1 = 0)

/-- The guests that there are: those of the client and the boot guest. -/
def ConsoleState.Live (s : ConsoleState) (h : UInt32) : Prop :=
  s.client.Live h \/ h = ccBootGuestHandle /\ s.bootGuestPresent = true

/-- The serial client that the boot guest's VMM attaches as (`init` of `guest_vmm.c`). -/
def vmmSerialSlot (build : ConsoleBuild) : UInt32 := if build.bootGuestSecondary then 1 else 0

/-- The guest with this handle has this channel. -/
def HasChannel (build : ConsoleBuild) (s : ConsoleState) (h slot : UInt32) : Prop :=
  (∃ i, (s.client.entries i).active = true /\ (s.client.entries i).handle = h /\
    (s.client.entries i).slot = slot) \/
  h = ccBootGuestHandle /\ s.bootGuestPresent = true /\ slot = vmmSerialSlot build

/-- The channel of the guest with this handle, and of no other. -/
def OwnChannel (build : ConsoleBuild) (s : ConsoleState) (h slot : UInt32) : Prop :=
  HasChannel build s h slot /\ ∀ other, HasChannel build s other slot -> other = h

/-- Nothing was read but the guest's own channel, and the reply has what was read. -/
structure StreamsOwn (build : ConsoleBuild) (r : ConsoleRecord) (h : UInt32) : Prop where
  reads : ∀ slot max answer, ⟨.serialRead slot max, answer⟩ ∈ r.trace ->
    OwnChannel build r.before h slot
  bytes : r.reply.shmem = [] \/ ∃ slot max, ⟨.serialRead slot max, some r.reply.shmem⟩ ∈ r.trace

/-- Every slot in use names a live guest. -/
def SlotsLive (s : ConsoleState) : Prop :=
  ∀ i, (s.logSlots i).inUse = true -> s.Live (s.logSlots i).guestHandle

/-- A stream that is asked for by handle: the number is not that of another guest's slot, and
the handle is live when it needs a slot.  A DESTROY of the boot guest: it has no slot. -/
def Orderly (s : ConsoleState) : ConsoleRequest -> Prop
  | .logStream req => req.mr2 = 0 -> isGuestVmm req.mr1 = true ->
      match slotInUse s req.mr0 with
      | some i => s.Live req.mr0 -> (s.logSlots i).guestHandle = req.mr0
      | none => s.Live req.mr0
  | .destroyGuest req => req.mr0 = ccBootGuestHandle ->
      ∀ i, (s.logSlots i).inUse = true -> (s.logSlots i).guestHandle ≠ ccBootGuestHandle
  | _ => True

/-- While there is a boot guest, the manager gives no guest its channel. -/
def KeepsChannel (build : ConsoleBuild) (s : ConsoleState) (trace : Trace ConsoleIo) : Prop :=
  s.bootGuestPresent = true -> ∀ rpc answer, ⟨.vm rpc, answer⟩ ∈ trace ->
    rpc.opcode = vmManagerOpCreate -> rd32 answer.data 4 ≠ vmmSerialSlot build

/-! ## Drains -/

section Drains

variable {build : ConsoleBuild} {s s' : ConsoleState} {trace : Trace ConsoleIo}

/-- Every read of these events is on the channel of the handle. -/
def ReadsOf (build : ConsoleBuild) (s : ConsoleState) (handle : UInt32)
    (trace : Trace ConsoleIo) : Prop :=
  ∀ slot max answer, ⟨.serialRead slot max, answer⟩ ∈ trace ->
    handle = ccBootGuestHandle /\ slot = bootSerialSlot build \/
      ∃ i, lookup s.client handle = some i /\ slot = (s.client.entries i).slot

theorem viaVm_reads {α : Type} {program : VmM α} {value : α}
    (hrun : Run (viaVm program) trace value)
    {slot max : UInt32} {answer : Option (List UInt8)} :
    (⟨.serialRead slot max, answer⟩ : Event ConsoleIo) ∉ trace := by
  intro hmem
  obtain ⟨request, ⟨⟩⟩ := (run_lift hrun).2 _ hmem

theorem serialUsable_some {input : Bool} {slot state channel : UInt32}
    (husable : serialUsable build input slot state = some channel) : channel = slot := by
  unfold serialUsable at husable
  split at husable
  · exact (some.inj husable).symm
  · cases husable

variable {handle : UInt32}

theorem ccSerialSlot_run {input : Bool} {channel : Option UInt32}
    (hrun : Run (ccSerialSlot build s handle input) trace channel) :
    (∀ slot max answer, (⟨.serialRead slot max, answer⟩ : Event ConsoleIo) ∉ trace) /\
    ∀ slot, channel = some slot -> handle = ccBootGuestHandle /\ slot = bootSerialSlot build \/
      ∃ i, lookup s.client handle = some i /\ slot = (s.client.entries i).slot := by
  have hnothing {trace : Trace ConsoleIo}
      (hrun : Run (pure none : ConsoleM (Option UInt32)) trace channel) :
      trace = [] /\ channel = none := run_ret_iff.mp hrun
  have hsilent (slot max : UInt32) (answer : Option (List UInt8)) :
      (⟨.serialRead slot max, answer⟩ : Event ConsoleIo) ∉ [] := not_mem_nil
  unfold ccSerialSlot at hrun
  split at hrun
  case isTrue hboot =>
    split at hrun
    · obtain ⟨rfl, rfl⟩ := hnothing hrun
      exact ⟨hsilent, nofun⟩
    · obtain ⟨rfl, rfl⟩ := run_ret_iff.mp hrun
      exact ⟨hsilent, fun slot hslot => .inl ⟨hboot, serialUsable_some hslot⟩⟩
  case isFalse =>
    split at hrun
    case h_1 =>
      obtain ⟨rfl, rfl⟩ := hnothing hrun
      exact ⟨hsilent, nofun⟩
    case h_2 i hlookup =>
      split at hrun
      · obtain ⟨rfl, rfl⟩ := hnothing hrun
        exact ⟨hsilent, nofun⟩
      · obtain ⟨first, second, ⟨rc, status⟩, rfl, hfirst, hsecond⟩ := run_bind_iff.mp hrun
        dsimp only at hsecond
        split at hsecond
        · obtain ⟨rfl, rfl⟩ := hnothing hsecond
          rw [append_nil]
          exact ⟨fun _ _ _ => viaVm_reads hfirst, nofun⟩
        · obtain ⟨rfl, rfl⟩ := run_ret_iff.mp hsecond
          rw [append_nil]
          exact ⟨fun _ _ _ => viaVm_reads hfirst, fun slot hslot =>
            .inr ⟨i, hlookup, serialUsable_some hslot⟩⟩

theorem ccSerialDrain_run {max : UInt32} {drained : Option (List UInt8)}
    (hrun : Run (ccSerialDrain build s handle max) trace drained) :
    ReadsOf build s handle trace /\
      ∀ bytes, drained = some bytes -> ∃ slot, ⟨.serialRead slot max, some bytes⟩ ∈ trace := by
  obtain ⟨first, second, channel, rfl, hfirst, hsecond⟩ := run_bind_iff.mp hrun
  obtain ⟨hsilent, hchannel⟩ := ccSerialSlot_run hfirst
  cases channel with
  | none =>
    obtain ⟨rfl, rfl⟩ := run_ret_iff.mp hsecond
    rw [append_nil]
    exact ⟨fun slot max answer hmem => absurd hmem (hsilent slot max answer), nofun⟩
  | some slot =>
    obtain ⟨answer, rest, rfl, hrest⟩ := run_op_iff.mp hsecond
    have hsignal : (∀ slot max answer, (⟨.serialRead slot max, answer⟩ : Event ConsoleIo) ∉ rest) /\
        ∀ bytes, drained = some bytes -> answer = some bytes := by
      cases answer with
      | none =>
        obtain ⟨rfl, rfl⟩ := run_ret_iff.mp hrest
        exact ⟨fun _ _ _ => not_mem_nil, nofun⟩
      | some bytes =>
        change Run (signalIf (!bytes.isEmpty) >>= fun _ => pure (some bytes)) rest drained at hrest
        obtain ⟨third, fourth, _, rfl, hthird, hfourth⟩ := run_bind_iff.mp hrest
        obtain ⟨rfl, rfl⟩ := run_ret_iff.mp hfourth
        rw [append_nil]
        refine ⟨fun slot max answer hmem => ?_, fun _ h => h⟩
        unfold signalIf at hthird
        split at hthird
        · obtain ⟨_, tail, rfl, htail⟩ := run_op_iff.mp hthird
          obtain ⟨rfl, -⟩ := run_ret_iff.mp htail
          cases mem_singleton.mp hmem
        · obtain ⟨rfl, -⟩ := run_ret_iff.mp hthird
          cases hmem
    refine ⟨fun other max' answer' hmem => ?_, fun bytes hbytes => ?_⟩
    · rcases mem_append.mp hmem with hmem | hmem
      · exact absurd hmem (hsilent other max' answer')
      · rcases mem_cons.mp hmem with heq | hmem
        · obtain ⟨hrequest, -⟩ := Event.mk.inj heq
          obtain ⟨rfl, -⟩ := ConsoleOp.serialRead.inj hrequest
          exact hchannel other rfl
        · exact absurd hmem (hsignal.1 other max' answer')
    · obtain rfl := hsignal.2 bytes hbytes
      exact ⟨slot, mem_append_right _ mem_cons_self⟩

theorem streamHandle_run {number failure : UInt32} {reply : ConsoleReply}
    (hrun : Run (streamHandle build s handle number failure) trace (reply, s')) :
    s' = s /\ (reply.mr0 = ccOk \/ reply.mr0 = failure) /\ ReadsOf build s handle trace /\
      (reply.shmem = [] \/ ∃ slot max, ⟨.serialRead slot max, some reply.shmem⟩ ∈ trace) := by
  obtain ⟨first, second, drained, rfl, hfirst, hsecond⟩ := run_bind_iff.mp hrun
  obtain ⟨hreads, hbytes⟩ := ccSerialDrain_run hfirst
  cases drained with
  | none =>
    obtain ⟨rfl, ⟨⟩⟩ := run_ret_iff.mp hsecond
    rw [append_nil]
    exact ⟨rfl, .inr rfl, hreads, .inl rfl⟩
  | some bytes =>
    obtain ⟨rfl, ⟨⟩⟩ := run_ret_iff.mp hsecond
    rw [append_nil]
    obtain ⟨slot, hread⟩ := hbytes bytes rfl
    exact ⟨rfl, .inl rfl, hreads, .inr ⟨slot, _, hread⟩⟩

end Drains

/-! ## The invariant -/

structure ConsoleInv (build : ConsoleBuild) (s : ConsoleState) : Prop where
  client : ∃ records, ClientInv records s.client
  apart : s.bootGuestPresent = true -> ∀ i, (s.client.entries i).active = true ->
    (s.client.entries i).slot ≠ vmmSerialSlot build
  live : SlotsLive s
  /-- No guest has two slots. -/
  once : ∀ i j, (s.logSlots i).inUse = true -> (s.logSlots j).inUse = true ->
    (s.logSlots i).guestHandle = (s.logSlots j).guestHandle -> i = j
  /-- Slot 0 is the boot guest's. -/
  guest : ∀ i, (s.logSlots i).inUse = true -> i ∈ guestLogSlots

theorem ConsoleInv.init (build : ConsoleBuild) : ConsoleInv build (.init build) :=
  ⟨⟨[], .init true⟩, nofun, nofun, nofun,
    nofun⟩

section Step

variable {build : ConsoleBuild} {s s' : ConsoleState} {trace : Trace ConsoleIo}
  {reply : ConsoleReply} {req : ConsoleReq} {h : UInt32}

theorem bootSerialSlot_eq (build : ConsoleBuild) : bootSerialSlot build = vmmSerialSlot build := by
  unfold bootSerialSlot ccBootGuestOsType vmmSerialSlot
  cases build.bootGuestSecondary <;> rfl

/-- The slots stay; the guests may change as long as the slots' guests live. -/
theorem ConsoleInv.same (hinv : ConsoleInv build s)
    (hclient : ∃ records, ClientInv records s'.client)
    (hapart : s'.bootGuestPresent = true -> ∀ i, (s'.client.entries i).active = true ->
      (s'.client.entries i).slot ≠ vmmSerialSlot build)
    (hlive : SlotsLive s') (hslots : s'.logSlots = s.logSlots) : ConsoleInv build s' := by
  refine ⟨hclient, hapart, hlive, fun i j => ?_, fun i => ?_⟩
  · rw [hslots]
    exact hinv.once i j
  · rw [hslots]
    exact hinv.guest i

theorem ConsoleInv.ne_zero (hinv : ConsoleInv build s) (hlive : s.client.Live h) : h ≠ 0 := by
  obtain ⟨records, hclient⟩ := hinv.client
  exact (hclient.mem_issued (hclient.live_issued hlive)).1

/-- A channel has one guest. -/
theorem ConsoleInv.channel (hinv : ConsoleInv build s) {slot other : UInt32}
    (hown : HasChannel build s h slot) (hother : HasChannel build s other slot) : other = h := by
  rcases hown with ⟨i, hi, rfl, hslot⟩ | ⟨rfl, hpresent, rfl⟩ <;>
    rcases hother with ⟨j, hj, rfl, hslot'⟩ | ⟨rfl, hpresent', hboot⟩
  · obtain ⟨records, hclient⟩ := hinv.client
    rw [hclient.distinct j i hj hi (.inr (.inl (hslot'.trans hslot.symm)))]
  · exact absurd (hslot.trans hboot) (hinv.apart hpresent' i hi)
  · exact absurd hslot' (hinv.apart hpresent j hj)
  · rfl

theorem ConsoleInv.own (hinv : ConsoleInv build s) (hlive : s.Live h)
    (hreads : ReadsOf build s h trace) {slot max : UInt32} {answer : Option (List UInt8)}
    (hmem : ⟨.serialRead slot max, answer⟩ ∈ trace) : OwnChannel build s h slot := by
  have hhas : HasChannel build s h slot := by
    rcases hreads slot max answer hmem with ⟨hboot, rfl⟩ | ⟨i, hlookup, rfl⟩
    · rcases hlive with hlive | ⟨-, hpresent⟩
      · exact absurd hboot (hinv.ne_zero hlive)
      · exact .inr ⟨hboot, hpresent, bootSerialSlot_eq build⟩
    · obtain ⟨-, hactive, hhandle⟩ := lookup_some hlookup
      exact .inl ⟨i, hactive, hhandle, rfl⟩
  exact ⟨hhas, fun _ => hinv.channel hhas⟩

/-- Seven slots, and at most four guests and the boot guest. -/
theorem ConsoleInv.free (hinv : ConsoleInv build s) :
    ∃ i ∈ guestLogSlots, (s.logSlots i).inUse = false := by
  by_contra hfull
  have hguest (k : Fin 7) : k.succ ∈ guestLogSlots := by
    show k.succ ∈ (finRange 8).tail
    rw [finRange_succ]
    exact mem_map_of_mem (mem_finRange k)
  have hinUse (k : Fin 7) : (s.logSlots k.succ).inUse = true := by
    by_contra hfree
    exact hfull ⟨k.succ, hguest k, by simpa using hfree⟩
  have hguestOf (k : Fin 7) : ∃ guest : Option (Fin ccVmClientSlots),
      (s.logSlots k.succ).guestHandle = guest.elim ccBootGuestHandle (s.client.entries · |>.handle) := by
    rcases hinv.live k.succ (hinUse k) with ⟨i, -, hhandle⟩ | ⟨hboot, -⟩
    · exact ⟨some i, hhandle.symm⟩
    · exact ⟨none, hboot⟩
  choose guest hguestOf using hguestOf
  have hinjective : Function.Injective guest := fun k m heq =>
    Fin.succ_injective 7 (hinv.once _ _ (hinUse k) (hinUse m)
      (by rw [hguestOf k, hguestOf m, heq]))
  have hcard := Fintype.card_le_of_injective guest hinjective
  rw [Fintype.card_fin, Fintype.card_option, Fintype.card_fin] at hcard
  exact absurd hcard (by decide)

theorem setLogSlot_inv (hinv : ConsoleInv build s) {i : Fin ccLogSlots} (hi : i ∈ guestLogSlots)
    (hlive : s.Live h)
    (hnew : ∀ j, (s.logSlots j).inUse = true -> (s.logSlots j).guestHandle ≠ h) (pdId : UInt32) :
    ConsoleInv build (s.setLogSlot i ⟨true, h, pdId⟩) := by
  have hself : (s.setLogSlot i ⟨true, h, pdId⟩).logSlots i = ⟨true, h, pdId⟩ :=
    Function.update_self i _ s.logSlots
  have hother (j : Fin ccLogSlots) (hj : j ≠ i) :
      (s.setLogSlot i ⟨true, h, pdId⟩).logSlots j = s.logSlots j :=
    Function.update_of_ne hj _ s.logSlots
  refine ⟨hinv.client, hinv.apart, fun j hinUse => ?_,
    Slots.apart_update s.logSlots (·.inUse) (·.guestHandle = ·.guestHandle) (fun _ _ => Eq.symm)
      hinv.once fun _ => hnew, fun j hinUse => ?_⟩
  · by_cases hji : j = i
    · subst hji
      rw [hself]
      exact hlive
    · rw [hother j hji] at hinUse ⊢
      exact hinv.live j hinUse
  · by_cases hji : j = i
    · exact hji ▸ hi
    · rw [hother j hji] at hinUse
      exact hinv.guest j hinUse

/-- A live guest has a slot or gets one. -/
theorem ccLogSlotForHandle_live (hinv : ConsoleInv build s) (hlive : s.Live h) (pdId : UInt32) :
    ∃ i s1, ccLogSlotForHandle s h pdId = (some i, s1) /\ ConsoleInv build s1 /\ s1.client = s.client := by
  unfold ccLogSlotForHandle
  split
  case h_1 i _ => exact ⟨i, s, rfl, hinv, rfl⟩
  case h_2 hnone =>
    obtain ⟨free, hmem, hfree⟩ := hinv.free
    split
    case h_1 i hfound =>
      have hi := mem_of_find?_eq_some hfound
      refine ⟨i, _, rfl, setLogSlot_inv hinv hi hlive (fun j hinUse hhandle => ?_) pdId, rfl⟩
      have hnot := find?_eq_none.mp hnone j (hinv.guest j hinUse)
      rw [hinUse, hhandle] at hnot
      simp at hnot
    case h_2 hfull =>
      have hused := find?_eq_none.mp hfull free hmem
      rw [hfree] at hused
      exact absurd rfl hused

/-- What a stream does when it names the guest whose console it shows. -/
structure Shows (build : ConsoleBuild) (s : ConsoleState) (h : UInt32)
    (trace : Trace ConsoleIo) (reply : ConsoleReply) : Prop where
  served : reply.mr0 ≠ ccErrNoSessions
  reads : ReadsOf build s h trace
  bytes : reply.shmem = [] \/ ∃ slot max, ⟨.serialRead slot max, some reply.shmem⟩ ∈ trace

theorem streamHandle_shows {s1 : ConsoleState} (hclient : s1.client = s.client)
    {number failure : UInt32} (hfailure : failure ≠ ccErrNoSessions)
    (hrun : Run (streamHandle build s1 h number failure) trace (reply, s')) :
    s' = s1 /\ Shows build s h trace reply := by
  obtain ⟨rfl, hcode, hreads, hbytes⟩ := streamHandle_run hrun
  refine ⟨rfl, ?_, ?_, hbytes⟩
  · rcases hcode with h | h <;> rw [h]
    · decide
    · exact hfailure
  · intro slot max answer hmem
    rw [<- hclient]
    exact hreads slot max answer hmem

section

variable (hinv : ConsoleInv build s)

include hinv

/-- A stream shows the console of one handle, which is the one that a live guest is named by. -/
theorem handleLogStream_run (hclear : Orderly s (.logStream req))
    (hrun : Run (handleLogStream build s req) trace (reply, s')) :
    ConsoleInv build s' /\ ∀ h, Names (.logStream req) h -> s.Live h ->
      Shows build s h trace reply := by
  have hquiet {code : UInt32} (hcode : code ≠ ccErrNoSessions)
      (hrun : Run (pure (replyWith code 0 0, s) : ConsoleM (ConsoleReply × ConsoleState)) trace
        (reply, s')) :
      ConsoleInv build s' /\ ∀ h, Names (.logStream req) h -> s.Live h ->
        Shows build s h trace reply := by
    obtain ⟨rfl, ⟨⟩⟩ := run_ret_iff.mp hrun
    exact ⟨hinv, fun _ _ _ => ⟨hcode, nofun, .inl rfl⟩⟩
  unfold handleLogStream at hrun
  split at hrun
  · exact hquiet (by decide) hrun
  split at hrun
  case isTrue hmode =>
    split at hrun
    · exact hquiet (by decide) hrun
    obtain ⟨rfl, hshows⟩ := streamHandle_shows (s := s) rfl (by decide) hrun
    refine ⟨hinv, ?_⟩
    rintro h ⟨_, ⟨⟩, rfl, -⟩ -
    exact hshows
  case isFalse hmode =>
    have hmode : req.mr2 = 0 := by simpa using hmode
    split at hrun
    case isTrue hboot =>
      obtain ⟨rfl, hshows⟩ := streamHandle_shows (s := s) rfl (by decide) hrun
      refine ⟨hinv, ?_⟩
      rintro h ⟨_, ⟨⟩, rfl, -⟩ -
      rwa [hboot.1]
    case isFalse =>
      have hclear : isGuestVmm req.mr1 = true -> _ := hclear hmode
      split at hrun
      case h_1 i hslot =>
        rw [hslot] at hclear
        obtain ⟨rfl, hshows⟩ := streamHandle_shows (s := s) rfl (by decide) hrun
        refine ⟨hinv, ?_⟩
        rintro h ⟨_, ⟨⟩, rfl, ⟨-, hguest⟩ | ⟨hform, -⟩⟩ hlive
        · rwa [hclear hguest hlive] at hshows
        · rw [hmode] at hform
          cases hform
      case h_2 hslot =>
        rw [hslot] at hclear
        split at hrun
        case isTrue hguest =>
          obtain ⟨i, s1, hassigned, hinv1, hclient⟩ :=
            ccLogSlotForHandle_live hinv (hclear hguest) req.mr1
          rw [hassigned] at hrun
          obtain ⟨rfl, hshows⟩ := streamHandle_shows hclient (by decide) hrun
          refine ⟨hinv1, ?_⟩
          rintro h ⟨_, ⟨⟩, rfl, -⟩ -
          exact hshows
        case isFalse => exact hquiet (by decide) hrun

theorem handleCreateGuest_inv (hkeeps : KeepsChannel build s trace)
    (hrun : Run (handleCreateGuest build s req) trace (reply, s')) : ConsoleInv build s' := by
  have hrefused (hrun : Run (pure (replyWith ccErrRelayFault 0 0, s) :
      ConsoleM (ConsoleReply × ConsoleState)) trace (reply, s')) : ConsoleInv build s' := by
    obtain ⟨-, hout⟩ := run_ret_iff.mp hrun
    rw [(Prod.mk.inj hout).2]
    exact hinv
  unfold handleCreateGuest at hrun
  split at hrun
  · exact hrefused hrun
  split at hrun
  · exact hrefused hrun
  obtain ⟨first, second, ⟨out, client⟩, rfl, hfirst, hsecond⟩ := run_bind_iff.mp hrun
  obtain ⟨⟨original, hcreate, hevents⟩, -⟩ := run_lift hfirst
  obtain ⟨records, hclient⟩ := hinv.client
  have hcall : Run (runCall build.arch s.client (.create _ _ _)) original (out, client) := hcreate
  have hcreated := ccVmCreate_run hclient.fresh hcreate
  have hkeep : ConsoleInv build { s with client := client } := by
    refine hinv.same ⟨_, runCall_inv hclient hcall⟩ (fun hpresent => ?_)
      (fun i hinUse => (hinv.live i hinUse).imp_left hcreated.live) rfl
    refine hcreated.slot (hinv.apart hpresent) fun e he hopcode => ?_
    obtain ⟨answer, hmem, heq⟩ := hevents e he
    rw [heq]
    exact hkeeps hpresent _ _ (mem_append_left _ hmem) hopcode
  have hs' : s' = { s with client := client } := by
    dsimp only at hsecond
    split at hsecond <;> exact (Prod.mk.inj (run_ret_iff.mp hsecond).2).2
  rw [hs']
  exact hkeep

theorem handleBootGuest_inv {opcode reason : UInt32} {withState : Bool}
    (hdestroy : opcode = msgGuestDestroy ->
      ∀ i, (s.logSlots i).inUse = true -> (s.logSlots i).guestHandle ≠ ccBootGuestHandle)
    (hrun : Run (handleBootGuest s opcode reason withState) trace (reply, s')) :
    ConsoleInv build s' := by
  have hafter {t : ConsoleState} (ht : bootGuestAfter s opcode = some t) : ConsoleInv build t := by
    unfold bootGuestAfter at ht
    split at ht
    · exact some.inj ht ▸ hinv.same hinv.client hinv.apart hinv.live rfl
    split at ht
    · exact some.inj ht ▸ hinv.same hinv.client hinv.apart hinv.live rfl
    split at ht
    case isTrue hop =>
      refine some.inj ht ▸ hinv.same hinv.client nofun (fun i hinUse => ?_) rfl
      exact .inl ((hinv.live i hinUse).resolve_right fun h => hdestroy hop i hinUse h.1)
    case isFalse => cases ht
  unfold handleBootGuest at hrun
  split at hrun
  · rw [(Prod.mk.inj (run_ret_iff.mp hrun).2).2]
    exact hinv
  case isFalse hpresent =>
    obtain ⟨first, second, after, rfl, hfirst, hsecond⟩ := run_bind_iff.mp hrun
    cases after with
    | none =>
      rw [(Prod.mk.inj (run_ret_iff.mp hsecond).2).2]
      exact hinv
    | some t =>
      rw [(Prod.mk.inj (run_ret_iff.mp hsecond).2).2]
      unfold ccLifecycleBootGuest at hfirst
      rw [if_neg hpresent] at hfirst
      obtain ⟨answer, rest, rfl, hrest⟩ := run_op_iff.mp hfirst
      change Run (if (answer : Sel4Msg).opcode != _ then pure none else _) rest (some t) at hrest
      split at hrest
      · cases (run_ret_iff.mp hrest).2
      · exact hafter (run_ret_iff.mp hrest).2.symm

/-- DESTROY takes the guest's slot with the guest. -/
theorem clearLogSlots_inv {client : VmClient} (hclient : ∃ records, ClientInv records client)
    (hshrinks : Shrinks s.client client)
    (hlive : ∀ other, s.client.Live other -> other ≠ h -> client.Live other) :
    ConsoleInv build (clearLogSlots { s with client := client } h) := by
  have hslot (i : Fin ccLogSlots)
      (hinUse : ((clearLogSlots { s with client := client } h).logSlots i).inUse = true) :
      (clearLogSlots { s with client := client } h).logSlots i = s.logSlots i /\
        (s.logSlots i).inUse = true /\ (s.logSlots i).guestHandle ≠ h := by
    unfold clearLogSlots at hinUse ⊢
    dsimp only at hinUse ⊢
    split at hinUse
    · cases hinUse
    rename_i hkept
    have hguest : i.val ≠ 0 := by
      intro hzero
      have hmem : i ∈ (finRange 8).tail := hinv.guest i hinUse
      rw [finRange_succ] at hmem
      obtain ⟨k, -, rfl⟩ := mem_map.mp hmem
      cases hzero
    rw [if_neg hkept]
    exact ⟨rfl, hinUse, fun hhandle => hkept ⟨hguest, hinUse, hhandle⟩⟩
  refine ⟨hclient, fun hpresent i hactive => ?_, fun i hinUse => ?_, fun i j hi hj hhandle => ?_,
    fun i hinUse => ?_⟩
  · have hentry : client.entries i = s.client.entries i := hshrinks.entry i hactive
    show (client.entries i).slot ≠ _
    rw [hentry]
    exact hinv.apart hpresent i (hentry ▸ hactive)
  · obtain ⟨heq, hbefore, hne⟩ := hslot i hinUse
    rw [heq]
    exact (hinv.live i hbefore).imp_left fun hold => hlive _ hold hne
  · obtain ⟨heqi, hbeforei, -⟩ := hslot i hi
    obtain ⟨heqj, hbeforej, -⟩ := hslot j hj
    rw [heqi, heqj] at hhandle
    exact hinv.once i j hbeforei hbeforej hhandle
  · exact hinv.guest i (hslot i hinUse).2.1

theorem handleLifecycle_inv {bootOpcode vmOp : UInt32} (hboot : bootOpcode ≠ msgGuestDestroy)
    (hop : vmOp ≠ vmManagerOpDestroy)
    (hrun : Run (handleLifecycle build bootOpcode vmOp s req) trace (reply, s')) :
    ConsoleInv build s' := by
  unfold handleLifecycle at hrun
  split at hrun
  · exact handleBootGuest_inv hinv (fun h => absurd h hboot) hrun
  obtain ⟨first, second, ⟨rc, state, client⟩, rfl, hfirst, hsecond⟩ := run_bind_iff.mp hrun
  obtain ⟨⟨original, hlifecycle, -⟩, -⟩ := run_lift hfirst
  obtain rfl : client = s.client :=
    (ccVmLifecycle_run hlifecycle).1.resolve_right fun hdestroy => hop hdestroy.2.1
  dsimp only at hsecond
  split at hsecond
  · rw [(Prod.mk.inj (run_ret_iff.mp hsecond).2).2]
    exact hinv
  · rw [(Prod.mk.inj (run_ret_iff.mp hsecond).2).2]
    exact hinv

theorem handleDestroyGuest_inv (horderly : Orderly s (.destroyGuest req))
    (hrun : Run (handleDestroyGuest build s req) trace (reply, s')) : ConsoleInv build s' := by
  unfold handleDestroyGuest at hrun
  split at hrun
  case isTrue hboot =>
    have hzero : req.mr0 = ccBootGuestHandle := by simpa using (Bool.and_eq_true_iff.mp hboot).2
    exact handleBootGuest_inv hinv (fun _ => horderly hzero) hrun
  obtain ⟨first, second, ⟨rc, state, client⟩, rfl, hfirst, hsecond⟩ := run_bind_iff.mp hrun
  obtain ⟨⟨original, hlifecycle, -⟩, -⟩ := run_lift hfirst
  obtain ⟨records, hclient⟩ := hinv.client
  have hshrinks := ccVmLifecycle_shrinks hlifecycle
  have hchange := (ccVmLifecycle_run hlifecycle).1
  dsimp only at hsecond
  split at hsecond
  · rw [(Prod.mk.inj (run_ret_iff.mp hsecond).2).2]
    refine clearLogSlots_inv hinv ⟨records, hclient.shrinks hshrinks⟩ hshrinks
      fun other hlive hne => ?_
    rcases hchange with rfl | ⟨-, -, rfl⟩
    · exact hlive
    · exact deactivateHandle_live hlive hne
  case isFalse hfailed =>
    obtain rfl : client = s.client := hchange.resolve_right fun hdestroy =>
      hfailed (beq_iff_eq.mpr hdestroy.1)
    rw [(Prod.mk.inj (run_ret_iff.mp hsecond).2).2]
    exact hinv

theorem serveRequest_inv {request : ConsoleRequest} (horderly : Orderly s request)
    (hkeeps : KeepsChannel build s trace)
    (hrun : Run (serveRequest build s request) trace (reply, s')) : ConsoleInv build s' := by
  cases request with
  | createGuest req => exact handleCreateGuest_inv hinv hkeeps hrun
  | suspendGuest req => exact handleLifecycle_inv hinv (by decide) (by decide) hrun
  | resumeGuest req => exact handleLifecycle_inv hinv (by decide) (by decide) hrun
  | destroyGuest req => exact handleDestroyGuest_inv hinv horderly hrun
  | logStream req => exact (handleLogStream_run hinv horderly hrun).1

end

/-- What is claimed of one request. -/
def StreamOk (build : ConsoleBuild) (r : ConsoleRecord) : Prop :=
  ∀ h, Names r.request h -> r.before.Live h ->
    StreamsOwn build r h /\ r.reply.mr0 ≠ ccErrNoSessions

theorem serveRequest_streamOk (hinv : ConsoleInv build s) {request : ConsoleRequest}
    (horderly : Orderly s request) (hrun : Run (serveRequest build s request) trace (reply, s')) :
    StreamOk build ⟨request, s, trace, reply, s'⟩ := by
  rintro h hnames hlive
  obtain ⟨req, rfl, -⟩ := id hnames
  have hshows := (handleLogStream_run hinv horderly hrun).2 h hnames hlive
  exact ⟨⟨fun _ _ _ hmem => hinv.own hlive hshows.reads hmem, hshows.bytes⟩, hshows.served⟩

end Step

section Histories

variable (build : ConsoleBuild) (records : List ConsoleRecord) (s : ConsoleState)
  (hhistory : ConsoleHistory build records s)
  (horderly : ∀ r ∈ records, Orderly r.before r.request)
  (hkeeps : ∀ r ∈ records, KeepsChannel build r.before r.trace)

include hhistory horderly hkeeps

theorem consoleHistory_inv : ConsoleInv build s /\ ∀ r ∈ records, StreamOk build r := by
  induction hhistory with
  | init => exact ⟨.init build, nofun⟩
  | request _ hrun ih =>
    obtain ⟨hearlier, hlast⟩ := forall_mem_append.mp horderly
    obtain ⟨hkeptEarlier, hkept⟩ := forall_mem_append.mp hkeeps
    obtain ⟨hinv, hrecords⟩ := ih hearlier hkeptEarlier
    have hlast := hlast _ (mem_singleton_self _)
    have hkept := hkept _ (mem_singleton_self _)
    refine ⟨serveRequest_inv hinv hlast hkept hrun, forall_mem_append.mpr ⟨hrecords, ?_⟩⟩
    rintro r hr
    obtain rfl := mem_singleton.mp hr
    exact serveRequest_streamOk hinv hlast hrun

/-- When every request is orderly and no guest gets the boot guest's channel, a stream that
names a live guest shows its console and no other, slots name live guests, and no live guest is
refused for lack of a slot. -/
theorem guest_consoles :
    SlotsLive s /\ ∀ r ∈ records, ∀ h, Names r.request h -> r.before.Live h ->
      StreamsOwn build r h /\ r.reply.mr0 ≠ ccErrNoSessions := by
  obtain ⟨hinv, hrecords⟩ := consoleHistory_inv build records s hhistory horderly hkeeps
  exact ⟨hinv.live, hrecords⟩

end Histories

/-! ## Two guests -/

/-- A build for two guests and no boot guest. -/
def dualBuild : ConsoleBuild := ⟨true, false, false, 1, fun slot => slot < 2⟩

/-- CREATE of a guest with 64 MB and a serial console. -/
def createReq (profile : UInt8) : ConsoleReq :=
  ⟨0, 0, 0, Function.update (Function.update (wr32 (wr32 (fun _ => 0) 4 64) 16 1) 0 profile) 1 1⟩

def streamReq (handle pdId : UInt32) : ConsoleReq := ⟨handle, pdId, 0, fun _ => 0⟩

def createdReply (slot : UInt32) : VmReply := ⟨0, 8, wr32 (fun _ => 0) 4 slot⟩

def okReply : VmReply := ⟨0, 4, fun _ => 0⟩

/-- INFO of a guest that runs. -/
def runningReply (vmType : UInt32) : VmReply :=
  ⟨0, 48, wr32 (wr32 (fun _ => 0) 4 vmWireSlotRunning) 8 vmType⟩

theorem clientSlots_pos : 0 < ccVmClientSlots := by decide

/-- The client after one CREATE and after two. -/
def firstClient : VmClient := issueHandle (ccVmClientInit true) ⟨0, clientSlots_pos⟩ 0 1 1

def bothClient : VmClient := issueHandle firstClient ⟨1, by decide⟩ 1 2 1

def firstState : ConsoleState := { ConsoleState.init dualBuild with client := firstClient }

def bothState : ConsoleState := { ConsoleState.init dualBuild with client := bothClient }

/-- The second guest streams through slot 1. -/
def streamedState : ConsoleState := bothState.setLogSlot ⟨1, by decide⟩ ⟨true, 2, 42⟩

def createTrace (before after : VmClient) (profile slot : UInt32) : Trace ConsoleIo :=
  [⟨.vm ⟨before, vmManagerOpCreate, createPayload profile 64 1, 12⟩, createdReply slot⟩,
    ⟨.vm ⟨after, vmManagerOpStart, requestPayload slot (fun _ => 0) 0, 4⟩, okReply⟩]

/-- INFO of the second guest, and one byte from its channel. -/
def secondTrace : Trace ConsoleIo :=
  [⟨.vm ⟨bothClient, vmManagerOpInfo, requestPayload 1 (fun _ => 0) 0, 4⟩, runningReply 1⟩,
    ⟨.serialRead 1 4096, some [66]⟩, ⟨.serialSignal, ()⟩]

def firstRecord : ConsoleRecord :=
  ⟨.createGuest (createReq 1), .init dualBuild, createTrace (ccVmClientInit true) firstClient 1 0,
    replyWith 0 1 0, firstState⟩

def secondRecord : ConsoleRecord :=
  ⟨.createGuest (createReq 2), firstState, createTrace firstClient bothClient 2 1,
    replyWith 0 2 0, bothState⟩

def streamRecord : ConsoleRecord :=
  ⟨.logStream (streamReq 2 42), bothState, secondTrace, drainedReply 1 [66], streamedState⟩

theorem streamed_history :
    ConsoleHistory dualBuild [firstRecord, secondRecord, streamRecord] streamedState := by
  have hfirst : Run (serveRequest dualBuild (.init dualBuild) (.createGuest (createReq 1)))
      (createTrace (ccVmClientInit true) firstClient 1 0) (replyWith 0 1 0, firstState) :=
    .op (.op (.ret _))
  have hsecond : Run (serveRequest dualBuild firstState (.createGuest (createReq 2)))
      (createTrace firstClient bothClient 2 1) (replyWith 0 2 0, bothState) :=
    .op (.op (.ret _))
  have hstream : Run (serveRequest dualBuild bothState (.logStream (streamReq 2 42))) secondTrace
      (drainedReply 1 [66], streamedState) :=
    .op (.op (.op (.ret _)))
  exact .request (.request (.request .init hfirst) hsecond) hstream

/-- A build whose boot guest is the primary one. -/
def primaryBuild : ConsoleBuild := ⟨true, true, false, 1, fun slot => slot < 1⟩

/-- The boot guest streams through slot 1. -/
def bootStreamed : ConsoleState :=
  (ConsoleState.init primaryBuild).setLogSlot ⟨1, by decide⟩ ⟨true, 0, 41⟩

def bootRecord : ConsoleRecord :=
  ⟨.logStream (streamReq 0 41), .init primaryBuild,
    [⟨.serialRead 0 4096, some [66]⟩, ⟨.serialSignal, ()⟩], drainedReply 1 [66], bootStreamed⟩

theorem boot_history : ConsoleHistory primaryBuild [bootRecord] bootStreamed :=
  .request .init (.op (.op (.ret _)))

theorem guest_consoles_second : (SlotsLive streamedState /\ StreamsOwn dualBuild streamRecord 2 /\
      streamRecord.reply.mr0 ≠ ccErrNoSessions) /\
    SlotsLive bootStreamed /\ StreamsOwn primaryBuild bootRecord 0 /\
      bootRecord.reply.mr0 ≠ ccErrNoSessions := by
  constructor
  · have hlive : bothState.Live 2 := .inl ⟨⟨1, by decide⟩, rfl, rfl⟩
    have horderly : ∀ r ∈ [firstRecord, secondRecord, streamRecord],
        Orderly r.before r.request := by
      intro r hr
      rcases mem_cons.mp hr with rfl | hr
      · exact trivial
      · rcases mem_pair.mp hr with rfl | rfl
        · exact trivial
        · exact fun _ _ => hlive
    have hkeeps : ∀ r ∈ [firstRecord, secondRecord, streamRecord],
        KeepsChannel dualBuild r.before r.trace := by
      intro r hr hpresent
      have habsent : r.before.bootGuestPresent = false := by
        rcases mem_cons.mp hr with rfl | hr
        · rfl
        · rcases mem_pair.mp hr with rfl | rfl <;> rfl
      cases habsent.symm.trans hpresent
    obtain ⟨hslots, hstreams⟩ := guest_consoles dualBuild _ _ streamed_history horderly hkeeps
    exact ⟨hslots, hstreams streamRecord (by simp) 2 ⟨_, rfl, rfl, .inl ⟨rfl, rfl⟩⟩ hlive⟩
  · have hlive : (ConsoleState.init primaryBuild).Live 0 := .inr ⟨rfl, rfl⟩
    obtain ⟨hslots, hstreams⟩ := guest_consoles primaryBuild _ _ boot_history
      (forall_mem_singleton.mpr fun _ _ => hlive)
      (forall_mem_singleton.mpr fun _ _ _ hmem => by simp [bootRecord] at hmem)
    exact ⟨hslots, hstreams bootRecord (by simp) 0 ⟨_, rfl, rfl, .inl ⟨rfl, rfl⟩⟩ hlive⟩

/-- Then the first guest is named by its handle, which is the number of that slot. -/
def wrongRecord : ConsoleRecord :=
  ⟨.logStream (streamReq 1 41), streamedState, secondTrace, drainedReply 1 [66], streamedState⟩

/-- Slots 1 to `n` stream handles that no guest has. -/
def staleState : Nat -> ConsoleState
  | 0 => .init primaryBuild
  | n + 1 => (staleState n).setLogSlot (Fin.ofNat 8 (n + 1)) ⟨true, UInt32.ofNat (n + 8), 41⟩

/-- The first request for the boot guest, after seven streams of handles that no guest has. -/
def refusedRecord : ConsoleRecord :=
  ⟨.logStream (streamReq 0 41), staleState 7, [], replyWith ccErrNoSessions 0 0, staleState 7⟩

theorem stale_history {n : Nat} (hn : n <= 7) :
    ∃ records, ConsoleHistory primaryBuild records (staleState n) := by
  induction n with
  | zero => exact ⟨[], .init⟩
  | succ n ih =>
    obtain ⟨records, hrecords⟩ := ih (Nat.le_of_succ_le hn)
    have hstream : Run (serveRequest primaryBuild (staleState n)
        (.logStream (streamReq (UInt32.ofNat (n + 8)) 41))) []
        (replyWith ccErrBadHandle 0 0, staleState (n + 1)) := by
      have hlt : n < 7 := hn
      interval_cases n <;> exact .ret _
    exact ⟨_, .request hrecords hstream⟩

/-- A DESTROY of the boot guest that its VMM accepts. -/
def destroyedRecord : ConsoleRecord :=
  ⟨.destroyGuest (streamReq 0 0), bootStreamed,
    [⟨.bootGuest (bootGuestMsg msgGuestDestroy 0), emptyMsg⟩], replyWith 0 0 0,
    { bootStreamed with bootGuestState := guestStateDead, bootGuestPresent := false }⟩

/-- A handle that names another guest's slot shows that guest's console.  Streams of handles
that no guest has take every slot, so that the boot guest is refused.  The boot guest's slot
stays in use after its DESTROY. -/
theorem wrong_console :
    (ConsoleHistory dualBuild [firstRecord, secondRecord, streamRecord, wrongRecord] streamedState /\
      Names wrongRecord.request 1 /\ wrongRecord.before.Live 1 /\
      OwnChannel dualBuild wrongRecord.before 2 1 /\ ¬ StreamsOwn dualBuild wrongRecord 1) /\
    (∃ records, ConsoleHistory primaryBuild (records ++ [refusedRecord]) (staleState 7) /\
      ¬ SlotsLive (staleState 7) /\ Names refusedRecord.request 0 /\ refusedRecord.before.Live 0 /\
      refusedRecord.reply.mr0 = ccErrNoSessions) /\
    ConsoleHistory primaryBuild [bootRecord, destroyedRecord] destroyedRecord.after /\
      ¬ SlotsLive destroyedRecord.after := by
  refine ⟨?_, ?_, .request boot_history (.op (.ret _)), fun hslots => ?_⟩
  · have hwrong : Run (serveRequest dualBuild streamedState (.logStream (streamReq 1 41))) secondTrace
        (drainedReply 1 [66], streamedState) :=
      .op (.op (.op (.ret _)))
    refine ⟨.request streamed_history hwrong, ⟨_, rfl, rfl, .inl ⟨rfl, rfl⟩⟩,
      .inl ⟨⟨0, by decide⟩, rfl, rfl⟩, ⟨.inl ⟨⟨1, by decide⟩, rfl, rfl, rfl⟩, ?_⟩, ?_⟩
    · rintro other (⟨j, hactive, rfl, hslot⟩ | ⟨-, ⟨⟩, -⟩)
      revert j
      decide
    · rintro ⟨hreads, -⟩
      have hother := (hreads 1 4096 (some [66]) (by simp [wrongRecord, secondTrace])).2 2
        (.inl ⟨⟨1, by decide⟩, rfl, rfl, rfl⟩)
      cases hother
  · obtain ⟨records, hrecords⟩ := stale_history (Nat.le_refl 7)
    refine ⟨records, .request hrecords (.ret _), fun hslots => ?_, ⟨_, rfl, rfl, .inl ⟨rfl, rfl⟩⟩,
      .inr ⟨rfl, rfl⟩, rfl⟩
    rcases hslots ⟨1, by decide⟩ rfl with ⟨i, hactive, -⟩ | ⟨hboot, -⟩
    · cases hactive
    · cases hboot
  · rcases hslots ⟨1, by decide⟩ rfl with ⟨i, hactive, -⟩ | ⟨-, hpresent⟩
    · cases hactive
    · cases hpresent

end AgentOs.Console
