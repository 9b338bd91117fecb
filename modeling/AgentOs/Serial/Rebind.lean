import AgentOs.Serial.Sections

/-!
# The service keeps the contract

The service knows which clients are detached and which frame each of the others has.  A detach
closes the gate and succeeds only when nobody is inside; a rebind clears the frontend channel of
a detached client and opens the gate last, with the change to the new frame.
-/

open Function (update update_idem update_self update_apply update_of_ne update_eq_self)

namespace AgentOs.Serial

open Library Threads Prog

/-- What the arrays of the service say about the clients. -/
structure ServiceKnows (service : SerialService) (s : SerialState) : Prop where
  frontend : ∀ c, service.frontend c = aosSerialChannelAt (.front c)
  retired : ∀ c, service.guestRetired c = s.detached c
  guest : ∀ c, service.guestRetired c = false ->
    service.guest c = aosSerialChannelAt (.guest c (s.frame c))
  attached : ∀ c, service.guestRetired c = true -> service.guestAttached c = false

def ServiceIdle (strict : Prop) (service : SerialService) (s : SerialState) : Prop :=
  SerialInv strict s /\ ServiceKnows service s

section Service

variable {strict : Prop} {condition : SerialThread -> SerialOp -> SerialState -> Prop}
  {service : SerialService} {s s0 s' : SerialState}

theorem ServiceKnows.congr (hknows : ServiceKnows service s) (hdetached : s'.detached = s.detached)
    (hframe : s'.frame = s.frame) : ServiceKnows service s' where
  frontend := hknows.frontend
  retired c := by rw [hdetached, hknows.retired]
  guest c hactive := by rw [hframe, hknows.guest c hactive]
  attached := hknows.attached

theorem stable_serviceIdle :
    Stable (contract strict) .service (ServiceIdle strict service) := by
  intro s s' hrely hidle
  have hkept := (others_of_rely hrely).kept
  exact ⟨stable_inv .service s s' hrely hidle.1, hidle.2.congr hkept.detached hkept.frame⟩

theorem ServiceMoves.of_same (hinside : s'.inside = s.inside) (hepoch : s'.epoch = s.epoch)
    (hframe : s'.frame = s.frame) : ServiceMoves s s' :=
  ⟨hinside, fun c => .inl ⟨by rw [hepoch], by rw [hframe]⟩⟩

theorem step_refl (hs : SerialInv strict s) : (contract strict).step .service s s :=
  ⟨.of_same rfl rfl rfl, hs⟩

/-! ## Requests that change nothing -/

def ServiceSilent : SerialOp -> Prop
  | .queue (.loadHead _) => True
  | .queue (.loadTail _) => True
  | .loadSignalled _ => True
  | .loadMeta _ _ => True
  | .loadGate _ => True
  | .deleteFrame _ => True
  | .mapFrame _ _ => True
  | _ => False

theorem exec_silent {request : SerialOp} {answer : SerialAns request}
    (hsilent : ServiceSilent request)
    (hexec : (serial.restrict condition).exec .service request s answer s') : s' = s := by
  obtain ⟨-, oracle, hperform⟩ := exec_perform hexec
  have hstate := congrArg Prod.snd hperform
  cases request with
  | queue access =>
    cases access with
    | loadHead queue => exact hstate.symm
    | loadTail queue => exact hstate.symm
    | _ => exact hsilent.elim
  | loadSignalled queue => exact hstate.symm
  | loadMeta page field => exact hstate.symm
  | loadGate page => exact hstate.symm
  | deleteFrame client => exact hstate.symm
  | mapFrame client frame => exact hstate.symm
  | _ => exact hsilent.elim

/-- A program of such requests keeps whatever the other threads keep. -/
theorem within_silent {α : Type} {A : SerialState -> Prop} {Q : α -> Prop} {program : SerialM α}
    (hprogram : Ensures anyAnswer ServiceSilent Q program)
    (hstable : Stable (contract strict) .service A)
    (hinv : ∀ s, A s -> SerialInv strict s)
    (hstep : (contract strict).step .service s0 s) (hs : A s) :
    Keeping strict condition .service
      (fun s0 value s => (contract strict).step .service s0 s /\ A s /\ Q value)
      program s0 s := by
  refine within_of_ensures hprogram hstable (fun _ _ _ _ => trivial) ?_ hstep hs
  intro request s1 answer s2 hsilent hA hexec
  obtain rfl := exec_silent hsilent hexec
  exact ⟨trivial, step_refl (hinv s2 hA), hA⟩

/-! ## Pump -/

def PumpUse (frame : UInt32 -> Nat) (epoch : UInt32 -> Nat) (c : UInt32) : SerialOp -> Prop
  | .queue access => ∃ d, OnHandle (channelHandle (.front c) d) (CellOk (epoch c)) access \/
      OnHandle (channelHandle (.guest c (frame c)) d) (CellOk (epoch c)) access
  | .loadMeta _ _ => True
  | .storeMeta _ _ _ => True
  | _ => False

def PumpAns (epoch : UInt32 -> Nat) (c : UInt32) : (request : SerialOp) -> SerialAns request -> Prop
  | .queue (.loadByte _ _), cell => CellOk (epoch c) cell
  | _, _ => True

/-- Frames and epochs do not change while the service pumps. -/
def Pumping (strict : Prop) (service : SerialService) (frame : UInt32 -> Nat)
    (epoch : UInt32 -> Nat) (s : SerialState) : Prop :=
  ServiceIdle strict service s /\ s.frame = frame /\ s.epoch = epoch

variable {epoch : UInt32 -> Nat}

theorem stable_pumping {frame : UInt32 -> Nat} :
    Stable (contract strict) .service (Pumping strict service frame epoch) := by
  intro s s' hrely hs
  have hkept := (others_of_rely hrely).kept
  exact ⟨stable_serviceIdle s s' hrely hs.1, hkept.frame.trans hs.2.1, hkept.epoch.trans hs.2.2⟩

variable {c : UInt32}

theorem pump_keep {frame : UInt32 -> Nat} {request : SerialOp} {answer : SerialAns request}
    (huse : PumpUse frame epoch c request) (hs : Pumping strict service frame epoch s)
    (hexec : (serial.restrict condition).exec .service request s answer s') :
    PumpAns epoch c request answer /\ (contract strict).step .service s s' /\
      Pumping strict service frame epoch s' := by
  obtain ⟨-, oracle, hperform⟩ := exec_perform hexec
  obtain ⟨⟨hinv, hknows⟩, rfl, rfl⟩ := hs
  cases request with
  | queue access =>
    obtain ⟨d, hon⟩ := huse
    have hanswer : (s.accessQueue .service access).1 = answer := congrArg Prod.fst hperform
    have hstate : (s.accessQueue .service access).2 = s' := congrArg Prod.snd hperform
    have hpage : access.page = .front c \/ access.page = .guest c (s.frame c) :=
      hon.imp OnHandle.page_eq OnHandle.page_eq
    have hstore : ∀ data index cell, access = .storeByte data index cell ->
        CellOk (s.epoch c) (s.put .service cell) := by
      rintro data index cell rfl
      rcases hon with hon | hon
      · exact hon.2.2
      · exact hon.2.2
    have hinv' : SerialInv strict s' := hstate ▸ hinv.accessQueue hpage hstore
    have hkept : Kept s s' := hstate ▸ kept_accessQueue
    have hinside : s'.inside = s.inside := by rw [<- hstate, accessQueue_eq]
    refine ⟨?_, ⟨.of_same hinside hkept.epoch hkept.frame, hinv'⟩,
      ⟨hinv', hknows.congr hkept.detached hkept.frame⟩, hkept.frame, hkept.epoch⟩
    cases access with
    | loadByte data index =>
      rw [<- hanswer]
      rcases hon with ⟨rfl, hindex⟩ | ⟨rfl, hindex⟩
      · exact hinv.front c d index hindex
      · exact hinv.guest c d index hindex
    | _ => trivial
  | loadMeta page field =>
    obtain ⟨-, rfl⟩ := Prod.mk.inj hperform
    exact ⟨trivial, step_refl hinv, ⟨hinv, hknows⟩, rfl, rfl⟩
  | storeMeta page field value =>
    obtain ⟨-, rfl⟩ := Prod.mk.inj hperform
    exact ⟨trivial, ⟨.of_same rfl rfl rfl, hinv.setWord _⟩,
      ⟨hinv.setWord _, hknows.congr rfl rfl⟩, rfl, rfl⟩
  | _ => exact huse.elim

theorem loadsOk_of_pumpAns {access : QueueOp Ptr Cell} {answer : QueueAns access}
    (hanswer : PumpAns epoch c (.queue access) answer) :
    LoadsOk (CellOk (epoch c)) access answer := by
  cases access with
  | loadByte data index => exact hanswer
  | _ => trivial

variable {d : Direction} {budget : UInt32}

theorem ensures_pumpTransfer {frame : UInt32 -> Nat} {source destination : Page}
    (hpages : (source = .front c \/ source = .guest c (frame c)) /\
      (destination = .front c \/ destination = .guest c (frame c))) :
    Ensures (PumpAns epoch c) (PumpUse frame epoch c) (fun _ => True)
      (onQueue (aosSerialVirtTransfer (some (channelHandle source d).toHandle)
        (some (channelHandle destination d).toHandle) budget true)) := by
  refine ensures_transfer.lift (fun access hon => ⟨d, ?_⟩)
    (fun _ _ hanswer => loadsOk_of_pumpAns hanswer)
  obtain ⟨hsource, hdestination⟩ := hpages
  rcases hon with hon | hon
  · rcases hsource with rfl | rfl
    · exact .inl hon
    · exact .inr hon
  · rcases hdestination with rfl | rfl
    · exact .inl hon
    · exact .inr hon

theorem ensures_pumpClient {frame : UInt32 -> Nat} {result : SerialPumpResult}
    (hchannels : service.guestAttached c = true ->
      service.guest c = aosSerialChannelAt (.guest c (frame c)))
    (hfront : service.frontend c = aosSerialChannelAt (.front c)) :
    Ensures (PumpAns epoch c) (PumpUse frame epoch c) (fun _ => True)
      (pumpClient service budget c result) := by
  unfold pumpClient
  split
  · trivial
  rename_i hattached
  rw [Bool.or_eq_true, not_or, Bool.not_eq_true', Bool.not_eq_false] at hattached
  rw [hchannels hattached.1, hfront]
  refine ensures_perform_bind.mpr ⟨trivial, fun state _ => ?_⟩
  refine ensures_perform_bind.mpr ⟨trivial, fun _ _ => ?_⟩
  refine ensures_perform_bind.mpr ⟨trivial, fun _ _ => ?_⟩
  refine Ensures.bind (ensures_pumpTransfer (d := .fromGuest) ⟨.inr rfl, .inl rfl⟩) fun out _ => ?_
  exact Ensures.bind (ensures_pumpTransfer (d := .toGuest)
    ⟨.inl rfl, .inr rfl⟩) fun inp _ => trivial

theorem within_pumpClients {clients : List UInt32} {result : SerialPumpResult}
    {frame : UInt32 -> Nat} (hstep : (contract strict).step .service s0 s)
    (hs : Pumping strict service frame epoch s) :
    Keeping strict condition .service
      (fun s0 _ s => (contract strict).step .service s0 s /\
        Pumping strict service frame epoch s)
      (pumpClients service budget clients result) s0 s := by
  induction clients generalizing result s0 s with
  | nil => exact ⟨hstep, hs⟩
  | cons c rest ih =>
    have hknows := hs.1.2
    have hchannels : service.guestAttached c = true ->
        service.guest c = aosSerialChannelAt (.guest c (frame c)) := by
      intro hattached
      rw [<- hs.2.1]
      refine hknows.guest c ?_
      rw [<- Bool.not_eq_true]
      intro hretired
      cases (hknows.attached c hretired).symm.trans hattached
    refine within_bind ((within_of_ensures
      (ensures_pumpClient hchannels (hknows.frontend c)) stable_pumping
      (fun _ _ _ _ => trivial) (fun _ _ _ _ huse hs hexec => pump_keep huse hs hexec)
      hstep hs).mono ?_)
    rintro s1 result s2 ⟨hstep, hs, -⟩
    exact ih hstep hs

/-! ## Detach -/

variable {badge : UInt64} {length : UInt32}

theorem detachClient_ok {request : Option SerialAttachReq}
    (hok : detachClient badge request length = .ok c) :
    ∃ r, request = some r /\ r.client = c := by
  cases request with
  | none => cases hok
  | some r =>
    simp only [detachClient] at hok
    split at hok
    · cases hok
    split at hok
    · cases hok
    split at hok
    · cases hok
    · exact ⟨r, rfl, Except.ok.inj hok⟩

/-- The closed bit is set, whatever the gate was. -/
theorem SerialInv.close (hs : SerialInv strict s) (c : UInt32) :
    SerialInv strict (s.setGate (.front c) (s.gate (.front c) ||| aosSerialFrontendClosed)) /\
      (s.gate (.front c) &&& aosSerialFrontendBusy = 0 ->
        s.gate (.front c) ||| aosSerialFrontendClosed = 1) := by
  have hother {c' : UInt32} (hc : c' ≠ c) :
      (s.setGate (.front c) (s.gate (.front c) ||| aosSerialFrontendClosed)).gate (.front c') =
        s.gate (.front c') := update_of_ne (fun hsame => hc (Page.front.inj hsame)) _ _
  have hown : (s.setGate (.front c) (s.gate (.front c) ||| aosSerialFrontendClosed)).gate
      (.front c) = s.gate (.front c) ||| aosSerialFrontendClosed := update_self ..
  refine ⟨⟨forall_client c ?_ fun c' hc => (hs.gate c').congr (hother hc) rfl,
    forall_client c (fun hdetached => ?_) fun c' hc hdetached =>
      (hother hc).trans (hs.detached c' hdetached), hs.resetting, hs.front, hs.guest,
    hs.blank_of_mem rfl, hs.frame_lt, hs.returned, hs.uart⟩, fun hidle => ?_⟩
  · unfold GateOk
    rw [hown]
    rcases hs.gate c with ⟨hfree, hnone⟩ | ⟨hbusy, hone⟩
    · refine .inl ⟨.inr ?_, hnone⟩
      rcases hfree with hfree | hfree <;> rw [hfree] <;> decide
    · refine .inr ⟨.inr ?_, hone⟩
      rcases hbusy with hbusy | hbusy <;> rw [hbusy] <;> decide
  · rw [hown, hs.detached c hdetached]
    decide
  · rcases hs.gate c with ⟨hfree, -⟩ | ⟨hbusy, -⟩
    · rcases hfree with hfree | hfree <;> rw [hfree] <;> decide
    · rcases hbusy with hbusy | hbusy <;> rw [hbusy] at hidle <;> cases hidle

theorem flag_of_update {flags : UInt32 -> Bool} {value other : Bool} {c' : UInt32}
    (hne : value ≠ other) (hflag : update flags c value c' = other) :
    c' ≠ c /\ flags c' = other := by
  rw [update_apply] at hflag
  split at hflag
  · exact absurd hflag hne
  · exact ⟨‹_›, hflag⟩

theorem detach_noted (hs : ServiceIdle strict service s) (hshut : s.gate (.front c) = 1) :
    SerialInv strict (s.noteDetached c) /\ ServiceKnows (service.retire c) (s.noteDetached c) := by
  obtain ⟨hinv, hknows⟩ := hs
  constructor
  · refine ⟨hinv.gate, forall_client c (fun _ => hshut) fun c' hc hdetached => ?_,
      forall_client c (fun _ => update_self ..) fun c' hc hresetting => ?_, hinv.front, hinv.guest,
      hinv.blank_of_mem rfl, hinv.frame_lt, hinv.returned, hinv.uart⟩
    · exact hinv.detached c' ((update_of_ne hc ..).symm.trans hdetached)
    · exact (update_of_ne hc ..).trans (hinv.resetting c' hresetting)
  · refine ⟨hknows.frontend, fun c' => ?_, fun c' hactive => ?_,
      forall_client c (fun _ => update_self ..) fun c' hc hretired => ?_⟩
    · show update service.guestRetired c true c' = update s.detached c true c'
      rw [update_apply, update_apply, hknows.retired]
    · obtain ⟨hc, hold⟩ := flag_of_update (by decide) hactive
      exact (update_of_ne hc ..).trans (hknows.guest c' hold)
    · have hold := (update_of_ne hc ..).symm.trans hretired
      exact (update_of_ne hc ..).trans (hknows.attached c' hold)

/-- What a call of the service leaves, after its result is noted. -/
def ServiceReturns (strict : Prop) (s0 : SerialState) (service : SerialService)
    (s : SerialState) : Prop :=
  (contract strict).step .service s0 s /\ ServiceIdle strict service s

/-- The gate is closed for good when the service finds nobody inside. -/
theorem within_closeChannel (hs : ServiceIdle strict service s) :
    Keeping strict condition .service
      (fun s0 result s => ServiceReturns strict s0 result.2
        (if result.1 = .ok then s.noteDetached c else s))
      (closeChannel service c (.front c)) s s := by
  refine within_op (step_refl hs.1) stable_serviceIdle hs (fun _ _ => trivial) ?_
  intro s1 gate s2 hs1 hexec
  obtain ⟨-, oracle, ⟨⟩⟩ := exec_perform hexec
  obtain ⟨hinv2, hshut⟩ := hs1.1.close c
  have hidle2 : ServiceIdle strict service
      (s1.setGate (.front c) (s1.gate (.front c) ||| aosSerialFrontendClosed)) :=
    ⟨hinv2, hs1.2.congr rfl rfl⟩
  have hmoves2 : ServiceMoves s1
      (s1.setGate (.front c) (s1.gate (.front c) ||| aosSerialFrontendClosed)) :=
    .of_same rfl rfl rfl
  have hclosed (hfree : ¬s1.gate (.front c) &&& aosSerialFrontendBusy ≠ 0) :
      (s1.setGate (.front c) (s1.gate (.front c) ||| aosSerialFrontendClosed)).gate
        (.front c) = 1 :=
    (update_self ..).trans (hshut (not_not.mp hfree))
  show Within _ _ _ _ (if s1.gate (.front c) &&& aosSerialFrontendBusy ≠ 0 then _ else _) s1 _
  split
  · exact ⟨⟨hmoves2, hinv2⟩, hidle2⟩
  rename_i hfree
  split
  · have hstable : Stable (contract strict) .service
        (fun s => ServiceIdle strict service s /\ s.gate (.front c) = 1) := by
      intro s s' hrely hs
      exact ⟨stable_serviceIdle s s' hrely hs.1, (others_of_rely hrely).shut c hs.2⟩
    refine within_op ⟨hmoves2, hinv2⟩ hstable ⟨hidle2, hclosed hfree⟩ (fun _ _ => trivial) ?_
    intro s3 answer s4 hs3 hexec
    obtain ⟨-, oracle, ⟨⟩⟩ := exec_perform hexec
    have hidle4 : ServiceIdle strict service { s3 with
        word := update s3.word (.front c) (update (s3.word (.front c)) .attached 0) } :=
      ⟨hs3.1.1.setWord _, hs3.1.2.congr rfl rfl⟩
    obtain ⟨hinv, hknows⟩ := detach_noted (c := c) hidle4 hs3.2
    exact ⟨⟨.of_same rfl rfl rfl, hinv⟩, hinv, hknows⟩
  · obtain ⟨hinv, hknows⟩ := detach_noted hidle2 (hclosed hfree)
    exact ⟨⟨.of_same rfl rfl rfl, hinv⟩, hinv, hknows⟩

/-! ## Rebind -/

variable {request : SerialRebindReq}

theorem ensures_validate : Ensures anyAnswer ServiceSilent
      (fun status => status = .ok -> service.guestRetired request.client = true)
      (aosSerialVirtRebindValidate service badge request length) := by
  have herr {status : SerialStatus} (hne : status ≠ .ok) :
      Ensures anyAnswer ServiceSilent
        (fun status => status = .ok -> service.guestRetired request.client = true)
        (.ret status : SerialM SerialStatus) := fun hok => absurd hok hne
  unfold aosSerialVirtRebindValidate
  split
  · exact herr (by decide)
  split
  · exact herr (by decide)
  split
  · exact herr (by decide)
  split
  · exact herr (by decide)
  split
  · exact herr (by decide)
  rename_i hretired
  have hretired : service.guestRetired request.client = true := by
    rw [Bool.or_eq_true, not_or, Bool.not_eq_true', Bool.not_eq_false] at hretired
    exact hretired.1
  split
  case h_1 => exact herr (by decide)
  case h_2 page _ =>
    refine ensures_perform_bind.mpr ⟨trivial, fun gate _ => ?_⟩
    split
    · exact herr (by decide)
    · exact fun _ => hretired

variable {fresh : Channel}

theorem ensures_freshMeta {front : Channel} :
    Ensures anyAnswer ServiceSilent (fun _ => True) (freshMeta fresh front) := by
  unfold freshMeta
  split
  case h_1 => trivial
  case h_2 page _ =>
    split
    · trivial
    refine ensures_perform_bind.mpr ⟨trivial, fun guestState _ => ?_⟩
    split
    · trivial
    refine ensures_perform_bind.mpr ⟨trivial, fun attached _ => ?_⟩
    split
    · trivial
    · exact ⟨trivial, fun _ _ => trivial⟩

theorem ensures_emptyQueue {handle : QueueHandle Ptr} {capacity : UInt32} :
    Ensures anyAnswer ServiceSilent (fun _ => True) (emptyQueue handle capacity) := by
  unfold emptyQueue
  split
  case h_1 queue _ _ _ =>
    split
    · trivial
    refine ⟨trivial, fun head _ => ?_⟩
    show Ensures _ _ _ (if head ≠ 0 then _ else _)
    split
    · trivial
    refine ⟨trivial, fun tail _ => ?_⟩
    show Ensures _ _ _ (if tail ≠ 0 then _ else _)
    split
    · trivial
    · exact ⟨trivial, fun _ _ => trivial⟩
  case h_2 => trivial

/-- The frontend channel of a client, as the reset finds it. -/
def frontPointers (c : UInt32) : FrontPointers :=
  ⟨(.front c, .toGuest), (.front c, .toGuest), (.front c, .fromGuest), (.front c, .fromGuest)⟩

theorem resettable_front {pointers : FrontPointers}
    (haccepted : resettable fresh (aosSerialChannelAt (.front c)) = some pointers) :
    pointers = frontPointers c := by
  unfold resettable at haccepted
  split at haccepted
  · cases haccepted
  · exact (Option.some.inj haccepted).symm

theorem ensures_freshAccepted : Ensures anyAnswer ServiceSilent
      (fun accepted => ∀ pointers, accepted = some pointers -> pointers = frontPointers c)
      (freshAccepted fresh (aosSerialChannelAt (.front c))) := by
  have hnone : Ensures anyAnswer ServiceSilent
      (fun accepted => ∀ pointers, accepted = some pointers -> pointers = frontPointers c)
      (.ret none : SerialM (Option FrontPointers)) := by
    rintro pointers ⟨⟩
  refine Ensures.bind ensures_freshMeta fun cleanMeta _ => ?_
  split
  · exact hnone
  refine Ensures.bind ensures_emptyQueue fun emptyTo _ => ?_
  split
  · exact hnone
  refine Ensures.bind ensures_emptyQueue fun emptyFrom _ => ?_
  split
  · exact hnone
  · exact fun pointers haccepted => resettable_front haccepted

/-- A frame that was retyped and that nobody has yet. -/
structure FreshFrame (c : UInt32) (frame : Nat) (s : SerialState) : Prop where
  blank : Blank (.guest c frame) s
  newer : s.frame c < frame
  made : frame < s.frames c

/-- The reset has come this far: which bytes are cleared, and which queues. -/
structure ResetTo (strict : Prop) (service : SerialService) (c : UInt32) (frame : Nat)
    (bytes : Direction -> Nat) (queues : Direction -> Bool) (s : SerialState) : Prop where
  idle : ServiceIdle strict service s
  detached : s.detached c = true
  fresh : FreshFrame c frame s
  cleared : ∀ (d : Direction) (index : UInt32), index.toNat < bytes d ->
    s.mem.data (.front c, d) index = Cell.zero
  zeroed : ∀ d, queues d = true -> s.mem.head (.front c, d) = 0 /\ s.mem.tail (.front c, d) = 0

variable {frame : Nat}

theorem stable_freshFrame : Stable (contract strict) .service (FreshFrame c frame) := by
  intro s s' hrely hs
  have hothers := others_of_rely hrely
  have hguest := hothers.guest c frame (Nat.ne_of_gt hs.newer)
  refine ⟨hguest.blank hs.blank, ?_, ?_⟩
  · rw [hothers.kept.frame]
    exact hs.newer
  · rw [hothers.kept.frames]
    exact hs.made

variable {bytes : Direction -> Nat} {queues : Direction -> Bool}

theorem stable_resetTo :
    Stable (contract strict) .service (ResetTo strict service c frame bytes queues) := by
  intro s s' hrely hs
  have hothers := others_of_rely hrely
  have hfront := hothers.front c (hs.idle.1.outside hs.detached)
  refine ⟨stable_serviceIdle s s' hrely hs.idle, ?_, stable_freshFrame s s' hrely hs.fresh, ?_, ?_⟩
  · rw [hothers.kept.detached]
    exact hs.detached
  · intro d index hindex
    rw [hfront.data]
    exact hs.cleared d index hindex
  · intro d hd
    rw [hfront.head, hfront.tail]
    exact hs.zeroed d hd

/-- The state after a change to the frontend channel during the reset. -/
def resetState (s : SerialState) (c : UInt32) (mem : QueueMem Ptr Cell)
    (signalled : Ptr -> UInt32) : SerialState :=
  { s with
    mem := mem
    signalled := signalled
    resetting := update s.resetting c true }

theorem ResetTo.change {bytes' : Direction -> Nat} {queues' : Direction -> Bool}
    (hs : ResetTo strict service c frame bytes queues s) {mem : QueueMem Ptr Cell}
    (signalled : Ptr -> UInt32)
    (hpages : ∀ page, page ≠ .front c -> SamePage page s (resetState s c mem signalled))
    (hcells : CellsOk (.front c) (s.epoch c) (resetState s c mem signalled))
    (hcleared : ∀ (d : Direction) (index : UInt32), index.toNat < bytes' d ->
      mem.data (.front c, d) index = Cell.zero) (hzeroed : ∀ d, queues' d = true ->
      mem.head (.front c, d) = 0 /\ mem.tail (.front c, d) = 0) :
    (contract strict).step .service s (resetState s c mem signalled) /\
      ResetTo strict service c frame bytes' queues' (resetState s c mem signalled) := by
  obtain ⟨hinv, hknows⟩ := hs.idle
  have hguest (c' : UInt32) (f : Nat) : SamePage (.guest c' f) s (resetState s c mem signalled) :=
    hpages _ fun hsame => nomatch hsame
  have hinv' : SerialInv strict (resetState s c mem signalled) := by
    refine ⟨hinv.gate, hinv.detached, forall_client c (fun _ => hs.detached) fun c' hc hold => ?_,
      forall_client c hcells fun c' hc => ?_, fun c' => (hguest c' _).cellsOk (hinv.guest c'),
      fun c' f hf => (hguest c' f).blank (hinv.blank c' f hf), hinv.frame_lt, hinv.returned,
      hinv.uart⟩
    · exact hinv.resetting c' ((update_of_ne hc ..).symm.trans hold)
    · exact (hpages _ fun hsame => hc (Page.front.inj hsame)).cellsOk (hinv.front c')
  refine ⟨⟨.of_same rfl rfl rfl, hinv'⟩, ⟨hinv', hknows.congr rfl rfl⟩, hs.detached,
    ⟨(hguest c frame).blank hs.fresh.blank, hs.fresh.newer, hs.fresh.made⟩, hcleared, hzeroed⟩

variable {answer : Unit}

theorem exec_clearByte {index : UInt32} (hs : ResetTo strict service c frame bytes queues s)
    (hindex : index.toNat = bytes d)
    (hexec : (serial.restrict condition).exec .service (.clearByte (.front c, d) index) s answer
      s') :
    (contract strict).step .service s s' /\
      ResetTo strict service c frame (update bytes d (bytes d + 1)) queues s' := by
  obtain ⟨-, oracle, ⟨⟩⟩ := exec_perform hexec
  have hbyte (d' : Direction) (k : UInt32) :
      (QueueMem.access (.storeByte (.front c, d) index Cell.zero) s.mem).2.data (.front c, d') k =
        if d' = d /\ k = index then Cell.zero else s.mem.data (.front c, d') k := by
    show update s.mem.data (.front c, d)
      (update (s.mem.data (.front c, d)) index Cell.zero) (.front c, d') k = _
    by_cases hd : d' = d
    · subst hd
      rw [update_self]
      by_cases hk : k = index
      · subst hk
        rw [update_self, if_pos ⟨rfl, rfl⟩]
      · rw [update_of_ne hk, if_neg fun h => hk h.2]
    · rw [update_of_ne fun h => hd (Prod.mk.inj h).2, if_neg fun h => hd h.1]
  refine hs.change s.signalled (fun page hpage => ?_) (fun d' k hk => ?_) (fun d' k hk => ?_)
    hs.zeroed
  · refine ⟨fun _ => rfl, fun _ => rfl, fun d' => ?_⟩
    exact update_of_ne (fun h => hpage (Prod.mk.inj h).1) _ _
  · show CellOk (s.epoch c) ((QueueMem.access _ s.mem).2.data (.front c, d') k)
    rw [hbyte]
    split
    · exact cellOk_zero _
    · exact hs.idle.1.front c d' k hk
  · rw [hbyte]
    split
    · rfl
    rename_i hne
    refine hs.cleared d' k ?_
    by_cases hd : d' = d
    · subst hd
      rw [update_self] at hk
      have hk' : k.toNat ≠ index.toNat := fun h => hne ⟨rfl, UInt32.toNat_inj.mp h⟩
      omega
    · rw [update_of_ne hd] at hk
      exact hk

theorem within_clearBytes {n : Nat} {i : UInt32}
    (hstep : (contract strict).step .service s0 s)
    (hs : ResetTo strict service c frame bytes queues s) (hi : i.toNat = bytes d)
    (hn : i.toNat + n < 2 ^ 32) :
    Keeping strict condition .service
      (fun s0 _ s => (contract strict).step .service s0 s /\
        ResetTo strict service c frame (update bytes d (bytes d + n)) queues s)
      (clearBytes (.front c, d) i n) s0 s := by
  induction n generalizing bytes i s0 s with
  | zero =>
    refine ⟨hstep, ?_⟩
    rw [Nat.add_zero, update_eq_self]
    exact hs
  | succ n ih =>
    refine within_op hstep stable_resetTo hs (fun _ _ => trivial) ?_
    intro s1 answer s2 hs1 hexec
    obtain ⟨hstep, hs2⟩ := exec_clearByte hs1 hi hexec
    have hnext : (i + 1).toNat = i.toNat + 1 := by
      rw [UInt32.toNat_add]
      exact Nat.mod_eq_of_lt (by have : (1 : UInt32).toNat = 1 := rfl; omega)
    have hrest := ih hstep hs2 (i := i + 1) (by rw [update_self, hnext, hi]) (by rw [hnext]; omega)
    rw [update_self, update_idem, Nat.add_assoc, Nat.add_comm 1 n] at hrest
    exact hrest

theorem exec_clearQueue (hs : ResetTo strict service c frame bytes queues s)
    (hexec : (serial.restrict condition).exec .service (.clearQueue (.front c, d)) s answer s') :
    (contract strict).step .service s s' /\
      ResetTo strict service c frame bytes (update queues d true) s' := by
  obtain ⟨-, oracle, ⟨⟩⟩ := exec_perform hexec
  refine hs.change (update s.signalled (.front c, d) 0) (fun page hpage => ?_)
    (hs.idle.1.front c) hs.cleared (fun d' hd' => ?_)
  · have hne (d' : Direction) : (page, d') ≠ (Page.front c, d) := fun h => hpage (Prod.mk.inj h).1
    exact ⟨fun d' => update_of_ne (hne d') _ _, fun d' => update_of_ne (hne d') _ _, fun _ => rfl⟩
  · show update s.mem.head (.front c, d) 0 (.front c, d') = 0 /\
      update s.mem.tail (.front c, d) 0 (.front c, d') = 0
    by_cases hd : d' = d
    · subst hd
      exact ⟨update_self .., update_self ..⟩
    · rw [update_of_ne hd] at hd'
      have hne : (Page.front c, d') ≠ (Page.front c, d) := fun h => hd (Prod.mk.inj h).2
      rw [update_of_ne hne, update_of_ne hne]
      exact hs.zeroed d' hd'

theorem exec_storeMeta {page : Page} {field : MetaField} {value : UInt32}
    (hs : ResetTo strict service c frame bytes queues s)
    (hexec : (serial.restrict condition).exec .service (.storeMeta page field value) s answer s') :
    (contract strict).step .service s s' /\
      ResetTo strict service c frame bytes queues s' := by
  obtain ⟨-, oracle, ⟨⟩⟩ := exec_perform hexec
  refine ⟨⟨.of_same rfl rfl rfl, hs.idle.1.setWord _⟩,
    ⟨hs.idle.1.setWord _, hs.idle.2.congr rfl rfl⟩, hs.detached, ⟨?_, hs.fresh.newer,
      hs.fresh.made⟩, hs.cleared, hs.zeroed⟩
  exact SamePage.blank (s := s) (.of_mem rfl) hs.fresh.blank

/-- The whole frontend channel is cleared. -/
abbrev ResetAll (strict : Prop) (service : SerialService) (c : UInt32) (frame : Nat) :
    SerialState -> Prop :=
  ResetTo strict service c frame (fun d => d.capacity.toNat) (fun _ => true)

/-- A client's latches are empty when its gate is opened, if the condition asks for it. -/
def OpensQuietly (strict : Prop) (condition : SerialThread -> SerialOp -> SerialState -> Prop) :
    Prop :=
  strict -> ∀ c s, condition .service (.storeGate (.front c) 0) s ->
    ∀ i, (s.uart c i).txPending = false /\ (s.uart c i).rxPending = false

/-- Opening the gate and noting the rebind, in one step. -/
theorem exec_reopen (hquiet : OpensQuietly strict condition)
    (hs : ResetAll strict service c frame s)
    (hexec : (serial.restrict condition).exec .service (.storeGate (.front c) 0) s answer s') :
    (contract strict).step .service s (s'.noteRebound c frame) := by
  have hcondition := hexec.1
  obtain ⟨-, oracle, ⟨⟩⟩ := exec_perform hexec
  obtain ⟨hinv, hknows⟩ := hs.idle
  have hgate {c' : UInt32} (hc : c' ≠ c) :
      ((s.setGate (.front c) 0).noteRebound c frame).gate (.front c') = s.gate (.front c') :=
    update_of_ne (fun h => hc (Page.front.inj h)) _ _
  have hepoch {c' : UInt32} (hc : c' ≠ c) :
      ((s.setGate (.front c) 0).noteRebound c frame).epoch c' = s.epoch c' := update_of_ne hc ..
  have hframe {c' : UInt32} (hc : c' ≠ c) :
      ((s.setGate (.front c) 0).noteRebound c frame).frame c' = s.frame c' := update_of_ne hc ..
  have hown : ((s.setGate (.front c) 0).noteRebound c frame).frame c = frame := update_self ..
  have hreset : ResetDone c ((s.setGate (.front c) 0).noteRebound c frame) := by
    refine ⟨update_self .., fun d => (hs.zeroed d rfl).1, fun d => (hs.zeroed d rfl).2,
      fun d index hindex => hs.cleared d index (UInt32.lt_iff_toNat_lt.mp hindex), ?_, ?_⟩
    · rw [hown]
      exact hs.fresh.blank.head
    · rw [hown]
      exact hs.fresh.blank.tail
  refine ⟨⟨rfl, forall_client c (.inr ⟨hs.detached, hown.symm ▸ hs.fresh.newer, hreset⟩)
      fun c' hc => .inl ⟨hepoch hc, hframe hc⟩⟩,
    forall_client c (.inl ⟨.inl hreset.opened, hinv.outside hs.detached⟩)
      fun c' hc => (hinv.gate c').congr (hgate hc) rfl,
    fun c' hdetached => ?_, fun c' hresetting => ?_, forall_client c ?_ fun c' hc => ?_,
    forall_client c ?_ fun c' hc => ?_, hinv.blank_of_mem rfl,
    forall_client c (hown.symm ▸ hs.fresh.made) fun c' hc => hframe hc ▸ hinv.frame_lt c',
    hinv.returned, fun hstrict => forall_client c (fun i => ?_) fun c' hc => ?_⟩
  · obtain ⟨hc, hold⟩ := flag_of_update (by decide) hdetached
    exact (hgate hc).trans (hinv.detached c' hold)
  · obtain ⟨hc, hold⟩ := flag_of_update (by decide) hresetting
    exact (update_of_ne hc ..).trans (hinv.resetting c' hold)
  · intro d index hindex
    rw [hreset.frontData d index hindex]
    exact cellOk_zero _
  · rw [hepoch hc]
    exact hinv.front c'
  · rw [hown]
    exact hs.fresh.blank.cellsOk _
  · rw [hepoch hc, hframe hc]
    exact hinv.guest c'
  · obtain ⟨htx, hrx⟩ := hquiet hstrict c s hcondition i
    exact ⟨fun h => absurd (htx.symm.trans h) Bool.false_ne_true,
      fun h => absurd (hrx.symm.trans h) Bool.false_ne_true⟩
  · rw [hepoch hc]
    exact hinv.uart hstrict c'

/-- The service's arrays after a rebind describe the client's new frame. -/
theorem ServiceKnows.rebind (hknows : ServiceKnows service s) (request : SerialRebindReq)
    (frame : Nat) :
    ServiceKnows (service.rebind request (aosSerialChannelAt (.guest request.client frame)))
      (s.noteRebound request.client frame) := by
  refine ⟨hknows.frontend, fun c => ?_, forall_client request.client (fun _ => ?_)
    fun c hc hactive => ?_, fun c hretired => ?_⟩
  · show update service.guestRetired request.client false c =
      update s.detached request.client false c
    rw [update_apply, update_apply, hknows.retired]
  · show update service.guest request.client _ _ =
      aosSerialChannelAt (.guest _ (update s.frame request.client frame _))
    rw [update_self, update_self]
  · have hold := (update_of_ne hc ..).symm.trans hactive
    show update service.guest request.client _ c =
      aosSerialChannelAt (.guest c (update s.frame request.client frame c))
    rw [update_of_ne hc, update_of_ne hc]
    exact hknows.guest c hold
  · obtain ⟨hc, hold⟩ := flag_of_update (by decide) hretired
    exact (update_of_ne hc ..).trans (hknows.attached c hold)

theorem within_resetChannel (hquiet : OpensQuietly strict condition)
    (hstep : (contract strict).step .service s0 s)
    (hs : ResetTo strict service c frame (fun _ => 0) (fun _ => false) s) :
    Keeping strict condition .service
      (fun s0 _ s => (contract strict).step .service s0 (s.noteRebound c frame) /\
        ServiceKnows service s)
      (resetChannel (.front c) (frontPointers c)) s0 s := by
  refine within_bind ((within_clearBytes hstep hs rfl (by decide)).mono ?_)
  rintro s0 - s ⟨hstep, hs⟩
  refine within_bind ((within_clearBytes hstep hs rfl (by decide)).mono ?_)
  rintro s0 - s ⟨hstep, hs⟩
  have hbytes : update (update (fun _ : Direction => 0) .toGuest
      (0 + aosSerialRxCapacity.toNat)) .fromGuest (update (fun _ : Direction => 0)
        .toGuest (0 + aosSerialRxCapacity.toNat) .fromGuest + aosSerialTxCapacity.toNat) =
      fun d => d.capacity.toNat := by
    funext d
    cases d with
    | toGuest => rfl
    | fromGuest => rfl
  have hs : ResetTo strict service c frame (fun d => d.capacity.toNat) (fun _ => false) s := by
    rw [<- hbytes]
    exact hs
  refine within_op hstep stable_resetTo hs (fun _ _ => trivial) ?_
  intro s1 answer s2 hs1 hexec
  obtain ⟨hstep, hs2⟩ := exec_clearQueue hs1 hexec
  refine within_op hstep stable_resetTo hs2 (fun _ _ => trivial) ?_
  intro s3 answer s4 hs3 hexec
  obtain ⟨hstep, hs4⟩ := exec_clearQueue hs3 hexec
  have hqueues : update (update (fun _ : Direction => false) .toGuest true)
      .fromGuest true = fun _ => true := by
    funext d
    cases d with
    | toGuest => rfl
    | fromGuest => rfl
  rw [hqueues] at hs4
  refine within_op hstep stable_resetTo hs4 (fun _ _ => trivial) ?_
  intro s5 answer s6 hs5 hexec
  obtain ⟨hstep, hs6⟩ := exec_storeMeta hs5 hexec
  refine within_op hstep stable_resetTo hs6 (fun _ _ => trivial) ?_
  intro s7 answer s8 hs7 hexec
  obtain ⟨hstep, hs8⟩ := exec_storeMeta hs7 hexec
  refine within_op hstep stable_resetTo hs8 (fun _ _ => trivial) ?_
  intro s9 answer s10 hs9 hexec
  refine ⟨exec_reopen hquiet hs9 hexec, ?_⟩
  obtain ⟨-, oracle, ⟨⟩⟩ := exec_perform hexec
  exact hs9.idle.2.congr rfl rfl

theorem within_commit (hquiet : OpensQuietly strict condition)
    (hstep : (contract strict).step .service s0 s)
    (hs : ServiceIdle strict service s /\ FreshFrame request.client frame s) :
    Keeping strict condition .service
      (fun s0 result s => result.1 = .ok /\
          ServiceReturns strict s0 result.2 (s.noteRebound request.client frame) \/
        result.1 ≠ .ok /\ ServiceReturns strict s0 result.2 s)
      (aosSerialVirtRebindCommit service badge request length
        (aosSerialChannelAt (.guest request.client frame))) s0 s := by
  have hstable : Stable (contract strict) .service
      (fun s => ServiceIdle strict service s /\ FreshFrame request.client frame s) :=
    stable_serviceIdle.and stable_freshFrame
  refine within_bind ((within_silent ensures_validate hstable (fun _ h => h.1.1) hstep hs).mono ?_)
  rintro s0 status s ⟨hstep, hs, hretired⟩
  split
  case isTrue hne => exact .inr ⟨hne, hstep, hs.1⟩
  rename_i hok
  rw [hs.1.2.frontend]
  refine within_bind ((within_silent ensures_freshAccepted hstable (fun _ h => h.1.1) hstep
    hs).mono ?_)
  rintro s1 accepted s2 ⟨hstep, hs2, hpointers⟩
  cases accepted with
  | none => exact .inr ⟨(nomatch ·), hstep, hs2.1⟩
  | some pointers =>
    obtain rfl := hpointers pointers rfl
    have hdetached : s2.detached request.client = true :=
      (hs2.1.2.retired request.client).symm.trans (hretired (not_not.mp hok))
    refine within_bind ((within_resetChannel hquiet hstep ⟨hs2.1, hdetached, hs2.2,
      fun d index hindex => absurd hindex (Nat.not_lt_zero _),
      fun d hd => absurd hd Bool.false_ne_true⟩).mono ?_)
    rintro s3 - s4 ⟨hstep, hknows⟩
    exact .inl ⟨rfl, hstep, hstep.2, hknows.rebind request frame⟩

theorem finish_rebind_error {status : SerialStatus} (hne : status ≠ .ok) :
    serialFinish .service (.rebind badge request) (status, frame) s = s := by
  cases status with
  | ok => exact absurd rfl hne
  | _ => rfl

/-- Retyping makes a blank frame that nobody has. -/
theorem exec_retype {answer : Sel4.Sel4Error × Nat} (hs : ServiceIdle strict service s)
    (hexec : (serial.restrict condition).exec .service (.retypeFrame c) s answer s') :
    (contract strict).step .service s s' /\ ServiceIdle strict service s' /\
      FreshFrame c answer.2 s' := by
  obtain ⟨-, oracle, ⟨⟩⟩ := exec_perform hexec
  have hblank (c' : UInt32) (frame : Nat) (hframe : s.frames c' <= frame) :
      Blank (.guest c' frame) { s with frames := update s.frames c (s.frames c + 1) } :=
    hs.1.blank_of_mem (by rfl) c' frame hframe
  have hmore (c' : UInt32) : s.frames c' <= update s.frames c (s.frames c + 1) c' := by
    rw [update_apply]
    split
    case isTrue hc => exact hc ▸ Nat.le_succ _
    · exact Nat.le_refl _
  have hinv : SerialInv strict { s with frames := update s.frames c (s.frames c + 1) } :=
    ⟨hs.1.gate, hs.1.detached, hs.1.resetting, hs.1.front, hs.1.guest,
      fun c' frame hframe => hblank c' frame ((hmore c').trans hframe),
      fun c' => (hs.1.frame_lt c').trans_le (hmore c'), hs.1.returned, hs.1.uart⟩
  refine ⟨⟨.of_same rfl rfl rfl, hinv⟩, ⟨hinv, hs.2.congr rfl rfl⟩,
    hblank c _ (Nat.le_refl _), hs.1.frame_lt c, ?_⟩
  show s.frames c < update s.frames c (s.frames c + 1) c
  rw [update_self]
  exact Nat.lt_succ_self _

theorem within_rebindQueue (hquiet : OpensQuietly strict condition)
    (hs : ServiceIdle strict service s) :
    Keeping strict condition .service
      (fun s0 result s => ServiceReturns strict s0 result.2
        (serialFinish .service (.rebind badge request) result.1 s))
      (rebindQueue service badge request) s s := by
  have hfail {s0 s : SerialState} {status : SerialStatus} {frame : Nat}
      {service : SerialService} (hne : status ≠ .ok)
      (hreturns : ServiceReturns strict s0 service s) :
      ServiceReturns strict s0 service
        (serialFinish .service (.rebind badge request) (status, frame) s) := by
    rw [finish_rebind_error hne]
    exact hreturns
  -- the frame is given back, and the error of before is returned
  have hundo {s0 s : SerialState} {status : SerialStatus} {service : SerialService}
      (hne : status ≠ .ok) (hreturns : ServiceReturns strict s0 service s) :
      Keeping strict condition .service
        (fun s0 result s => ServiceReturns strict s0 result.2
          (serialFinish .service (.rebind badge request) result.1 s))
        (perform (I := SerialIo) (.deleteFrame request.client) >>= fun _ =>
          pure ((status, 0), service)) s0 s := by
    refine within_op hreturns.1 stable_serviceIdle hreturns.2 (fun _ _ => trivial) ?_
    intro s1 answer s2 hs1 hexec
    obtain rfl := exec_silent (by trivial) hexec
    exact hfail hne ⟨step_refl hs1.1, hs1⟩
  refine within_bind ((within_silent ensures_validate stable_serviceIdle (fun _ h => h.1)
    (step_refl hs.1) hs).mono ?_)
  rintro s0 status s ⟨hstep, hs, -⟩
  split
  case isTrue hne => exact hfail hne ⟨hstep, hs⟩
  refine within_op hstep stable_serviceIdle hs (fun _ _ => trivial) ?_
  intro s1 err s2 hs1 hexec
  obtain rfl := exec_silent (by trivial) hexec
  show Within _ _ _ _ (if err ≠ .noError then _ else _) _ _
  split
  · exact hfail (by decide) ⟨step_refl hs1.1, hs1⟩
  refine within_op (step_refl hs1.1) stable_serviceIdle hs1 (fun _ _ => trivial) ?_
  intro s3 answer s4 hs3 hexec
  obtain ⟨hstep, hs4, hfresh⟩ := exec_retype hs3 hexec
  obtain ⟨err, frame⟩ := answer
  show Within _ _ _ _ (if err ≠ .noError then _ else _) _ _
  split
  · exact hfail (by decide) ⟨hstep, hs4⟩
  refine within_op hstep (stable_serviceIdle.and stable_freshFrame) ⟨hs4, hfresh⟩
    (fun _ _ => trivial) ?_
  intro s5 err s6 hs5 hexec
  obtain rfl := exec_silent (by trivial) hexec
  show Within _ _ _ _ (if err ≠ .noError then _ else _) _ _
  split
  · exact hundo (by decide) ⟨step_refl hs5.1.1, hs5.1⟩
  refine within_bind ((within_commit hquiet (step_refl hs5.1.1) hs5).mono ?_)
  rintro s7 ⟨status, service'⟩ s8 (⟨hok, hreturns⟩ | ⟨hne, hreturns⟩)
  · obtain rfl : status = .ok := hok
    exact hreturns
  · have hne : status ≠ .ok := hne
    show Within _ _ _ _ (if status ≠ .ok then _ else _) _ _
    rw [if_pos hne]
    exact hundo hne hreturns

end Service

end AgentOs.Serial
