import AgentOs.Console.InputPath

/-!
# Releases after a disconnect

One request is in flight at a time.  Whatever is marked or pending belongs to a client that is
served, as long as no client leaves before that.
-/

open Function (update update_self update_of_ne)

namespace AgentOs.Console

open Library Prog InputVirt Option

/-! ## What the virtualizer's functions leave alone -/

section Virt

variable (v : VirtState)

theorem deliverBatch_keeps (client : ClientId) (device : DeviceId) (q : InputRequest) :
    (deliverBatch v client device q).2.frontend = v.frontend /\
      (deliverBatch v client device q).2.service.allowed = v.service.allowed := by
  unfold deliverBatch
  split
  · exact ⟨rfl, rfl⟩
  · split <;> exact ⟨rfl, rfl⟩

theorem deliver_keeps (q : InputRequest) :
    (deliver v q).2.frontend = v.frontend /\ (deliver v q).2.service.allowed = v.service.allowed :=
      by
  unfold deliver
  split
  · exact ⟨rfl, rfl⟩
  split
  case h_1 client device _ _ =>
    split
    · exact ⟨rfl, rfl⟩
    split
    · exact ⟨rfl, rfl⟩
    · exact deliverBatch_keeps v client device q
  case h_2 => exact ⟨rfl, rfl⟩

theorem releaseDevice_keeps (client : ClientId) (device : DeviceId) :
    (releaseDevice v client device).frontend = v.frontend /\
      (releaseDevice v client device).service.allowed = v.service.allowed := by
  unfold releaseDevice
  dsimp only
  split <;> exact ⟨rfl, rfl⟩

theorem releasePending_keeps : (releasePending v).frontend = v.frontend /\
      (releasePending v).service.allowed = v.service.allowed := by
  unfold releasePending
  induction allDevices generalizing v with
  | nil => exact ⟨rfl, rfl⟩
  | cons pair rest ih =>
    obtain ⟨hfrontend, hallowed⟩ := releaseDevice_keeps v pair.1 pair.2
    obtain ⟨hfrontend', hallowed'⟩ := ih (releaseDevice v pair.1 pair.2)
    exact ⟨hfrontend'.trans hfrontend, hallowed'.trans hallowed⟩

theorem detachPending_frontend : (detachPending v).frontend = v.frontend := by
  unfold detachPending
  induction List.finRange aosInputClients generalizing v with
  | nil => rfl
  | cons client rest ih =>
    have hclient : (detachClient v client).frontend = v.frontend := by
      unfold detachClient
      split <;> rfl
    exact (ih (detachClient v client)).trans hclient

theorem serveRequests_allowed (n : Nat) :
    (serveRequests n v).service.allowed = v.service.allowed := by
  induction n generalizing v with
  | zero => rfl
  | succ n ih =>
    unfold serveRequests
    split
    · rfl
    dsimp only
    rw [ih]
    exact (deliver_keeps v _).2

theorem aosInputPump_allowed :
    (aosInputPump v).service.allowed = (detachPending v).service.allowed := by
  unfold aosInputPump
  dsimp only
  split
  · rfl
  · rw [(releasePending_keeps _).2, serveRequests_allowed]

end Virt

/-! ## One request in flight -/

/-- No request and no response. -/
def Quiet (f : Frontend) : Prop := f.reqTail = f.reqHead /\ f.respTail = f.respHead

/-- The request is in its ring. -/
def Asked (f : Frontend) (q : InputRequest) : Prop :=
  f.reqTail = f.reqHead + 1 /\ f.requests (ringIndex f.reqHead) = q /\ f.respTail = f.respHead

/-- Its response is in the other ring. -/
def Answered (f : Frontend) (q : InputRequest) (status : InputStatus) : Prop :=
  f.reqTail = f.reqHead /\ f.respTail = f.respHead + 1 /\
    f.responses (ringIndex f.respHead) = responseFor q status

theorem cursor_succ_sub (cursor : UInt32) : cursor + 1 - cursor = 1 := by
  rw [UInt32.add_comm, UInt32.add_sub_cancel]

section Rings

variable {f : Frontend} {q : InputRequest} {status : InputStatus}

theorem submit_quiet (hquiet : Quiet f) (q : InputRequest) :
    ∃ f', aosInputSubmit f q = some f' /\ Asked f' q := by
  obtain ⟨hreq, hresp⟩ := hquiet
  have hempty : ¬ f.reqTail - f.reqHead >= aosInputRequestCapacity := by
    rw [hreq, UInt32.sub_self]
    decide
  refine ⟨_, if_neg hempty, ?_, ?_, hresp⟩
  · show f.reqTail + 1 = f.reqHead + 1
    rw [hreq]
  · show update f.requests (ringIndex f.reqTail) q (ringIndex f.reqHead) = q
    rw [hreq, update_self]

theorem receive_empty (hresp : f.respTail = f.respHead) : aosInputReceive f = none :=
  if_pos (.inl hresp)

/-- The rings after a response was taken. -/
def afterReceive (f : Frontend) : Frontend := { f with respHead := f.respHead + 1 }

theorem receive_answered (hanswered : Answered f q status) :
    aosInputReceive f = some (responseFor q status, afterReceive f) /\ Quiet (afterReceive f) := by
  obtain ⟨hreq, hresp, hresponse⟩ := hanswered
  have hone : f.respTail - f.respHead = 1 := by
    rw [hresp]
    exact cursor_succ_sub _
  have hready : ¬ (f.respTail = f.respHead \/ f.respTail - f.respHead > aosInputRequestCapacity) := by
    rw [hone, hresp]
    simp
  refine ⟨?_, hreq, hresp⟩
  unfold aosInputReceive
  rw [if_neg hready, hresponse]
  rfl

theorem pump_idle {v : VirtState} (hreq : v.frontend.reqTail = v.frontend.reqHead) :
    (aosInputPump v).frontend = v.frontend := by
  have hfrontend := detachPending_frontend v
  have hnone : (detachPending v).frontend.reqTail - (detachPending v).frontend.reqHead = 0 := by
    rw [hfrontend, hreq, UInt32.sub_self]
  unfold aosInputPump
  dsimp only
  rw [hnone, if_neg (by decide)]
  exact (releasePending_keeps _).1.trans hfrontend

theorem pump_asked {v : VirtState} (hasked : Asked v.frontend q) :
    Answered (aosInputPump v).frontend q (deliver (detachPending v) q).1 := by
  have hfrontend := detachPending_frontend v
  obtain ⟨hreq, hrequest, hresp⟩ := hasked
  have hone : (detachPending v).frontend.reqTail - (detachPending v).frontend.reqHead = 1 := by
    rw [hfrontend, hreq]
    exact cursor_succ_sub _
  have hroom : ¬ (detachPending v).frontend.respTail - (detachPending v).frontend.respHead >=
      aosInputRequestCapacity := by
    rw [hfrontend, hresp, UInt32.sub_self]
    decide
  have hpump : (aosInputPump v).frontend =
      pushResponse v.frontend (responseFor q (deliver (detachPending v) q).1) := by
    unfold aosInputPump
    dsimp only
    rw [hone, if_neg (by decide), (releasePending_keeps _).1]
    show (serveRequests 1 (detachPending v)).frontend = _
    unfold serveRequests
    rw [if_neg hroom, hfrontend, hrequest]
    have hkeeps := (deliver_keeps (detachPending v) q).1.trans hfrontend
    exact congrArg (pushResponse · (responseFor q (deliver (detachPending v) q).1)) hkeeps
  rw [hpump]
  refine ⟨hreq, ?_, ?_⟩
  · show v.frontend.respTail + 1 = v.frontend.respHead + 1
    rw [hresp]
  · show update v.frontend.responses (ringIndex v.frontend.respTail) _
      (ringIndex v.frontend.respHead) = _
    rw [hresp, update_self]

end Rings

/-! ## Deliveries -/

theorem clientOf_ofNat (client : ClientId) : clientOf (.ofNat client) = some client := by
  revert client
  decide

theorem deviceOf_ofNat (device : DeviceId) : deviceOf (.ofNat device) = some device := by
  revert device
  decide

theorem isRelease_releaseQuery (id : UInt32) (client : ClientId) (device : DeviceId) :
    isRelease (releaseQuery id client device) = true := by
  have hdevice : (deviceOf (releaseQuery id client device).device).isSome = true := by
    show (deviceOf (.ofNat device)).isSome = true
    rw [deviceOf_ofNat]
    rfl
  unfold isRelease
  rw [hdevice]
  rfl

variable (v : VirtState)

/-- A release for a client that is served succeeds. -/
theorem deliver_releaseQuery (client : ClientId) (id : UInt32) (device : DeviceId) :
    (deliver v (releaseQuery id client device)).1 =
      if v.service.allowed client then .ok else .denied := by
  have hclient : clientOf (releaseQuery id client device).client = some client :=
    clientOf_ofNat client
  have hdevice : deviceOf (releaseQuery id client device).device = some device :=
    deviceOf_ofNat device
  unfold deliver
  rw [isRelease_releaseQuery, hclient, hdevice]
  cases h : v.service.allowed client <;> simp [h]

/-- Only a client that is served accepts anything. -/
theorem deliver_ok {v : VirtState} {q : InputRequest} {client : ClientId}
    (hok : (deliver v q).1 = .ok) (hclient : clientOf q.client = some client) :
    v.service.allowed client = true := by
  by_contra hdenied
  unfold deliver at hok
  split at hok
  · cases hok
  rw [hclient] at hok
  split at hok
  case h_1 other device hother _ =>
    cases hother
    rw [if_pos (by simpa using hdenied)] at hok
    cases hok
  case h_2 => cases hok

theorem retire_frontend (badge : UInt64) (q : RebindRequest) :
    (aosInputRebindRetire v badge q).2.frontend = v.frontend := by
  unfold aosInputRebindRetire
  repeat' split
  all_goals rfl

theorem rebind_frontend (badge : UInt64) (q : RebindRequest) (mapped : Bool) (fresh : ClientRegion)
    : (rebind v badge q mapped fresh).2.frontend = v.frontend := by
  unfold rebind aosInputRebindCommit
  repeat' split
  all_goals rfl

/-! ## Who stays -/

section Allowed

variable {v : VirtState} {client : ClientId} (hallowed : v.service.allowed client = true)

include hallowed

theorem detachPending_allowed (hstays : wantsDetach v client = false) :
    (detachPending v).service.allowed client = true := by
  unfold detachPending
  induction List.finRange aosInputClients generalizing v with
  | nil => exact hallowed
  | cons other rest ih =>
    by_cases heq : other = client
    · rw [List.foldl_cons, heq, detachClient, hstays]
      exact ih hallowed hstays
    · have hother : (detachClient v other).service.allowed client = v.service.allowed client /\
          (detachClient v other).regions client = v.regions client := by
        unfold detachClient
        split
        · exact ⟨update_of_ne (Ne.symm heq) _ _, update_of_ne (Ne.symm heq) _ _⟩
        · exact ⟨rfl, rfl⟩
      refine ih (hother.1.trans hallowed) ?_
      unfold wantsDetach at hstays ⊢
      rwa [hother.1, hother.2]

theorem retire_allowed {badge : UInt64} {q : RebindRequest} (hstays : ¬ Retires v badge q client) :
    (aosInputRebindRetire v badge q).2.service.allowed client = true := by
  by_contra hdenied
  refine hstays ?_
  unfold Retires
  unfold aosInputRebindRetire at hdenied ⊢
  split at hdenied
  · exact absurd hallowed hdenied
  split at hdenied
  · exact absurd hallowed hdenied
  case h_2 other hother =>
    split at hdenied
    · split at hdenied <;> exact absurd hallowed hdenied
    split at hdenied
    · exact absurd hallowed hdenied
    · by_cases heq : client = other
      · subst heq
        simp_all
      · change ¬update v.service.allowed other false client = true at hdenied
        rw [update_of_ne heq] at hdenied
        exact absurd hallowed hdenied

theorem rebind_allowed {badge : UInt64} {q : RebindRequest} {mapped : Bool} {fresh : ClientRegion} :
    (rebind v badge q mapped fresh).2.service.allowed client = true := by
  unfold rebind aosInputRebindCommit
  have hset (other : ClientId) : update v.service.allowed other true client = true := by
    rw [Function.update_apply, hallowed, ite_self]
  repeat' split
  all_goals first
    | exact hallowed
    | exact hset _

end Allowed

/-! ## The invariant -/

/-- What the rings hold, by what the console waits for. -/
def RingsOk (console : InputConsole) (v : VirtState) : InputWait -> Prop
  | .idle => Quiet v.frontend
  | .submit q => Asked v.frontend q \/ ∃ status, Answered v.frontend q status /\
      (status = .ok -> ∀ client, clientOf q.client = some client -> v.service.allowed client = true)
  | .release q client device => (∃ id, q = releaseQuery id client device) /\
      console.releasePending client device = true /\
      (Asked v.frontend q \/ Answered v.frontend q .ok)

structure InputInv (s : InputSystem) : Prop where
  held : ∀ client device, s.console.touched client device = true \/
    s.console.releasePending client device = true -> s.virt.service.allowed client = true
  rings : RingsOk s.console s.virt s.console.wait

/-- The clients that the console holds something for stay. -/
def Keeps (s : InputSystem) (v : VirtState) : Prop :=
  ∀ client, s.virt.service.allowed client = true -> HoldsInput s.console client ->
    v.service.allowed client = true

theorem InputInv.init : InputInv .init :=
  ⟨fun _ _ hheld => (by rcases hheld with h | h <;> cases h), rfl, rfl⟩

section Steps

variable {s s' : InputSystem} {client : ClientId} {device : DeviceId}

theorem setDevice_true {table : ClientId -> DeviceId -> Bool} {other : ClientId} {device' : DeviceId}
    (hset : setDevice table client device true other device' = true) :
    other = client \/ table other device' = true := by
  unfold setDevice at hset
  by_cases heq : other = client
  · exact .inl heq
  · rw [update_of_ne heq] at hset
    exact .inr hset

theorem setDevice_false {table : ClientId -> DeviceId -> Bool} {other : ClientId} {device' : DeviceId}
    (hset : setDevice table client device false other device' = true) :
    table other device' = true := by
  unfold setDevice at hset
  by_cases heq : other = client
  · subst heq
    rw [update_self] at hset
    by_cases hdevice : device' = device
    · subst hdevice
      rw [update_self] at hset
      cases hset
    · rwa [update_of_ne hdevice] at hset
  · rwa [update_of_ne heq] at hset

theorem setDevice_self (table : ClientId -> DeviceId -> Bool) (client : ClientId) (device : DeviceId)
    (value : Bool) : setDevice table client device value client device = value := by
  unfold setDevice
  rw [update_self, update_self]

/-- What a response marks belongs to a client that is served. -/
theorem finishSubmit_held (hinv : InputInv s) {q : InputRequest} {status : InputStatus}
    (hallowed : status = .ok -> ∀ client, clientOf q.client = some client ->
      s.virt.service.allowed client = true)
    (hheld : (finishSubmit s.console q (responseFor q status)).touched client device = true \/
      (finishSubmit s.console q (responseFor q status)).releasePending client device = true) :
    s.virt.service.allowed client = true := by
  unfold finishSubmit at hheld
  split at hheld
  case isTrue hmatches =>
    have hok : status = .ok := by
      simp only [Bool.and_eq_true, beq_iff_eq] at hmatches
      exact hmatches.2
    unfold touch at hheld
    split at hheld
    case h_1 target touched htarget _ =>
      rcases hheld with hheld | hheld
      · rcases setDevice_true hheld with rfl | hold
        · exact hallowed hok client htarget
        · exact hinv.held client device (.inl hold)
      · exact hinv.held client device (.inr hheld)
    case h_2 => exact hinv.held client device hheld
  case isFalse => exact hinv.held client device hheld

theorem finishSubmit_wait (console : InputConsole) (q : InputRequest) (response : InputResponse) :
    (finishSubmit console q response).wait = .idle := by
  unfold finishSubmit touch
  repeat' split
  all_goals rfl

theorem releaseMatches_ok (id : UInt32) (client : ClientId) (device : DeviceId) :
    releaseMatches (releaseQuery id client device)
      (responseFor (releaseQuery id client device) .ok) = true := by
  simp [releaseMatches, responseFor, releaseQuery, emptyRequest]

/-- The virtualizer moves, and the console waits. -/
theorem InputInv.virt (hinv : InputInv s) {v : VirtState} (hkeeps : Keeps s v)
    (hframe : v.frontend = s.virt.frontend) : InputInv ⟨s.console, v⟩ := by
  refine ⟨fun client device hheld => ?_, ?_⟩
  · exact hkeeps client (hinv.held client device hheld) (.inl ⟨device, hheld⟩)
  · have hrings := hinv.rings
    dsimp only
    cases hwait : s.console.wait with
    | idle =>
      rw [hwait] at hrings
      show Quiet v.frontend
      rw [hframe]
      exact hrings
    | submit q =>
      rw [hwait] at hrings
      show Asked v.frontend q \/ _
      rw [hframe]
      refine hrings.imp_right ?_
      rintro ⟨status, hanswered, hallowed⟩
      exact ⟨status, hanswered, fun hok client hclient => hkeeps client (hallowed hok client hclient)
        (.inr ⟨q, .inl hwait, hclient⟩)⟩
    | release q client device =>
      rw [hwait] at hrings
      show _ /\ _ /\ (Asked v.frontend q \/ Answered v.frontend q .ok)
      rw [hframe]
      exact hrings

theorem InputInv.pump (hinv : InputInv s) (hcalm : Calm s .pump) :
    InputInv ⟨s.console, aosInputPump s.virt⟩ := by
  have hkeeps : Keeps s (aosInputPump s.virt) := fun client hallowed hholds => by
    rw [aosInputPump_allowed]
    exact detachPending_allowed hallowed (by simpa using fun hwants => hcalm client hwants hholds)
  have hquiet (hreq : s.virt.frontend.reqTail = s.virt.frontend.reqHead) :
      InputInv ⟨s.console, aosInputPump s.virt⟩ := hinv.virt hkeeps (pump_idle hreq)
  have hheld : ∀ client device, s.console.touched client device = true \/
      s.console.releasePending client device = true ->
      (aosInputPump s.virt).service.allowed client = true := fun client device hheld =>
    hkeeps client (hinv.held client device hheld) (.inl ⟨device, hheld⟩)
  have hrings := hinv.rings
  cases hwait : s.console.wait with
  | idle =>
    rw [hwait] at hrings
    exact hquiet hrings.1
  | submit q =>
    rw [hwait] at hrings
    rcases hrings with hasked | ⟨status, hanswered, -⟩
    · refine ⟨hheld, ?_⟩
      dsimp only
      rw [hwait]
      refine .inr ⟨_, pump_asked hasked, fun hok client hclient => ?_⟩
      rw [aosInputPump_allowed]
      exact deliver_ok hok hclient
    · exact hquiet hanswered.1
  | release q client device =>
    rw [hwait] at hrings
    obtain ⟨⟨id, rfl⟩, hpending, hasked | hanswered⟩ := hrings
    · refine ⟨hheld, ?_⟩
      dsimp only
      rw [hwait]
      refine ⟨⟨id, rfl⟩, hpending, .inr ?_⟩
      have hallowed : (detachPending s.virt).service.allowed client = true := by
        rw [<- aosInputPump_allowed]
        exact hheld client device (.inr hpending)
      have hanswered := pump_asked hasked
      rwa [deliver_releaseQuery, if_pos hallowed] at hanswered
    · exact hquiet hanswered.1

theorem firstPending_some {console : InputConsole}
    (hfirst : firstPending console = some (client, device)) :
    console.releasePending client device = true :=
  List.find?_some (p := fun pair : ClientId × DeviceId => console.releasePending pair.1 pair.2) hfirst

theorem InputInv.step (hinv : InputInv s) {action : InputAction} (hstep : InputStep action s s')
    (hcalm : Calm s action) : InputInv s' := by
  have hrings := hinv.rings
  cases hstep with
  | submit hwait _ _ _ hsubmit =>
    rw [hwait] at hrings
    obtain ⟨f', hf', hasked⟩ := submit_quiet hrings _
    obtain rfl := some.inj (hsubmit.symm.trans hf')
    exact ⟨hinv.held, .inl hasked⟩
  | submitFull hwait _ _ =>
    refine ⟨hinv.held, ?_⟩
    dsimp only
    rw [hwait] at hrings ⊢
    exact hrings
  | @submitted _ q response f hwait hreceive =>
    rw [hwait] at hrings
    rcases hrings with hasked | ⟨status, hanswered, hallowed⟩
    · rw [receive_empty hasked.2.2] at hreceive
      cases hreceive
    · obtain ⟨hf', hquiet⟩ := receive_answered hanswered
      obtain ⟨rfl, rfl⟩ := Prod.mk.inj (some.inj (hreceive.symm.trans hf'))
      refine ⟨fun client device hheld => finishSubmit_held (s := s) hinv hallowed hheld, ?_⟩
      dsimp only
      rw [finishSubmit_wait]
      exact hquiet
  | disconnect hwait =>
    refine ⟨fun client device hheld => ?_, ?_⟩
    · rcases hheld with hheld | hheld
      · cases hheld
      · rcases Bool.or_eq_true_iff.mp hheld with hheld | hheld
        · exact hinv.held client device (.inr hheld)
        · exact hinv.held client device (.inl hheld)
    · show RingsOk _ _ s.console.wait
      rw [hwait] at hrings ⊢
      exact hrings
  | @release _ client device f hwait hfirst hsubmit =>
    rw [hwait] at hrings
    obtain ⟨f', hf', hasked⟩ := submit_quiet hrings _
    obtain rfl := some.inj (hsubmit.symm.trans hf')
    exact ⟨hinv.held, ⟨_, rfl⟩, firstPending_some hfirst, .inl hasked⟩
  | releaseFull hwait _ _ =>
    refine ⟨hinv.held, ?_⟩
    dsimp only
    rw [hwait] at hrings ⊢
    exact hrings
  | @released _ q client device response f hwait hreceive =>
    rw [hwait] at hrings
    obtain ⟨⟨id, rfl⟩, hpending, hasked | hanswered⟩ := hrings
    · rw [receive_empty hasked.2.2] at hreceive
      cases hreceive
    · obtain ⟨hf', hquiet⟩ := receive_answered hanswered
      obtain ⟨rfl, rfl⟩ := Prod.mk.inj (some.inj (hreceive.symm.trans hf'))
      unfold finishRelease
      rw [if_pos (releaseMatches_ok id client device)]
      refine ⟨fun other device' hheld => ?_, hquiet⟩
      exact hinv.held other device' (hheld.imp_right setDevice_false)
  | pump => exact hinv.pump hcalm
  | guest client region => exact hinv.virt (fun _ hallowed _ => hallowed) rfl
  | retire badge q =>
    refine hinv.virt (fun client hallowed hholds => ?_) (retire_frontend _ _ _)
    exact retire_allowed hallowed fun hretires => hcalm client hretires hholds
  | rebind badge q mapped fresh =>
    exact hinv.virt (fun _ hallowed _ => rebind_allowed hallowed) (rebind_frontend _ _ _ _ _)

theorem inputReach_inv (hreach : InputReach Calm s) : InputInv s := by
  induction hreach with
  | init => exact .init
  | step _ hstep hcalm ih => exact ih.step hstep hcalm

theorem InputInv.releasesOk (hinv : InputInv s) : ReleasesOk s := by
  have hrings := hinv.rings
  refine ⟨?_, ?_, ?_⟩
  · intro q client device response f hwait hreceive
    rw [hwait] at hrings
    obtain ⟨⟨id, rfl⟩, -, hasked | hanswered⟩ := hrings
    · rw [receive_empty hasked.2.2] at hreceive
      cases hreceive
    · obtain ⟨hf', -⟩ := receive_answered hanswered
      obtain ⟨rfl, rfl⟩ := Prod.mk.inj (some.inj (hreceive.symm.trans hf'))
      refine ⟨rfl, ?_⟩
      unfold finishRelease
      rw [if_pos (releaseMatches_ok id client device)]
      exact setDevice_self _ _ _ _
  · intro client device hwait _
    rw [hwait] at hrings
    obtain ⟨f', hf', -⟩ := submit_quiet hrings (releaseQuery (s.console.nextId + 1) client device)
    rw [hf']
    rfl
  · intro q client device hwait
    rw [hwait] at hrings
    obtain ⟨-, -, hasked | hanswered⟩ := hrings
    · obtain ⟨hf', -⟩ := receive_answered (pump_asked hasked)
      rw [hf']
      rfl
    · obtain ⟨hf', -⟩ := receive_answered hanswered
      rw [pump_idle hanswered.1, hf']
      rfl

end Steps

/-- When clients leave only while the console holds nothing for them, every release is answered
with success and a disconnect is always cleaned up. -/
theorem disconnect_cleaned (s : InputSystem) (hreach : InputReach Calm s) : ReleasesOk s :=
  (inputReach_inv hreach).releasesOk

/-! ## A key press -/

/-- A build whose boot guest is the first client. -/
def bootBuild : ConsoleBuild := ⟨true, true, false, 1, fun _ => true⟩

/-- A key goes down. -/
def press : InputRequest :=
  { emptyRequest with
    version := aosInputVersion
    count := 2
    events := fun i => if i = 0 then ⟨1, 30, 1⟩ else emptyEvent }

/-- The console after the press was accepted. -/
def pressedConsole : InputConsole :=
  ⟨1, setDevice (fun _ _ => false) ⟨0, by decide⟩ keyboard true, fun _ _ => false, .idle⟩

/-- The virtualizer with the press in its ring, and after one pass. -/
def askedVirt : VirtState :=
  { VirtState.init with frontend := { emptyFrontend with
      requests := update emptyFrontend.requests 0 (withTarget press 1 0), reqTail := 1 } }

def pressedVirt : VirtState :=
  { aosInputPump askedVirt with frontend := afterReceive (aosInputPump askedVirt).frontend }

theorem askedVirt_answered :
    Answered (aosInputPump askedVirt).frontend (withTarget press 1 0) .ok :=
  pump_asked ⟨rfl, rfl, rfl⟩

/-- Submit, one pass, and the response. -/
theorem pressed_reach {condition : InputSystem -> InputAction -> Prop}
    (hconsole : ∀ s, condition s .console)
    (hpump : ∀ console, condition ⟨console, askedVirt⟩ .pump) :
    InputReach condition ⟨pressedConsole, pressedVirt⟩ := by
  have hclient : Run (ccInputClient bootBuild (.init bootBuild) 0) [] (some 0) := .ret _
  have hvalid : validQuery 0 0 press = true := rfl
  have hsubmit : InputStep .console .init
      ⟨⟨1, fun _ _ => false, fun _ _ => false, .submit (withTarget press 1 0)⟩, askedVirt⟩ :=
    .submit rfl (fun _ _ => rfl) hvalid hclient rfl
  have hreceive := (receive_answered askedVirt_answered).1
  have hsubmitted := InputStep.submitted (q := withTarget press 1 0)
    (s := ⟨⟨1, fun _ _ => false, fun _ _ => false, .submit (withTarget press 1 0)⟩,
      aosInputPump askedVirt⟩) rfl hreceive
  exact .step (.step (.step .init hsubmit (hconsole _)) (.pump _) (hpump _)) hsubmitted
    (hconsole _)

theorem firstPending_closed :
    firstPending (closeConnection pressedConsole) = some (⟨0, by decide⟩, keyboard) := rfl

theorem disconnect_cleaned_press :
    ∃ s, InputReach Calm s /\ (∃ q, s.console.wait = .release q ⟨0, by decide⟩ keyboard) /\
      ReleasesOk s := by
  have hpressed : InputReach Calm ⟨pressedConsole, pressedVirt⟩ :=
    pressed_reach (fun _ => trivial) fun _ client hwants => by
      have hnone : ∀ client, wantsDetach askedVirt client = false := by decide
      cases (hnone client).symm.trans hwants
  obtain ⟨f, hsubmit, -⟩ := submit_quiet (receive_answered askedVirt_answered).2
    (releaseQuery 2 ⟨0, by decide⟩ keyboard)
  have hclosed : InputReach Calm ⟨closeConnection pressedConsole, pressedVirt⟩ :=
    .step hpressed (.disconnect rfl) trivial
  have hreleasing := InputReach.step hclosed (.release rfl firstPending_closed hsubmit)
    trivial
  exact ⟨_, hreleasing, ⟨_, rfl⟩, disconnect_cleaned _ hreleasing⟩

/-! ## A guest that is destroyed after a key press -/

theorem detachPending_denied {v : VirtState} {client : ClientId}
    (hdenied : v.service.allowed client = false) :
    (detachPending v).service.allowed client = false := by
  unfold detachPending
  induction List.finRange aosInputClients generalizing v with
  | nil => exact hdenied
  | cons other rest ih =>
    refine ih ?_
    unfold detachClient
    split
    · show update v.service.allowed other false client = false
      by_cases heq : client = other
      · rw [heq, update_self]
      · rw [update_of_ne heq]
        exact hdenied
    · exact hdenied

/-- The guest's page asks for the detach. -/
def leavingVirt : VirtState :=
  let region := pressedVirt.regions ⟨0, by decide⟩
  let leaving := { region with detach := ⟨1, 1, 0⟩ }
  { pressedVirt with regions := update pressedVirt.regions ⟨0, by decide⟩ leaving }

theorem leavingVirt_denied : (aosInputPump leavingVirt).service.allowed ⟨0, by decide⟩ = false := by
  rw [aosInputPump_allowed]
  rfl

/-- Press, detach, disconnect: the release is refused and its bit stays. -/
theorem disconnect_stuck : ∃ s q f, InputReach (fun _ _ => True) s /\
      s.console.wait = .release q ⟨0, by decide⟩ keyboard /\
      aosInputReceive s.virt.frontend = some (responseFor q .denied, f) /\
      (finishRelease s.console q ⟨0, by decide⟩ keyboard (responseFor q .denied)).releasePending
        ⟨0, by decide⟩ keyboard = true := by
  have hpressed : InputReach (fun _ _ => True) ⟨pressedConsole, pressedVirt⟩ :=
    pressed_reach (fun _ => trivial) fun _ => trivial
  have hquiet : Quiet leavingVirt.frontend := (receive_answered askedVirt_answered).2
  have hpumped : (aosInputPump leavingVirt).frontend = leavingVirt.frontend := pump_idle hquiet.1
  rw [<- hpumped] at hquiet
  obtain ⟨f, hsubmit, hasked⟩ := submit_quiet hquiet (releaseQuery 2 ⟨0, by decide⟩ keyboard)
  have hleaving : InputReach (fun _ _ => True) ⟨pressedConsole, leavingVirt⟩ :=
    .step hpressed (.guest _ _ _) trivial
  have hleft := InputReach.step hleaving (.pump _) trivial
  have hclosed := InputReach.step hleft (.disconnect rfl) trivial
  have hreleasing := InputReach.step hclosed (.release rfl firstPending_closed hsubmit) trivial
  have hanswered := pump_asked (v := { aosInputPump leavingVirt with frontend := f }) hasked
  have hdenied := detachPending_denied (v := { aosInputPump leavingVirt with frontend := f })
    leavingVirt_denied
  rw [deliver_releaseQuery, hdenied] at hanswered
  exact ⟨_, _, _, .step hreleasing (.pump _) trivial, rfl, (receive_answered hanswered).1, rfl⟩

end AgentOs.Console
