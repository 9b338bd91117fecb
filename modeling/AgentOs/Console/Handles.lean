import Mathlib.Data.List.FinRange
import AgentOs.Console.VmClient
import AgentOs.Library.Slots

/-!
# Handles over whole histories

Every sequence of calls of the client, with every reply of the VM manager.  An answer with a bad
length, or with a slot out of range or in use, is dropped with the guest behind it.
-/

namespace AgentOs.Console

open Library Prog Ipc List Option

/-! ## Histories -/

inductive ClientCall where
  | create (profile ram devices : UInt32)
  | request (opcode h : UInt32) (tail : Option Payload) (n : UInt32)
  | lifecycle (opcode h : UInt32)
  | status (h : UInt32)
  | list (max : UInt32)

/-- The handle that the caller names. -/
def ClientCall.handle : ClientCall -> Option UInt32
  | .request _ h _ _ => some h
  | .lifecycle _ h => some h
  | .status h => some h
  | _ => none

def runCall (arch : UInt32) (c : VmClient) : ClientCall -> VmM (CreateOut × VmClient)
  | .create profile ram devices => ccVmCreate c profile ram devices
  | .request opcode h tail n => do
    let (rc, _) <- ccVmRequest c opcode h tail n
    pure (⟨rc, 0⟩, c)
  | .lifecycle opcode h => do
    let (rc, _, c) <- ccVmLifecycle c opcode h
    pure (⟨rc, 0⟩, c)
  | .status h => do
    let (rc, _) <- ccVmStatus arch c h
    pure (⟨rc, 0⟩, c)
  | .list max => do
    let _ <- ccVmList arch c max
    pure (⟨ccOk, 0⟩, c)

/-- A call, its requests with their replies, and the client before and after it. -/
structure CallRecord where
  call : ClientCall
  before : VmClient
  trace : Trace VmIo
  out : CreateOut
  after : VmClient

inductive History (arch : UInt32) (rpc : Bool) : List CallRecord -> VmClient -> Prop where
  | init : History arch rpc [] (ccVmClientInit rpc)
  | call {records : List CallRecord} {c c' : VmClient} {call : ClientCall}
      {trace : Trace VmIo} {out : CreateOut} : History arch rpc records c ->
      Run (runCall arch c call) trace (out, c') ->
      History arch rpc (records ++ [⟨call, c, trace, out, c'⟩]) c'

/-! ## What is claimed of them -/

/-- The handle that the call gave to an entry. -/
def CallRecord.issued (r : CallRecord) : List UInt32 :=
  if r.after.nextHandle = r.before.nextHandle then [] else [r.before.nextHandle]

def issuedIn (records : List CallRecord) : List UInt32 := records.flatMap CallRecord.issued

/-- The slot in the answer to the CREATE that issued the handle. -/
def createdSlot (records : List CallRecord) (h : UInt32) : Option UInt32 :=
  (records.find? fun r => r.issued.contains h).bind fun r =>
    r.trace.head?.map fun e => rd32 e.answer.data 4

/-- The requests that are made for a handle: all but CREATE. -/
def CallRecord.requests (r : CallRecord) : Trace VmIo :=
  match r.call with
  | .create _ _ _ => r.trace.tail
  | _ => r.trace

def VmClient.liveHandles (c : VmClient) : List UInt32 :=
  ((finRange ccVmClientSlots).filter fun i => (c.entries i).active).map fun i =>
    (c.entries i).handle

/-- The handles that those requests are for, in order. -/
def CallRecord.handles (r : CallRecord) : List UInt32 :=
  match r.call with
  | .create _ _ _ => [r.before.nextHandle, r.before.nextHandle]
  | .request _ h _ _ => [h]
  | .lifecycle _ h => [h]
  | .status h => [h]
  | .list _ => r.before.liveHandles

def VmClient.Live (c : VmClient) (h : UInt32) : Prop :=
  ∃ i, (c.entries i).active = true /\ (c.entries i).handle = h

/-- Active entries share nothing. -/
def Distinct (c : VmClient) : Prop :=
  ∀ i j, (c.entries i).active = true -> (c.entries j).active = true ->
    (c.entries i).handle = (c.entries j).handle \/ (c.entries i).slot = (c.entries j).slot \/
      (c.entries i).profile = (c.entries j).profile -> i = j

structure HandlesOk (records : List CallRecord) (c : VmClient) : Prop where
  issued : (issuedIn records).Nodup
  returned : ∀ r ∈ records, r.out.handle ≠ 0 -> r.out.handle ∈ r.issued
  distinct : Distinct c /\ ∀ r ∈ records, ∀ e ∈ r.trace, Distinct e.request.client
  addressed : ∀ r ∈ records, ∀ (k : Nat) (e : Event VmIo),
    r.requests[k]? = some e -> ∃ h, r.handles[k]? = some h /\
    e.request.client.Live h /\ createdSlot records h = some (rd32 e.request.data 0)
  silent : ∀ earlier r later, records = earlier ++ r :: later -> ∀ h, r.call.handle = some h ->
    ¬ r.before.Live h \/ h ∉ issuedIn earlier -> r.trace = []

/-- The manager answered with success. -/
def answeredOk (r : VmReply) : Bool := r.status == 0 && rd32 r.data 0 == 0

/-- An answer to CREATE that the client can use. -/
def usable (c : VmClient) (r : VmReply) : Bool :=
  accepts 8 r && decide (rd32 r.data 4 < UInt32.ofNat ccVmClientSlots) &&
    !slotTaken c (rd32 r.data 4)

/-- The guest was destroyed again, or the caller has a handle for it. -/
def InReach (r : CallRecord) : Prop :=
  (∃ d ∈ r.trace, d.request.opcode = vmManagerOpDestroy /\ accepts 4 d.answer = true) \/
    (r.out.handle ≠ 0 /\ r.after.Live r.out.handle)

/-! ## Requests -/

section Requests

variable {c : VmClient} {h op n : UInt32} {tail : Option Payload} {trace : Trace VmIo}
  {i : Fin ccVmClientSlots}

theorem lookup_some (hlookup : lookup c h = some i) :
    h ≠ 0 /\ (c.entries i).active = true /\ (c.entries i).handle = h := by
  unfold lookup at hlookup
  split at hlookup
  · cases hlookup
  case isFalse hh =>
    have hfound := find?_some hlookup
    simp only [Bool.and_eq_true, beq_iff_eq] at hfound
    exact ⟨hh, hfound⟩

theorem lookup_none (hlive : ¬ c.Live h) : lookup c h = none := by
  cases hlookup : lookup c h with
  | none => rfl
  | some i => exact absurd ⟨i, (lookup_some hlookup).2⟩ hlive

theorem lookup_eq (hh : h ≠ 0) (hactive : (c.entries i).active = true)
    (hhandle : (c.entries i).handle = h)
    (honly : ∀ j, (c.entries j).active = true -> (c.entries j).handle = h -> j = i) :
    lookup c h = some i := by
  unfold lookup
  rw [if_neg hh]
  cases hfind : (finRange ccVmClientSlots).find? fun j =>
      (c.entries j).active && (c.entries j).handle == h with
  | none =>
    have hnot := find?_eq_none.mp hfind i (mem_finRange i)
    simp [hactive, hhandle] at hnot
  | some j =>
    have hj := find?_some hfind
    simp only [Bool.and_eq_true, beq_iff_eq] at hj
    rw [honly j hj.1 hj.2]

theorem rd32_requestPayload (slot : UInt32) (bytes : Payload) (n : UInt32) :
    rd32 (requestPayload slot bytes n) 0 = slot := by
  have hbyte (k : Nat) (hk : k < 4) :
      requestPayload slot bytes n k = wr32 (fun _ => 0) 0 slot k := if_pos hk
  have hread : rd32 (requestPayload slot bytes n) 0 = rd32 (wr32 (fun _ => 0) 0 slot) 0 := by
    unfold rd32
    rw [hbyte _ (by omega), hbyte _ (by omega), hbyte _ (by omega), hbyte _ (by omega)]
  rw [hread, rd32_wr32]

/-- A request for the guest of an entry. -/
structure SentFor (c : VmClient) (i : Fin ccVmClientSlots) (op : UInt32)
    (e : Event VmIo) : Prop where
  client : e.request.client = c
  rpc : c.rpc = true
  opcode : e.request.opcode = op
  slot : rd32 e.request.data 0 = (c.entries i).slot

variable {rc : UInt32} {r : VmReply}

theorem call_run {p : Payload} {minimum : UInt32} (hrun : Run (call c op p n minimum) trace (rc, r))
    :
    trace = [] /\ rc = ccErrRelayFault /\ (c.rpc = false \/ n > ccVmPayloadBytes) \/
      ∃ e : Event VmIo, trace = [e] /\ e.request = ⟨c, op, p, n⟩ /\ r = e.answer /\ c.rpc = true /\
        rc = if accepts minimum e.answer then ccOk else ccErrRelayFault := by
  unfold call at hrun
  split at hrun
  case isTrue hskip =>
    obtain ⟨rfl, ⟨⟩⟩ := run_ret_iff.mp hrun
    refine .inl ⟨rfl, rfl, ?_⟩
    simpa using hskip
  case isFalse hskip =>
    obtain ⟨answer, rest, rfl, hrest⟩ := run_op_iff.mp hrun
    have hrpc : c.rpc = true := by simp at hskip; exact hskip.1
    refine .inr ⟨⟨_, answer⟩, ?_⟩
    change Run (if accepts minimum answer then _ else _) rest (rc, r) at hrest
    split at hrest
    case isTrue haccepts =>
      obtain ⟨rfl, ⟨⟩⟩ := run_ret_iff.mp hrest
      exact ⟨rfl, rfl, rfl, hrpc, (if_pos haccepts).symm⟩
    case isFalse haccepts =>
      obtain ⟨rfl, ⟨⟩⟩ := run_ret_iff.mp hrest
      exact ⟨rfl, rfl, rfl, hrpc, (if_neg haccepts).symm⟩

/-- A request is for the entry that was found, or nothing is sent. -/
theorem ccVmRequest_run (hrun : Run (ccVmRequest c op h tail n) trace (rc, r)) :
    trace = [] /\ rc ≠ ccOk \/
      ∃ i e, lookup c h = some i /\ trace = [e] /\ SentFor c i op e /\
        rc = if accepts 4 e.answer then ccOk else ccErrRelayFault := by
  unfold ccVmRequest at hrun
  split at hrun
  case h_1 =>
    obtain ⟨rfl, hout⟩ := run_ret_iff.mp hrun
    obtain ⟨rfl, -⟩ := Prod.mk.inj hout
    exact .inl ⟨rfl, by decide⟩
  case h_2 i hlookup =>
    split at hrun
    · obtain ⟨rfl, hout⟩ := run_ret_iff.mp hrun
      obtain ⟨rfl, -⟩ := Prod.mk.inj hout
      exact .inl ⟨rfl, by decide⟩
    · rcases call_run hrun with ⟨rfl, rfl, -⟩ | ⟨e, rfl, hrequest, -, hrpc, rfl⟩
      · exact .inl ⟨rfl, by decide⟩
      · refine .inr ⟨i, e, hlookup, rfl, ⟨?_, hrpc, ?_, ?_⟩, rfl⟩
        · rw [hrequest]
        · rw [hrequest]
        · rw [hrequest]
          exact rd32_requestPayload _ _ _

theorem ccVmRequest_bare_run (hrpc : c.rpc = true) (hlookup : lookup c h = some i)
    (hrun : Run (ccVmRequest c op h none 0) trace (rc, r)) :
    ∃ e, trace = [e] /\ SentFor c i op e /\
      rc = if accepts 4 e.answer then ccOk else ccErrRelayFault := by
  have hsends : trace ≠ [] := by
    rintro rfl
    unfold ccVmRequest at hrun
    rw [hlookup] at hrun
    have hcall : Run (call c op (requestPayload (c.entries i).slot (fun _ => 0) 0) 4 4) []
        (rc, r) :=
      hrun
    rcases call_run hcall with ⟨-, -, hskip | hskip⟩ | ⟨e, htrace, -⟩
    · rw [hrpc] at hskip
      cases hskip
    · exact absurd hskip (by decide)
    · cases htrace
  rcases ccVmRequest_run hrun with ⟨rfl, -⟩ | ⟨j, e, hlookup', htrace, hsent, hrc⟩
  · exact absurd rfl hsends
  · obtain rfl : i = j := some.inj (hlookup.symm.trans hlookup')
    exact ⟨e, htrace, hsent, hrc⟩

theorem ccVmStatus_run {arch : UInt32} {status : GuestStatus}
    (hrun : Run (ccVmStatus arch c h) trace (rc, status)) :
    ∃ rc' r, Run (ccVmRequest c vmManagerOpInfo h none 0) trace (rc', r) := by
  obtain ⟨first, second, ⟨rc', r⟩, rfl, hfirst, hsecond⟩ := run_bind_iff.mp hrun
  have hdone : second = [] := by
    dsimp only at hsecond
    split at hsecond
    · exact (run_ret_iff.mp hsecond).1
    · split at hsecond <;> exact (run_ret_iff.mp hsecond).1
  subst hdone
  exact ⟨rc', r, by rwa [append_nil]⟩

end Requests

/-! ## What a call does to the client -/

/-- Entries may become inactive, and nothing else changes. -/
structure Shrinks (c c' : VmClient) : Prop where
  nextHandle : c'.nextHandle = c.nextHandle
  rpc : c'.rpc = c.rpc
  entry : ∀ i, (c'.entries i).active = true -> c'.entries i = c.entries i

theorem Shrinks.refl (c : VmClient) : Shrinks c c := ⟨rfl, rfl, fun _ _ => rfl⟩

theorem shrinks_deactivate (c : VmClient) (i : Fin ccVmClientSlots) :
    Shrinks c (deactivate c i) := by
  refine ⟨rfl, rfl, fun j hj => ?_⟩
  unfold deactivate at hj ⊢
  by_cases hji : j = i
  · subst hji
    rw [setEntry_entries_self] at hj
    cases hj
  · exact setEntry_entries_of_ne c hji _

variable {h : UInt32} {c : VmClient}

theorem deactivate_live {i j : Fin ccVmClientSlots} (hji : j ≠ i)
    (hactive : (c.entries j).active = true) (hhandle : (c.entries j).handle = h) :
    (deactivate c i).Live h := by
  have hentry : (deactivate c i).entries j = c.entries j := setEntry_entries_of_ne c hji _
  exact ⟨j, by rw [hentry]; exact hactive, by rw [hentry]; exact hhandle⟩

variable {c' : VmClient}

theorem Shrinks.distinct (hshrinks : Shrinks c c') (hdistinct : Distinct c) : Distinct c' := by
  intro i j hi hj hshared
  have hi' := hshrinks.entry i hi
  have hj' := hshrinks.entry j hj
  rw [hi'] at hi hshared
  rw [hj'] at hj hshared
  exact hdistinct i j hi hj hshared

theorem shrinks_deactivateHandle (c : VmClient) (h : UInt32) :
    Shrinks c (deactivateHandle c h) := by
  unfold deactivateHandle
  split
  case h_1 i _ => exact shrinks_deactivate c i
  case h_2 => exact .refl c

theorem deactivateHandle_live {other : UInt32} (hlive : c.Live other) (hne : other ≠ h) :
    (deactivateHandle c h).Live other := by
  unfold deactivateHandle
  split
  case h_1 i hlookup =>
    obtain ⟨j, hactive, hhandle⟩ := hlive
    have hji : j ≠ i := by
      rintro rfl
      exact hne (hhandle.symm.trans (lookup_some hlookup).2.2)
    exact deactivate_live hji hactive hhandle
  case h_2 => exact hlive

/-- Only a DESTROY that succeeded changes the client. -/
theorem ccVmLifecycle_run {op rc state : UInt32} {trace : Trace VmIo}
    (hrun : Run (ccVmLifecycle c op h) trace (rc, state, c')) :
    (c' = c \/ rc = ccOk /\ op = vmManagerOpDestroy /\ c' = deactivateHandle c h) /\
      (trace = [] \/ ∃ rc' r, Run (ccVmRequest c op h none 0) trace (rc', r)) := by
  unfold ccVmLifecycle at hrun
  split at hrun
  · obtain ⟨rfl, hout⟩ := run_ret_iff.mp hrun
    exact ⟨.inl (Prod.mk.inj (Prod.mk.inj hout).2).2, .inl rfl⟩
  · obtain ⟨first, second, ⟨rc', r⟩, rfl, hfirst, hsecond⟩ := run_bind_iff.mp hrun
    have hend : second = [] /\
        (c' = c \/ rc = ccOk /\ op = vmManagerOpDestroy /\ c' = deactivateHandle c h) := by
      dsimp only at hsecond
      split at hsecond
      · obtain ⟨hnil, hout⟩ := run_ret_iff.mp hsecond
        exact ⟨hnil, .inl (Prod.mk.inj (Prod.mk.inj hout).2).2⟩
      · split at hsecond
        case isTrue hop =>
          obtain ⟨hnil, hout⟩ := run_ret_iff.mp hsecond
          obtain ⟨hrc, hout⟩ := Prod.mk.inj hout
          exact ⟨hnil, .inr ⟨hrc, hop, (Prod.mk.inj hout).2⟩⟩
        case isFalse =>
          obtain ⟨hnil, hout⟩ := run_ret_iff.mp hsecond
          exact ⟨hnil, .inl (Prod.mk.inj (Prod.mk.inj hout).2).2⟩
    obtain ⟨rfl, hclient⟩ := hend
    exact ⟨hclient, .inr ⟨rc', r, by rwa [append_nil]⟩⟩

theorem ccVmLifecycle_shrinks {op rc state : UInt32} {trace : Trace VmIo}
    (hrun : Run (ccVmLifecycle c op h) trace (rc, state, c')) :
    Shrinks c c' := by
  rcases (ccVmLifecycle_run hrun).1 with rfl | ⟨-, -, rfl⟩
  · exact .refl c'
  · exact shrinks_deactivateHandle c h

/-- The k-th request of a list is for the k-th live entry. -/
theorem listFrom_run {arch : UInt32} {max : UInt32}
    (hfound : ∀ i, (c.entries i).active = true -> lookup c (c.entries i).handle = some i)
    {indices : List (Fin ccVmClientSlots)} {out result : List GuestInfo}
    {events : Trace VmIo} (hrun : Run (listFrom arch c max indices out) events result) :
    ∀ (k : Nat) (e : Event VmIo), events[k]? = some e ->
      ∃ i, (indices.filter fun i => (c.entries i).active)[k]? = some i /\
        (c.entries i).active = true /\ SentFor c i vmManagerOpInfo e := by
  induction indices generalizing out events with
  | nil =>
    obtain ⟨rfl, -⟩ := run_ret_iff.mp hrun
    intro k e he
    cases he
  | cons i rest ih =>
    unfold listFrom at hrun
    split at hrun
    · obtain ⟨rfl, -⟩ := run_ret_iff.mp hrun
      intro k e he
      cases he
    · split at hrun
      case isTrue hinactive =>
        rw [filter_cons_of_neg (p := fun i => (c.entries i).active) (by simpa using hinactive)]
        exact ih hrun
      case isFalse hactive =>
        have hactive : (c.entries i).active = true := by simpa using hactive
        rw [filter_cons_of_pos (p := fun i => (c.entries i).active) hactive]
        obtain ⟨first, second, ⟨rc, status⟩, rfl, hfirst, hsecond⟩ := run_bind_iff.mp hrun
        have hrest : ∀ (k : Nat) (e : Event VmIo), second[k]? = some e ->
            ∃ j, (rest.filter fun i => (c.entries i).active)[k]? = some j /\
              (c.entries j).active = true /\ SentFor c j vmManagerOpInfo e := by
          dsimp only at hsecond
          split at hsecond <;> exact ih hsecond
        obtain ⟨rc', r, hrequest⟩ := ccVmStatus_run hfirst
        intro k e he
        rcases ccVmRequest_run hrequest with ⟨rfl, -⟩ | ⟨j, sent, hlookup, rfl, hsent, -⟩
        · -- only a client without a callback sends nothing for a live entry
          obtain ⟨_, -, -, hlater⟩ := hrest k e he
          obtain ⟨sent, ⟨⟩, -⟩ := ccVmRequest_bare_run hlater.rpc (hfound i hactive) hrequest
        · obtain rfl : i = j := some.inj ((hfound i hactive).symm.trans hlookup)
          cases k with
          | zero =>
            obtain rfl : sent = e := some.inj he
            exact ⟨i, rfl, hactive, hsent⟩
          | succ k => exact hrest k e he

/-! ## Create -/

section Create

variable {c c' : VmClient} {i : Fin ccVmClientSlots} {out : CreateOut} {trace : Trace VmIo}

/-- START and what follows it. -/
inductive StartRun (c : VmClient) (i : Fin ccVmClientSlots) :
    Trace VmIo -> CreateOut -> VmClient -> Prop where
  | started {s : Event VmIo} : SentFor c i vmManagerOpStart s -> accepts 4 s.answer = true ->
      StartRun c i [s] ⟨ccOk, (c.entries i).handle⟩ c
  | undone {s d : Event VmIo} : SentFor c i vmManagerOpStart s -> accepts 4 s.answer = false ->
      SentFor c i vmManagerOpDestroy d -> accepts 4 d.answer = true ->
      StartRun c i [s, d] ⟨ccErrRelayFault, 0⟩ (deactivate c i)
  | kept {s d : Event VmIo} : SentFor c i vmManagerOpStart s -> accepts 4 s.answer = false ->
      SentFor c i vmManagerOpDestroy d -> accepts 4 d.answer = false ->
      StartRun c i [s, d] ⟨ccErrRelayFault, (c.entries i).handle⟩ c

theorem startOrRollBack_run (hrpc : c.rpc = true) (hlookup : lookup c (c.entries i).handle = some i)
    (hrun : Run (startOrRollBack c i) trace (out, c')) : StartRun c i trace out c' := by
  obtain ⟨first, second, ⟨rc, r⟩, rfl, hfirst, hsecond⟩ := run_bind_iff.mp hrun
  obtain ⟨s, rfl, hsent, rfl⟩ := ccVmRequest_bare_run hrpc hlookup hfirst
  cases hstart : accepts 4 s.answer with
  | true =>
    rw [hstart] at hsecond
    obtain ⟨rfl, ⟨⟩⟩ := run_ret_iff.mp hsecond
    exact .started hsent hstart
  | false =>
    rw [hstart] at hsecond
    obtain ⟨third, fourth, ⟨undone, r'⟩, rfl, hthird, hfourth⟩ := run_bind_iff.mp hsecond
    obtain ⟨d, rfl, hsent', rfl⟩ := ccVmRequest_bare_run hrpc hlookup hthird
    cases hdestroy : accepts 4 d.answer with
    | true =>
      rw [hdestroy] at hfourth
      obtain ⟨rfl, ⟨⟩⟩ := run_ret_iff.mp hfourth
      exact .undone hsent hstart hsent' hdestroy
    | false =>
      rw [hdestroy] at hfourth
      obtain ⟨rfl, ⟨⟩⟩ := run_ret_iff.mp hfourth
      exact .kept hsent hstart hsent' hdestroy

/-- An entry that a guest of this profile can have. -/
structure Vacant (c : VmClient) (profile : UInt32) (i : Fin ccVmClientSlots) : Prop where
  inactive : (c.entries i).active = false
  profile : ∀ j, (c.entries j).active = true -> (c.entries j).profile ≠ profile

variable {profile : UInt32}

theorem scanEntries_some {indices : List (Fin ccVmClientSlots)} {e : Option (Fin ccVmClientSlots)}
    (hscan : scanEntries c profile indices e = some (some i)) :
    (∀ j ∈ indices, (c.entries j).active = true -> (c.entries j).profile ≠ profile) /\
      (e = some i \/ (c.entries i).active = false) := by
  induction indices generalizing e with
  | nil => exact ⟨nofun, .inl (some.inj hscan)⟩
  | cons j rest ih =>
    unfold scanEntries at hscan
    split at hscan
    · cases hscan
    rename_i hj
    obtain ⟨hrest, hfree⟩ := ih hscan
    refine ⟨forall_mem_cons.mpr ⟨?_, hrest⟩, ?_⟩
    · intro hactive heq
      simp [hactive, heq] at hj
    · rcases hfree with hfree | hfree
      · split at hfree
        case isTrue hskip =>
          cases hfree
          simp only [Bool.and_eq_true, Bool.not_eq_eq_eq_not, Bool.not_true] at hskip
          exact .inr hskip.1
        case isFalse => exact .inl hfree
      · exact .inr hfree

inductive CreateRun (c : VmClient) (profile : UInt32) :
    Trace VmIo -> CreateOut -> VmClient -> Prop where
  | refused : CreateRun c profile [] ⟨ccErrRelayFault, 0⟩ c
  | rejected {e : Event VmIo} : e.request.client = c -> e.request.opcode = vmManagerOpCreate ->
      usable c e.answer = false -> CreateRun c profile [e] ⟨ccErrRelayFault, 0⟩ c
  | issued {e : Event VmIo} {i : Fin ccVmClientSlots} {devices : UInt32}
      {rest : Trace VmIo} {out : CreateOut} {c' : VmClient} : Vacant c profile i ->
      c.nextHandle ≠ 0 -> e.request.client = c -> e.request.opcode = vmManagerOpCreate ->
      usable c e.answer = true ->
      StartRun (issueHandle c i (rd32 e.answer.data 4) profile devices) i rest out c' ->
      CreateRun c profile (e :: rest) out c'

theorem issueHandle_entry (c : VmClient) (i : Fin ccVmClientSlots) (slot profile devices : UInt32) :
    (issueHandle c i slot profile devices).entries i =
      ⟨c.nextHandle, slot, profile, devices, true⟩ :=
  setEntry_entries_self c i _

theorem issueHandle_entry_of_ne {j : Fin ccVmClientSlots} (hji : j ≠ i)
    (slot profile devices : UInt32) :
    (issueHandle c i slot profile devices).entries j = c.entries j :=
  setEntry_entries_of_ne c hji _

theorem usable_slot {reply : VmReply} (husable : usable c reply = true) :
    slotTaken c (rd32 reply.data 4) = false := by
  unfold usable at husable
  simp only [Bool.and_eq_true, Bool.not_eq_eq_eq_not, Bool.not_true] at husable
  exact husable.2

theorem issueHandle_lookup (hnext : c.nextHandle ≠ 0)
    (hfresh : ∀ j, (c.entries j).active = true -> (c.entries j).handle ≠ c.nextHandle)
    (slot profile devices : UInt32) :
    lookup (issueHandle c i slot profile devices)
      ((issueHandle c i slot profile devices).entries i).handle = some i := by
  have hself := issueHandle_entry c i slot profile devices
  rw [hself]
  refine lookup_eq hnext (by rw [hself]) (by rw [hself]) ?_
  intro j hactive hhandle
  by_contra hji
  rw [issueHandle_entry_of_ne hji] at hactive hhandle
  exact hfresh j hactive hhandle

theorem ccVmCreate_run {ram devices : UInt32}
    (hfresh : ∀ j, (c.entries j).active = true -> (c.entries j).handle ≠ c.nextHandle)
    (hrun : Run (ccVmCreate c profile ram devices) trace (out, c')) :
    CreateRun c profile trace out c' := by
  have hrefused {trace : Trace VmIo} {out : CreateOut}
      (hrun : Run (pure (⟨ccErrRelayFault, 0⟩, c) : VmM (CreateOut × VmClient)) trace (out, c')) :
      CreateRun c profile trace out c' := by
    obtain ⟨rfl, ⟨⟩⟩ := run_ret_iff.mp hrun
    exact .refused
  unfold ccVmCreate at hrun
  split at hrun
  · exact hrefused hrun
  split at hrun
  case h_1 => exact hrefused hrun
  case h_2 => exact hrefused hrun
  case h_3 i hscan =>
    split at hrun
    · exact hrefused hrun
    rename_i hnext
    obtain ⟨hprofile, hfree⟩ := scanEntries_some hscan
    have hvacant : Vacant c profile i :=
      ⟨hfree.resolve_left nofun, fun j => hprofile j (mem_finRange j)⟩
    obtain ⟨first, second, ⟨rc, r⟩, rfl, hfirst, hsecond⟩ := run_bind_iff.mp hrun
    rcases call_run hfirst with ⟨rfl, rfl, -⟩ | ⟨e, rfl, hrequest, rfl, hrpc, rfl⟩
    · exact hrefused hsecond
    · have hclient : e.request.client = c := by rw [hrequest]
      have hrejected (hunusable : usable c e.answer = false)
          (hrun : Run (pure (⟨ccErrRelayFault, 0⟩, c) : VmM (CreateOut × VmClient)) second
            (out, c')) : CreateRun c profile ([e] ++ second) out c' := by
        obtain ⟨rfl, ⟨⟩⟩ := run_ret_iff.mp hrun
        exact .rejected hclient (by rw [hrequest]) hunusable
      cases haccepts : accepts 8 e.answer with
      | false =>
        rw [haccepts] at hsecond
        exact hrejected (by simp [usable, haccepts]) hsecond
      | true =>
        rw [haccepts, if_pos rfl] at hsecond
        dsimp only at hsecond
        rw [if_neg (by decide)] at hsecond
        split at hsecond
        case isTrue hrange =>
          exact hrejected (by simp [usable, UInt32.not_lt.mpr hrange]) hsecond
        case isFalse hrange =>
          split at hsecond
          case isTrue htaken => exact hrejected (by simp [usable, htaken]) hsecond
          case isFalse htaken =>
            have husable : usable c e.answer = true := by
              simp [usable, haccepts, UInt32.not_le.mp hrange, htaken]
            exact .issued hvacant hnext hclient (by rw [hrequest]) husable
              (startOrRollBack_run hrpc (issueHandle_lookup hnext hfresh _ _ _) hsecond)

theorem StartRun.live (hstart : StartRun c i trace out c') {h : UInt32} {j : Fin ccVmClientSlots}
    (hji : j ≠ i) (hactive : (c.entries j).active = true) (hhandle : (c.entries j).handle = h) :
    c'.Live h := by
  cases hstart with
  | started => exact ⟨j, hactive, hhandle⟩
  | undone => exact deactivate_live hji hactive hhandle
  | kept => exact ⟨j, hactive, hhandle⟩

/-- CREATE takes nothing from the guests that are there. -/
theorem CreateRun.live {h : UInt32} (hcreate : CreateRun c profile trace out c')
    (hlive : c.Live h) : c'.Live h := by
  cases hcreate with
  | refused => exact hlive
  | rejected => exact hlive
  | @issued e i devices _ _ _ hvacant _ _ _ _ hstart =>
    obtain ⟨j, hactive, hhandle⟩ := hlive
    have hji : j ≠ i := by
      rintro rfl
      rw [hvacant.inactive] at hactive
      cases hactive
    rw [<- issueHandle_entry_of_ne hji (rd32 e.answer.data 4) profile devices] at hactive hhandle
    exact hstart.live hji hactive hhandle

theorem StartRun.shrinks (hstart : StartRun c i trace out c') : Shrinks c c' := by
  cases hstart with
  | started => exact .refl c
  | undone => exact shrinks_deactivate c i
  | kept => exact .refl c

/-- A slot that was in no entry is from an answer to CREATE. -/
theorem CreateRun.slot (hcreate : CreateRun c profile trace out c') {slot : UInt32}
    (hbefore : ∀ j, (c.entries j).active = true -> (c.entries j).slot ≠ slot)
    (hanswers : ∀ e ∈ trace, e.request.opcode = vmManagerOpCreate -> rd32 e.answer.data 4 ≠ slot)
    (j : Fin ccVmClientSlots) (hactive : (c'.entries j).active = true) :
    (c'.entries j).slot ≠ slot := by
  cases hcreate with
  | refused => exact hbefore j hactive
  | rejected => exact hbefore j hactive
  | @issued e i devices _ _ _ _ _ _ hopcode _ hstart =>
    have hentry := hstart.shrinks.entry j hactive
    rw [hentry] at hactive ⊢
    by_cases hji : j = i
    · subst hji
      rw [issueHandle_entry]
      exact hanswers e mem_cons_self hopcode
    · rw [issueHandle_entry_of_ne hji] at hactive ⊢
      exact hbefore j hactive

end Create

/-! ## The invariant -/

/-- The handles so far are 1, 2, …; the entries have slots from their CREATE. -/
structure ClientInv (records : List CallRecord) (c : VmClient) : Prop where
  count : ∃ n, n < 2 ^ 32 /\ issuedIn records = (range' 1 n).map UInt32.ofNat /\
    c.nextHandle = .ofNat (n + 1)
  entry : ∀ i, (c.entries i).active = true ->
    createdSlot records (c.entries i).handle = some (c.entries i).slot
  distinct : Distinct c

section Invariant

variable {arch : UInt32} {rpc : Bool} {records : List CallRecord} {c c' : VmClient} {r : CallRecord}
  {h : UInt32} {slot : UInt32}

theorem createdSlot_append (hslot : createdSlot records h = some slot) (more : List CallRecord) :
    createdSlot (records ++ more) h = some slot := by
  unfold createdSlot at hslot ⊢
  cases hfind : records.find? fun r => r.issued.contains h with
  | none =>
    rw [hfind] at hslot
    cases hslot
  | some r =>
    rw [hfind] at hslot
    rw [find?_append, hfind]
    exact hslot

theorem createdSlot_issued (hslot : createdSlot records h = some slot) : h ∈ issuedIn records := by
  unfold createdSlot at hslot
  cases hfind : records.find? fun r => r.issued.contains h with
  | none =>
    rw [hfind] at hslot
    cases hslot
  | some r =>
    have hissued : h ∈ r.issued := by simpa using find?_some hfind
    exact mem_flatMap.mpr ⟨r, mem_of_find?_eq_some hfind, hissued⟩

/-- The record that issues a new handle is the one that is found. -/
theorem createdSlot_fresh (hfresh : h ∉ issuedIn records) (hissued : r.issued = [h]) :
    createdSlot (records ++ [r]) h = r.trace.head?.map fun e => rd32 e.answer.data 4 := by
  have hnone : (records.find? fun r => r.issued.contains h) = none := by
    refine find?_eq_none.mpr fun r' hr' hcontains => hfresh ?_
    exact mem_flatMap.mpr ⟨r', hr', by simpa using hcontains⟩
  unfold createdSlot
  rw [find?_append, hnone]
  simp [hissued]

theorem issuedIn_append (records : List CallRecord) (r : CallRecord) :
    issuedIn (records ++ [r]) = issuedIn records ++ r.issued := by
  simp [issuedIn]

theorem ClientInv.live_issued (hinv : ClientInv records c) (hlive : c.Live h) :
    h ∈ issuedIn records := by
  obtain ⟨i, hactive, rfl⟩ := hlive
  exact createdSlot_issued (hinv.entry i hactive)

theorem ofNat_inj_of_lt {k m : Nat} (hk : k < 2 ^ 32) (hm : m < 2 ^ 32)
    (heq : UInt32.ofNat k = .ofNat m) : k = m := by
  have hnat := congrArg UInt32.toNat heq
  rwa [UInt32.toNat_ofNat_of_lt' hk, UInt32.toNat_ofNat_of_lt' hm] at hnat

section

variable (hinv : ClientInv records c)

include hinv

theorem ClientInv.mem_issued (hissued : h ∈ issuedIn records) : h ≠ 0 /\ h ≠ c.nextHandle := by
  obtain ⟨n, hn, hall, hnext⟩ := hinv.count
  rw [hall] at hissued
  obtain ⟨k, hk, rfl⟩ := mem_map.mp hissued
  obtain ⟨hlow, hhigh⟩ := mem_range'_1.mp hk
  have hzero : UInt32.ofNat k ≠ 0 := fun heq => by
    have := ofNat_inj_of_lt (by omega) (by omega) (heq.trans rfl : UInt32.ofNat k = .ofNat 0)
    omega
  refine ⟨hzero, fun heq => ?_⟩
  rw [hnext] at heq
  by_cases hwrap : n + 1 = 2 ^ 32
  · rw [hwrap] at heq
    exact hzero heq
  · have := ofNat_inj_of_lt (by omega) (by omega) heq
    omega

theorem ClientInv.fresh (j : Fin ccVmClientSlots)
    (hactive : (c.entries j).active = true) : (c.entries j).handle ≠ c.nextHandle :=
  (hinv.mem_issued (hinv.live_issued ⟨j, hactive, rfl⟩)).2

theorem ClientInv.lookup (i : Fin ccVmClientSlots)
    (hactive : (c.entries i).active = true) : lookup c (c.entries i).handle = some i := by
  have hnonzero := (hinv.mem_issued (hinv.live_issued ⟨i, hactive, rfl⟩)).1
  refine lookup_eq hnonzero hactive rfl fun j hj hhandle => ?_
  exact hinv.distinct j i hj hactive (.inl hhandle)

theorem ClientInv.nodup : (issuedIn records).Nodup := by
  obtain ⟨n, hn, hall, -⟩ := hinv.count
  rw [hall]
  refine List.Nodup.map_on ?_ nodup_range'
  intro k hk m hm heq
  have hk := mem_range'_1.mp hk
  have hm := mem_range'_1.mp hm
  exact ofNat_inj_of_lt (by omega) (by omega) heq

theorem ClientInv.shrinks (hshrinks : Shrinks c c') : ClientInv records c' := by
  obtain ⟨n, hn, hall, hnext⟩ := hinv.count
  refine ⟨⟨n, hn, hall, hshrinks.nextHandle.trans hnext⟩, ?_, hshrinks.distinct hinv.distinct⟩
  intro i hactive
  have hentry := hshrinks.entry i hactive
  rw [hentry] at hactive ⊢
  exact hinv.entry i hactive

theorem ClientInv.quiet (hissued : r.issued = []) : ClientInv (records ++ [r]) c := by
  obtain ⟨n, hn, hall, hnext⟩ := hinv.count
  refine ⟨⟨n, hn, ?_, hnext⟩, ?_, hinv.distinct⟩
  · rw [issuedIn_append, hissued, append_nil, hall]
  · exact fun i hactive => createdSlot_append (hinv.entry i hactive) [r]

end

theorem ClientInv.init (rpc : Bool) : ClientInv [] (ccVmClientInit rpc) :=
  ⟨⟨0, by decide, rfl, rfl⟩, nofun,
    nofun⟩

variable {profile : UInt32} {i : Fin ccVmClientSlots}

theorem issueHandle_distinct (hinv : ClientInv records c) (hvacant : Vacant c profile i)
    (htaken : slotTaken c slot = false) (devices : UInt32) :
    Distinct (issueHandle c i slot profile devices) := by
  have hslot (j : Fin ccVmClientSlots) (hactive : (c.entries j).active = true) :
      (c.entries j).slot ≠ slot := by
    have hnot := any_eq_false.mp htaken j (mem_finRange j)
    simpa [hactive] using hnot
  -- the new entry shares nothing with the others
  have hnew (j : Fin ccVmClientSlots) (hactive : (c.entries j).active = true) :
      ¬ ((c.entries j).handle = c.nextHandle \/ (c.entries j).slot = slot \/
        (c.entries j).profile = profile) := by
    rintro (heq | heq | heq)
    · exact hinv.fresh j hactive heq
    · exact hslot j hactive heq
    · exact hvacant.profile j hactive heq
  exact Slots.apart_update c.entries (·.active)
    (fun e e' => e.handle = e'.handle \/ e.slot = e'.slot \/ e.profile = e'.profile)
    (fun _ _ => Or.imp Eq.symm (Or.imp Eq.symm Eq.symm)) hinv.distinct fun _ => hnew

variable {e : Event VmIo} {out : CreateOut}

theorem ClientInv.issue (hinv : ClientInv records c) {devices : UInt32} {rest : Trace VmIo}
    (hvacant : Vacant c profile i) (hnext : c.nextHandle ≠ 0) (husable : usable c e.answer = true)
    (hstart : StartRun (issueHandle c i (rd32 e.answer.data 4) profile devices) i rest out c')
    (call : ClientCall) :
    CallRecord.issued ⟨call, c, e :: rest, out, c'⟩ = [c.nextHandle] /\
      createdSlot (records ++ [⟨call, c, e :: rest, out, c'⟩]) c.nextHandle =
        some (rd32 e.answer.data 4) /\
      ClientInv (records ++ [⟨call, c, e :: rest, out, c'⟩]) c' := by
  obtain ⟨n, hn, hall, hcount⟩ := hinv.count
  have hbound : n + 1 < 2 ^ 32 := by
    by_contra hwrap
    have : n + 1 = 2 ^ 32 := by omega
    rw [hcount, this] at hnext
    exact hnext rfl
  have hnext' : c'.nextHandle = c.nextHandle + 1 := hstart.shrinks.nextHandle
  have hissued : CallRecord.issued ⟨call, c, e :: rest, out, c'⟩ = [c.nextHandle] := by
    have hne : c'.nextHandle ≠ c.nextHandle := by
      rw [hnext']
      simp
    exact if_neg hne
  have hfresh : c.nextHandle ∉ issuedIn records := fun hmem => (hinv.mem_issued hmem).2 rfl
  have hslot := createdSlot_fresh (r := ⟨call, c, e :: rest, out, c'⟩) hfresh hissued
  refine ⟨hissued, hslot, ⟨n + 1, hbound, ?_, ?_⟩, ?_, ?_⟩
  · rw [issuedIn_append, hissued, hall, hcount, range'_concat, map_append, Nat.one_mul,
      Nat.add_comm 1 n]
    rfl
  · rw [hnext', hcount]
    exact (UInt32.ofNat_add (n + 1) 1).symm
  · intro j hactive
    have hentry := hstart.shrinks.entry j hactive
    rw [hentry] at hactive ⊢
    by_cases hji : j = i
    · subst hji
      rw [issueHandle_entry]
      exact hslot
    · rw [issueHandle_entry_of_ne hji] at hactive ⊢
      exact createdSlot_append (hinv.entry j hactive) _
  · exact hstart.shrinks.distinct (issueHandle_distinct hinv hvacant (usable_slot husable) devices)

variable {call : ClientCall} {trace : Trace VmIo}

theorem runCall_shrinks (hcall : ∀ profile ram devices, call ≠ .create profile ram devices)
    (hrun : Run (runCall arch c call) trace (out, c')) : Shrinks c c' /\ out.handle = 0 := by
  cases call with
  | create profile ram devices => exact absurd rfl (hcall profile ram devices)
  | lifecycle opcode h =>
    obtain ⟨_, ⟨⟩, hfirst⟩ := run_bind_ret_iff.mp hrun
    exact ⟨ccVmLifecycle_shrinks hfirst, rfl⟩
  | _ =>
    obtain ⟨_, ⟨⟩, -⟩ := run_bind_ret_iff.mp hrun
    exact ⟨.refl _, rfl⟩

theorem runCall_inv (hinv : ClientInv records c) (hrun : Run (runCall arch c call) trace (out, c'))
    :
    ClientInv (records ++ [⟨call, c, trace, out, c'⟩]) c' := by
  have hquiet (hshrinks : Shrinks c c') :
      ClientInv (records ++ [⟨call, c, trace, out, c'⟩]) c' := by
    have hissued : CallRecord.issued ⟨call, c, trace, out, c'⟩ = [] := if_pos hshrinks.nextHandle
    exact (hinv.quiet hissued).shrinks hshrinks
  cases call with
  | create profile ram devices =>
    cases ccVmCreate_run hinv.fresh hrun with
    | refused => exact hquiet (.refl c)
    | rejected => exact hquiet (.refl c)
    | issued hvacant hnext _ _ husable hstart =>
      exact (hinv.issue hvacant hnext husable hstart _).2.2
  | _ => exact hquiet (runCall_shrinks (by simp) hrun).1

theorem History.inv (hhistory : History arch rpc records c) : ClientInv records c := by
  induction hhistory with
  | init => exact .init rpc
  | call _ hrun ih => exact runCall_inv ih hrun

/-- Every record of a history was a call after the records before it. -/
theorem History.split (hhistory : History arch rpc records c) {earlier later : List CallRecord}
    (hsplit : records = earlier ++ r :: later) :
    History arch rpc earlier r.before /\ Run (runCall arch r.before r.call) r.trace (r.out, r.after)
      := by
  induction hhistory generalizing later with
  | init => exact absurd hsplit (by simp)
  | @call records c c' call trace out hearlier hrun ih =>
    rcases eq_nil_or_concat later with rfl | ⟨middle, last, rfl⟩
    · obtain ⟨rfl, hlast⟩ := append_inj' hsplit rfl
      obtain rfl := singleton_inj.mp hlast
      exact ⟨hearlier, hrun⟩
    · have hsplit' : records ++ [⟨call, c, trace, out, c'⟩] = (earlier ++ r :: middle) ++ [last] := by
        rw [hsplit]
        simp
      exact ih (append_inj' hsplit' rfl).1

/-! ## One call -/

/-- A call that names a handle sends at most one request, for the entry that is found. -/
theorem handled_run (hcall : call.handle = some h)
    (hrun : Run (runCall arch c call) trace (out, c')) :
    trace = [] \/ ∃ i e opcode, lookup c h = some i /\ trace = [e] /\ SentFor c i opcode e := by
  have hsends {opcode n rc : UInt32} {tail : Option Payload} {reply : VmReply}
      (hrun : Run (ccVmRequest c opcode h tail n) trace (rc, reply)) :
      trace = [] \/ ∃ i e opcode, lookup c h = some i /\ trace = [e] /\ SentFor c i opcode e := by
    rcases ccVmRequest_run hrun with ⟨hnil, -⟩ | ⟨i, e, hlookup, htrace, hsent, -⟩
    · exact .inl hnil
    · exact .inr ⟨i, e, opcode, hlookup, htrace, hsent⟩
  cases call with
  | create profile ram devices => cases hcall
  | list max => cases hcall
  | request opcode h' tail n =>
    cases hcall
    obtain ⟨_, -, hrequest⟩ := run_bind_ret_iff.mp hrun
    exact hsends hrequest
  | lifecycle opcode h' =>
    cases hcall
    obtain ⟨_, -, hrun⟩ := run_bind_ret_iff.mp hrun
    rcases (ccVmLifecycle_run hrun).2 with hnil | ⟨rc', reply, hrequest⟩
    · exact .inl hnil
    · exact hsends hrequest
  | status h' =>
    cases hcall
    obtain ⟨_, -, hrun⟩ := run_bind_ret_iff.mp hrun
    obtain ⟨rc', reply, hrequest⟩ := ccVmStatus_run hrun
    exact hsends hrequest

/-- A request that is for a handle: it is live, and the slot is the one from its CREATE. -/
structure Addresses (records : List CallRecord) (h : UInt32) (e : Event VmIo) : Prop where
  live : e.request.client.Live h
  slot : createdSlot records h = some (rd32 e.request.data 0)
  distinct : Distinct e.request.client

theorem ClientInv.addresses (hinv : ClientInv records c) {opcode : UInt32}
    (hactive : (c.entries i).active = true) (hsent : SentFor c i opcode e) (more : List CallRecord)
      :
    Addresses (records ++ more) (c.entries i).handle e := by
  refine ⟨?_, ?_, ?_⟩
  · rw [hsent.client]
    exact ⟨i, hactive, rfl⟩
  · rw [hsent.slot]
    exact createdSlot_append (hinv.entry i hactive) more
  · rw [hsent.client]
    exact hinv.distinct

/-- The requests of START and DESTROY are for the new handle. -/
theorem StartRun.sent (hstart : StartRun c i trace out c') (he : e ∈ trace) :
    ∃ opcode, SentFor c i opcode e := by
  cases hstart with
  | started hs =>
    obtain rfl := mem_singleton.mp he
    exact ⟨_, hs⟩
  | undone hs _ hd =>
    rcases mem_pair.mp he with rfl | rfl
    · exact ⟨_, hs⟩
    · exact ⟨_, hd⟩
  | kept hs _ hd =>
    rcases mem_pair.mp he with rfl | rfl
    · exact ⟨_, hs⟩
    · exact ⟨_, hd⟩

theorem StartRun.length_le (hstart : StartRun c i trace out c') : trace.length <= 2 := by
  cases hstart <;> simp

/-- The handle that is returned, if any, is that of the entry. -/
theorem StartRun.handle (hstart : StartRun c i trace out c') :
    out.handle = 0 \/ out.handle = (c.entries i).handle := by
  cases hstart with
  | started => exact .inr rfl
  | undone => exact .inl rfl
  | kept => exact .inr rfl

section

variable (hinv : ClientInv records r.before)
  (hrun : Run (runCall arch r.before r.call) r.trace (r.out, r.after))

include hinv hrun

theorem record_addressed {k : Nat} (he : r.requests[k]? = some e) :
    ∃ h, r.handles[k]? = some h /\ Addresses (records ++ [r]) h e := by
  obtain ⟨call, c, events, out, c'⟩ := r
  dsimp only at hinv hrun
  have hnamed {h : UInt32} (hcall : call.handle = some h) (he : events[k]? = some e) :
      [h][k]? = some h /\ Addresses (records ++ [⟨call, c, events, out, c'⟩]) h e := by
    rcases handled_run hcall hrun with rfl | ⟨i, sent, opcode, hlookup, rfl, hsent⟩
    · cases he
    · cases k with
      | zero =>
        obtain rfl : sent = e := some.inj he
        obtain ⟨-, hactive, rfl⟩ := lookup_some hlookup
        exact ⟨rfl, hinv.addresses hactive hsent _⟩
      | succ k => cases he
  cases call with
  | request opcode h tail n => exact ⟨h, hnamed rfl he⟩
  | lifecycle opcode h => exact ⟨h, hnamed rfl he⟩
  | status h => exact ⟨h, hnamed rfl he⟩
  | list max =>
    obtain ⟨_, -, hrun⟩ := run_bind_ret_iff.mp hrun
    obtain ⟨i, hi, hactive, hsent⟩ := listFrom_run hinv.lookup hrun k e he
    refine ⟨(c.entries i).handle, ?_, hinv.addresses hactive hsent _⟩
    change (List.map _ _)[k]? = _
    rw [getElem?_map, hi]
    rfl
  | create profile ram devices =>
    cases ccVmCreate_run hinv.fresh hrun with
    | refused => cases he
    | rejected => cases he
    | @issued first i assigned rest _ _ hvacant hnext hclient _ husable hstart =>
      change rest[k]? = some e at he
      obtain ⟨-, hslot, -⟩ := hinv.issue hvacant hnext husable hstart (.create profile ram devices)
      have hk : k < 2 := (List.getElem?_eq_some_iff.mp he).1.trans_le hstart.length_le
      obtain ⟨opcode, hsent⟩ := hstart.sent (mem_of_getElem? he)
      refine ⟨c.nextHandle, ?_, ?_, ?_, ?_⟩
      · have : k = 0 \/ k = 1 := by omega
        rcases this with rfl | rfl <;> rfl
      · rw [hsent.client]
        exact ⟨i, by rw [issueHandle_entry], by rw [issueHandle_entry]⟩
      · rw [hsent.slot, issueHandle_entry]
        exact hslot
      · rw [hsent.client]
        exact issueHandle_distinct hinv hvacant (usable_slot husable) assigned

theorem record_distinct (he : e ∈ r.trace) : Distinct e.request.client := by
  have hsent (hmem : e ∈ r.requests) : Distinct e.request.client := by
    obtain ⟨k, hk⟩ := getElem?_of_mem hmem
    obtain ⟨_, -, haddresses⟩ := record_addressed hinv hrun hk
    exact haddresses.distinct
  obtain ⟨call, c, events, out, c'⟩ := r
  cases call with
  | create profile ram devices =>
    cases ccVmCreate_run hinv.fresh hrun with
    | refused => cases he
    | rejected hclient =>
      obtain rfl := mem_singleton.mp he
      rw [hclient]
      exact hinv.distinct
    | issued _ _ hclient =>
      rcases mem_cons.mp he with rfl | hrest
      · rw [hclient]
        exact hinv.distinct
      · exact hsent hrest
  | _ => exact hsent he

theorem record_returned (hhandle : r.out.handle ≠ 0) : r.out.handle ∈ r.issued := by
  obtain ⟨call, c, events, out, c'⟩ := r
  cases call with
  | create profile ram devices =>
    cases ccVmCreate_run hinv.fresh hrun with
    | refused => exact absurd rfl hhandle
    | rejected => exact absurd rfl hhandle
    | issued hvacant hnext _ _ husable hstart =>
      rw [(hinv.issue hvacant hnext husable hstart _).1]
      have hentry := hstart.handle.resolve_left hhandle
      rw [issueHandle_entry] at hentry
      exact mem_singleton.mpr hentry
  | _ => exact absurd (runCall_shrinks (by simp) hrun).2 hhandle

theorem record_inReach {ram devices : UInt32}
    (hcall : r.call = .create profile ram devices) (he : r.trace.head? = some e)
    (hfailed : r.out.rc ≠ ccOk) :
    InReach r ↔ usable r.before e.answer = true := by
  obtain ⟨call, c, events, out, c'⟩ := r
  subst hcall
  dsimp only at hinv hrun he hfailed ⊢
  cases ccVmCreate_run hinv.fresh hrun with
  | refused => cases he
  | rejected _ hopcode hunusable =>
    cases he
    refine iff_of_false ?_ (by rw [hunusable]; decide)
    rintro (⟨d, hd, hdestroy, -⟩ | ⟨hhandle, -⟩)
    · obtain rfl := mem_singleton.mp hd
      rw [hopcode] at hdestroy
      exact absurd hdestroy (by decide)
    · exact hhandle rfl
  | @issued _ i _ _ _ _ hvacant hnext _ _ husable hstart =>
    cases he
    refine iff_of_true ?_ husable
    cases hstart with
    | started => exact absurd rfl hfailed
    | undone _ _ hd haccepts =>
      exact .inl ⟨_, by simp, hd.opcode, haccepts⟩
    | kept =>
      refine .inr ⟨?_, i, ?_, rfl⟩
      · rw [issueHandle_entry]
        exact hnext
      · rw [issueHandle_entry]

end

end Invariant

/-! ## The theorem -/

/-- Handles are issued once and stand for the slot of their CREATE, whatever the manager
answers.  A CREATE that fails after the manager's OK leaves the guest in reach exactly when
the answer was usable. -/
theorem guest_handles (arch : UInt32) (rpc : Bool) (records : List CallRecord) (c : VmClient)
    (hhistory : History arch rpc records c) :
    HandlesOk records c /\
    ∀ r ∈ records, ∀ profile ram devices e, r.call = .create profile ram devices ->
      r.trace.head? = some e -> answeredOk e.answer = true -> r.out.rc ≠ ccOk ->
      (InReach r ↔ usable r.before e.answer = true) := by
  have hrecord (r : CallRecord) (hr : r ∈ records) : ∃ earlier later,
      records = (earlier ++ [r]) ++ later /\ ClientInv earlier r.before /\
        Run (runCall arch r.before r.call) r.trace (r.out, r.after) := by
    obtain ⟨earlier, later, hsplit⟩ := append_of_mem hr
    obtain ⟨hearlier, hrun⟩ := hhistory.split hsplit
    exact ⟨earlier, later, by rw [hsplit]; simp, hearlier.inv, hrun⟩
  refine ⟨⟨hhistory.inv.nodup, ?_, ⟨hhistory.inv.distinct, ?_⟩, ?_, ?_⟩, ?_⟩
  · intro r hr hhandle
    obtain ⟨_, _, -, hinv, hrun⟩ := hrecord r hr
    exact record_returned hinv hrun hhandle
  · intro r hr e he
    obtain ⟨_, _, -, hinv, hrun⟩ := hrecord r hr
    exact record_distinct hinv hrun he
  · intro r hr k e he
    obtain ⟨earlier, later, rfl, hinv, hrun⟩ := hrecord r hr
    obtain ⟨h, hh, haddresses⟩ := record_addressed hinv hrun he
    exact ⟨h, hh, haddresses.live, createdSlot_append haddresses.slot later⟩
  · intro earlier r later hsplit h hcall hdead
    obtain ⟨hearlier, hrun⟩ := hhistory.split hsplit
    have hdead : ¬ r.before.Live h := hdead.elim id fun hnever hlive =>
      hnever (hearlier.inv.live_issued hlive)
    rcases handled_run hcall hrun with hnil | ⟨i, e, opcode, hlookup, -⟩
    · exact hnil
    · rw [lookup_none hdead] at hlookup
      cases hlookup
  · intro r hr profile ram devices e hcall he _ hfailed
    obtain ⟨_, _, -, hinv, hrun⟩ := hrecord r hr
    exact record_inReach hinv hrun hcall he hfailed

/-- A CREATE whose START and DESTROY fail keeps its handle. -/
def keptClient : VmClient := issueHandle (ccVmClientInit true) ⟨0, by decide⟩ 0 1 0

def failedReply : VmReply := ⟨1, 0, fun _ => 0⟩

def keptRecord : CallRecord where
  call := .create 1 64 0
  before := ccVmClientInit true
  trace := [
    ⟨⟨ccVmClientInit true, vmManagerOpCreate, createPayload 1 64 0, 12⟩, ⟨0, 8, fun _ => 0⟩⟩,
    ⟨⟨keptClient, vmManagerOpStart, requestPayload 0 (fun _ => 0) 0, 4⟩, failedReply⟩,
    ⟨⟨keptClient, vmManagerOpDestroy, requestPayload 0 (fun _ => 0) 0, 4⟩, failedReply⟩]
  out := ⟨ccErrRelayFault, 1⟩
  after := keptClient

theorem keptRecord_history : History 1 true [keptRecord] keptClient :=
  .call .init (.op (.op (.op (.ret _))))

theorem guest_handles_kept : HandlesOk [keptRecord] keptClient /\ InReach keptRecord := by
  obtain ⟨hok, hreach⟩ := guest_handles 1 true [keptRecord] keptClient keptRecord_history
  exact ⟨hok, (hreach keptRecord mem_cons_self 1 64 0 _ rfl rfl rfl (by decide)).mpr rfl⟩

/-- The manager answers OK with a slot that is out of range. -/
def lostRecord : CallRecord where
  call := .create 1 64 0
  before := ccVmClientInit true
  trace := [⟨⟨ccVmClientInit true, vmManagerOpCreate, createPayload 1 64 0, 12⟩,
    ⟨0, 8, wr32 (fun _ => 0) 4 7⟩⟩]
  out := ⟨ccErrRelayFault, 0⟩
  after := ccVmClientInit true

theorem guest_lost : History 1 true [lostRecord] (ccVmClientInit true) /\
    (lostRecord.trace.head?.map fun e => answeredOk e.answer) = some true /\
    lostRecord.out.rc ≠ ccOk /\ ¬ InReach lostRecord := by
  refine ⟨.call .init (.op (.ret _)), rfl, by decide, ?_⟩
  rintro (⟨d, hd, hdestroy, -⟩ | ⟨hhandle, -⟩)
  · obtain rfl := mem_singleton.mp hd
    exact absurd hdestroy (by decide)
  · exact hhandle rfl

end AgentOs.Console
