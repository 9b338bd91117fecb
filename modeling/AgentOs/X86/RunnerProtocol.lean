import AgentOs.X86.Runner
import Mathlib.Data.List.Range

/-!
# What the runner and its coordinator agree on

The runner is followed through every sequence of messages, with every outcome of every entry,
and the coordinator through every reply.  Then the coordinator's calls are the only messages,
and each is answered by one turn of the runner.
-/

namespace AgentOs.X86

open Library Prog List

/-! ## One turn of the runner -/

/-- What one turn does: it leaves the state alone, or it enters once for the next number. -/
inductive TurnEffect (state : RunnerState) (m : Message) :
    Trace EnterIo -> Message -> RunnerState -> Prop where
  | refused : TurnEffect state m [] (wireReply none) state
  | entered (event : Event EnterIo) (reply : Option RunnerReply) :
      m.badge = aosX86RunnerOwnerBadge -> m.mr 1 = state.nextSequence -> state.nextSequence ≠ -1 ->
      state.failed = false -> (reply = none ↔ exitRefused event.answer.1 event.answer.2 = true) ->
      TurnEffect state m [event] (wireReply reply) ⟨state.nextSequence + 1, reply.isNone, false⟩

variable {state : RunnerState}

theorem refuses_eq_false {label words : UInt64} {request : RunnerRequest}
    (h : state.refuses label request words = false) :
    state.failed = false /\ state.nextSequence ≠ -1 /\ request.sequence = state.nextSequence := by
  simp only [RunnerState.refuses, Bool.or_eq_false_iff, beq_eq_false_iff_ne, bne_eq_false_iff_eq]
    at h
  obtain ⟨⟨⟨⟨⟨⟨⟨hfailed, -⟩, -⟩, hmax⟩, -⟩, -⟩, -⟩, hsequence⟩ := h
  exact ⟨hfailed, hmax, hsequence⟩

variable {after : RunnerState} {reply : Message}

theorem pdTurn_effect {m : Message} {trace : Trace EnterIo}
    (hrun : Run (pdTurn state m) trace (reply, after)) : TurnEffect state m trace reply after := by
  unfold pdTurn at hrun
  split at hrun
  case isFalse =>
    obtain ⟨rfl, ⟨⟩⟩ := run_ret_iff.mp hrun
    exact .refused
  case isTrue hcommand =>
    have hbadge : m.badge = aosX86RunnerOwnerBadge := by
      simp only [Message.isCommand, Bool.and_eq_true, beq_iff_eq] at hcommand
      exact hcommand.1.1.1.1
    unfold runnerStep at hrun
    dsimp only at hrun
    split at hrun
    · obtain ⟨rfl, ⟨⟩⟩ := run_ret_iff.mp hrun
      exact .refused
    case isFalse haccepts =>
      obtain ⟨hfailed, hmax, hsequence⟩ := refuses_eq_false (Bool.eq_false_iff.mpr haccepts)
      rw [perform_bind, op_bind, run_op_iff] at hrun
      obtain ⟨⟨success, returned⟩, rest, rfl, hrun⟩ := hrun
      dsimp only at hrun
      split at hrun
      case isTrue hexit =>
        obtain ⟨rfl, ⟨⟩⟩ := run_ret_iff.mp hrun
        exact .entered _ none hbadge hsequence hmax hfailed (iff_of_true rfl hexit)
      case isFalse hexit =>
        obtain ⟨rfl, ⟨⟩⟩ := run_ret_iff.mp hrun
        rw [hfailed]
        exact .entered _ (some _) hbadge hsequence hmax hfailed (iff_of_false nofun hexit)

/-! ## Every sequence of messages -/

/-- One message that the runner has answered, with the entries it made for it. -/
structure Handled where
  message : Message
  entries : Trace EnterIo

/-- The states of the loop and the messages behind them. -/
inductive RunnerReach : RunnerState -> List Handled -> Prop where
  | init : RunnerReach runnerInit []
  | message {state after : RunnerState} {history : List Handled} {reply : Message}
      (handled : Handled) : RunnerReach state history ->
      Run (pdTurn state handled.message) handled.entries (reply, after) ->
      RunnerReach after (history ++ [handled])

/-- The sequence number of each entry, in order. -/
def enteredSequences (history : List Handled) : List Nat :=
  history.flatMap fun handled => handled.entries.map fun _ => (handled.message.mr 1).toNat

/-- An entry that failed, or gave an exit that the runner does not pass on. -/
def EntryFailed (handled : Handled) : Prop :=
  ∃ event ∈ handled.entries, exitRefused event.answer.1 event.answer.2 = true

/-- Entries follow the sequence numbers from one on, are the owner's, and stop at a failure. -/
structure EntriesInOrder (history : List Handled) : Prop where
  sequences : enteredSequences history = range' 1 (enteredSequences history).length
  owner : ∀ handled ∈ history, handled.entries ≠ [] -> handled.message.badge = aosX86RunnerOwnerBadge
  stops : ∀ before after, history = before ++ after -> (∃ handled ∈ before, EntryFailed handled) ->
    ∀ handled ∈ after, handled.entries = []

/-- The state that belongs to a history. -/
structure RunnerInv (state : RunnerState) (history : List Handled) : Prop where
  order : EntriesInOrder history
  next : state.nextSequence.toNat = (enteredSequences history).length + 1
  latched : (∃ handled ∈ history, EntryFailed handled) -> state.failed = true

theorem enteredSequences_append (history : List Handled) (handled : Handled) :
    enteredSequences (history ++ [handled]) =
      enteredSequences history ++ handled.entries.map fun _ => (handled.message.mr 1).toNat := by
  simp [enteredSequences]

theorem toNat_succ_of_ne {a : UInt64} (ha : a ≠ -1) : (a + 1).toNat = a.toNat + 1 := by
  have hne : a.toNat ≠ 2 ^ 64 - 1 := by
    intro h
    exact ha (UInt64.toNat_inj.mp h)
  have hlt := a.toNat_lt
  rw [UInt64.toNat_add, UInt64.toNat_one, Nat.mod_eq_of_lt (by omega)]

variable {history : List Handled}

/-- The order is kept by a message without an entry, and by one with an entry when none failed. -/
theorem EntriesInOrder.snoc {handled : Handled} (horder : EntriesInOrder history)
    (hsequences : enteredSequences (history ++ [handled]) =
      range' 1 (enteredSequences (history ++ [handled])).length)
    (howner : handled.entries ≠ [] -> handled.message.badge = aosX86RunnerOwnerBadge)
    (hstops : (∃ earlier ∈ history, EntryFailed earlier) -> handled.entries = []) :
    EntriesInOrder (history ++ [handled]) where
  sequences := hsequences
  owner := by
    intro other hother hentries
    rcases mem_append.mp hother with hold | hnew
    · exact horder.owner other hold hentries
    · obtain rfl := mem_singleton.mp hnew
      exact howner hentries
  stops := by
    intro before after hsplit hfailed other hother
    rcases eq_nil_or_concat after with rfl | ⟨front, last, rfl⟩
    · cases hother
    · rw [concat_eq_append, <- append_assoc] at hsplit
      obtain ⟨rfl, hlast⟩ := append_inj' hsplit rfl
      obtain rfl := singleton_inj.mp hlast
      rcases mem_append.mp (concat_eq_append ▸ hother) with hold | hnew
      · exact horder.stops before front rfl hfailed other hold
      · obtain rfl := mem_singleton.mp hnew
        obtain ⟨earlier, hmem, hearlier⟩ := hfailed
        exact hstops ⟨earlier, mem_append_left _ hmem, hearlier⟩

theorem RunnerInv.turn {handled : Handled} (hinv : RunnerInv state history)
    (hrun : Run (pdTurn state handled.message) handled.entries (reply, after)) :
    RunnerInv after (history ++ [handled]) := by
  obtain ⟨message, entries⟩ := handled
  have hlatched : ∀ {handled : Handled}, (∃ other ∈ history ++ [handled], EntryFailed other) ->
      (∃ other ∈ history, EntryFailed other) \/ EntryFailed handled := by
    rintro handled ⟨other, hother, hfailed⟩
    rcases mem_append.mp hother with hold | hnew
    · exact .inl ⟨other, hold, hfailed⟩
    · exact .inr (mem_singleton.mp hnew ▸ hfailed)
  cases pdTurn_effect hrun with
  | refused =>
    have hsame : enteredSequences (history ++ [⟨message, []⟩]) = enteredSequences history := by
      rw [enteredSequences_append, map_nil, append_nil]
    refine ⟨hinv.order.snoc (hsame ▸ hinv.order.sequences) (absurd rfl) (fun _ => rfl),
      hsame ▸ hinv.next, fun hfailed => ?_⟩
    rcases hlatched hfailed with hold | ⟨event, hevent, -⟩
    · exact hinv.latched hold
    · cases hevent
  | entered event reply hbadge hsequence hmax hstate hreply =>
    have hmore : enteredSequences (history ++ [⟨message, [event]⟩]) =
        enteredSequences history ++ [(enteredSequences history).length + 1] := by
      rw [enteredSequences_append, map_singleton, hsequence, hinv.next]
    refine ⟨hinv.order.snoc ?_ (fun _ => hbadge) ?_, ?_, fun hfailed => ?_⟩
    · rw [hmore, length_append, length_singleton, range'_1_concat,
        <- hinv.order.sequences, Nat.add_comm 1]
    · intro hfailed
      exact absurd (hinv.latched hfailed) (by rw [hstate]; nofun)
    · rw [hmore, length_append, length_singleton, toNat_succ_of_ne hmax, hinv.next]
    · rcases hlatched hfailed with hold | ⟨other, hother, hrefused⟩
      · exact absurd (hinv.latched hold) (by rw [hstate]; nofun)
      · obtain rfl := mem_singleton.mp hother
        rw [hreply.mpr hrefused]
        rfl

theorem runnerReach_inv (hreach : RunnerReach state history) : RunnerInv state history := by
  induction hreach with
  | init =>
    refine ⟨⟨rfl, nofun, ?_⟩, rfl, nofun⟩
    rintro before after hsplit ⟨handled, hmem, -⟩
    rw [(append_eq_nil_iff.mp hsplit.symm).1] at hmem
    cases hmem
  | message handled _ hrun ih => exact ih.turn hrun

/-! ## One call of the coordinator -/

/-- The exit that a reply carries. -/
def exitOf (answer : Message) : RunnerExit :=
  ⟨answer.mr 2, answer.mr 3, copiedWords (answer.mr 4) fun i => answer.mr (5 + i)⟩

/-- A reply to the request that was sent with `sequence`, as long as its kind of exit needs. -/
structure Fits (answer : Message) (sequence : UInt64) : Prop where
  label : answer.label = aosX86RunnerReturn
  sequence : answer.mr 1 = sequence
  kind : answer.mr 2 = aosX86RunnerFault \/ answer.mr 2 = aosX86RunnerNotification
  count : answer.mr 4 = exitWords (answer.mr 2)
  length : answer.length = aosX86RunnerReplyHeaderWords + exitWords (answer.mr 2)

/-- What one call does: nothing, or one request with an exit or a failure that stays. -/
inductive CallEffect (s : RunnerState) (endpoint : UInt64) (entry : VmenterEntry) :
    Trace CallIo -> Option RunnerExit -> RunnerState -> Prop where
  | unsent : CallEffect s endpoint entry [] none s
  | returned (answer : Message) : s.failed = false -> Fits answer s.nextSequence ->
      CallEffect s endpoint entry
        [⟨.call endpoint (wireRequest s.nextSequence entry), answer⟩]
        (some (exitOf answer)) ⟨s.nextSequence + 1, false, false⟩
  | latched (answer : Message) :
      CallEffect s endpoint entry
        [⟨.call endpoint (wireRequest s.nextSequence entry), answer⟩]
        none ⟨s.nextSequence + 1, true, false⟩

theorem exitWords_ne_zero {result : UInt64} (h : exitWords result ≠ 0) :
    result = aosX86RunnerFault \/ result = aosX86RunnerNotification := by
  unfold exitWords at h
  split at h
  case isTrue hfault => exact .inl hfault
  split at h
  case isTrue hnotification => exact .inr hnotification
  case isFalse => exact absurd rfl h

theorem fits_of_valid {answer : Message} {sequence : UInt64} (hreturn : answer.isReturn = true)
    (hvalid : replyValid (readReply answer) answer.length sequence = true) :
    Fits answer sequence := by
  simp only [Message.isReturn, Bool.and_eq_true, beq_iff_eq] at hreturn
  unfold replyValid at hvalid
  split at hvalid
  · exact absurd hvalid nofun
  case isFalse hheader =>
    simp only [not_or, not_not] at hheader
    simp only [Bool.and_eq_true, bne_iff_ne, beq_iff_eq] at hvalid
    exact ⟨hreturn.1.1.1.1, hheader.2.2.2.2.2, exitWords_ne_zero hvalid.1.1.1, hvalid.1.1.2,
      hvalid.1.2⟩

variable {out : Option RunnerExit}

theorem runnerCall_effect {s : RunnerState} {endpoint : UInt64} {entry : VmenterEntry}
    {trace : Trace CallIo} (hrun : Run (runnerCall s endpoint entry) trace (out, after)) :
    CallEffect s endpoint entry trace out after := by
  unfold runnerCall at hrun
  split at hrun
  · obtain ⟨rfl, ⟨⟩⟩ := run_ret_iff.mp hrun
    exact .unsent
  case isFalse hopen =>
    simp only [not_or, Bool.not_eq_true] at hopen
    rw [perform_bind, run_op_iff] at hrun
    obtain ⟨answer, rest, rfl, hrun⟩ := hrun
    dsimp only at hrun
    split at hrun
    case isTrue hvalid =>
      obtain ⟨rfl, ⟨⟩⟩ := run_ret_iff.mp hrun
      rw [Bool.and_eq_true] at hvalid
      rw [hopen.2.1]
      exact .returned answer hopen.2.1 (fits_of_valid hvalid.1 hvalid.2)
    case isFalse =>
      obtain ⟨rfl, ⟨⟩⟩ := run_ret_iff.mp hrun
      exact .latched answer

/-- An exit comes only from a fitting reply to the request of this call, and a request without
one leaves the state failed. -/
structure CallLaw (s : RunnerState) (endpoint : UInt64) (entry : VmenterEntry)
    (trace : Trace CallIo) (out : Option RunnerExit) (after : RunnerState) : Prop where
  exit : ∀ returned, out = some returned -> ∃ answer,
    trace = [⟨.call endpoint (wireRequest s.nextSequence entry), answer⟩] /\
      Fits answer s.nextSequence /\ returned = exitOf answer
  latches : out = none -> trace ≠ [] -> after.failed = true
  unsent : trace = [] -> after = s

theorem CallEffect.law {s : RunnerState} {endpoint : UInt64} {entry : VmenterEntry}
    {trace : Trace CallIo} (heffect : CallEffect s endpoint entry trace out after) :
    CallLaw s endpoint entry trace out after := by
  cases heffect with
  | unsent => exact ⟨nofun, fun _ hsent => absurd rfl hsent, fun _ => rfl⟩
  | returned answer _ hfits =>
    exact ⟨fun returned hout => ⟨answer, rfl, hfits, (Option.some.inj hout).symm⟩, nofun, nofun⟩
  | latched answer => exact ⟨nofun, fun _ _ => rfl, nofun⟩

/-! ## The two together -/

/-- The message `received` is what the kernel makes of `sent`: registers beyond the length and
the badge are not the sender's. -/
def Delivers (sent received : Message) : Prop :=
  received.label = sent.label /\ received.length = sent.length /\
    received.extraCaps = sent.extraCaps /\ received.capsUnwrapped = sent.capsUnwrapped /\
    ∀ i < sent.length.toNat, received.mr i = sent.mr i

/-- One call of the coordinator; a request that it sends is answered by one turn of the runner. -/
inductive JointCall :
    RunnerState × RunnerState -> Option RunnerExit -> RunnerState × RunnerState -> Prop where
  | unsent {coordinator after runner : RunnerState} {endpoint : UInt64} {entry : VmenterEntry}
      {out : Option RunnerExit} :
      Run (runnerCall coordinator endpoint entry) [] (out, after) ->
      JointCall (coordinator, runner) out (after, runner)
  | sent {coordinator after runner runnerAfter : RunnerState} {endpoint target : UInt64}
      {entry : VmenterEntry} {out : Option RunnerExit} {request received reply answer : Message}
      {entries : Trace EnterIo} :
      Run (runnerCall coordinator endpoint entry) [⟨.call target request, answer⟩] (out, after) ->
      Delivers request received ->
      Run (pdTurn runner received) entries (reply, runnerAfter) ->
      Delivers reply answer ->
      JointCall (coordinator, runner) out (after, runnerAfter)

/-- The states after any number of calls. -/
inductive JointReach : RunnerState × RunnerState -> Prop where
  | init : JointReach (runnerInit, runnerInit)
  | call {joint after : RunnerState × RunnerState} {out : Option RunnerExit} :
      JointReach joint -> JointCall joint out after -> JointReach after

/-- A coordinator that has not failed counts as its runner does. -/
def InStep (joint : RunnerState × RunnerState) : Prop :=
  joint.1.failed = false -> joint.1.nextSequence = joint.2.nextSequence

theorem TurnEffect.next_of_return {m : Message} {trace : Trace EnterIo}
    (heffect : TurnEffect state m trace reply after) (hlabel : reply.label = aosX86RunnerReturn) :
    after.nextSequence = state.nextSequence + 1 := by
  cases heffect with
  | refused => cases hlabel
  | entered => rfl

variable {joint : RunnerState × RunnerState}

theorem JointCall.inStep {after : RunnerState × RunnerState} (hcall : JointCall joint out after)
    (hstep : InStep joint) : InStep after := by
  cases hcall with
  | unsent hrun =>
    have heffect := runnerCall_effect hrun
    cases heffect
    exact hstep
  | sent hrun _ hturn hback =>
    have heffect := runnerCall_effect hrun
    cases heffect with
    | returned _ hopen hfits =>
      -- both sides have counted this call
      intro _
      have hnext := (pdTurn_effect hturn).next_of_return (hback.1 ▸ hfits.label)
      exact hnext ▸ congrArg (· + 1) (hstep hopen)
    | latched => exact nofun

theorem JointCall.open_of_exit {after : RunnerState × RunnerState} {returned : RunnerExit}
    (hcall : JointCall joint (some returned) after) : after.1.failed = false := by
  cases hcall with
  | unsent hrun => cases runnerCall_effect hrun
  | sent hrun =>
    have heffect := runnerCall_effect hrun
    cases heffect
    rfl

theorem jointReach_inStep (hreach : JointReach joint) : InStep joint := by
  induction hreach with
  | init => exact fun _ => rfl
  | call _ hcall ih => exact hcall.inStep ih

/-- The protocol: the order of the entries for every sequence of messages, the law of every call,
and equal counters after every call of a pair that returned an exit. -/
theorem runner_protocol : (∀ state history, RunnerReach state history -> EntriesInOrder history) /\
      (∀ s endpoint entry trace out after,
        Run (runnerCall s endpoint entry) trace (out, after) ->
          CallLaw s endpoint entry trace out after) /\
      (∀ joint after returned, JointReach joint -> JointCall joint (some returned) after ->
        after.1.nextSequence = after.2.nextSequence) := by
  refine ⟨?_, ?_, ?_⟩
  · intro state history hreach
    exact (runnerReach_inv hreach).order
  · intro s endpoint entry trace out after hrun
    exact (runnerCall_effect hrun).law
  · intro joint after returned hreach hcall
    exact hcall.inStep (jointReach_inStep hreach) hcall.open_of_exit

/-- The first request of an owner is entered, and its replay is not.  When the coordinator sends
it, the call returns the exit, and both sides count on. -/
theorem runner_protocol_replay :
    let request := wireRequest 1 ⟨0, 0, 0⟩
    let first : Message := { request with badge := aosX86RunnerOwnerBadge }
    let entry : Event EnterIo := ⟨.enter fun i => first.mr (2 + i), (true, ⟨0, 0, fun _ => 0⟩)⟩
    let answer := wireReply (some ⟨1, 1, 0, 0, 3, copiedWords 3 fun _ => 0⟩)
    EntriesInOrder [⟨first, [entry]⟩, ⟨first, []⟩] /\ Fits answer 1 /\
      ∃ after, JointCall (runnerInit, runnerInit) (some (exitOf answer)) after /\
        after.1.nextSequence = 2 /\ after.1.nextSequence = after.2.nextSequence := by
  intro request first entry answer
  let next : RunnerState := ⟨2, false, false⟩
  have hturn : Run (pdTurn runnerInit first) [entry] (answer, next) := .op (.ret _)
  have hfirst : RunnerReach next [⟨first, [entry]⟩] := .message _ .init hturn
  have hreplay : RunnerReach next [⟨first, [entry]⟩, ⟨first, []⟩] :=
    .message ⟨first, []⟩ hfirst (.ret _)
  have hcall : Run (runnerCall runnerInit 7 ⟨0, 0, 0⟩) [⟨.call 7 request, answer⟩]
      (some (exitOf answer), next) := .op (.ret _)
  have hsent : Delivers request first := ⟨rfl, rfl, rfl, rfl, fun _ _ => rfl⟩
  have hjoint : JointCall (runnerInit, runnerInit) (some (exitOf answer)) (next, next) :=
    .sent hcall hsent hturn ⟨rfl, rfl, rfl, rfl, fun _ _ => rfl⟩
  obtain ⟨horder, hlaw, hstep⟩ := runner_protocol
  obtain ⟨answer', htrace, hfits, -⟩ := (hlaw _ _ _ _ _ _ hcall).exit _ rfl
  obtain rfl := congrArg Event.answer (singleton_inj.mp htrace)
  exact ⟨horder _ _ hreplay, hfits, (next, next), hjoint, rfl, hstep _ _ _ .init hjoint⟩

end AgentOs.X86
