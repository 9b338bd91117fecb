import AgentOs.VirtioBlk.System

/-!
# Completions of the block driver

While the device has nothing left of a medium, the only chain that can advance the used index is
the one published next.  A chain that the driver gave up on breaks this.
-/

open Function (update update_self update_of_ne)

namespace AgentOs.VirtioBlk

open Library Prog Ipc BlkVirt List

/-! ## The bookkeeping of a queue -/

structure QueueInv (x : Medium) : Prop where
  avail : x.queue.availIdx = .ofNat x.published
  last : x.lastAvail = .ofNat x.taken
  behind : x.taken <= x.published

theorem ofNat_succ (n : Nat) : UInt16.ofNat n + 1 = .ofNat (n + 1) := by
  rw [UInt16.ofNat_add]
  rfl

variable {sharedPaddr base : UInt64} {admits : Driver -> Sel4Msg -> BlkSystem -> Prop} {m : MediaId}
  {call : Call} {s : BlkSystem} {driver : Driver} {req : Sel4Msg} {io : Io} {x y : Medium}
  {c : Chain}

theorem QueueInv.of_same (hinv : QueueInv x) (havail : y.queue.availIdx = x.queue.availIdx)
    (hlast : y.lastAvail = x.lastAvail) (htaken : y.taken = x.taken)
    (hpublished : y.published = x.published) : QueueInv y := by
  refine ⟨?_, ?_, ?_⟩
  · rw [havail, hpublished]
    exact hinv.avail
  · rw [hlast, htaken]
    exact hinv.last
  · rw [htaken, hpublished]
    exact hinv.behind

theorem QueueInv.step (hinv : QueueInv x) (hstep : DeviceStep base x y) : QueueInv y := by
  cases hstep with
  | take hnext hchain =>
    obtain ⟨havail, hlast, hbehind⟩ := hinv
    have hless : x.taken ≠ x.published := by
      intro heq
      rw [havail, hlast, heq] at hnext
      exact hnext rfl
    refine ⟨havail, ?_, ?_⟩
    · simp only [Medium.taken, length_append, length_singleton] at hlast ⊢
      rw [hlast, ofNat_succ]
      congr 1
      omega
    · simp only [Medium.taken, length_append, length_singleton] at hless hbehind ⊢
      omega
  | move hflight =>
    refine hinv.of_same rfl rfl ?_ rfl
    simp [Medium.taken, hflight, Medium.transfer]
  | answer hflight _ =>
    refine hinv.of_same rfl rfl ?_ rfl
    simp [Medium.taken, hflight, Medium.putStatus]
  | complete hflight =>
    refine hinv.of_same rfl rfl ?_ rfl
    simp only [Medium.taken, hflight, length_append, length_cons, length_nil]
    omega

/-- The device has nothing to do. -/
def Medium.Quiet (x : Medium) : Prop := x.inFlight = [] /\ x.lastAvail = x.queue.availIdx

theorem QueueInv.quiet (hinv : QueueInv x) (hsettled : x.Settled) : x.Quiet := by
  have hbehind := hinv.behind
  have hempty : x.inFlight = [] := by
    apply eq_nil_of_length_eq_zero
    simp only [Medium.taken, Medium.Settled] at hbehind hsettled
    omega
  refine ⟨hempty, ?_⟩
  rw [hinv.last, hinv.avail]
  congr 1
  have htaken : x.taken = x.completed.length := by simp [Medium.taken, hempty]
  exact htaken.trans hsettled

theorem Medium.Quiet.no_step (hquiet : x.Quiet) : ¬ DeviceStep base x y := by
  intro hstep
  cases hstep with
  | take hnext _ => exact hnext hquiet.2
  | move hflight => simp [hquiet.1] at hflight
  | answer hflight _ => simp [hquiet.1] at hflight
  | complete hflight => simp [hquiet.1] at hflight

/-! ## Assertions during a call -/

def Good (s : BlkSystem) : Prop := (∀ m, QueueInv (s.media m)) /\ ∀ r ∈ s.history, r.Own

def At (m : MediaId) (call : Call) (P : Medium -> Prop) (s : BlkSystem) : Prop :=
  Good s /\ s.current = some call /\ P (s.media m)

/-- What the device of a medium keeps. -/
def Kept (base : UInt64) (P : Medium -> Prop) : Prop := ∀ x y, DeviceStep base x y -> P x -> P y

theorem kept_eq (hquiet : x.Quiet) : Kept base (· = x) := by
  rintro y z hstep rfl
  exact absurd hstep hquiet.no_step

variable {P R : Medium -> Prop}

theorem setMedium_media (s : BlkSystem) (m other : MediaId) (x : Medium) :
    (s.setMedium m x).media other = if other = m then x else s.media other := by
  by_cases heq : other = m
  · subst heq
    simp [BlkSystem.setMedium]
  · simp [BlkSystem.setMedium, heq]

theorem Good.setMedium (hgood : Good s) (m : MediaId) {x : Medium} (hinv : QueueInv x) :
    Good (s.setMedium m x) := by
  refine ⟨fun other => ?_, hgood.2⟩
  rw [setMedium_media]
  split
  · exact hinv
  · exact hgood.1 other

theorem Good.env {s' : BlkSystem} (hgood : Good s)
    (hstep : Surroundings (windowBase sharedPaddr) s s') : Good s' := by
  cases hstep with
  | device hdevice => exact hgood.setMedium _ ((hgood.1 _).step hdevice)
  | @client m bytes _ => exact hgood.setMedium m ((hgood.1 m).of_same rfl rfl rfl rfl)

theorem stable_at (hkept : Kept (windowBase sharedPaddr m) P) :
    (blkServer sharedPaddr admits).Stable (At m call P) := by
  rintro s s' hstep ⟨hgood, hcurrent, hP⟩
  refine ⟨hgood.env hstep, ?_, ?_⟩
  · cases hstep with
    | device _ => exact hcurrent
    | client _ _ => exact hcurrent
  · cases hstep with
    | device hdevice =>
      rw [setMedium_media]
      split
      case isTrue heq =>
        subst heq
        exact hkept _ _ hdevice hP
      case isFalse => exact hP
    | client _ hnone => exact absurd (hcurrent.symm.trans hnone) (by simp)

theorem At.good (h : At m call P s) : Good s := h.1

theorem safe_write {w : Write} (hkept : Kept (windowBase sharedPaddr m) P)
    (hafter : Kept (windowBase sharedPaddr m) R)
    (hstore : ∀ x, QueueInv x -> P x -> QueueInv (x.store w) /\ R (x.store w)) (hs : At m call P s) :
    (blkServer sharedPaddr admits).Safe Good (fun _ => At m call R) (write m w) s := by
  refine Machine.safe_op (stable_at hkept) hs (fun _ h => h.good) ?_
  rintro s answer s' ⟨hgood, hcurrent, hP⟩ ⟨⟩
  obtain ⟨hinv, hR⟩ := hstore _ (hgood.1 m) hP
  refine Machine.safe_ret (stable_at hafter) ⟨hgood.setMedium m hinv, hcurrent, ?_⟩
    fun s h => ⟨h.good, h⟩
  rw [setMedium_media, if_pos rfl]
  exact hR

theorem safe_look {α : Type} {request : DriverOp} {next : DriverIo.Ans request -> DriverM α}
    {Q : α -> BlkSystem -> Prop} (value : Medium -> DriverIo.Ans request)
    (hlook : ∀ s, access request s = (value (s.media m), s))
    (hkept : Kept (windowBase sharedPaddr m) P) (hs : At m call P s)
    (hnext : ∀ s, At m call P s ->
      (blkServer sharedPaddr admits).Safe Good Q (next (value (s.media m))) s) :
    (blkServer sharedPaddr admits).Safe Good Q (perform request >>= next) s := by
  refine Machine.safe_op (stable_at hkept) hs (fun _ h => h.good) ?_
  intro s answer s' hAt hexec
  have heq : (answer, s') = (value (s.media m), s) := hexec.symm.trans (hlook s)
  obtain ⟨rfl, rfl⟩ := Prod.mk.inj heq
  exact hnext s' hAt

theorem safe_ret {α : Type} {value : α} (hkept : Kept (windowBase sharedPaddr m) P)
    (hs : At m call P s) :
    (blkServer sharedPaddr admits).Safe Good (fun _ => At m call P) (.ret value) s :=
  Machine.safe_ret (stable_at hkept) hs fun _ h => ⟨h.good, h⟩

/-! ## Building the request -/

/-- Every store but the one of the available index. -/
def Write.Builds : Write -> Prop
  | .availIdx _ => False
  | _ => True

variable {w : Write}

theorem store_builds (hbuilds : w.Builds) :
    (x.store w).queue.availIdx = x.queue.availIdx /\ (x.store w).lastAvail = x.lastAvail /\
      (x.store w).inFlight = x.inFlight /\ (x.store w).published = x.published /\
      (x.store w).completed = x.completed := by
  cases w <;> first | exact ⟨rfl, rfl, rfl, rfl, rfl⟩ | exact absurd hbuilds id

theorem QueueInv.store (hinv : QueueInv x) (hbuilds : w.Builds) : QueueInv (x.store w) := by
  obtain ⟨havail, hlast, hflight, hpublished, hcompleted⟩ := store_builds (x := x) hbuilds
  refine hinv.of_same havail hlast ?_ hpublished
  unfold Medium.taken
  rw [hflight, hcompleted]

theorem Medium.Quiet.store (hquiet : x.Quiet) (hbuilds : w.Builds) : (x.store w).Quiet := by
  obtain ⟨havail, hlast, hflight, -, -⟩ := store_builds (x := x) hbuilds
  refine ⟨hflight.trans hquiet.1, ?_⟩
  rw [hlast, havail]
  exact hquiet.2

def Medium.storeAll (x : Medium) (ws : List Write) : Medium := ws.foldl Medium.store x

theorem Medium.Quiet.storeAll {ws : List Write} (hquiet : x.Quiet) (hbuilds : ∀ w ∈ ws, w.Builds) :
    (x.storeAll ws).Quiet := by
  induction ws generalizing x with
  | nil => exact hquiet
  | cons w rest ih =>
    obtain ⟨hfirst, hrest⟩ := forall_mem_cons.mp hbuilds
    exact ih (hquiet.store hfirst) hrest

theorem safe_writeAll {ws : List Write} (hbuilds : ∀ w ∈ ws, w.Builds) (hquiet : x.Quiet)
    (hs : At m call (· = x) s) :
    (blkServer sharedPaddr admits).Safe Good (fun _ => At m call (· = x.storeAll ws))
      (writeAll m ws) s := by
  induction ws generalizing x s with
  | nil => exact safe_ret (kept_eq hquiet) hs
  | cons w rest ih =>
    obtain ⟨hfirst, hrest⟩ := forall_mem_cons.mp hbuilds
    have hnext := hquiet.store hfirst
    refine Machine.Safe.bind (safe_write (R := (· = x.store w)) (kept_eq hquiet) (kept_eq hnext)
      ?_ hs) ?_
    · rintro y hinv rfl
      exact ⟨hinv.store hfirst, rfl⟩
    · intro _ s hs
      exact ih hrest hnext hs

/-- The chain is in the available ring. -/
def Medium.publish (x : Medium) : Medium :=
  (x.store (.availRing (x.queue.availIdx % virtioBlkQueueSize) 0)).store
    (.availIdx (x.queue.availIdx + 1))

theorem publish_usedIdx (x : Medium) : x.publish.queue.usedIdx = x.queue.usedIdx := rfl

theorem QueueInv.publish (hinv : QueueInv x) : QueueInv x.publish := by
  refine ⟨?_, hinv.last, Nat.le_succ_of_le hinv.behind⟩
  show x.queue.availIdx + 1 = .ofNat (x.published + 1)
  rw [hinv.avail, ofNat_succ]

theorem safe_publish (hquiet : x.Quiet)
    (hkept : Kept (windowBase sharedPaddr m) P) (hP : P x.publish) (hs : At m call (· = x) s) :
    (blkServer sharedPaddr admits).Safe Good
      (fun before s => before = x.queue.usedIdx /\ At m call P s) (publish m) s := by
  let ring := Write.availRing (x.queue.availIdx % virtioBlkQueueSize) 0
  have hring : (x.store ring).Quiet := hquiet.store trivial
  have hx : QueueInv x := hs.2.2 ▸ hs.1.1 m
  refine safe_look (fun y => y.queue.usedIdx) (fun _ => rfl) (kept_eq hquiet) hs ?_
  intro s hs
  rw [hs.2.2]
  refine safe_look (fun y => y.queue.availIdx) (fun _ => rfl) (kept_eq hquiet) hs ?_
  intro s hs
  rw [hs.2.2]
  refine Machine.Safe.bind (safe_write (R := (· = x.store ring)) (kept_eq hquiet) (kept_eq hring)
    ?_ hs) ?_
  · rintro y hinv rfl
    exact ⟨hinv.store trivial, rfl⟩
  intro _ s hs
  refine Machine.Safe.bind (safe_write (R := P) (kept_eq hring) hkept ?_ hs) ?_
  · rintro y - rfl
    exact ⟨hx.publish, hP⟩
  intro _ s hs
  exact Machine.safe_ret (stable_at hkept) hs fun _ h => ⟨h.good, rfl, h⟩

/-! ## The request and its chain -/

section Request

variable (base : UInt64) (io : Io) (x : Medium)

/-- The medium when the chain has just been published. -/
def requested : Medium := (x.storeAll (requestWrites base io.type io.sector io.count)).publish

def ioChain : Chain where
  number := x.taken
  hdr := ⟨io.type, 0, io.sector⟩
  data := if io.type = virtioBlkTFlush then none
    else some (base + dmaDataOffset.toUInt64, io.count * 512)
  statusAddr := base + (dmaStatusOffset io.count).toUInt64

theorem requestWrites_builds : ∀ w ∈ requestWrites base io.type io.sector io.count, w.Builds := by
  simp [requestWrites, Write.Builds]

theorem requested_bytes : (requested base io x).queue.bytes =
    update x.queue.bytes (dmaStatusOffset io.count).toNat 0xff := rfl

theorem requested_desc :
    (requested base io x).queue.desc 0 = ⟨base + dmaHdrOffset.toUInt64, 16, virtqDescFNext,
      if io.type = virtioBlkTFlush then 2 else 1⟩ /\
    (requested base io x).queue.desc 1 = ⟨base + dmaDataOffset.toUInt64, io.count * 512,
      virtqDescFNext ||| (if io.type = virtioBlkTIn then virtqDescFWrite else 0), 2⟩ /\
    (requested base io x).queue.desc 2 =
      ⟨base + (dmaStatusOffset io.count).toUInt64, 1, virtqDescFWrite, 0⟩ := by
  simp [requested, Medium.storeAll, requestWrites, Medium.store, QueueMem.store, QueueMem.setDesc,
    Medium.publish, update]

theorem flags_next (type : UInt32) :
    (virtqDescFNext ||| (if type = virtioBlkTIn then virtqDescFWrite else 0)) &&&
      virtqDescFNext ≠ 0 := by
  split <;> decide

theorem walk_next {desc : UInt16 -> VirtqDesc} {i : UInt16} {d : VirtqDesc} (n : Nat)
    (hdesc : desc i = d) (hflags : d.flags &&& virtqDescFNext ≠ 0) :
    walk desc (n + 1) i = d :: walk desc n d.next := by
  rw [walk, hdesc, if_pos hflags]

theorem walk_end {desc : UInt16 -> VirtqDesc} {i : UInt16} {d : VirtqDesc} (n : Nat)
    (hdesc : desc i = d) (hflags : d.flags &&& virtqDescFNext = 0) :
    walk desc (n + 1) i = [d] := by
  rw [walk, hdesc, if_neg (not_not.mpr hflags)]

/-- The device finds the request that the driver has built. -/
theorem requested_nextChain (hquiet : x.Quiet) :
    (requested base io x).nextChain = some (ioChain base io x) := by
  have hhead : (requested base io x).queue.availRing
      ((requested base io x).lastAvail % virtioBlkQueueSize) = 0 := by
    show update x.queue.availRing (x.queue.availIdx % virtioBlkQueueSize) 0
      (x.lastAvail % virtioBlkQueueSize) = 0
    rw [hquiet.2, update_self]
  have hsize : virtioBlkQueueSize.toNat = 5 + 1 + 1 + 1 := rfl
  have hnext : virtqDescFNext &&& virtqDescFNext ≠ 0 := by decide
  have hwrite : virtqDescFWrite &&& virtqDescFNext = 0 := by decide
  obtain ⟨hzero, hone, htwo⟩ := requested_desc base io x
  have hfirst := walk_next (5 + 1 + 1) hzero hnext
  have hsecond := walk_next (5 + 1) hone (flags_next io.type)
  have hlast := fun n => walk_end n htwo hwrite
  unfold Medium.nextChain ioChain
  rw [hhead, hsize, hfirst]
  by_cases hflush : io.type = virtioBlkTFlush
  · rw [if_pos hflush, hlast, if_pos hflush]
    rfl
  · rw [if_neg hflush, hsecond, hlast, if_neg hflush]
    rfl

end Request

/-! ## The device works on one chain -/

/-- The transfer of a chain may fail before the data has moved. -/
def Medium.moveIf (base : UInt64) (x : Medium) (c : Chain) (moved : Bool) : Medium :=
  if moved then x.transfer base c else x

theorem moveIf_availIdx (base : UInt64) (x : Medium) (c : Chain) (moved : Bool) :
    (x.moveIf base c moved).queue.availIdx = x.queue.availIdx := by
  cases moved <;> rfl

def Medium.finished (base : UInt64) (x : Medium) (c : Chain) (moved : Bool) (status : UInt8) :
    Medium :=
  let y := (x.moveIf base c moved).putStatus base c status
  { y with
    queue := { y.queue with usedIdx := x.queue.usedIdx + 1 }
    lastAvail := x.lastAvail + 1
    inFlight := []
    completed := x.completed ++ [(c, status)] }

/-- How far the device is with the only chain it has. -/
inductive Progress (base : UInt64) (x : Medium) (c : Chain) : Medium -> Prop where
  | published : Progress base x c x
  | taken : Progress base x c
      { x with lastAvail := x.lastAvail + 1, inFlight := [(c, .taken)] }
  | moved : Progress base x c
      { x.transfer base c with lastAvail := x.lastAvail + 1, inFlight := [(c, .moved)] }
  | answered (moved : Bool) (status : UInt8) : (status = virtioBlkSOk -> moved = true) ->
      Progress base x c
        { (x.moveIf base c moved).putStatus base c status with
          lastAvail := x.lastAvail + 1, inFlight := [(c, .answered status)] }
  | completed (moved : Bool) (status : UInt8) : (status = virtioBlkSOk -> moved = true) ->
      Progress base x c (x.finished base c moved status)

theorem singleton_eq_append {α : Type} {a b : α} {before after : List α}
    (heq : [a] = before ++ b :: after) : before = [] /\ b = a /\ after = [] := by
  cases before with
  | nil =>
    obtain ⟨rfl, rfl⟩ := List.cons.inj heq
    exact ⟨rfl, rfl, rfl⟩
  | cons first rest =>
    obtain ⟨-, htail⟩ := List.cons.inj heq
    exact absurd htail (by simp)

/-- One chain is in the available ring, and the device has no other. -/
structure OneChain (x : Medium) (c : Chain) : Prop where
  idle : x.inFlight = []
  one : x.lastAvail + 1 = x.queue.availIdx
  chain : x.nextChain = some c

theorem OneChain.finished (hone : OneChain x c) (moved : Bool) (status : UInt8) :
    (x.finished base c moved status).Quiet :=
  ⟨rfl, hone.one.trans (moveIf_availIdx base x c moved).symm⟩

/-- A device with one chain moves its data, answers it or completes it. -/
theorem DeviceStep.single {stage : Stage} {z : Medium} (hstep : DeviceStep base y z)
    (hflight : y.inFlight = [(c, stage)]) (hlast : y.lastAvail = y.queue.availIdx) :
    (stage = .taken /\ z = { y.transfer base c with inFlight := [(c, .moved)] }) \/
    (∃ status, (stage = .moved \/ stage = .taken /\ status ≠ virtioBlkSOk) /\
      z = { y.putStatus base c status with inFlight := [(c, .answered status)] }) \/
    ∃ status, stage = .answered status /\
      z = { y with
        queue := { y.queue with usedIdx := y.queue.usedIdx + 1 }
        inFlight := []
        completed := y.completed ++ [(c, status)] } := by
  cases hstep with
  | take hnext _ => exact absurd hlast hnext
  | move hsplit =>
    obtain ⟨rfl, ⟨⟩, rfl⟩ := singleton_eq_append (hflight.symm.trans hsplit)
    exact .inl ⟨rfl, rfl⟩
  | answer hsplit hstage =>
    obtain ⟨rfl, ⟨⟩, rfl⟩ := singleton_eq_append (hflight.symm.trans hsplit)
    exact .inr (.inl ⟨_, hstage, rfl⟩)
  | complete hsplit =>
    obtain ⟨rfl, ⟨⟩, rfl⟩ := singleton_eq_append (hflight.symm.trans hsplit)
    exact .inr (.inr ⟨_, rfl, rfl⟩)

theorem Progress.step (hone : OneChain x c) : Kept base (Progress base x c) := by
  intro y z hstep hprogress
  cases hprogress with
  | published =>
    cases hstep with
    | take _ hchain =>
      obtain rfl := Option.some.inj (hone.chain.symm.trans hchain)
      rw [hone.idle]
      exact .taken
    | move hflight => simp [hone.idle] at hflight
    | answer hflight _ => simp [hone.idle] at hflight
    | complete hflight => simp [hone.idle] at hflight
  | taken =>
    rcases hstep.single rfl hone.one with ⟨-, rfl⟩ | ⟨status, hstage, rfl⟩ | ⟨_, hstage, -⟩
    · exact .moved
    · exact .answered false _ fun hok => absurd hok (hstage.resolve_left nofun).2
    · cases hstage
  | moved =>
    rcases hstep.single rfl hone.one with ⟨hstage, -⟩ | ⟨status, -, rfl⟩ | ⟨_, hstage, -⟩
    · cases hstage
    · exact .answered true _ fun _ => rfl
    · cases hstage
  | answered moved status hmoved =>
    rcases hstep.single rfl (hone.one.trans (moveIf_availIdx base x c _).symm) with
      ⟨hstage, -⟩ | ⟨_, hstage | ⟨hstage, -⟩, -⟩ | ⟨_, hstage, rfl⟩ <;> cases hstage
    cases moved
    · exact .completed false _ hmoved
    · exact .completed true _ hmoved
  | completed moved status _ => exact absurd hstep (hone.finished moved status).no_step

theorem Progress.finished (hprogress : Progress base x c y)
    (hmoved : y.queue.usedIdx ≠ x.queue.usedIdx) : ∃ moved status,
      (status = virtioBlkSOk -> moved = true) /\ y = x.finished base c moved status := by
  cases hprogress with
  | published => exact absurd rfl hmoved
  | taken => exact absurd rfl hmoved
  | moved => exact absurd rfl hmoved
  | answered moved status _ => cases moved <;> exact absurd rfl hmoved
  | completed moved status hstatus => exact ⟨moved, status, hstatus, rfl⟩

/-- What a status of the driver says about the medium. -/
def Outcome (base : UInt64) (x : Medium) (c : Chain) (count rc : UInt32) (y : Medium) : Prop :=
  Progress base x c y /\ (rc = blkOk -> y.queue.usedIdx ≠ x.queue.usedIdx /\
    y.queue.bytes (dmaStatusOffset count).toNat = virtioBlkSOk)

theorem kept_used (hone : OneChain x c) (P : Medium -> Prop) :
    Kept base fun y => Progress base x c y /\ y.queue.usedIdx ≠ x.queue.usedIdx /\ P y := by
  rintro y z hstep ⟨hprogress, hused, -⟩
  obtain ⟨moved, status, -, rfl⟩ := hprogress.finished hused
  exact absurd hstep (hone.finished moved status).no_step

theorem kept_outcome (hone : OneChain x c) (count rc : UInt32) :
    Kept base (Outcome base x c count rc) := by
  intro y z hstep hy
  by_cases hok : rc = blkOk
  · obtain ⟨hused, hstatus⟩ := hy.2 hok
    have hkept := kept_used hone
      (fun y => y.queue.bytes (dmaStatusOffset count).toNat = virtioBlkSOk) y z hstep
      ⟨hy.1, hused, hstatus⟩
    exact ⟨hkept.1, fun _ => hkept.2⟩
  · exact ⟨Progress.step hone y z hstep hy.1, fun h => absurd h hok⟩

/-! ## What a completed chain leaves -/

theorem windowOff_add (base : UInt64) (off : UInt32) :
    windowOff base (base + off.toUInt64) = off.toNat := by
  unfold windowOff
  rw [UInt64.add_comm, UInt64.add_sub_cancel]
  exact UInt32.toNat_toUInt64 off

theorem requested_one (hquiet : x.Quiet) : OneChain (requested base io x) (ioChain base io x) where
  idle := hquiet.1
  one := congrArg (· + 1) hquiet.2
  chain := requested_nextChain base io x hquiet

theorem length_toNat (hcount : io.count.toNat <= 2047) :
    (io.count * 512).toNat = io.count.toNat * 512 := by
  have hsize : (512 : UInt32).toNat = 512 := rfl
  rw [UInt32.toNat_mul, hsize]
  exact Nat.mod_eq_of_lt (by omega)

theorem statusOffset_toNat (hcount : io.count.toNat <= 2047) :
    (dmaStatusOffset io.count).toNat = dmaDataOffset.toNat + io.count.toNat * 512 := by
  unfold dmaStatusOffset
  rw [UInt32.toNat_add, length_toNat hcount]
  exact Nat.mod_eq_of_lt (by simp; omega)

theorem ioChain_data (base : UInt64) (x : Medium) (hflush : io.type ≠ virtioBlkTFlush) :
    (ioChain base io x).data = some (base + dmaDataOffset.toUInt64, io.count * 512) :=
  if_neg hflush

theorem bytesAfter_read (hcount : io.count.toNat <= 2047) (htype : io.type = virtioBlkTIn)
    (bytes disk : Nat -> UInt8) : (ioChain base io x).bytesAfter base bytes disk =
      copyRange disk bytes (io.sector.toNat * 512) dmaDataOffset.toNat (io.count.toNat * 512) := by
  have hdata := ioChain_data base x (htype ▸ by decide : io.type ≠ virtioBlkTFlush)
  unfold Chain.bytesAfter
  rw [hdata]
  dsimp only
  rw [windowOff_add, length_toNat hcount]
  exact if_pos htype

theorem diskAfter_write (hcount : io.count.toNat <= 2047) (htype : io.type = virtioBlkTOut)
    (bytes disk : Nat -> UInt8) : (ioChain base io x).diskAfter base bytes disk =
      copyRange bytes disk dmaDataOffset.toNat (io.sector.toNat * 512) (io.count.toNat * 512) := by
  have hdata := ioChain_data base x (htype ▸ by decide : io.type ≠ virtioBlkTFlush)
  unfold Chain.diskAfter
  rw [hdata]
  dsimp only
  rw [windowOff_add, length_toNat hcount]
  exact if_pos htype

theorem diskAfter_read (htype : io.type = virtioBlkTIn) (bytes disk : Nat -> UInt8) :
    (ioChain base io x).diskAfter base bytes disk = disk := by
  have hwrite : (ioChain base io x).hdr.type ≠ virtioBlkTOut := by
    show io.type ≠ virtioBlkTOut
    rw [htype]
    decide
  unfold Chain.diskAfter
  split
  case h_1 => rfl
  case h_2 => exact if_neg hwrite

/-- The driver returns success: the chain that was completed is the one of this call. -/
theorem Outcome.own (hcount : io.count.toNat <= 2047) (hquiet : x.Quiet) (hsettled : x.Settled)
    (houtcome : Outcome base (requested base io x) (ioChain base io x) io.count blkOk y) :
    OwnCompletion io x y := by
  obtain ⟨hprogress, hok⟩ := houtcome
  obtain ⟨hused, hstatus⟩ := hok rfl
  obtain ⟨moved, status, hmoved, rfl⟩ := hprogress.finished hused
  have hoff : windowOff base (ioChain base io x).statusAddr = (dmaStatusOffset io.count).toNat :=
    windowOff_add base _
  have hzero : status = virtioBlkSOk := by
    have hbyte : update ((requested base io x).moveIf base (ioChain base io x)
        moved).queue.bytes (windowOff base (ioChain base io x).statusAddr) status
        (dmaStatusOffset io.count).toNat = virtioBlkSOk := hstatus
    rwa [hoff, update_self] at hbyte
  obtain rfl := hmoved hzero
  subst hzero
  -- the status byte lies behind the data
  have hapart : ∀ i, i < io.count.toNat * 512 ->
      dmaDataOffset.toNat + i ≠ (dmaStatusOffset io.count).toNat := by
    intro i hi
    rw [statusOffset_toNat hcount]
    omega
  refine ⟨⟨ioChain base io x, mem_append_right _ (mem_singleton_self _), ?_, rfl⟩, ?_, ?_⟩
  · show x.inFlight.length + x.completed.length = x.published
    rw [hquiet.1, length_nil, Nat.zero_add]
    exact hsettled
  · intro htype i hi
    show update ((ioChain base io x).bytesAfter base _ x.disk) _ virtioBlkSOk
        (dmaDataOffset.toNat + i) = (ioChain base io x).diskAfter base _ x.disk _
    rw [hoff, update_of_ne (hapart i hi), bytesAfter_read hcount htype,
      diskAfter_read htype, copyRange_inside _ _ _ _ hi]
  · intro htype i hi
    show (ioChain base io x).diskAfter base (requested base io x).queue.bytes x.disk _ = _
    rw [diskAfter_write hcount htype, copyRange_inside _ _ _ _ hi, requested_bytes,
      update_of_ne (hapart i hi)]

/-! ## One transfer -/

theorem safe_poll (hone : OneChain x c) (iters : Nat)
    (hs : At m call (Progress (windowBase sharedPaddr m) x c) s) :
    (blkServer sharedPaddr admits).Safe Good
      (fun done => At m call fun y => Progress (windowBase sharedPaddr m) x c y /\
        (done = true -> y.queue.usedIdx ≠ x.queue.usedIdx))
      (poll m x.queue.usedIdx iters) s := by
  have hkept : Kept (windowBase sharedPaddr m) (Progress (windowBase sharedPaddr m) x c) :=
    Progress.step hone
  induction iters generalizing s with
  | zero =>
    exact Machine.safe_ret (stable_at hkept) hs fun _ h =>
      ⟨h.good, h.1, h.2.1, h.2.2, nofun⟩
  | succ iters ih =>
    refine safe_look (fun y => y.queue.usedIdx) (fun _ => rfl) hkept hs ?_
    intro s hs
    by_cases hmoved : (s.media m).queue.usedIdx = x.queue.usedIdx
    · exact (if_pos hmoved).symm ▸ ih hs
    · refine (if_neg hmoved).symm ▸ ?_
      refine Machine.safe_ret (stable_at (kept_used hone fun _ => True))
        ⟨hs.1, hs.2.1, hs.2.2, hmoved, trivial⟩ fun _ h => ?_
      exact ⟨h.good, h.1, h.2.1, h.2.2.1, fun _ => h.2.2.2.1⟩

/-- The fields that are set at initialization. -/
def SameDevice (device after : BlkDevice) : Prop :=
  after.mediaId = device.mediaId /\ after.dmaOff = device.dmaOff

theorem safe_result {count : UInt32} {device : BlkDevice} {result : UInt32 × BlkDevice}
    (hone : OneChain x c) (hsame : SameDevice device result.2)
    (hs : At m call (Outcome (windowBase sharedPaddr m) x c count result.1) s) :
    (blkServer sharedPaddr admits).Safe Good
      (fun result s => SameDevice device result.2 /\
        At m call (Outcome (windowBase sharedPaddr m) x c count result.1) s) (.ret result) s :=
  Machine.safe_ret (stable_at (kept_outcome hone count result.1)) hs fun _ h => ⟨h.good, hsame, h⟩

theorem outcome_fail {base : UInt64} (device : BlkDevice) (count : UInt32)
    (hprogress : Progress base x c y) : Outcome base x c count device.fail.1 y :=
  ⟨hprogress, fun hok => absurd hok (by decide : blkErrIo ≠ blkOk)⟩

theorem safe_awaitStatus {before : UInt16} (hone : OneChain x c)
    (hbefore : before = x.queue.usedIdx) (device : BlkDevice) (count : UInt32) (hs :
      At m call (Progress (windowBase sharedPaddr m) x c) s) :
    (blkServer sharedPaddr admits).Safe Good
      (fun result s => SameDevice device result.2 /\
        At m call (Outcome (windowBase sharedPaddr m) x c count result.1) s)
      (awaitStatus m device before count) s := by
  subst hbefore
  refine Machine.Safe.bind (safe_poll hone virtioBlkPollIters hs) ?_
  intro done s hs
  cases done with
  | false =>
    exact safe_result hone ⟨rfl, rfl⟩ ⟨hs.1, hs.2.1, outcome_fail device count hs.2.2.1⟩
  | true =>
    let P : Medium -> Prop := fun y => Progress (windowBase sharedPaddr m) x c y /\
      y.queue.usedIdx ≠ x.queue.usedIdx /\ True
    have hP : At m call P s := ⟨hs.1, hs.2.1, hs.2.2.1, hs.2.2.2 rfl, trivial⟩
    refine safe_look (fun y => y.queue.bytes (dmaStatusOffset count).toNat) (fun _ => rfl)
      (kept_used hone fun _ => True) hP ?_
    intro s hs
    by_cases hstatus : (s.media m).queue.bytes (dmaStatusOffset count).toNat = virtioBlkSOk
    · refine (if_pos hstatus).symm ▸ ?_
      exact safe_result hone ⟨rfl, rfl⟩ ⟨hs.1, hs.2.1, hs.2.2.1, fun _ => ⟨hs.2.2.2.1, hstatus⟩⟩
    · refine (if_neg hstatus).symm ▸ ?_
      exact safe_result hone ⟨rfl, rfl⟩ ⟨hs.1, hs.2.1, outcome_fail device count hs.2.2.1⟩

theorem safe_virtioBlkDoIo (io : Io) {paddr : UInt64} {device : BlkDevice}
    (hbase : dmaPaddr paddr device = windowBase sharedPaddr m) (hquiet : x.Quiet)
    (hs : At m call (· = x) s) :
    (blkServer sharedPaddr admits).Safe Good
      (fun result s => SameDevice device result.2 /\
        At m call (Outcome (windowBase sharedPaddr m) (requested (windowBase sharedPaddr m) io x)
          (ioChain (windowBase sharedPaddr m) io x) io.count result.1) s)
      (virtioBlkDoIo paddr m device io.type io.sector io.count) s := by
  have hbuilds := requestWrites_builds (windowBase sharedPaddr m) io
  have hone : OneChain (requested (windowBase sharedPaddr m) io x) _ := requested_one hquiet
  unfold virtioBlkDoIo
  rw [hbase]
  refine Machine.Safe.bind (safe_writeAll hbuilds hquiet hs) ?_
  intro _ s hs
  refine Machine.Safe.bind (safe_publish (hquiet.storeAll hbuilds) (Progress.step hone)
    .published hs) ?_
  rintro before s ⟨hbefore, hs⟩
  split
  · refine safe_look (fun _ => ()) (fun _ => rfl) (Progress.step hone) hs ?_
    intro s hs
    exact safe_awaitStatus hone (hbefore.trans (publish_usedIdx _).symm) device io.count hs
  · exact safe_result hone ⟨rfl, rfl⟩ ⟨hs.1, hs.2.1, outcome_fail device io.count hs.2.2⟩

/-! ## Requests that transfer, and those that do not -/

theorem dmaMaxSectors_le (device : BlkDevice) : (dmaMaxSectors device).toNat <= 2047 := by
  unfold dmaMaxSectors agentosBlkMediaDmaMaxSectors
  split <;> decide

theorem transferCheck_none {device : BlkDevice} (hcheck : transferCheck device req = none) :
    (requestCount req).toNat <= 2047 := by
  unfold transferCheck at hcheck
  dsimp only at hcheck
  split at hcheck
  · cases hcheck
  split at hcheck
  · cases hcheck
  case isFalse hmax =>
    exact Nat.le_trans (UInt32.le_iff_toNat_le.mp (UInt32.not_lt.mp hmax)) (dmaMaxSectors_le device)

/-- The program transfers as announced, or answers at once. -/
def Follows (driver : Driver) (op : UInt32) (program : DriverM Driver) : Option Io -> Prop
  | some io => program = doIo driver io.media op io.type io.sector io.count /\
      io.count.toNat <= 2047 /\ blkCanonicalOp op = true
  | none => ∃ rep, program = .ret { driver with rep := rep }

theorem transfer_follows {op : UInt32} (type : UInt32)
    (hop : blkCanonicalOp op = true) :
    Follows driver op
      (match transferCheck (driver.dev m) req with
        | some status => pure (driver.answer op status)
        | none => doIo driver m op type (requestSector req) (requestCount req))
      (transferIo driver m type req) := by
  unfold transferIo
  cases hcheck : transferCheck (driver.dev m) req with
  | some status => exact ⟨_, rfl⟩
  | none => exact ⟨rfl, transferCheck_none hcheck, hop⟩

theorem handleInfo_plain (driver : Driver) (m : MediaId) (req : Sel4Msg) :
    Follows driver (rd32 req.data 0) (handleInfo driver m req) none := by
  unfold handleInfo
  dsimp only
  split
  · exact ⟨_, rfl⟩
  · exact ⟨_, rfl⟩

/-- INFO, HEALTH and the operations the driver does not know. -/
theorem other_plain (driver : Driver) (m : MediaId) (req : Sel4Msg) :
    Follows driver (rd32 req.data 0)
      (if rd32 req.data 0 = aosHostBlkOpInfo then handleInfo driver m req
        else if rd32 req.data 0 = aosHostBlkOpHealth then handleHealth driver m req
        else pure { driver with rep := statusReply driver.rep blkErrIo }) none := by
  split
  · exact handleInfo_plain driver m req
  split
  · exact ⟨_, rfl⟩
  · exact ⟨_, rfl⟩

theorem media_follows (driver : Driver) (m : MediaId) (req : Sel4Msg) :
    Follows driver (rd32 req.data 0)
      (if rd32 req.data 0 = aosHostBlkOpRead then handleRead driver m req
        else if rd32 req.data 0 = aosHostBlkOpWrite then handleWrite driver m req
        else if rd32 req.data 0 = aosHostBlkOpFlush then handleFlush driver m req
        else if rd32 req.data 0 = aosHostBlkOpInfo then handleInfo driver m req
        else if rd32 req.data 0 = aosHostBlkOpHealth then handleHealth driver m req
        else pure { driver with rep := statusReply driver.rep blkErrIo })
      (mediaIo driver m req) := by
  unfold mediaIo handleRead handleWrite handleFlush
  by_cases hready : (!(driver.dev m).initialized) = true
  · simp only [hready, if_true]
    split
    · exact ⟨_, rfl⟩
    split
    · exact ⟨_, rfl⟩
    split
    · exact ⟨_, rfl⟩
    exact other_plain driver m req
  · simp only [if_neg hready]
    by_cases hread : rd32 req.data 0 = aosHostBlkOpRead
    · rw [if_pos hread, if_pos hread]
      exact transfer_follows virtioBlkTIn (by rw [hread]; decide)
    rw [if_neg hread, if_neg hread]
    by_cases hwrite : rd32 req.data 0 = aosHostBlkOpWrite
    · rw [if_pos hwrite, if_pos hwrite]
      split
      · exact ⟨_, rfl⟩
      · exact transfer_follows virtioBlkTOut (by rw [hwrite]; decide)
    rw [if_neg hwrite, if_neg hwrite]
    by_cases hflush : rd32 req.data 0 = aosHostBlkOpFlush
    · rw [if_pos hflush, if_pos hflush]
      exact ⟨rfl, Nat.zero_le _, by rw [hflush]; decide⟩
    rw [if_neg hflush, if_neg hflush]
    exact other_plain driver m req

theorem dispatch_follows (driver : Driver) (req : Sel4Msg) :
    Follows driver (rd32 req.data 0) (virtioBlkHDispatch driver req) (ioOf driver req) := by
  unfold virtioBlkHDispatch ioOf
  by_cases hmedia : (requestMedia req).toNat < mediaCount
  · rw [dif_pos hmedia, dif_pos hmedia]
    exact media_follows driver _ req
  · rw [dif_neg hmedia, dif_neg hmedia]
    exact ⟨_, rfl⟩

theorem wireStatus_ok {op status : UInt32} (hop : blkCanonicalOp op = true)
    (hwire : blkWireStatus op status = aosHostBlkOk) : status = blkOk := by
  unfold blkWireStatus at hwire
  rw [hop, Bool.not_true, if_neg Bool.false_ne_true] at hwire
  split at hwire
  case isTrue hok => exact hok
  split at hwire
  · exact absurd hwire (by decide)
  split at hwire
  · exact absurd hwire (by decide)
  · exact absurd hwire (by decide)

/-! ## Whole runs -/

/-- Between two requests. -/
structure Waiting (sharedPaddr : UInt64) (driver : Driver) (s : BlkSystem) : Prop where
  ready : driver.Ready sharedPaddr
  good : Good s

theorem stable_waiting (driver : Driver) :
    (blkServer sharedPaddr admits).Stable (Waiting sharedPaddr driver) := by
  rintro s s' hstep ⟨hready, hgood⟩
  exact ⟨hready, hgood.env hstep⟩

theorem safe_reply (hready : driver.Ready sharedPaddr) (hkept : Kept (windowBase sharedPaddr m) P)
    (hown : ∀ s, At m call P s -> Record.Own ⟨call, driver.rep, s.media⟩) (hs : At m call P s) :
    (blkServer sharedPaddr admits).Safe Good (Waiting sharedPaddr)
      (reply driver.rep >>= fun _ => .ret driver) s := by
  refine Machine.safe_op (stable_at hkept) hs (fun _ h => h.good) ?_
  rintro s answer s' hAt ⟨⟩
  have hfinish : s.finish driver.rep =
      { s with current := none, history := s.history ++ [⟨call, driver.rep, s.media⟩] } := by
    unfold BlkSystem.finish
    rw [hAt.2.1]
  have hwaiting : Waiting sharedPaddr driver (s.finish driver.rep) := by
    rw [hfinish]
    refine ⟨hready, hAt.1.1, fun r hr => ?_⟩
    obtain hold | hnew := mem_append.mp hr
    · exact hAt.1.2 r hold
    · obtain rfl := mem_singleton.mp hnew
      exact hown s hAt
  exact Machine.safe_ret (stable_waiting driver) hwaiting fun _ h => ⟨h.good, h⟩

theorem Driver.Ready.paddr (hready : driver.Ready sharedPaddr) (m : MediaId) :
    dmaPaddr driver.sharedPaddr (driver.dev m) = windowBase sharedPaddr m := by
  unfold dmaPaddr windowBase
  rw [hready.1, (hready.2 m).2]
  have hoff : ∀ m : MediaId, (UInt32.ofNat (agentosBlkMediaDmaOff (.ofNat m))).toUInt64 =
      UInt64.ofNat (agentosBlkMediaDmaOff (.ofNat m)) := by decide
  rw [hoff]

theorem Driver.Ready.setDev (hready : driver.Ready sharedPaddr) {device : BlkDevice}
    (hsame : SameDevice (driver.dev m) device) (op status : UInt32) :
    ((driver.setDev m device).answer op status).Ready sharedPaddr := by
  refine ⟨hready.1, fun other => ?_⟩
  show (update driver.dev m device other).mediaId = _ /\
    (update driver.dev m device other).dmaOff = _
  by_cases heq : other = m
  · rw [heq, update_self, hsame.1, hsame.2]
    exact hready.2 m
  · rw [update_of_ne heq]
    exact hready.2 other

theorem safe_serve (hs : Waiting sharedPaddr driver s)
    (hsettled : settledRequest driver req s) :
    (blkServer sharedPaddr admits).Safe Good (Waiting sharedPaddr) (serve driver req)
      { s with current := some ⟨driver, req, s.media⟩ } := by
  let fresh : Driver := { driver with rep := { driver.rep with opcode := 0, length := 0 } }
  have hfresh : fresh.Ready sharedPaddr := hs.ready
  have hfollows := dispatch_follows fresh req
  have hio : ioOf fresh req = ioOf driver req := rfl
  unfold serve
  cases hcase : ioOf driver req with
  | none =>
    rw [hio, hcase] at hfollows
    obtain ⟨rep, hprogram⟩ := hfollows
    rw [hprogram, ret_bind]
    refine safe_reply (m := ⟨0, by decide⟩) (P := fun _ => True) hs.ready (fun _ _ _ h => h) ?_
      ⟨hs.good, rfl, trivial⟩
    intro s _ io hsome
    exact absurd (hcase.symm.trans hsome) (by simp)
  | some io =>
    rw [hio, hcase] at hfollows
    obtain ⟨hprogram, hcount, hop⟩ := hfollows
    have hset := hsettled io hcase
    have hquiet := (hs.good.1 io.media).quiet hset
    rw [hprogram]
    unfold doIo
    rw [bind_assoc]
    refine Machine.Safe.bind (safe_virtioBlkDoIo io (hfresh.paddr io.media) hquiet
      ⟨hs.good, rfl, rfl⟩) ?_
    rintro ⟨rc, device⟩ s' ⟨hsame, hs'⟩
    refine safe_reply (hfresh.setDev hsame _ rc)
      (kept_outcome (requested_one hquiet) io.count rc) ?_ hs'
    intro s'' hAt io' hsome hwire
    obtain rfl := Option.some.inj (hcase.symm.trans hsome)
    have hok : rc = blkOk := wireStatus_ok hop ((rd32_wr32 _ 0 _).symm.trans hwire)
    subst hok
    exact Outcome.own hcount hquiet hset hAt.2.2

/-- A driver that is asked for a transfer only when the device has completed all the chains of
that medium answers success only for a request that the device has completed. -/
theorem completions_own (driver : Driver) (s : BlkSystem) (hready : driver.Ready sharedPaddr)
    (hfresh : s.Fresh) (config : Phase DriverIo Driver × BlkSystem)
    (hreach : (blkServer sharedPaddr settledRequest).Reach (.waiting driver, s) config) :
    ∀ r ∈ config.2.history, r.Own := by
  have hwaiting : Waiting sharedPaddr driver s := by
    obtain ⟨hmedia, -, hhistory⟩ := hfresh
    refine ⟨hready, fun m => ?_, ?_⟩
    · obtain ⟨havail, -, hlast, hflight, hpublished, hcompleted⟩ := hmedia m
      refine ⟨?_, ?_, ?_⟩ <;> simp [Medium.taken, havail, hlast, hflight, hpublished, hcompleted]
    · rw [hhistory]
      exact nofun
  have hcovered := Server.reach_covered (G := Good) (J := Waiting sharedPaddr)
    (fun own => stable_waiting own) ?_ hreach hwaiting
  · exact (Server.covered_guarantee (fun _ _ h => h.good) hcovered).2
  · rintro own s program s' hown ⟨req, hsettled, rfl, rfl⟩
    exact safe_serve hown hsettled

/-! ## Steps of a device -/

/-- The device takes the next chain, if there is one. -/
def Medium.takeNext (x : Medium) : Medium :=
  match x.nextChain with
  | some c =>
    if x.lastAvail ≠ x.queue.availIdx then
      { x with lastAvail := x.lastAvail + 1, inFlight := x.inFlight ++ [(c, .taken)] }
    else x
  | none => x

/-- The device completes with success the chain that it took first. -/
def Medium.completeFirst (base : UInt64) (x : Medium) : Medium :=
  match x.inFlight with
  | (c, .taken) :: after =>
    let y := (x.transfer base c).putStatus base c virtioBlkSOk
    { y with
      queue := { y.queue with usedIdx := x.queue.usedIdx + 1 }
      inFlight := after
      completed := x.completed ++ [(c, virtioBlkSOk)] }
  | _ => x

theorem device_takes (base : UInt64) (x : Medium) :
    Relation.ReflTransGen (DeviceStep base) x x.takeNext := by
  unfold Medium.takeNext
  split
  · rename_i c hchain
    split
    · rename_i hnext
      exact .single (.take hnext hchain)
    · exact .refl
  · exact .refl

theorem device_completes (base : UInt64) (x : Medium) :
    Relation.ReflTransGen (DeviceStep base) x (x.completeFirst base) := by
  unfold Medium.completeFirst
  split
  · rename_i c after hflight
    let moved : Medium := { x.transfer base c with inFlight := (c, .moved) :: after }
    let answered : Medium := { (x.transfer base c).putStatus base c virtioBlkSOk with
      inFlight := (c, .answered virtioBlkSOk) :: after }
    have hmove : DeviceStep base x moved := DeviceStep.move (b := []) hflight
    have hanswer : DeviceStep base moved answered := DeviceStep.answer (b := []) rfl (.inl rfl)
    exact .tail (.tail (.single hmove) hanswer) (DeviceStep.complete (b := []) rfl)
  · exact .refl

theorem setMedium_same (s : BlkSystem) (m : MediaId) : s.setMedium m (s.media m) = s := by
  simp [BlkSystem.setMedium]

theorem reach_device (phase : Phase DriverIo Driver) (s : BlkSystem)
    (hsteps : Relation.ReflTransGen (DeviceStep (windowBase sharedPaddr m)) (s.media m) y) :
    (blkServer sharedPaddr admits).Reach (phase, s) (phase, s.setMedium m y) := by
  induction hsteps with
  | refl =>
    rw [setMedium_same]
    exact .refl
  | @tail z y _ hstep ih =>
    have hnow : (s.setMedium m z).media m = z := by rw [setMedium_media, if_pos rfl]
    have hnext : Surroundings (windowBase sharedPaddr) (s.setMedium m z)
        ((s.setMedium m z).setMedium m y) := .device (hnow.symm ▸ hstep)
    have hlast : (s.setMedium m z).setMedium m y = s.setMedium m y := by
      simp [BlkSystem.setMedium]
    exact ih.trans (hlast ▸ (blkServer sharedPaddr admits).reach_env hnext)

/-! ## A request in two halves -/

/-- Up to the chain in the ring; the answer is the used index before it. -/
def publishIo (sharedPaddr : UInt64) (io : Io) : DriverM UInt16 := do
  writeAll io.media (requestWrites (windowBase sharedPaddr io.media) io.type io.sector io.count)
  publish io.media

/-- What is left when the chain has been published. -/
def afterPublish (driver : Driver) (io : Io) (op : UInt32) (before : UInt16) : DriverM Driver := do
  notify io.media
  let (rc, device) <- awaitStatus io.media (driver.dev io.media) before io.count
  let driver := (driver.setDev io.media device).answer op rc
  reply driver.rep
  return driver

def Driver.clear (driver : Driver) : Driver :=
  { driver with rep := { driver.rep with opcode := 0, length := 0 } }

theorem serve_eq (hready : driver.Ready sharedPaddr) (hio : ioOf driver req = some io)
    (htransport : (driver.dev io.media).transportReady = true) :
    serve driver req =
      publishIo sharedPaddr io >>= afterPublish driver.clear io (rd32 req.data 0) := by
  have hfollows : Follows driver.clear (rd32 req.data 0) (virtioBlkHDispatch driver.clear req)
      (some io) := hio ▸ dispatch_follows driver.clear req
  have hclear : (driver.clear.dev io.media).transportReady = true := htransport
  have hpaddr : dmaPaddr driver.clear.sharedPaddr (driver.clear.dev io.media) =
      windowBase sharedPaddr io.media := hready.paddr io.media
  unfold serve publishIo
  rw [show virtioBlkHDispatch { driver with rep := { driver.rep with opcode := 0, length := 0 } }
    req = _ from hfollows.1]
  unfold doIo virtioBlkDoIo
  rw [hpaddr]
  simp only [bind_assoc]
  congr 1
  funext _
  congr 1
  funext before
  rw [if_pos hclear]
  rfl

/-- The system when the chain of a request is in the ring, and the used index before it. -/
def rung (sharedPaddr : UInt64) (driver : Driver) (req : Sel4Msg) (io : Io) (s : BlkSystem) :
    UInt16 × BlkSystem :=
  eval access (publishIo sharedPaddr io) { s with current := some ⟨driver, req, s.media⟩ }

/-- One request, with what the device does to its medium before the driver looks. -/
def exchange (sharedPaddr : UInt64) (driver : Driver) (req : Sel4Msg) (io : Io)
    (device : Medium -> Medium) (s : BlkSystem) : Driver × BlkSystem :=
  let called := rung sharedPaddr driver req io s
  eval access (afterPublish driver.clear io (rd32 req.data 0) called.1)
    (called.2.setMedium io.media (device (called.2.media io.media)))

theorem reach_exchange (hready : driver.Ready sharedPaddr) (hio : ioOf driver req = some io)
    (htransport : (driver.dev io.media).transportReady = true) (hadmits : admits driver req s)
    (device : Medium -> Medium)
    (hdevice : ∀ x, Relation.ReflTransGen (DeviceStep (windowBase sharedPaddr io.media)) x
      (device x)) :
    (blkServer sharedPaddr admits).Reach (.waiting driver, s)
      (.waiting (exchange sharedPaddr driver req io device s).1,
        (exchange sharedPaddr driver req io device s).2) := by
  have hexec : ∀ request s, (blkServer sharedPaddr admits).exec request s (access request s).1
      (access request s).2 := fun _ _ => rfl
  refine .head (.recv ⟨req, hadmits, rfl, rfl⟩) ?_
  rw [serve_eq hready hio htransport]
  refine (Server.reach_eval_bind _ hexec _ _ _).trans ?_
  exact (reach_device _ _ (hdevice _)).trans (Server.reach_eval _ hexec _ _)

theorem eval_poll_stuck (iters : Nat) :
    eval access (poll m (s.media m).queue.usedIdx iters) s = (false, s) := by
  induction iters with
  | zero => rfl
  | succ iters ih =>
    show eval access (if (s.media m).queue.usedIdx = (s.media m).queue.usedIdx then
      poll m (s.media m).queue.usedIdx iters else pure true) s = _
    rw [if_pos rfl]
    exact ih

/-- A driver whose device does nothing gives up and answers an error. -/
theorem eval_afterPublish_stuck (driver : Driver) (io : Io) (op : UInt32) {before : UInt16}
    (hbefore : (s.media io.media).queue.usedIdx = before) :
    eval access (afterPublish driver io op before) s =
      let failed := (driver.setDev io.media (driver.dev io.media).fail.2).answer op
        (driver.dev io.media).fail.1
      (failed, s.finish failed.rep) := by
  subst hbefore
  unfold afterPublish awaitStatus
  rw [eval_bind]
  show eval access ((poll _ _ _ >>= _) >>= _) s = _
  rw [bind_assoc, eval_bind, eval_poll_stuck]
  rfl

/-! ## A medium of which only the first sector is not empty -/

def bootDevice (m : MediaId) : BlkDevice where
  initialized := true
  transportReady := true
  mediaId := .ofNat m
  dmaOff := .ofNat (agentosBlkMediaDmaOff (.ofNat m))
  capacity := 16
  blockSize := 512
  readOnly := false
  errorCount := 0
  initError := 0

def bootDriver : Driver := ⟨bootDevice, 0, emptyMsg⟩

def bootMedium : Medium where
  queue := ⟨⟨0, 0, 0⟩, fun _ => 0, fun _ => ⟨0, 0, 0, 0⟩, fun _ => 0, 0, 0⟩
  lastAvail := 0
  inFlight := []
  disk i := if i < 512 then 1 else 0
  published := 0
  completed := []

def bootSystem : BlkSystem := ⟨fun _ => bootMedium, none, []⟩

/-- READ of one sector of the primary medium. -/
def readRequest (sector : UInt32) : Sel4Msg :=
  ⟨0, 16, wr32 (wr32 (wr32 (wr32 (fun _ => 0) 0 aosHostBlkOpRead) 4 sector) 8 0) 12 1⟩

def primary : MediaId := ⟨0, by decide⟩

def readIo (sector : UInt64) : Io := ⟨primary, virtioBlkTIn, sector, 1⟩

theorem bootDriver_ready : bootDriver.Ready 0 := ⟨rfl, fun _ => ⟨rfl, rfl⟩⟩

theorem ioOf_first : ioOf bootDriver (readRequest 0) = some (readIo 0) := by decide

theorem completions_own_read :
    ∃ config r, (blkServer 0 settledRequest).Reach (.waiting bootDriver, bootSystem) config /\
      r ∈ config.2.history /\ rd32 r.rep.data 0 = aosHostBlkOk /\ r.Own := by
  let device (x : Medium) : Medium := x.takeNext.completeFirst (windowBase 0 primary)
  have hreach : (blkServer 0 settledRequest).Reach (.waiting bootDriver, bootSystem) _ :=
    reach_exchange bootDriver_ready ioOf_first rfl (fun _ _ => rfl) device
      fun x => (device_takes _ x).trans (device_completes _ _)
  have hanswered : ∃ r ∈ (exchange 0 bootDriver (readRequest 0) (readIo 0) device
      bootSystem).2.history, rd32 r.rep.data 0 = aosHostBlkOk := by decide +kernel
  obtain ⟨r, hr, hok⟩ := hanswered
  have hfresh : bootSystem.Fresh := ⟨fun _ => ⟨rfl, rfl, rfl, rfl, rfl, rfl⟩, rfl, rfl⟩
  exact ⟨_, r, hreach, hr, hok,
    completions_own bootDriver bootSystem bootDriver_ready hfresh _ hreach r hr⟩

/-! ## A completion that comes after the driver has given up -/

/-- The driver and the system after the first request was given up. -/
def retryDriver : Driver :=
  (bootDriver.clear.setDev primary (bootDevice primary).fail.2).answer aosHostBlkOpRead
    (bootDevice primary).fail.1

def retrySystem : BlkSystem :=
  (rung 0 bootDriver (readRequest 0) (readIo 0) bootSystem).2.finish retryDriver.rep

theorem retry_reached : (blkServer 0 anyRequest).Reach (.waiting bootDriver, bootSystem)
    (.waiting retryDriver, retrySystem) := by
  have hreach : (blkServer 0 anyRequest).Reach (.waiting bootDriver, bootSystem) _ :=
    reach_exchange bootDriver_ready ioOf_first rfl trivial id fun _ => .refl
  have heval : exchange 0 bootDriver (readRequest 0) (readIo 0) id bootSystem =
      (retryDriver, retrySystem) := by
    unfold exchange
    simp only [id_eq, setMedium_same]
    exact eval_afterPublish_stuck _ _ _ (by decide +kernel)
  rwa [heval] at hreach

/-- READ of sector 0 is given up, and its completion is taken for that of READ of sector 8: the
window holds the bytes of sector 0. -/
theorem stale_completion :
    ∃ config r, (blkServer 0 anyRequest).Reach (.waiting bootDriver, bootSystem) config /\
      r ∈ config.2.history /\ ioOf r.call.driver r.call.req = some (readIo 8) /\
      rd32 r.rep.data 0 = aosHostBlkOk /\
      (r.after primary).queue.bytes dmaDataOffset.toNat = 1 /\
      (r.after primary).disk (8 * 512) = 0 := by
  let taken := retrySystem.setMedium primary (retrySystem.media primary).takeNext
  have hsame : SameDevice (bootDriver.clear.dev primary) (bootDevice primary).fail.2 := ⟨rfl, rfl⟩
  have hready : retryDriver.Ready 0 :=
    (show bootDriver.clear.Ready 0 from bootDriver_ready).setDev hsame _ _
  have hio : ioOf retryDriver (readRequest 8) = some (readIo 8) := by decide
  have hreach : (blkServer 0 anyRequest).Reach (.waiting retryDriver, taken) _ :=
    reach_exchange hready hio rfl trivial (Medium.completeFirst (windowBase 0 primary))
      (device_completes _)
  have hstale : ∃ r ∈ (exchange 0 retryDriver (readRequest 8) (readIo 8)
      (Medium.completeFirst (windowBase 0 primary)) taken).2.history,
      ioOf r.call.driver r.call.req = some (readIo 8) /\ rd32 r.rep.data 0 = aosHostBlkOk /\
      (r.after primary).queue.bytes dmaDataOffset.toNat = 1 /\
      (r.after primary).disk (8 * 512) = 0 := by decide +kernel
  obtain ⟨r, hr, hstale⟩ := hstale
  have htaken : (blkServer 0 anyRequest).Reach (.waiting bootDriver, bootSystem)
      (.waiting retryDriver, taken) :=
    retry_reached.trans (reach_device _ retrySystem (device_takes _ _))
  exact ⟨_, r, htaken.trans hreach, hr, hstale⟩

end AgentOs.VirtioBlk
