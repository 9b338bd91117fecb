import AgentOs.Serial.Chain

/-!
# Fidelity of the byte stream

Each party's program keeps to what `Chain` allows the party, whatever the other two do
between its steps; so in every run the bytes come out as they went in.
-/

namespace AgentOs.Serial

open Library Prog Threads QueueMem List Option

variable {P β : Type} {A B : ValidHandle P} {start : List β} {s : ChainState P β} [DecidableEq P]

/-! ## Steps of the programs -/

/-- What a program of one party keeps to, against the other two. -/
abbrev Plays (A B : ValidHandle P) (start : List β) {α : Type} (i : Role) :=
  Within (α := α) (chain A B) (chainContract A B start) i

variable {α : Type} {request : QueueOp P β} {next : QueueAns request -> QueueM P β α}
  {s0 : ChainState P β}

/-- The next access of a program, which starts from what the party may still assume. -/
theorem within_access {i : Role} {Q : ChainState P β -> α -> ChainState P β -> Prop}
    {R : ChainState P β -> Prop} {s : ChainState P β} (hstep : chainGuarantee A B start i s0 s)
    (hstable : Stable (chainContract A B start) i R) (hs : R s)
    (hnext : ∀ s, R s -> Sound A B start s ->
      Plays A B start i Q (next (QueueMem.access request s.mem).1) s (s.access request)) :
    Plays A B start i Q (perform (I := QueueIo P β) request >>= next) s0 s := by
  refine within_op hstep (hstable.and (stable_sound i)) ⟨hs, hstep.2⟩ (fun _ _ => trivial) ?_
  rintro s1 answer s2 ⟨hR, hsound⟩ ⟨rfl, rfl⟩
  exact hnext s1 hR hsound

theorem within_load {i : Role} {Q : ChainState P β -> α -> ChainState P β -> Prop}
    {R : ChainState P β -> Prop} {s : ChainState P β} (hstep : chainGuarantee A B start i s0 s)
    (hstable : Stable (chainContract A B start) i R) (hs : R s)
    (hload : ∀ s : ChainState P β, s.access request = s)
    (hnext : ∀ s, R s -> chainGuarantee A B start i s s ->
      Plays A B start i Q (next (QueueMem.access request s.mem).1) s s) :
    Plays A B start i Q (perform (I := QueueIo P β) request >>= next) s0 s := by
  refine within_access hstep hstable hs fun s1 hR hsound => ?_
  rw [hload]
  exact hnext s1 hR ⟨moves_refl i s1, hsound⟩

/-! ## The producer -/

variable {tail : UInt32} {occupied : Nat} {stored : List β}

theorem writes_storeByte (hdata : A.data ≠ B.data) (hprod : Producing A tail occupied stored s.mem)
    (hroom : occupied + stored.length < A.capacity.toNat) (byte : β) :
    Writes A B s (s.access
      (.storeByte A.data (A.at (tail + UInt32.ofNat stored.length)) byte)) [] where
  produced := ⟨rfl, by
    rw [append_nil]
    exact (hprod.storeByte hroom byte).1⟩
  second := untouched_storeByte (Ne.symm hdata)
  written := (append_nil _).symm
  read := rfl

theorem within_storeBytes (hdata : A.data ≠ B.data) {rest : List β} {s : ChainState P β}
    (hstep : chainGuarantee A B start .producer s0 s)
    (hprod : Producing A tail occupied stored s.mem)
    (hroom : occupied + (stored ++ rest).length <= A.capacity.toNat) :
    Plays A B start .producer
      (fun s0 _ s => chainGuarantee A B start .producer s0 s /\
        Producing A tail occupied (stored ++ rest) s.mem)
      (storeBytes A tail (.ofNat stored.length) rest) s0 s := by
  induction rest generalizing stored s0 s with
  | nil =>
    rw [append_nil]
    exact ⟨hstep, hprod⟩
  | cons byte rest ih =>
    rw [append_cons] at hroom ⊢
    have hlen : (stored ++ [byte]).length = stored.length + 1 := length_append
    have hlt : occupied + stored.length < A.capacity.toNat := by
      rw [length_append] at hroom
      omega
    refine within_access hstep stable_producing hprod fun s1 hprod1 hsound => ?_
    have hwrites := writes_storeByte hdata hprod1 hlt byte
    obtain ⟨hheld, hnext⟩ := hprod1.storeByte hlt byte
    have hfits : (s1.access (.storeByte A.data
        (A.at (tail + UInt32.ofNat stored.length)) byte)).mem.Fits A := by
      rw [fits_iff]
      exact hheld ▸ fits_iff.mp hsound.fitsFirst
    have hrest := ih ⟨⟨[], hwrites⟩, hsound.writes hwrites hfits⟩ hnext hroom
    rw [hlen, UInt32.ofNat_add] at hrest
    exact hrest

/-- The tail is published and the message logged, in one step. -/
theorem writes_storeTail (hqueue : A.queue ≠ B.queue)
    (hprod : Producing A tail occupied stored s.mem)
    (hroom : occupied + stored.length <= A.capacity.toNat) :
    Writes A B s { s.access (.storeTail A.queue (tail + UInt32.ofNat stored.length)) with
      written := s.written ++ stored } stored where
  produced := ⟨rfl, hprod.storeTail hroom⟩
  second := untouched_storeTail (Ne.symm hqueue)
  written := rfl
  read := rfl

variable {length : UInt32} {bytes : List β}

theorem within_publishBytes (hqueue : A.queue ≠ B.queue) (hdata : A.data ≠ B.data)
    {s : ChainState P β} (hstep : chainGuarantee A B start .producer s0 s)
    (hprod : Producing A tail occupied [] s.mem) (hlen : bytes.length = length.toNat)
    (hroom : occupied + bytes.length <= A.capacity.toNat) :
    Plays A B start .producer
      (fun s0 status s => status = .ok /\ chainGuarantee A B start .producer s0
        { s with written := s.written ++ bytes })
      (publishBytes A tail bytes length) s0 s := by
  refine within_bind ((within_storeBytes hdata hstep hprod hroom).mono ?_)
  rintro s1 ⟨⟩ s2 ⟨hstep, (hstored : Producing A tail occupied bytes s2.mem)⟩
  by_cases hzero : length = 0
  · rw [if_pos hzero]
    have hnil : bytes = [] := length_eq_zero_iff.mp (by rw [hlen, hzero]; rfl)
    refine ⟨rfl, ?_⟩
    rw [hnil, append_nil]
    exact hstep
  · rw [if_neg hzero]
    refine within_access hstep stable_producing hstored fun s3 hprod hsound => ?_
    have hlength : length = .ofNat bytes.length := by rw [hlen, UInt32.ofNat_toNat]
    rw [hlength]
    have hwrites := writes_storeTail hqueue hprod hroom
    refine ⟨rfl, ⟨_, hwrites⟩, hsound.writes hwrites ?_⟩
    rw [fits_iff, hwrites.produced.held, length_append]
    exact Nat.le_trans (Nat.add_le_add_right hprod.held_le _) hroom

theorem within_writeMessage (hqueue : A.queue ≠ B.queue) (hdata : A.data ≠ B.data)
    (hlen : bytes.length = length.toNat) (hs : Sound A B start s) :
    Plays A B start .producer
      (fun s0 status s => chainGuarantee A B start .producer s0
        (if status = .ok then { s with written := s.written ++ bytes } else s))
      (writeMessage A bytes length) s s := by
  refine within_load ⟨moves_refl _ s, hs⟩ (stable_sound _) hs (fun _ => rfl) fun s1 hs1 hidle => ?_
  refine within_load hidle stable_producing (.loadTail hs1.fitsFirst) (fun _ => rfl)
    fun s2 hprod hidle => ?_
  dsimp only
  split
  · exact hidle
  rename_i hocc
  split
  · exact hidle
  case isFalse hfit =>
    have hroom := room_of_fits (UInt32.not_lt.mp hocc) (UInt32.not_lt.mp hfit)
    rw [<- hlen] at hroom
    refine (within_publishBytes hqueue hdata hidle hprod.loadHead hlen hroom).mono ?_
    rintro s3 status s4 ⟨rfl, hstep⟩
    exact hstep

theorem within_write (hqueue : A.queue ≠ B.queue) (hdata : A.data ≠ B.data)
    {bytes : Option (Nat -> β)} (hs : Sound A B start s) :
    Plays A B start .producer
      (fun s0 status s => chainGuarantee A B start .producer s0
        (chainFinish .producer (bytes, length) status s))
      (aosSerialQueueWrite (some A.toHandle) bytes length) s s := by
  unfold aosSerialQueueWrite
  rw [validHandle_toHandle]
  cases hmessage : message bytes length with
  | none => exact ⟨moves_refl _ s, hs⟩
  | some list =>
    refine (within_writeMessage hqueue hdata (length_message hmessage) hs).mono ?_
    intro s0 status s hstep
    cases status with
    | ok =>
      show chainGuarantee A B start .producer s0
        { s with written := s.written ++ (message bytes length).getD [] }
      rw [hmessage]
      exact hstep
    | invalid => exact hstep
    | full => exact hstep

/-! ## The consumer -/

variable {head : UInt32} {available : Nat} {loaded : List β}

theorem within_loadBytes {n : Nat} {s : ChainState P β}
    (hstep : chainGuarantee A B start .consumer s0 s)
    (hcons : Consuming B head available loaded s.mem) (hn : loaded.length + n <= available) :
    Plays A B start .consumer
      (fun s0 rest s => chainGuarantee A B start .consumer s0 s /\ rest.length = n /\
        Consuming B head available (loaded ++ rest) s.mem)
      (loadBytes B head (.ofNat loaded.length) n) s0 s := by
  induction n generalizing loaded s0 s with
  | zero =>
    refine ⟨hstep, rfl, ?_⟩
    rw [append_nil]
    exact hcons
  | succ n ih =>
    refine within_load hstep stable_consuming hcons (fun _ => rfl) fun s1 hcons hidle => ?_
    have hnext := hcons.loadByte (by omega)
    have hlen : (loaded ++ [s1.mem.data B.data
        (B.at (head + UInt32.ofNat loaded.length))]).length = loaded.length + 1 :=
      length_append
    have hrest := ih hidle hnext (by omega)
    rw [hlen, UInt32.ofNat_add] at hrest
    refine within_bind (hrest.mono ?_)
    rintro s2 rest s3 ⟨hstep, hrest, hcons⟩
    refine ⟨hstep, by rw [length_cons, hrest], ?_⟩
    rw [append_cons]
    exact hcons

/-- The head is published and the bytes logged, in one step. -/
theorem reads_storeHead (hqueue : A.queue ≠ B.queue)
    (hcons : Consuming B head available loaded s.mem) :
    Reads A B s { s.access (.storeHead B.queue (head + UInt32.ofNat loaded.length)) with
      read := s.read ++ loaded } loaded.length where
  first := untouched_storeHead hqueue
  consumed := ⟨rfl, rfl, hcons.storeHead⟩
  written := rfl
  read := by rw [hcons.loaded_eq]

variable {count : UInt32}

theorem within_takeBytes (hqueue : A.queue ≠ B.queue) {s : ChainState P β}
    (hstep : chainGuarantee A B start .consumer s0 s)
    (hcons : Consuming B head available [] s.mem) (hcount : count.toNat <= available) :
    Plays A B start .consumer
      (fun s0 result s => chainGuarantee A B start .consumer s0
        { s with read := s.read ++ result.2 })
      (takeBytes B head count) s0 s := by
  refine within_bind ((within_loadBytes hstep hcons (n := count.toNat) ?_).mono ?_)
  · rwa [length_nil, Nat.zero_add]
  rintro s1 bytes s2 ⟨hstep, hlen, (hcons : Consuming B head available bytes s2.mem)⟩
  by_cases hzero : count = 0
  · rw [if_pos hzero]
    have hnil : bytes = [] := length_eq_zero_iff.mp (by rw [hlen, hzero]; rfl)
    rw [hnil]
    exact consumer_returns_nil hstep
  · rw [if_neg hzero]
    refine within_access hstep stable_consuming hcons fun s3 hcons hsound => ?_
    have hlength : count = .ofNat bytes.length := by rw [hlen, UInt32.ofNat_toNat]
    rw [hlength]
    have hreads := reads_storeHead hqueue hcons
    exact ⟨⟨_, hreads⟩, hsound.reads hreads⟩

theorem within_readMessage (hqueue : A.queue ≠ B.queue) {capacity : UInt32}
    (hs : Sound A B start s) :
    Plays A B start .consumer
      (fun s0 result s => chainGuarantee A B start .consumer s0
        { s with read := s.read ++ result.2 })
      (readMessage B capacity) s s := by
  refine within_load ⟨moves_refl _ s, hs⟩ (stable_sound _) hs (fun _ => rfl) fun s1 hs1 hidle => ?_
  refine within_load hidle stable_consuming (.loadHead B s1.mem) (fun _ => rfl)
    fun s2 hcons hidle => ?_
  dsimp only
  split
  · exact consumer_returns_nil hidle
  · exact within_takeBytes hqueue hidle hcons.loadTail (toNat_lesser_le _ _).1

theorem within_read (hqueue : A.queue ≠ B.queue) {bytes length : Bool} {capacity : UInt32}
    (hs : Sound A B start s) :
    Plays A B start .consumer
      (fun s0 result s => chainGuarantee A B start .consumer s0
        { s with read := s.read ++ result.2 })
      (aosSerialQueueRead (some B.toHandle) bytes capacity length) s s := by
  have hidle : chainGuarantee A B start .consumer s s := ⟨moves_refl _ s, hs⟩
  unfold aosSerialQueueRead
  rw [validHandle_toHandle]
  dsimp only
  split
  · exact consumer_returns_nil hidle
  split
  · exact consumer_returns_nil hidle
  · exact within_readMessage hqueue hs

/-! ## The pump -/

variable {s' : ChainState P β}

/-- A byte is stored past the tail of the second queue. -/
theorem Copying.storeByte (hdata : A.data ≠ B.data)
    (hcopy : Copying A B start head tail available occupied loaded stored s)
    (hroom : occupied + stored.length < B.capacity.toNat) (byte : β)
    (hs' : s' = s.access (.storeByte B.data (B.at (tail + UInt32.ofNat stored.length)) byte)) :
    Transfers A B s s' 0 [] /\
      Copying A B start head tail available occupied loaded (stored ++ [byte]) s' := by
  subst hs'
  obtain ⟨hheld, hnext⟩ := hcopy.destination.storeByte hroom byte
  have hfirst : Untouched A s.mem (s.access
      (.storeByte B.data (B.at (tail + UInt32.ofNat stored.length)) byte)).mem :=
    untouched_storeByte hdata
  refine ⟨⟨hfirst.consumed, ⟨rfl, ?_⟩, rfl, rfl⟩, hcopy.source.untouched hfirst, hnext,
    Nat.zero_le _, ?_⟩
  · rw [append_nil]
    exact hheld
  · rw [hfirst.held]
    exact hcopy.balanced.2.trans (by rw [<- hheld]; rfl)

variable {copied : List β}

theorem within_copyBytes (hdata : A.data ≠ B.data) {n : Nat} {s : ChainState P β}
    (hstep : chainGuarantee A B start .pump s0 s)
    (hcopy : Copying A B start head tail available occupied copied copied s)
    (havail : copied.length + n <= available)
    (hroom : occupied + (copied.length + n) <= B.capacity.toNat) :
    Plays A B start .pump
      (fun s0 _ s => chainGuarantee A B start .pump s0 s /\
        ∃ bytes, bytes.length = copied.length + n /\
          Copying A B start head tail available occupied bytes bytes s)
      (copyBytes A B head tail (.ofNat copied.length) n) s0 s := by
  induction n generalizing copied s0 s with
  | zero => exact ⟨hstep, copied, rfl, hcopy⟩
  | succ n ih =>
    refine within_load hstep stable_copying hcopy (fun _ => rfl) fun s1 hcopy hidle => ?_
    have hloaded := hcopy.source.loadByte (by omega)
    refine within_access hidle stable_copying ⟨hloaded, hcopy.destination, hcopy.balanced⟩
      fun s2 hcopy hsound => ?_
    obtain ⟨htransfers, hnext⟩ := hcopy.storeByte hdata (by omega) _ rfl
    have hfits := hsound.fitsSecond
    rw [fits_iff, <- append_nil (held B s2.mem), <- htransfers.produced.held,
      <- fits_iff] at hfits
    have hlen : (copied ++ [s1.mem.data A.data
        (A.at (head + UInt32.ofNat copied.length))]).length = copied.length + 1 :=
      length_append
    have hrest := ih ⟨⟨0, [], htransfers⟩, hsound.transfers htransfers hfits hnext.balanced⟩
      hnext (by omega) (by omega)
    rw [hlen, UInt32.ofNat_add, Nat.add_right_comm] at hrest
    exact hrest

/-- The tail of the second queue is published: its bytes are now in both queues. -/
theorem Copying.storeTail (hqueue : A.queue ≠ B.queue)
    (hcopy : Copying A B start head tail available occupied copied copied s)
    (hroom : occupied + copied.length <= B.capacity.toNat)
    (hs' : s' = s.access (.storeTail B.queue (tail + UInt32.ofNat copied.length))) :
    Transfers A B s s' 0 copied /\ s'.mem.Fits B /\
      Consuming A head available copied s'.mem /\ Balanced A B start copied.length s' := by
  subst hs'
  have hfirst : Untouched A s.mem
      (s.access (.storeTail B.queue (tail + UInt32.ofNat copied.length))).mem :=
    untouched_storeTail hqueue
  have hheld : (s.access (.storeTail B.queue (tail + UInt32.ofNat copied.length))).mem.held B =
      s.mem.held B ++ copied :=
    hcopy.destination.storeTail hroom
  refine ⟨⟨hfirst.consumed, ⟨rfl, hheld⟩, rfl, rfl⟩, ?_, hcopy.source.untouched hfirst, ?_, ?_⟩
  · rw [fits_iff, hheld, length_append]
    exact Nat.le_trans (Nat.add_le_add_right hcopy.destination.held_le _) hroom
  · rw [hfirst.held]
    exact hcopy.source.length_loaded_le
  · have hsplit := take_append_drop copied.length (s.mem.held A)
    rw [hcopy.source.loaded_eq] at hsplit
    rw [hfirst.held, hheld, <- append_assoc, append_assoc, hsplit]
    exact hcopy.balanced.2

/-- The head of the first queue is published: nothing is in both queues any more. -/
theorem balanced_storeHead (hqueue : A.queue ≠ B.queue)
    (hcons : Consuming A head available copied s.mem) (hbal : Balanced A B start copied.length s)
    (hs' : s' = s.access (.storeHead A.queue (head + UInt32.ofNat copied.length))) :
    Transfers A B s s' copied.length [] /\ Balanced A B start 0 s' := by
  subst hs'
  have hsecond : Untouched B s.mem
      (s.access (.storeHead A.queue (head + UInt32.ofNat copied.length))).mem :=
    untouched_storeHead (Ne.symm hqueue)
  have hheld : (s.access (.storeHead A.queue (head + UInt32.ofNat copied.length))).mem.held A =
      (s.mem.held A).drop copied.length :=
    hcons.storeHead
  refine ⟨⟨⟨rfl, rfl, hheld⟩, hsecond.produced, rfl, rfl⟩, Nat.zero_le _, ?_⟩
  rw [hsecond.held, hheld, drop_zero]
  exact hbal.2

theorem within_moveBytes (hqueue : A.queue ≠ B.queue) (hdata : A.data ≠ B.data)
    {s : ChainState P β} (hstep : chainGuarantee A B start .pump s0 s)
    (hcopy : Copying A B start head tail available occupied [] [] s)
    (havail : count.toNat <= available) (hroom : occupied + count.toNat <= B.capacity.toNat) :
    Plays A B start .pump
      (fun s0 _ s => chainGuarantee A B start .pump s0 s /\ Balanced A B start 0 s)
      (moveBytes A B head tail count) s0 s := by
  refine within_bind ((within_copyBytes hdata hstep hcopy (n := count.toNat) ?_ ?_).mono ?_)
  · rwa [length_nil, Nat.zero_add]
  · rwa [length_nil, Nat.zero_add]
  rintro s1 ⟨⟩ s2 ⟨hstep, bytes, hlen, hcopy⟩
  rw [length_nil, Nat.zero_add] at hlen
  by_cases hzero : count = 0
  · rw [if_pos hzero]
    exact ⟨hstep, hcopy.balanced⟩
  · rw [if_neg hzero]
    have hcount : count = .ofNat bytes.length := by rw [hlen, UInt32.ofNat_toNat]
    rw [hcount]
    rw [<- hlen] at hroom
    refine within_access hstep stable_copying hcopy fun s3 hcopy hsound => ?_
    obtain ⟨htransfers, hfits, hcons, hbal⟩ := hcopy.storeTail hqueue hroom rfl
    refine within_access ⟨⟨0, bytes, htransfers⟩, hsound.transfers htransfers hfits hbal⟩
      (stable_pump_consuming.and stable_balanced) ⟨hcons, hbal⟩
      fun s4 ⟨hcons, hbal⟩ hsound => ?_
    obtain ⟨htransfers, hbal⟩ := balanced_storeHead hqueue hcons hbal rfl
    have hfits := hsound.fitsSecond
    rw [fits_iff, <- append_nil (held B s4.mem), <- htransfers.produced.held,
      <- fits_iff] at hfits
    exact ⟨⟨⟨bytes.length, [], htransfers⟩, hsound.transfers htransfers hfits hbal⟩, hbal⟩

variable {budget : UInt32}

section

variable (hqueue : A.queue ≠ B.queue) (hdata : A.data ≠ B.data)

include hqueue hdata

theorem within_transferBytes (hs : Sound A B start s) (hbal : Balanced A B start 0 s) :
    Plays A B start .pump
      (fun s0 _ s => chainGuarantee A B start .pump s0 s /\ Balanced A B start 0 s)
      (transferBytes A B budget) s s := by
  refine within_load ⟨moves_refl _ s, hs⟩ stable_balanced hbal (fun _ => rfl)
    fun s1 hbal hidle => ?_
  refine within_load hidle (stable_pump_consuming.and stable_balanced)
    ⟨.loadHead A s1.mem, hbal⟩ (fun _ => rfl) fun s2 ⟨hcons, hbal⟩ hidle => ?_
  refine within_load hidle (stable_pump_consuming.and stable_balanced)
    ⟨hcons.loadTail, hbal⟩ (fun _ => rfl) fun s3 ⟨hcons, hbal⟩ hidle => ?_
  refine within_load hidle stable_copying ⟨hcons, .loadTail hidle.2.fitsSecond, hbal⟩
    (fun _ => rfl) fun s4 hcopy hidle => ?_
  dsimp only
  split
  · exact ⟨hidle, hcopy.balanced⟩
  rename_i hocc
  obtain ⟨-, hocc⟩ := not_or.mp hocc
  have hcount := toNat_transferCount_le
    (B.capacity - (s3.mem.tail B.queue - s4.mem.head B.queue))
    (s2.mem.tail A.queue - s1.mem.head A.queue) budget
  refine within_moveBytes hqueue hdata hidle
    ⟨hcopy.source, hcopy.destination.loadHead, hcopy.balanced⟩ hcount.2
    (room_of_fits (UInt32.not_lt.mp hocc) (UInt32.le_iff_toNat_le.mpr hcount.1))

theorem within_transfer {transferred : Bool} (hs : Sound A B start s)
    (hbal : Balanced A B start 0 s) :
    Plays A B start .pump
      (fun s0 _ s => chainGuarantee A B start .pump s0 s /\ Balanced A B start 0 s)
      (aosSerialVirtTransfer (some A.toHandle) (some B.toHandle) budget transferred) s s := by
  unfold aosSerialVirtTransfer
  rw [validHandle_toHandle, validHandle_toHandle]
  dsimp only
  split
  · exact ⟨⟨moves_refl _ s, hs⟩, hbal⟩
  rw [if_neg (not_or.mpr ⟨hqueue, hdata⟩)]
  exact within_transferBytes hqueue hdata hs hbal

/-! ## Whole runs -/

theorem within_chain (i : Role) (own : Unit) (call : ChainCall β i) (s : ChainState P β)
    (hidle : chainIdle A B start i own s) :
    Within (chain A B) (chainContract A B start) i
      (Returns (chain A B) (chainContract A B start) (chainIdle A B start) i call)
      (chainCode A B i own call) s s := by
  obtain ⟨hs, hbal⟩ := hidle
  match i, call with
  | .producer, (bytes, length) =>
    refine within_bind ((within_write hqueue hdata hs).mono fun s0 status s hstep => ?_)
    exact ⟨hstep, hstep.2, fun h => nomatch h⟩
  | .pump, (budget, transferred) =>
    refine within_bind ((within_transfer hqueue hdata hs (hbal rfl)).mono ?_)
    rintro s0 result s ⟨hstep, hbal⟩
    exact ⟨hstep, hstep.2, fun _ => hbal⟩
  | .consumer, (bytes, capacity, length) =>
    refine within_bind ((within_read hqueue hs).mono fun s0 result s hstep => ?_)
    exact ⟨hstep, hstep.2, fun h => nomatch h⟩

/-- Both queues are sound in every reachable state, and nothing is held twice between two
calls of the pump. -/
theorem chain_sound {m : QueueMem P β} (hA : m.Fits A) (hB : m.Fits B)
    {config : Acts (QueueIo P β) (fun _ : Role => Unit) (ChainCall β) (ChainRes β) × ChainState P β}
    (hreach : (chain A B).Reach (chainStart m) config) :
    Sound A B (m.held B ++ m.held A) config.2 /\
      (config.1 .pump = .idle () -> Balanced A B (m.held B ++ m.held A) 0 config.2) := by
  have hbal : Balanced A B (m.held B ++ m.held A) 0 ⟨m, [], []⟩ :=
    ⟨Nat.zero_le _, append_nil _⟩
  have hstart : Sound A B (m.held B ++ m.held A) ⟨m, [], []⟩ := ⟨hA, hB, 0, hbal⟩
  obtain ⟨hsteps, hcovered⟩ := reach_covered chainIdle_stable
    (fun i own call s hidle _ => within_chain hqueue hdata i own call s hidle) hreach
    (fun i => ⟨hstart, fun _ => hbal⟩)
  constructor
  · refine steps_keep (K := chainContract A B (m.held B ++ m.held A)) ?_ hsteps hstart
    intro i s s' hstep _
    exact hstep.2
  · intro hpump
    have hidle := hcovered .pump
    rw [hpump] at hidle
    exact hidle.2 rfl

end

/-! ## Refused calls -/

/-- None of the requests changes anything. -/
def LeavesMemory (trace : Prog.Trace (QueueIo P β)) : Prop :=
  ∀ event ∈ trace, ∀ m : QueueMem P β, (QueueMem.access event.request m).2 = m

variable {trace : Trace (QueueIo P β)}

theorem leavesMemory_ret {value result : α}
    (hrun : Run (.ret value : QueueM P β α) trace result) : LeavesMemory trace := by
  obtain ⟨rfl, -⟩ := run_ret_iff.mp hrun
  rintro event ⟨⟩

theorem leavesMemory_load {result : α}
    (hload : ∀ m : QueueMem P β, (QueueMem.access request m).2 = m)
    (hrun : Run (perform (I := QueueIo P β) request >>= next) trace result)
    (hnext : ∀ answer rest, Run (next answer) rest result -> LeavesMemory rest) :
    LeavesMemory trace := by
  obtain ⟨answer, rest, rfl, hrest⟩ := run_op_iff.mp hrun
  intro event hevent
  rcases mem_cons.mp hevent with rfl | hmem
  · exact hload
  · exact hnext answer rest hrest event hmem

omit [DecidableEq P] in
theorem run_publishBytes {h : ValidHandle P} {status : PumpStatus}
    (hrun : Run (publishBytes h tail bytes length) trace status) : status = .ok := by
  obtain ⟨first, second, value, -, -, hrest⟩ := run_bind_iff.mp hrun
  split at hrest
  · exact (run_ret_iff.mp hrest).2
  obtain ⟨answer, rest, -, hlast⟩ := run_op_iff.mp hrest
  exact (run_ret_iff.mp hlast).2

theorem write_refused {handle : Option (QueueHandle P)} {bytes : Option (Nat -> β)}
    {status : PumpStatus} (hrun : Run (aosSerialQueueWrite handle bytes length) trace status)
    (hstatus : status ≠ .ok) : LeavesMemory trace := by
  unfold aosSerialQueueWrite at hrun
  split at hrun
  case h_1 h list _ _ =>
    refine leavesMemory_load (fun _ => rfl) hrun fun tail rest hrun => ?_
    refine leavesMemory_load (fun _ => rfl) hrun fun head rest hrun => ?_
    dsimp only at hrun
    split at hrun
    · exact leavesMemory_ret hrun
    split at hrun
    · exact leavesMemory_ret hrun
    · exact absurd (run_publishBytes hrun) hstatus
  case h_2 => exact leavesMemory_ret hrun

omit [DecidableEq P] in
theorem run_moveBytes {source destination : ValidHandle P} {result : PumpStatus × UInt32}
    (hrun : Run (moveBytes source destination head tail count) trace result) :
    result.1 = .ok := by
  obtain ⟨first, second, value, -, -, hrest⟩ := run_bind_iff.mp hrun
  split at hrest
  · obtain ⟨-, rfl⟩ := run_ret_iff.mp hrest
    rfl
  · obtain ⟨answer, rest, -, hlast⟩ := run_op_iff.mp hrest
    obtain ⟨answer, rest, -, hlast⟩ := run_op_iff.mp hlast
    obtain ⟨-, rfl⟩ := run_ret_iff.mp hlast
    rfl

theorem transfer_refused {source destination : Option (QueueHandle P)} {transferred : Bool}
    {result : PumpStatus × UInt32}
    (hrun : Run (aosSerialVirtTransfer source destination budget transferred) trace result)
    (hstatus : result.1 ≠ .ok) : LeavesMemory trace := by
  unfold aosSerialVirtTransfer at hrun
  split at hrun
  · exact leavesMemory_ret hrun
  split at hrun
  case h_1 source destination _ _ =>
    split at hrun
    · exact leavesMemory_ret hrun
    refine leavesMemory_load (fun _ => rfl) hrun fun sourceHead rest hrun => ?_
    refine leavesMemory_load (fun _ => rfl) hrun fun sourceTail rest hrun => ?_
    refine leavesMemory_load (fun _ => rfl) hrun fun destinationTail rest hrun => ?_
    refine leavesMemory_load (fun _ => rfl) hrun fun destinationHead rest hrun => ?_
    dsimp only at hrun
    split at hrun
    · exact leavesMemory_ret hrun
    · exact absurd (run_moveBytes hrun) hstatus
  case h_2 => exact leavesMemory_ret hrun

/-- In every run of the chain: both index pairs stay within capacity; what was read comes
first in what was there and what was written; the rest is queued in order, apart from bytes
the pump has published but not yet taken; and a refused call has changed nothing. -/
theorem serialChain_fidelity (A B : ValidHandle P) (hqueue : A.queue ≠ B.queue)
    (hdata : A.data ≠ B.data) (m : QueueMem P β) (hA : m.Fits A) (hB : m.Fits B)
    (acts : Acts (QueueIo P β) (fun _ : Role => Unit) (ChainCall β) (ChainRes β))
    (s : ChainState P β) (hreach : (chain A B).Reach (chainStart m) (acts, s)) :
    s.mem.Fits A /\ s.mem.Fits B /\
    s.read <+: m.held B ++ m.held A ++ s.written /\
    (∃ d, d <= (s.mem.held A).length /\
      m.held B ++ m.held A ++ s.written = s.read ++ s.mem.held B ++ (s.mem.held A).drop d) /\
    (acts .pump = .idle () ->
      m.held B ++ m.held A ++ s.written = s.read ++ s.mem.held B ++ s.mem.held A) /\
    (∀ handle bytes length trace status,
      Prog.Run (aosSerialQueueWrite (β := β) (P := P) handle bytes length) trace status ->
      status ≠ .ok -> LeavesMemory trace) /\
    (∀ source destination budget transferred trace count,
      Run (aosSerialVirtTransfer (β := β) (P := P) source destination budget transferred)
        trace (.invalid, count) -> LeavesMemory trace) := by
  obtain ⟨hsound, hidle⟩ := chain_sound hqueue hdata hA hB hreach
  obtain ⟨d, hd, hbal⟩ := hsound.balanced
  refine ⟨hsound.fitsFirst, hsound.fitsSecond, ?_, ⟨d, hd, hbal⟩, ?_, ?_, ?_⟩
  · rw [hbal, append_assoc]
    exact prefix_append _ _
  · intro hpump
    exact (hidle hpump).2
  · intro handle bytes length trace status hrun hstatus
    exact write_refused hrun hstatus
  · intro source destination budget transferred trace count hrun
    exact transfer_refused hrun (by rintro ⟨⟩)

/-! ## A run across the wrap -/

def wrapFirst : ValidHandle Bool := ⟨false, false, 4, by decide, by decide⟩
def wrapSecond : ValidHandle Bool := ⟨true, true, 2, by decide, by decide⟩

/-- Both queues are empty and the next index of each is the last before the wrap. -/
def wrapMem : QueueMem Bool UInt8 := ⟨fun _ => 0xffffffff, fun _ => 0xffffffff, fun _ _ => 0⟩

/-- Three bytes are written; two fit into the second queue; one is read. -/
def wrapTurns : List (Turn Role (ChainCall UInt8) Unit) :=
  .start .producer (some fun i => UInt8.ofNat (7 + i), 3) :: replicate 6 (.op .producer ()) ++
  .start .pump (5, true) :: replicate 10 (.op .pump ()) ++
  .start .consumer (true, 1, true) :: replicate 4 (.op .consumer ())

def wrapPlay := (chain wrapFirst wrapSecond).play
  (fun _ _ request s => some ((QueueMem.access request s.mem).1, s.access request))
  (fun _ _ _ _ => true) wrapTurns (chainStart wrapMem)

def wrapSeen (s : ChainState Bool UInt8) : List UInt8 × List UInt8 × List UInt8 × List UInt8 :=
  (s.written, s.read, s.mem.held wrapSecond, s.mem.held wrapFirst)

theorem wrapPlay_seen :
    wrapPlay.map (fun config => wrapSeen config.2) = some ([7, 8, 9], [7], [8], [9]) := by
  decide +kernel

theorem serialChain_fidelity_wrap :
    ∃ acts s, (chain wrapFirst wrapSecond).Reach (chainStart wrapMem) (acts, s) /\
      wrapSeen s = ([7, 8, 9], [7], [8], [9]) /\
      s.mem.Fits wrapFirst /\ s.mem.Fits wrapSecond /\
      s.read <+: wrapMem.held wrapSecond ++ wrapMem.held wrapFirst ++ s.written := by
  obtain ⟨⟨acts, s⟩, hplay, hseen⟩ := map_eq_some_iff.mp wrapPlay_seen
  have hreach : (chain wrapFirst wrapSecond).Reach (chainStart wrapMem) (acts, s) := by
    refine reach_of_play ?_ (fun _ _ _ _ _ => trivial) hplay
    rintro oracle i request s ans s' hans
    obtain ⟨rfl, rfl⟩ := Prod.mk.inj (some.inj hans)
    exact ⟨rfl, rfl⟩
  have h := serialChain_fidelity wrapFirst wrapSecond (by decide) (by decide) wrapMem
    (by decide) (by decide) acts s hreach
  exact ⟨acts, s, hreach, hseen, h.1, h.2.1, h.2.2.1⟩

end AgentOs.Serial
