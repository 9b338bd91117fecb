import AgentOs.Serial.Queue

/-!
# The two ends of a byte queue

What the producer and the consumer of one queue may each assume while the other moves.  The
producer knows the tail and that the queue only gets shorter; the consumer knows the head and
that the queue only gets longer.
-/

open Function (update update_self update_of_ne)

namespace AgentOs.Serial

open Library List

variable {P β : Type}

structure QueueMem (P β : Type) where
  head : P -> UInt32
  tail : P -> UInt32
  data : P -> UInt32 -> β

namespace QueueMem

section Access

variable [DecidableEq P]

/-- One request is one access to memory. -/
def access : (request : QueueOp P β) -> QueueMem P β -> QueueAns request × QueueMem P β
  | .loadHead queue, m => (m.head queue, m)
  | .loadTail queue, m => (m.tail queue, m)
  | .storeHead queue head, m => ((), { m with head := update m.head queue head })
  | .storeTail queue tail, m => ((), { m with tail := update m.tail queue tail })
  | .loadByte data index, m => (m.data data index, m)
  | .storeByte data index byte, m =>
    ((), { m with data := update m.data data
                    (update (m.data data) index byte) })

end Access

/-- The bytes in a queue, oldest first. -/
def held (h : ValidHandle P) (m : QueueMem P β) : List β :=
  Ring.contents (2 ^ 32) h.capacity.toNat (fun k => m.data h.data (.ofNat k))
    (m.head h.queue).toNat (m.tail h.queue).toNat

/-- The index pair is within capacity. -/
def Fits (h : ValidHandle P) (m : QueueMem P β) : Prop :=
  m.tail h.queue - m.head h.queue <= h.capacity

instance (h : ValidHandle P) (m : QueueMem P β) : Decidable (m.Fits h) :=
  inferInstanceAs (Decidable (_ <= h.capacity))

theorem length_held (h : ValidHandle P) (m : QueueMem P β) :
    (m.held h).length = (m.tail h.queue - m.head h.queue).toNat := by
  rw [held, Ring.contents_length, UInt32.toNat_sub]
  rfl

theorem fits_iff {h : ValidHandle P} {m : QueueMem P β} :
    m.Fits h ↔ (m.held h).length <= h.capacity.toNat := by
  rw [length_held]
  exact UInt32.le_iff_toNat_le

theorem room_of_fits {capacity occupied length : UInt32} (hocc : occupied <= capacity)
    (hfit : length <= capacity - occupied) : occupied.toNat + length.toNat <= capacity.toNat := by
  have hle := UInt32.le_iff_toNat_le.mp hfit
  have hle' := UInt32.le_iff_toNat_le.mp hocc
  rw [UInt32.toNat_sub_of_le _ _ hocc] at hle
  omega

/-- The lesser of two counts, as the code computes it. -/
theorem toNat_lesser_le (a b : UInt32) :
    (if a < b then a else b).toNat <= a.toNat /\ (if a < b then a else b).toNat <= b.toNat := by
  split
  case isTrue h => exact ⟨le_refl _, (UInt32.lt_iff_toNat_lt.mp h).le⟩
  case isFalse h => exact ⟨UInt32.le_iff_toNat_le.mp (UInt32.not_lt.mp h), le_refl _⟩

theorem toNat_transferCount_le (space available budget : UInt32) :
    (transferCount space available budget).toNat <= space.toNat /\
      (transferCount space available budget).toNat <= available.toNat := by
  have hleast := toNat_lesser_le available space
  have hcount := toNat_lesser_le budget (if space > available then available else space)
  exact ⟨hcount.2.trans hleast.2, hcount.2.trans hleast.1⟩

theorem length_message {bytes : Option (Nat -> β)} {length : UInt32} {list : List β}
    (hmessage : message bytes length = some list) : list.length = length.toNat := by
  cases bytes with
  | some bytes =>
    cases hmessage
    rw [length_map, length_range]
  | none =>
    rw [message] at hmessage
    split at hmessage
    case isTrue hzero =>
      cases hmessage
      rw [hzero]
      rfl
    case isFalse => cases hmessage

/-! ## What a step does to one queue -/

structure Untouched (h : ValidHandle P) (m m' : QueueMem P β) : Prop where
  head : m'.head h.queue = m.head h.queue
  tail : m'.tail h.queue = m.tail h.queue
  data : m'.data h.data = m.data h.data

/-- A step of the producer appends, or prepares to. -/
structure Produced (h : ValidHandle P) (m m' : QueueMem P β) (ext : List β) : Prop where
  head : m'.head h.queue = m.head h.queue
  held : m'.held h = m.held h ++ ext

/-- A step of the consumer drops from the front. -/
structure Consumed (h : ValidHandle P) (m m' : QueueMem P β) (n : Nat) : Prop where
  tail : m'.tail h.queue = m.tail h.queue
  data : m'.data h.data = m.data h.data
  held : m'.held h = (m.held h).drop n

namespace Untouched

variable {h : ValidHandle P} {m m' : QueueMem P β}

theorem refl : Untouched h m m := ⟨rfl, rfl, rfl⟩

theorem held (hsame : Untouched h m m') : m'.held h = m.held h := by
  unfold QueueMem.held
  rw [hsame.head, hsame.tail, hsame.data]

theorem produced (hsame : Untouched h m m') : Produced h m m' [] :=
  ⟨hsame.head, by rw [hsame.held, append_nil]⟩

theorem consumed (hsame : Untouched h m m') : Consumed h m m' 0 :=
  ⟨hsame.tail, hsame.data, by rw [hsame.held, drop_zero]⟩

end Untouched

section Stores

variable [DecidableEq P] {h : ValidHandle P} {m : QueueMem P β}

theorem untouched_storeHead {queue : P} {head : UInt32} (hne : h.queue ≠ queue) :
    Untouched h m (access (.storeHead queue head) m).2 :=
  ⟨update_of_ne hne _ _, rfl, rfl⟩

theorem untouched_storeTail {queue : P} {tail : UInt32} (hne : h.queue ≠ queue) :
    Untouched h m (access (.storeTail queue tail) m).2 :=
  ⟨rfl, update_of_ne hne _ _, rfl⟩

theorem untouched_storeByte {data : P} {index : UInt32} {byte : β} (hne : h.data ≠ data) :
    Untouched h m (access (.storeByte data index byte) m).2 :=
  ⟨rfl, rfl, update_of_ne hne _ _⟩

end Stores

/-! ## The producer -/

/-- The producer has loaded the tail, found at most `occupied` bytes, and has stored some
bytes past the tail. -/
structure Producing (h : ValidHandle P) (tail : UInt32) (occupied : Nat) (stored : List β)
    (m : QueueMem P β) : Prop where
  tail_eq : m.tail h.queue = tail
  held_le : (m.held h).length <= occupied
  stored_at : ∀ (j : Nat) (hj : j < stored.length),
    m.data h.data (h.at (tail + UInt32.ofNat j)) = stored[j]

namespace Producing

variable {h : ValidHandle P} {tail : UInt32} {occupied : Nat} {stored : List β}
  {m m' : QueueMem P β}

theorem consumed {n : Nat} (hprod : Producing h tail occupied stored m)
    (hstep : Consumed h m m' n) : Producing h tail occupied stored m' where
  tail_eq := hstep.tail.trans hprod.tail_eq
  held_le := by
    have hle := hprod.held_le
    rw [hstep.held, length_drop]
    omega
  stored_at := by
    rw [hstep.data]
    exact hprod.stored_at

theorem untouched (hprod : Producing h tail occupied stored m) (hstep : Untouched h m m') :
    Producing h tail occupied stored m' :=
  hprod.consumed hstep.consumed

theorem loadTail (hfits : m.Fits h) : Producing h (m.tail h.queue) h.capacity.toNat [] m :=
  ⟨rfl, fits_iff.mp hfits, fun j hj => absurd hj (Nat.not_lt_zero j)⟩

/-- The head is loaded: the difference is an upper bound from now on. -/
theorem loadHead (hprod : Producing h tail occupied ([] : List β) m) :
    Producing h tail (tail - m.head h.queue).toNat [] m :=
  ⟨hprod.tail_eq, by rw [length_held, hprod.tail_eq], hprod.stored_at⟩

/-- Slots past the tail differ from each other while the queue has room for them. -/
theorem at_ne {i j : Nat} (hi : i < h.capacity.toNat) (hj : j < h.capacity.toNat)
    (hne : i ≠ j) : h.at (tail + UInt32.ofNat i) ≠ h.at (tail + UInt32.ofNat j) := by
  intro heq
  have hslot := congrArg UInt32.toNat heq
  rw [ValidHandle.toNat_at_add, ValidHandle.toNat_at_add] at hslot
  exact hne (Ring.slot_inj hi hj hslot)

section

variable [DecidableEq P]

theorem storeByte (hprod : Producing h tail occupied stored m)
    (hroom : occupied + stored.length < h.capacity.toNat) (byte : β) :
    let m' := (access (.storeByte h.data (h.at (tail + UInt32.ofNat stored.length)) byte) m).2
    m'.held h = m.held h /\ Producing h tail occupied (stored ++ [byte]) m' := by
  intro m'
  have hdata : m'.data h.data = update (m.data h.data)
      (h.at (tail + UInt32.ofNat stored.length)) byte := update_self ..
  have hheld : m'.held h = m.held h := by
    unfold QueueMem.held
    refine Ring.contents_ahead (n := stored.length) h.capacity_dvd (UInt32.toNat_lt _)
      (UInt32.toNat_lt _) ?_ fun k hk hne => ?_
    · have hle := hprod.held_le
      rw [QueueMem.held, Ring.contents_length] at hle
      exact Nat.lt_of_le_of_lt (Nat.add_le_add_right hle _) hroom
    · rw [hdata, update_of_ne]
      intro hsame
      have hsame := congrArg UInt32.toNat hsame
      rw [ValidHandle.toNat_at_add, UInt32.toNat_ofNat',
        Nat.mod_eq_of_lt (hk.trans h.capacity.toNat_lt), <- hprod.tail_eq] at hsame
      exact hne hsame
  refine ⟨hheld, hprod.tail_eq, hheld ▸ hprod.held_le, fun j hj => ?_⟩
  rw [length_append, length_singleton] at hj
  rw [hdata]
  rcases Nat.lt_succ_iff_lt_or_eq.mp hj with hlt | rfl
  · rw [update_of_ne (at_ne (by omega) (by omega) (by omega)), hprod.stored_at j hlt,
      getElem_append_left hlt]
  · rw [update_self, getElem_concat_length rfl]

/-- The tail is published, and what was stored is in the queue. -/
theorem storeTail (hprod : Producing h tail occupied stored m)
    (hroom : occupied + stored.length <= h.capacity.toNat) :
    (access (.storeTail h.queue (tail + UInt32.ofNat stored.length)) m).2.held h =
      m.held h ++ stored := by
  have hle := hprod.held_le
  rw [QueueMem.held, Ring.contents_length, hprod.tail_eq] at hle
  have htail : (tail + UInt32.ofNat stored.length).toNat =
      (tail.toNat + stored.length) % 2 ^ 32 := by
    rw [UInt32.toNat_add, UInt32.toNat_ofNat', Nat.add_mod_mod]
  show Ring.contents _ _ _ _ (update m.tail h.queue _ h.queue).toNat = _
  rw [update_self, htail, QueueMem.held, hprod.tail_eq]
  refine Ring.contents_extend h.capacity_dvd (UInt32.toNat_lt _) h.capacity.toNat_lt
    (UInt32.toNat_lt _) (Nat.le_trans (Nat.add_le_add_right hle _) hroom) fun j hj => ?_
  rw [<- ValidHandle.at_add_eq]
  exact hprod.stored_at j hj

end

end Producing

/-! ## The consumer -/

/-- The consumer has loaded the head, found at least `available` bytes, and has loaded the
first of them. -/
structure Consuming (h : ValidHandle P) (head : UInt32) (available : Nat) (loaded : List β)
    (m : QueueMem P β) : Prop where
  head_eq : m.head h.queue = head
  le_held : available <= (m.held h).length
  loaded_eq : (m.held h).take loaded.length = loaded

namespace Consuming

variable {h : ValidHandle P} {head : UInt32} {available : Nat} {loaded : List β}
  {m m' : QueueMem P β}

theorem length_loaded_le (hcons : Consuming h head available loaded m) :
    loaded.length <= (m.held h).length := by
  have hlen := congrArg List.length hcons.loaded_eq
  rw [length_take] at hlen
  omega

theorem produced {ext : List β} (hcons : Consuming h head available loaded m)
    (hstep : Produced h m m' ext) : Consuming h head available loaded m' where
  head_eq := hstep.head.trans hcons.head_eq
  le_held := by
    have hle := hcons.le_held
    rw [hstep.held, length_append]
    omega
  loaded_eq := by
    rw [hstep.held, take_append_of_le_length hcons.length_loaded_le, hcons.loaded_eq]

theorem untouched (hcons : Consuming h head available loaded m) (hstep : Untouched h m m') :
    Consuming h head available loaded m' :=
  hcons.produced hstep.produced

theorem loadHead (h : ValidHandle P) (m : QueueMem P β) : Consuming h (m.head h.queue) 0 [] m :=
  ⟨rfl, Nat.zero_le _, rfl⟩

/-- The tail is loaded: the difference is a lower bound from now on. -/
theorem loadTail (hcons : Consuming h head available ([] : List β) m) :
    Consuming h head (m.tail h.queue - head).toNat [] m :=
  ⟨hcons.head_eq, by rw [length_held, hcons.head_eq], hcons.loaded_eq⟩

/-- The next byte loaded is the next one in the queue. -/
theorem loadByte (hcons : Consuming h head available loaded m) (hmore : loaded.length < available) :
    Consuming h head available
      (loaded ++ [m.data h.data (h.at (head + UInt32.ofNat loaded.length))]) m := by
  have hlt : loaded.length < (m.held h).length := hmore.trans_le hcons.le_held
  have hbyte : (m.held h)[loaded.length] =
      m.data h.data (h.at (head + UInt32.ofNat loaded.length)) := by
    rw [ValidHandle.at_add_eq, <- hcons.head_eq]
    exact Ring.contents_getElem hlt
  refine ⟨hcons.head_eq, hcons.le_held, ?_⟩
  rw [length_append, length_singleton, take_succ_eq_append_getElem hlt, hbyte,
    hcons.loaded_eq]

/-- The head is published, and the bytes are gone from the queue. -/
theorem storeHead [DecidableEq P] (hcons : Consuming h head available loaded m) :
    (access (.storeHead h.queue (head + UInt32.ofNat loaded.length)) m).2.held h =
      (m.held h).drop loaded.length := by
  have hle := hcons.length_loaded_le
  rw [QueueMem.held, Ring.contents_length, hcons.head_eq] at hle
  have hhead : (head + UInt32.ofNat loaded.length).toNat =
      (head.toNat + loaded.length) % 2 ^ 32 := by
    rw [UInt32.toNat_add, UInt32.toNat_ofNat', Nat.add_mod_mod]
  show Ring.contents _ _ _ (update m.head h.queue _ h.queue).toNat _ = _
  rw [update_self, hhead, QueueMem.held, hcons.head_eq]
  exact Ring.contents_advance h.capacity_dvd (UInt32.toNat_lt _) (UInt32.toNat_lt _) hle _

end Consuming

end QueueMem

end AgentOs.Serial
