import AgentOs.Library.Threads
import AgentOs.Serial.QueueEnds

/-!
# A chain of two queues

A producer writes to the first queue, the pump transfers to the second, and a consumer reads
from there.  The three run at the same time; every access to an index or a byte is one step.
The bytes of accepted writes and those that reads returned are logged when the call returns.
-/

namespace AgentOs.Serial

open Library Threads QueueMem List

variable {P β : Type}

inductive Role where
  | producer | pump | consumer
  deriving DecidableEq

/-- The arguments of a call, apart from the handles. -/
abbrev ChainCall (β : Type) : Role -> Type
  | .producer => Option (Nat -> β) × UInt32
  | .pump => UInt32 × Bool
  | .consumer => Bool × UInt32 × Bool

abbrev ChainRes (β : Type) : Role -> Type
  | .producer => PumpStatus
  | .pump => PumpStatus × UInt32
  | .consumer => PumpStatus × List β

structure ChainState (P β : Type) where
  mem : QueueMem P β
  written : List β
  read : List β

section System

variable [DecidableEq P]

def ChainState.access (request : QueueOp P β) (s : ChainState P β) : ChainState P β :=
  { s with mem := (QueueMem.access request s.mem).2 }

def chainCode (A B : ValidHandle P) :
    (i : Role) -> Unit -> ChainCall β i -> QueueM P β (ChainRes β i × Unit)
  | .producer, _, (bytes, length) => do
    let status <- aosSerialQueueWrite (some A.toHandle) bytes length
    pure (status, ())
  | .pump, _, (budget, transferred) => do
    let result <- aosSerialVirtTransfer (some A.toHandle) (some B.toHandle) budget transferred
    pure (result, ())
  | .consumer, _, (bytes, capacity, length) => do
    let result <- aosSerialQueueRead (some B.toHandle) bytes capacity length
    pure (result, ())

/-- What is logged when a call returns. -/
def chainFinish : (i : Role) -> ChainCall β i -> ChainRes β i -> ChainState P β -> ChainState P β
  | .producer, (bytes, length), .ok, s =>
    { s with written := s.written ++ (message bytes length).getD [] }
  | .producer, _, _, s => s
  | .pump, _, _, s => s
  | .consumer, _, (_, bytes), s => { s with read := s.read ++ bytes }

def chain (A B : ValidHandle P) :
    Threads (QueueIo P β) Role (fun _ => Unit) (ChainCall β) (ChainRes β) (ChainState P β) where
  exec _ request s answer s' := answer = (QueueMem.access request s.mem).1 /\ s' = s.access request
  enter _ _ _ _ := True
  code := chainCode A B
  finish := chainFinish

/-- Nobody is in a call and nothing has been logged. -/
def chainStart (m : QueueMem P β) :
    Acts (QueueIo P β) (fun _ : Role => Unit) (ChainCall β) (ChainRes β) × ChainState P β :=
  (fun _ => .idle (), ⟨m, [], []⟩)

end System

/-! ## What each party may do -/

section Guarantees

variable (A B : ValidHandle P) (start : List β)

/-- The bytes that were there and those accepted are those returned, then those in the
second queue, then those in the first after the `d` that the pump has already copied. -/
def Balanced (d : Nat) (s : ChainState P β) : Prop :=
  d <= (s.mem.held A).length /\ start ++ s.written = s.read ++ s.mem.held B ++ (s.mem.held A).drop d

structure Sound (s : ChainState P β) : Prop where
  fitsFirst : s.mem.Fits A
  fitsSecond : s.mem.Fits B
  balanced : ∃ d, Balanced A B start d s

/-- The steps of the producer. -/
structure Writes (s s' : ChainState P β) (ext : List β) : Prop where
  produced : Produced A s.mem s'.mem ext
  second : Untouched B s.mem s'.mem
  written : s'.written = s.written ++ ext
  read : s'.read = s.read

/-- The steps of the pump. -/
structure Transfers (s s' : ChainState P β) (n : Nat) (ext : List β) : Prop where
  consumed : Consumed A s.mem s'.mem n
  produced : Produced B s.mem s'.mem ext
  written : s'.written = s.written
  read : s'.read = s.read

/-- The steps of the consumer. -/
structure Reads (s s' : ChainState P β) (n : Nat) : Prop where
  first : Untouched A s.mem s'.mem
  consumed : Consumed B s.mem s'.mem n
  written : s'.written = s.written
  read : s'.read = s.read ++ (s.mem.held B).take n

def Moves : Role -> ChainState P β -> ChainState P β -> Prop
  | .producer, s, s' => ∃ ext, Writes A B s s' ext
  | .pump, s, s' => ∃ n ext, Transfers A B s s' n ext
  | .consumer, s, s' => ∃ n, Reads A B s s' n

def chainGuarantee (i : Role) (s s' : ChainState P β) : Prop :=
  Moves A B i s s' /\ Sound A B start s'

def chainContract : Contract (QueueIo P β) Role (ChainState P β) where
  may _ _ _ := True
  step := chainGuarantee A B start

/-- Between two calls; the pump then owes nothing. -/
def chainIdle (i : Role) (_ : Unit) (s : ChainState P β) : Prop :=
  Sound A B start s /\ (i = .pump -> Balanced A B start 0 s)

end Guarantees

section Proofs

variable {A B : ValidHandle P} {start : List β} {s s' : ChainState P β} {d : Nat} {ext : List β}

theorem Balanced.writes (hbal : Balanced A B start d s) (hstep : Writes A B s s' ext) :
    Balanced A B start d s' := by
  obtain ⟨hle, heq⟩ := hbal
  constructor
  · rw [hstep.produced.held, length_append]
    omega
  · rw [hstep.written, hstep.read, hstep.second.held, hstep.produced.held,
      drop_append_of_le_length hle, <- append_assoc, heq, append_assoc]

variable {n : Nat}

theorem Balanced.reads (hbal : Balanced A B start d s) (hstep : Reads A B s s' n) :
    Balanced A B start d s' := by
  obtain ⟨hle, heq⟩ := hbal
  constructor
  · rw [hstep.first.held]
    exact hle
  · rw [hstep.written, hstep.read, hstep.first.held, hstep.consumed.held, heq,
      append_assoc s.read (List.take n _), take_append_drop]

theorem Sound.writes (hs : Sound A B start s) (hstep : Writes A B s s' ext)
    (hfits : s'.mem.Fits A) : Sound A B start s' := by
  obtain ⟨d, hbal⟩ := hs.balanced
  refine ⟨hfits, ?_, d, hbal.writes hstep⟩
  rw [fits_iff, hstep.second.held]
  exact fits_iff.mp hs.fitsSecond

theorem Sound.reads (hs : Sound A B start s) (hstep : Reads A B s s' n) : Sound A B start s' := by
  obtain ⟨d, hbal⟩ := hs.balanced
  refine ⟨?_, ?_, d, hbal.reads hstep⟩
  · rw [fits_iff, hstep.first.held]
    exact fits_iff.mp hs.fitsFirst
  · have hle := fits_iff.mp hs.fitsSecond
    rw [fits_iff, hstep.consumed.held, length_drop]
    omega

theorem Sound.transfers (hs : Sound A B start s) (hstep : Transfers A B s s' n ext)
    (hfits : s'.mem.Fits B) (hbal : Balanced A B start d s') : Sound A B start s' := by
  refine ⟨?_, hfits, d, hbal⟩
  have hle := fits_iff.mp hs.fitsFirst
  rw [fits_iff, hstep.consumed.held, length_drop]
  omega

theorem moves_refl (i : Role) (s : ChainState P β) : Moves A B i s s := by
  cases i with
  | producer => exact ⟨[], Untouched.refl.produced, .refl, (append_nil _).symm, rfl⟩
  | pump => exact ⟨0, [], Untouched.refl.consumed, Untouched.refl.produced, rfl, rfl⟩
  | consumer => exact ⟨0, .refl, Untouched.refl.consumed, rfl, (append_nil _).symm⟩

/-! ## What each party may assume -/

theorem stable_sound (i : Role) : Stable (chainContract A B start) i (Sound A B start) := by
  rintro s s' ⟨j, -, hstep⟩ -
  exact hstep.2

variable {tail : UInt32} {occupied : Nat} {stored : List β}

theorem stable_producing : Stable (chainContract A B start) .producer
      (fun s => Producing A tail occupied stored s.mem) := by
  rintro s s' ⟨j, hj, hstep, -⟩ hprod
  cases j with
  | producer => exact absurd rfl hj
  | pump =>
    obtain ⟨n, ext, htransfers⟩ := hstep
    exact hprod.consumed htransfers.consumed
  | consumer =>
    obtain ⟨n, hreads⟩ := hstep
    exact hprod.untouched hreads.first

variable {head : UInt32} {available : Nat} {loaded : List β}

theorem stable_consuming : Stable (chainContract A B start) .consumer
      (fun s => Consuming B head available loaded s.mem) := by
  rintro s s' ⟨j, hj, hstep, -⟩ hcons
  cases j with
  | producer =>
    obtain ⟨ext, hwrites⟩ := hstep
    exact hcons.untouched hwrites.second
  | pump =>
    obtain ⟨n, ext, htransfers⟩ := hstep
    exact hcons.produced htransfers.produced
  | consumer => exact absurd rfl hj

/-- The pump is the consumer of the first queue. -/
theorem stable_pump_consuming : Stable (chainContract A B start) .pump
      (fun s => Consuming A head available loaded s.mem) := by
  rintro s s' ⟨j, hj, hstep, -⟩ hcons
  cases j with
  | producer =>
    obtain ⟨ext, hwrites⟩ := hstep
    exact hcons.produced hwrites.produced
  | pump => exact absurd rfl hj
  | consumer =>
    obtain ⟨n, hreads⟩ := hstep
    exact hcons.untouched hreads.first

/-- The pump is the producer of the second queue. -/
theorem stable_pump_producing : Stable (chainContract A B start) .pump
      (fun s => Producing B tail occupied stored s.mem) := by
  rintro s s' ⟨j, hj, hstep, -⟩ hprod
  cases j with
  | producer =>
    obtain ⟨ext, hwrites⟩ := hstep
    exact hprod.untouched hwrites.second
  | pump => exact absurd rfl hj
  | consumer =>
    obtain ⟨n, hreads⟩ := hstep
    exact hprod.consumed hreads.consumed

theorem stable_balanced : Stable (chainContract A B start) .pump (Balanced A B start d) := by
  rintro s s' ⟨j, hj, hstep, -⟩ hbal
  cases j with
  | producer =>
    obtain ⟨ext, hwrites⟩ := hstep
    exact hbal.writes hwrites
  | pump => exact absurd rfl hj
  | consumer =>
    obtain ⟨n, hreads⟩ := hstep
    exact hbal.reads hreads

/-- The pump has loaded the indices and copies: what it has loaded from the first queue and
what it has stored past the end of the second. -/
structure Copying (A B : ValidHandle P) (start : List β) (head tail : UInt32)
    (available occupied : Nat) (loaded stored : List β) (s : ChainState P β) : Prop where
  source : Consuming A head available loaded s.mem
  destination : Producing B tail occupied stored s.mem
  balanced : Balanced A B start 0 s

theorem stable_copying : Stable (chainContract A B start) .pump
      (Copying A B start head tail available occupied loaded stored) :=
  fun s s' hrely hs => ⟨stable_pump_consuming s s' hrely hs.source,
    stable_pump_producing s s' hrely hs.destination, stable_balanced s s' hrely hs.balanced⟩

theorem consumer_returns_nil {s0 s : ChainState P β}
    (hstep : chainGuarantee A B start .consumer s0 s) :
    chainGuarantee A B start .consumer s0 { s with read := s.read ++ [] } := by
  rw [append_nil]
  exact hstep

theorem chainIdle_stable (i : Role) (own : Unit) :
    Stable (chainContract A B start) i (chainIdle A B start i own) := by
  rintro s s' hrely ⟨hs, hbal⟩
  refine ⟨stable_sound i s s' hrely hs, ?_⟩
  rintro rfl
  exact stable_balanced s s' hrely (hbal rfl)

end Proofs

end AgentOs.Serial
