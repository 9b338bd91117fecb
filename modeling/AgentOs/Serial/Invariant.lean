import AgentOs.Serial.QueueUse
import AgentOs.Serial.System

/-!
# What holds between any two steps of the serial system

The gate word of a client says whether somebody is inside a section; a detached client's gate is
closed with nobody inside; every byte in the client's queues was put there since the last
rebind; frames not yet handed out are blank.  Each kind of thread makes steps of its own shape.
With `strict`, the bytes in the latches of the UART frontends were also taken since the last
rebind.
-/

namespace AgentOs.Serial

open Library Threads

/-! ## Bytes and pages -/

def CellOk (epoch : Nat) (cell : Cell) : Prop := ∀ k, cell.written = some k -> k = epoch

def SeenOk (epoch : Nat) (cell : Cell) : Prop := ∀ k, cell.seen = some k -> k = epoch

theorem cellOk_zero (epoch : Nat) : CellOk epoch Cell.zero := by
  rintro k ⟨⟩

theorem seenOk_new (epoch : Nat) (byte : UInt8) : SeenOk epoch (Cell.new byte) := by
  rintro k ⟨⟩

structure UartOk (epoch : Nat) (uart : Uart) : Prop where
  tx : uart.txPending = true -> SeenOk epoch uart.tx
  rx : uart.rxPending = true -> SeenOk epoch uart.rx

def Direction.capacity : Direction -> UInt32
  | .toGuest => aosSerialRxCapacity
  | .fromGuest => aosSerialTxCapacity

def CellsOk (page : Page) (epoch : Nat) (s : SerialState) : Prop :=
  ∀ (d : Direction) (index : UInt32), index < d.capacity -> CellOk epoch (s.mem.data (page, d) index)

/-- A frame as the kernel makes it. -/
structure Blank (page : Page) (s : SerialState) : Prop where
  head : ∀ d, s.mem.head (page, d) = 0
  tail : ∀ d, s.mem.tail (page, d) = 0
  data : ∀ d index, s.mem.data (page, d) index = Cell.zero

structure SamePage (page : Page) (s s' : SerialState) : Prop where
  head : ∀ d, s'.mem.head (page, d) = s.mem.head (page, d)
  tail : ∀ d, s'.mem.tail (page, d) = s.mem.tail (page, d)
  data : ∀ d, s'.mem.data (page, d) = s.mem.data (page, d)

namespace SamePage

variable {page : Page} {s s' : SerialState}

theorem refl : SamePage page s s := ⟨fun _ => rfl, fun _ => rfl, fun _ => rfl⟩

theorem of_mem (hmem : s'.mem = s.mem) : SamePage page s s' :=
  ⟨fun _ => by rw [hmem], fun _ => by rw [hmem], fun _ => by rw [hmem]⟩

theorem cellsOk (hsame : SamePage page s s') {epoch : Nat} (hcells : CellsOk page epoch s) :
    CellsOk page epoch s' := by
  intro d index hindex
  rw [hsame.data]
  exact hcells d index hindex

theorem blank (hsame : SamePage page s s') (hblank : Blank page s) : Blank page s' where
  head d := (hsame.head d).trans (hblank.head d)
  tail d := (hsame.tail d).trans (hblank.tail d)
  data d index := by rw [hsame.data, hblank.data]

end SamePage

variable {s : SerialState}

theorem Blank.cellsOk {page : Page} (hblank : Blank page s) (epoch : Nat) :
    CellsOk page epoch s := by
  intro d index _
  rw [hblank.data]
  exact cellOk_zero epoch

/-! ## The invariant -/

/-- One client, and every other one. -/
theorem forall_client {P : UInt32 -> Prop} (c : UInt32) (hown : P c)
    (hother : ∀ c', c' ≠ c -> P c') (c' : UInt32) : P c' :=
  (eq_or_ne c' c).elim (fun hc => hc ▸ hown) (hother c')

/-- Free, or held by exactly one thread. -/
def GateOk (client : UInt32) (s : SerialState) : Prop :=
  (s.gate (.front client) = 0 \/ s.gate (.front client) = 1) /\ (∀ i, s.inside client i = false) \/
    (s.gate (.front client) = 2 \/ s.gate (.front client) = 3) /\
      ∃ i, s.inside client i = true /\ ∀ j, s.inside client j = true -> j = i

structure SerialInv (strict : Prop) (s : SerialState) : Prop where
  gate : ∀ c, GateOk c s
  detached : ∀ c, s.detached c = true -> s.gate (.front c) = 1
  resetting : ∀ c, s.resetting c = true -> s.detached c = true
  front : ∀ c, CellsOk (.front c) (s.epoch c) s
  guest : ∀ c, CellsOk (.guest c (s.frame c)) (s.epoch c) s
  blank : ∀ c frame, s.frames c <= frame -> Blank (.guest c frame) s
  frame_lt : ∀ c, s.frame c < s.frames c
  returned : ∀ r ∈ s.returned, ∀ cell ∈ r.cells, CellOk r.epoch cell
  uart : strict -> ∀ c i, UartOk (s.epoch c) (s.uart c i)

theorem GateOk.outside {client : UInt32} (hgate : GateOk client s)
    (hshut : s.gate (.front client) = 1) (i : Nat) : s.inside client i = false := by
  rcases hgate with ⟨-, hnone⟩ | ⟨hbusy, -⟩
  · exact hnone i
  · rcases hbusy with hbusy | hbusy <;> cases hshut.symm.trans hbusy

theorem GateOk.congr {client : UInt32} {s' : SerialState} (hok : GateOk client s)
    (hgate : s'.gate (.front client) = s.gate (.front client))
    (hinside : s'.inside client = s.inside client) : GateOk client s' := by
  unfold GateOk at hok ⊢
  rw [hgate, hinside]
  exact hok

namespace SerialInv

variable {strict : Prop} {s s' : SerialState}

/-- Frames that nobody has stay blank while queue memory does not change. -/
theorem blank_of_mem (hs : SerialInv strict s) (hmem : s'.mem = s.mem) (c : UInt32) (frame : Nat)
    (hframe : s.frames c <= frame) : Blank (.guest c frame) s' :=
  (SamePage.of_mem hmem).blank (hs.blank c frame hframe)

theorem setWord (hs : SerialInv strict s) (word : Page -> MetaField -> UInt32) :
    SerialInv strict { s with word := word } :=
  ⟨hs.gate, hs.detached, hs.resetting, hs.front, hs.guest, hs.blank_of_mem rfl, hs.frame_lt,
    hs.returned, hs.uart⟩

/-- Nobody is inside a section of a detached client. -/
theorem outside (hs : SerialInv strict s) {c : UInt32} (hdetached : s.detached c = true)
    (i : Nat) : s.inside c i = false :=
  (hs.gate c).outside (hs.detached c hdetached) i

theorem not_detached (hs : SerialInv strict s) {c : UInt32} {i : Nat}
    (hinside : s.inside c i = true) : s.detached c = false := by
  rw [<- Bool.not_eq_true]
  intro hdetached
  cases (hs.outside hdetached i).symm.trans hinside

end SerialInv

/-! ## Steps -/

/-- What only the service changes. -/
structure Kept (s s' : SerialState) : Prop where
  detached : s'.detached = s.detached
  resetting : s'.resetting = s.resetting
  epoch : s'.epoch = s.epoch
  frame : s'.frame = s.frame
  frames : s'.frames = s.frames

/-- A frontend touches its channel only while it is inside. -/
structure FrontendMoves (c : UInt32) (i : Nat) (s s' : SerialState) : Prop where
  kept : Kept s s'
  inside : ∀ c' j, (c', j) ≠ (c, i) -> s'.inside c' j = s.inside c' j
  shut : ∀ c', s.gate (.front c') = 1 -> s'.gate (.front c') = 1
  pages : ∀ page, (page = .front c -> s.inside c i = false) -> SamePage page s s'

/-- A monitor touches its frame only while it is the client's. -/
structure VmmMoves (c : UInt32) (frame : Nat) (s s' : SerialState) : Prop where
  kept : Kept s s'
  inside : s'.inside = s.inside
  gate : s'.gate = s.gate
  active : s.frame c = frame
  pages : ∀ page, page ≠ .guest c frame -> SamePage page s s'

/-- Both channels of a client as a rebind leaves them. -/
structure ResetDone (c : UInt32) (s : SerialState) : Prop where
  opened : s.gate (.front c) = 0
  frontHead : ∀ d, s.mem.head (.front c, d) = 0
  frontTail : ∀ d, s.mem.tail (.front c, d) = 0
  frontData : ∀ (d : Direction) (index : UInt32), index < d.capacity ->
    s.mem.data (.front c, d) index = Cell.zero
  guestHead : ∀ d, s.mem.head (.guest c (s.frame c), d) = 0
  guestTail : ∀ d, s.mem.tail (.guest c (s.frame c), d) = 0

/-- The service lets nobody in or out; it changes a client's frame only when the client was
detached, and then both channels are reset. -/
structure ServiceMoves (s s' : SerialState) : Prop where
  inside : s'.inside = s.inside
  epochs : ∀ c, s'.epoch c = s.epoch c /\ s'.frame c = s.frame c \/
    s.detached c = true /\ s.frame c < s'.frame c /\ ResetDone c s'

def SerialMoves : SerialThread -> SerialState -> SerialState -> Prop
  | .service => ServiceMoves
  | .frontend c i => FrontendMoves c i
  | .vmm c frame => VmmMoves c frame

/-- The page of a queue access. -/
def QueueOp.page : QueueOp Ptr Cell -> Page
  | .loadHead queue => queue.1
  | .loadTail queue => queue.1
  | .storeHead queue _ => queue.1
  | .storeTail queue _ => queue.1
  | .loadByte data _ => data.1
  | .storeByte data _ _ => data.1

/-- A frontend uses the queues of its own client, from inside; with `strict` it passes on
only bytes it took since the last rebind. -/
def SerialMay (strict : Prop) (t : SerialThread) (request : SerialOp) (s : SerialState) : Prop :=
  match t, request with
  | .frontend c i, .queue (.storeByte data _ cell) =>
    data.1 = .front c /\ s.inside c i = true /\ (strict -> SeenOk (s.epoch c) cell)
  | .frontend c i, .queue access => access.page = .front c /\ s.inside c i = true
  | .frontend c _, .uartWrite _ cell => strict -> SeenOk (s.epoch c) cell
  | _, _ => True

def contract (strict : Prop) : Contract SerialIo SerialThread SerialState where
  may := SerialMay strict
  step t s s' := SerialMoves t s s' /\ SerialInv strict s'

/-! ## What a thread may assume of the others -/

section Assumptions

variable {strict : Prop}

theorem stable_inv (t : SerialThread) : Stable (contract strict) t (SerialInv strict) := by
  rintro s s' ⟨t', -, hmoves, hinv⟩ -
  exact hinv

/-- What the service may assume of a step of anybody else. -/
structure OthersMove (s s' : SerialState) : Prop where
  kept : Kept s s'
  shut : ∀ c, s.gate (.front c) = 1 -> s'.gate (.front c) = 1
  front : ∀ c, (∀ i, s.inside c i = false) -> SamePage (.front c) s s'
  guest : ∀ c frame, frame ≠ s.frame c -> SamePage (.guest c frame) s s'

variable {i : Nat} {c : UInt32} {s s' : SerialState}

theorem FrontendMoves.others (hmoves : FrontendMoves c i s s') : OthersMove s s' where
  kept := hmoves.kept
  shut := hmoves.shut
  front c' hnone := hmoves.pages _ fun hpage => by
    cases hpage
    exact hnone i
  guest c' frame _ := hmoves.pages _ fun hpage => nomatch hpage

theorem VmmMoves.others {frame : Nat} (hmoves : VmmMoves c frame s s') : OthersMove s s' where
  kept := hmoves.kept
  shut c' hshut := by rw [hmoves.gate, hshut]
  front c' _ := hmoves.pages _ fun hpage => nomatch hpage
  guest c' other hother := hmoves.pages _ fun hpage => by
    obtain ⟨rfl, rfl⟩ := Page.guest.inj hpage
    exact hother hmoves.active.symm

theorem others_of_rely (hrely : rely (contract strict) .service s s') : OthersMove s s' := by
  obtain ⟨t, ht, hmoves, -⟩ := hrely
  cases t with
  | service => exact absurd rfl ht
  | frontend c i => exact FrontendMoves.others hmoves
  | vmm c frame => exact VmmMoves.others hmoves

/-- A thread that is inside stays so, and no rebind happens meanwhile. -/
theorem stable_inside {epoch : Nat} : Stable (contract strict) (.frontend c i)
      (fun s => SerialInv strict s /\ s.inside c i = true /\ s.epoch c = epoch) := by
  rintro s s' ⟨t, ht, hmoves, hinv⟩ ⟨hs, hinside, hepoch⟩
  refine ⟨hinv, ?_⟩
  cases t with
  | service =>
    constructor
    · rw [hmoves.inside]
      exact hinside
    · rcases hmoves.epochs c with ⟨hsame, -⟩ | ⟨hdetached, -⟩
      · rw [hsame, hepoch]
      · cases (hs.not_detached hinside).symm.trans hdetached
  | frontend c' j =>
    constructor
    · rw [hmoves.inside c i fun hsame => ht (by rw [Prod.mk.inj hsame |>.1, Prod.mk.inj hsame |>.2])]
      exact hinside
    · rw [hmoves.kept.epoch, hepoch]
  | vmm c' frame =>
    constructor
    · rw [hmoves.inside, hinside]
    · rw [hmoves.kept.epoch, hepoch]

theorem stable_outside :
    Stable (contract strict) (.frontend c i) (fun s => s.inside c i = false) := by
  rintro s s' ⟨t, ht, hmoves, -⟩ houtside
  cases t with
  | service => rw [hmoves.inside, houtside]
  | frontend c' j =>
    rw [hmoves.inside c i fun hsame => ht (by rw [Prod.mk.inj hsame |>.1, Prod.mk.inj hsame |>.2])]
    exact houtside
  | vmm c' frame => rw [hmoves.inside, houtside]

/-- A frame that is not the client's any more never is again. -/
theorem stable_active {frame epoch : Nat} : Stable (contract strict) (.vmm c frame)
      (fun s => frame < s.frame c \/ s.frame c = frame /\ s.epoch c = epoch) := by
  rintro s s' ⟨t, ht, hmoves, -⟩ hactive
  cases t with
  | service =>
    rcases hmoves.epochs c with ⟨hepoch, hframe⟩ | ⟨-, hless, -⟩
    · rw [hframe, hepoch]
      exact hactive
    · left
      rcases hactive with hactive | ⟨hactive, -⟩
      · exact hactive.trans hless
      · exact hactive ▸ hless
  | frontend c' j =>
    rw [hmoves.kept.frame, hmoves.kept.epoch]
    exact hactive
  | vmm c' other =>
    rw [hmoves.kept.frame, hmoves.kept.epoch]
    exact hactive

end Assumptions

end AgentOs.Serial
