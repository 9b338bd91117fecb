import AgentOs.Serial.Invariant

/-!
# Frontends and monitors keep the contract

Whatever the service and the other threads do in between, a frontend uses its client's
queues only between a successful `aos_serial_frontend_begin` and the matching
`aos_serial_frontend_end`, and a monitor uses only the frame it was given.
-/

open Function (update update_self update_of_ne)

namespace AgentOs.Serial

open Library Threads Prog List Option

/-- The queue of a channel, as a handle that passed the checks. -/
def channelHandle (page : Page) (d : Direction) : ValidHandle Ptr where
  queue := (page, d)
  data := (page, d)
  capacity := d.capacity
  capacity_ne := by cases d <;> decide
  capacity_mask := by cases d <;> decide

/-! ## Queue accesses -/

section Access

variable {s : SerialState} {t : SerialThread} {access : QueueOp Ptr Cell}

theorem accessQueue_eq (s : SerialState) (t : SerialThread) (access : QueueOp Ptr Cell) :
    (s.accessQueue t access).2 = { s with mem := (s.accessQueue t access).2.mem } := by
  cases access <;> rfl

theorem samePage_accessQueue {page : Page} (hpage : page ≠ access.page) :
    SamePage page s (s.accessQueue t access).2 := by
  have hptr {ptr : Ptr} (hne : page ≠ ptr.1) (d : Direction) : (page, d) ≠ ptr :=
    fun hsame => hne (congrArg Prod.fst hsame)
  cases access with
  | loadHead queue => exact .refl
  | loadTail queue => exact .refl
  | loadByte data index => exact .refl
  | storeHead queue head =>
    exact ⟨fun d => update_of_ne (hptr hpage d) _ _, fun _ => rfl, fun _ => rfl⟩
  | storeTail queue tail =>
    exact ⟨fun _ => rfl, fun d => update_of_ne (hptr hpage d) _ _, fun _ => rfl⟩
  | storeByte data index cell =>
    exact ⟨fun _ => rfl, fun _ => rfl, fun d => update_of_ne (hptr hpage d) _ _⟩

/-- A byte in memory is what it was, or what the access stored. -/
theorem cellsOk_accessQueue {page : Page} {epoch : Nat} (hcells : CellsOk page epoch s)
    (hstore : ∀ data index cell, access = .storeByte data index cell ->
      CellOk epoch (s.put t cell)) :
    CellsOk page epoch (s.accessQueue t access).2 := by
  cases access with
  | loadHead queue => exact hcells
  | loadTail queue => exact hcells
  | loadByte data index => exact hcells
  | storeHead queue head => exact hcells
  | storeTail queue tail => exact hcells
  | storeByte data index cell =>
    intro d k hk
    show CellOk epoch (update s.mem.data data
      (update (s.mem.data data) index (s.put t cell)) (page, d) k)
    by_cases hdata : (page, d) = data
    · subst hdata
      rw [update_self]
      by_cases hindex : k = index
      · subst hindex
        rw [update_self]
        exact hstore _ _ _ rfl
      · rw [update_of_ne hindex]
        exact hcells d k hk
    · rw [update_of_ne hdata]
      exact hcells d k hk

/-- An access to one of the client's channels, which stores only bytes of this generation. -/
theorem SerialInv.accessQueue {strict : Prop} (hs : SerialInv strict s) {c : UInt32}
    (hpage : access.page = .front c \/ access.page = .guest c (s.frame c))
    (hstore : ∀ data index cell, access = .storeByte data index cell ->
      CellOk (s.epoch c) (s.put t cell)) :
    SerialInv strict (s.accessQueue t access).2 := by
  have hcells {page : Page} {c' : UInt32} (hown : access.page = page -> c' = c)
      (hold : CellsOk page (s.epoch c') s) :
      CellsOk page (s.epoch c') (s.accessQueue t access).2 := by
    by_cases hsame : access.page = page
    · obtain rfl := hown hsame
      exact cellsOk_accessQueue hold hstore
    · exact (samePage_accessQueue (Ne.symm hsame)).cellsOk hold
  have hblank : ∀ c' frame, s.frames c' <= frame ->
      Blank (.guest c' frame) (s.accessQueue t access).2 := by
    intro c' frame hframe
    refine (samePage_accessQueue fun hsame => ?_).blank (hs.blank c' frame hframe)
    rcases hpage with hpage | hpage
    · exact nomatch hsame.trans hpage
    · obtain ⟨rfl, rfl⟩ := Page.guest.inj (hsame.trans hpage)
      exact absurd (hs.frame_lt c') (Nat.not_lt.mpr hframe)
  have hfront : ∀ c', CellsOk (.front c') (s.epoch c') (s.accessQueue t access).2 := by
    refine fun c' => hcells (fun hsame => ?_) (hs.front c')
    rcases hpage with hpage | hpage
    · exact Page.front.inj (hsame.symm.trans hpage)
    · exact nomatch hsame.symm.trans hpage
  have hguest : ∀ c', CellsOk (.guest c' (s.frame c')) (s.epoch c') (s.accessQueue t access).2 := by
    refine fun c' => hcells (fun hsame => ?_) (hs.guest c')
    rcases hpage with hpage | hpage
    · exact nomatch hsame.symm.trans hpage
    · exact (Page.guest.inj (hsame.symm.trans hpage)).1
  rw [accessQueue_eq] at hfront hguest hblank ⊢
  exact ⟨hs.gate, hs.detached, hs.resetting, hfront, hguest, hblank, hs.frame_lt, hs.returned,
    hs.uart⟩

theorem kept_accessQueue : Kept s (s.accessQueue t access).2 := by
  rw [accessQueue_eq]
  exact ⟨rfl, rfl, rfl, rfl, rfl⟩

end Access

section Contract

/-- The program keeps the contract while the requests of all threads meet the condition. -/
abbrev Keeping (strict : Prop) (condition : SerialThread -> SerialOp -> SerialState -> Prop)
    {α : Type} (t : SerialThread) (Q : SerialState -> α -> SerialState -> Prop) :=
  Within (serial.restrict condition) (contract strict) t Q

variable {strict : Prop} {condition : SerialThread -> SerialOp -> SerialState -> Prop}
  {request : SerialOp} {s' : SerialState} {answer : SerialAns request} {s : SerialState}

theorem exec_perform {t : SerialThread}
    (hexec : (serial.restrict condition).exec t request s answer s') :
    s.mayAccess t = true /\ ∃ oracle, s.perform oracle t request = (answer, s') := by
  obtain ⟨-, oracle, hanswer⟩ := hexec
  unfold serialAnswer at hanswer
  split at hanswer
  case isTrue hmay => exact ⟨hmay, oracle, some.inj hanswer⟩
  case isFalse => cases hanswer

/-! ## Inside a section -/

/-- The requests of a frontend that is inside. -/
def FrontendUse (strict : Prop) (c : UInt32) (epoch : Nat) : SerialOp -> Prop
  | .queue access =>
    ∃ d, OnHandle (channelHandle (.front c) d) (fun cell => strict -> SeenOk epoch cell) access
  | .getUart => True
  | .putUart uart => strict -> UartOk epoch uart
  | .uartRead _ => True
  | .uartWrite _ cell => strict -> SeenOk epoch cell
  | _ => False

/-- The bytes it gets were put into the queue, and are taken, since the last rebind. -/
def FrontendAns (strict : Prop) (epoch : Nat) : (request : SerialOp) -> SerialAns request -> Prop
  | .queue (.loadByte _ _), cell => CellOk epoch cell /\ SeenOk epoch cell
  | .getUart, uart => strict -> UartOk epoch uart
  | .uartRead _, some cell => SeenOk epoch cell
  | _, _ => True

def InSection (strict : Prop) (c : UInt32) (i epoch : Nat) (s : SerialState) : Prop :=
  SerialInv strict s /\ s.inside c i = true /\ s.epoch c = epoch

variable {access : QueueOp Ptr Cell}

theorem OnHandle.page_eq {page : Page} {d : Direction} {R : Cell -> Prop}
    (h : OnHandle (channelHandle page d) R access) :
    access.page = page := by
  cases access with
  | loadHead queue => exact congrArg Prod.fst h
  | loadTail queue => exact congrArg Prod.fst h
  | storeHead queue head => exact congrArg Prod.fst h
  | storeTail queue tail => exact congrArg Prod.fst h
  | loadByte data index => exact congrArg Prod.fst h.1
  | storeByte data index cell => exact congrArg Prod.fst h.1

variable {epoch : Nat} {c : UInt32} {i : Nat}

theorem frontend_may (huse : FrontendUse strict c epoch request) (hs : InSection strict c i epoch s)
    :
    SerialMay strict (.frontend c i) request s := by
  obtain ⟨-, hinside, rfl⟩ := hs
  cases request with
  | queue access =>
    obtain ⟨d, hon⟩ := huse
    cases access with
    | storeByte data index cell => exact ⟨hon.page_eq, hinside, hon.2.2⟩
    | loadHead queue => exact ⟨hon.page_eq, hinside⟩
    | loadTail queue => exact ⟨hon.page_eq, hinside⟩
    | storeHead queue head => exact ⟨hon.page_eq, hinside⟩
    | storeTail queue tail => exact ⟨hon.page_eq, hinside⟩
    | loadByte data index => exact ⟨hon.page_eq, hinside⟩
  | uartWrite offset cell => exact huse
  | _ => trivial

/-- A step of a frontend that changes only queue memory, from inside. -/
theorem FrontendMoves.accessQueue {t : SerialThread} (hpage : access.page = .front c)
    (hinside : s.inside c i = true) :
    FrontendMoves c i s (s.accessQueue t access).2 := by
  have hpages : ∀ page, (page = .front c -> s.inside c i = false) ->
      SamePage page s (s.accessQueue t access).2 := by
    intro page houtside
    refine samePage_accessQueue fun hsame => ?_
    cases (houtside (hsame.trans hpage)).symm.trans hinside
  refine ⟨kept_accessQueue, ?_, ?_, hpages⟩
  · intro c' j _
    rw [accessQueue_eq]
  · intro c' hshut
    rw [accessQueue_eq]
    exact hshut

theorem FrontendMoves.refl (c : UInt32) (i : Nat) (s : SerialState) : FrontendMoves c i s s :=
  ⟨⟨rfl, rfl, rfl, rfl, rfl⟩, fun _ _ _ => rfl, fun _ hshut => hshut, fun _ _ => .refl⟩

theorem SerialInv.setUart (hs : SerialInv strict s) (change : Uart -> Uart)
    (hchange : strict -> UartOk (s.epoch c) (change (s.uart c i))) :
    SerialInv strict (s.setUart (.frontend c i) change) := by
  refine ⟨hs.gate, hs.detached, hs.resetting, hs.front, hs.guest, hs.blank_of_mem rfl,
    hs.frame_lt, hs.returned, fun hstrict => ?_⟩
  have hown : ∀ j, UartOk (s.epoch c) (update (s.uart c) i (change (s.uart c i)) j) :=
    (Function.forall_update_iff (s.uart c) fun _ => UartOk (s.epoch c)).mpr
      ⟨hchange hstrict, fun j _ => hs.uart hstrict c j⟩
  exact (Function.forall_update_iff s.uart fun c uarts => ∀ j, UartOk (s.epoch c) (uarts j)).mpr
    ⟨hown, fun c' _ => hs.uart hstrict c'⟩

theorem FrontendMoves.setUart (c : UInt32) (i : Nat) (s : SerialState) (change : Uart -> Uart) :
    FrontendMoves c i s (s.setUart (.frontend c i) change) :=
  ⟨⟨rfl, rfl, rfl, rfl, rfl⟩, fun _ _ _ => rfl, fun _ hshut => hshut, fun _ _ => .of_mem rfl⟩

/-- Everything a frontend does inside keeps it inside. -/
theorem frontend_keep (huse : FrontendUse strict c epoch request)
    (hs : InSection strict c i epoch s)
    (hexec : (serial.restrict condition).exec (.frontend c i) request s answer s') :
    FrontendAns strict epoch request answer /\
      (contract strict).step (.frontend c i) s s' /\ InSection strict c i epoch s' := by
  obtain ⟨-, oracle, hperform⟩ := exec_perform hexec
  obtain ⟨hinv, hinside, hepoch⟩ := hs
  have hstay : (contract strict).step (.frontend c i) s s /\ InSection strict c i epoch s :=
    ⟨⟨FrontendMoves.refl c i s, hinv⟩, hinv, hinside, hepoch⟩
  cases request with
  | queue access =>
    obtain ⟨d, hon⟩ := huse
    have hanswer : (s.accessQueue (.frontend c i) access).1 = answer := congrArg Prod.fst hperform
    have hstate : (s.accessQueue (.frontend c i) access).2 = s' := congrArg Prod.snd hperform
    have hinv' : SerialInv strict s' := by
      rw [<- hstate]
      refine hinv.accessQueue (.inl hon.page_eq) fun data index cell _ k hk => ?_
      exact (some.inj hk).symm
    have hmoves : FrontendMoves c i s s' := by
      rw [<- hstate]
      exact .accessQueue hon.page_eq hinside
    have hinside' : s'.inside c i = true := by
      rw [<- hstate, accessQueue_eq]
      exact hinside
    refine ⟨?_, ⟨hmoves, hinv'⟩, hinv', hinside', by rw [hmoves.kept.epoch, hepoch]⟩
    cases access with
    | loadByte data index =>
      obtain ⟨rfl, hindex⟩ := hon
      rw [<- hanswer, <- hepoch]
      constructor
      · exact hinv.front c d index hindex
      · intro k hk
        exact (some.inj hk).symm
    | _ => trivial
  | getUart =>
    cases hperform
    refine ⟨fun hstrict => ?_, hstay⟩
    rw [<- hepoch]
    exact hinv.uart hstrict c i
  | putUart uart =>
    cases hperform
    have hinv' : SerialInv strict (s.setUart (.frontend c i) fun _ => uart) :=
      hinv.setUart _ fun hstrict => hepoch ▸ huse hstrict
    exact ⟨trivial, ⟨FrontendMoves.setUart c i s _, hinv'⟩, hinv', hinside, hepoch⟩
  | uartRead offset =>
    cases hperform
    refine ⟨?_, hstay⟩
    cases hbyte : oracle.uartByte with
    | none => trivial
    | some byte =>
      intro k hk
      rw [<- hepoch]
      exact (some.inj hk).symm
  | uartWrite offset cell =>
    cases hperform
    exact ⟨trivial, hstay⟩
  | _ => exact huse.elim

variable {s0 : SerialState}

theorem within_section {α : Type} {Q : α -> Prop} {program : SerialM α}
    (hprogram : Ensures (FrontendAns strict epoch) (FrontendUse strict c epoch) Q program)
    (hstep : (contract strict).step (.frontend c i) s0 s) (hs : InSection strict c i epoch s)
      :
    Keeping strict condition (.frontend c i)
      (fun s0 value s => (contract strict).step (.frontend c i) s0 s /\
        InSection strict c i epoch s /\ Q value) program s0 s :=
  within_of_ensures hprogram stable_inside (fun _ _ huse hs => frontend_may huse hs)
    (fun _ _ _ _ huse hs hexec => frontend_keep huse hs hexec) hstep hs

/-! ## Queue calls of a frontend -/

theorem loadsOk_of_frontendAns {answer : QueueAns access}
    (hanswer : FrontendAns strict epoch (.queue access) answer) :
    LoadsOk (fun cell => CellOk epoch cell /\ SeenOk epoch cell) access answer := by
  cases access with
  | loadByte data index => exact hanswer
  | _ => trivial

theorem ensures_frontendWrite {bytes : Option (Nat -> Cell)} {length : UInt32}
    (hbytes : ∀ bytes', bytes = some bytes' -> ∀ i, strict -> SeenOk epoch (bytes' i)) :
    Ensures (FrontendAns strict epoch) (FrontendUse strict c epoch) (fun _ => True)
      (onQueue (aosSerialQueueWrite (some (aosSerialChannelAt (.front c)).toGuest) bytes length)) :=
  (ensures_write (h := channelHandle (.front c) .toGuest) hbytes).lift
    (fun _ hon => ⟨.toGuest, hon⟩) (fun _ _ hanswer => loadsOk_of_frontendAns hanswer)

theorem ensures_frontendRead {bytes length : Bool} {capacity : UInt32} :
    Ensures (FrontendAns strict epoch) (FrontendUse strict c epoch)
      (fun result => ∀ cell ∈ result.2, CellOk epoch cell /\ SeenOk epoch cell)
      (onQueue (aosSerialQueueRead (some (aosSerialChannelAt (.front c)).fromGuest) bytes
        capacity length)) :=
  (ensures_read (h := channelHandle (.front c) .fromGuest)).lift
    (fun _ hon => ⟨.fromGuest, hon⟩) (fun _ _ hanswer => loadsOk_of_frontendAns hanswer)

theorem ensures_frontendAccess {access : QueueAccess} :
    Ensures (FrontendAns strict epoch) (FrontendUse strict c epoch)
      (fun result => ∀ cell ∈ result.2, CellOk epoch cell)
      (frontendAccess (aosSerialChannelAt (.front c)) access) := by
  cases access with
  | write bytes length =>
    refine Ensures.bind (ensures_frontendWrite ?_) fun _ _ => ?_
    · intro bytes' hbytes i _
      obtain ⟨original, -, rfl⟩ := map_eq_some_iff.mp hbytes
      exact seenOk_new epoch _
    · exact nofun
  | read bytes capacity length =>
    exact ensures_frontendRead.weaken fun result hresult cell hmem => (hresult cell hmem).1

theorem ensures_frontendAccesses {accesses : List QueueAccess} {status : PumpStatus}
    {cells : List Cell} (hcells : ∀ cell ∈ cells, CellOk epoch cell) :
    Ensures (FrontendAns strict epoch) (FrontendUse strict c epoch)
      (fun result => ∀ cell ∈ result.2, CellOk epoch cell)
      (frontendAccesses (aosSerialChannelAt (.front c)) accesses status cells) := by
  induction accesses generalizing status cells with
  | nil => exact hcells
  | cons access rest ih =>
    refine Ensures.bind ensures_frontendAccess fun result hresult => ih ?_
    intro cell hmem
    rcases mem_append.mp hmem with hmem | hmem
    · exact hcells cell hmem
    · exact hresult cell hmem

/-! ## The UART step -/

variable {uart : Uart}

theorem ensures_uartDequeue (huart : strict -> UartOk epoch uart) :
    Ensures (FrontendAns strict epoch) (FrontendUse strict c epoch)
      (fun result => (strict -> UartOk epoch result.2.1) /\ ∀ cell ∈ result.2.2, CellOk epoch cell)
      (uartDequeue (aosSerialChannelAt (.front c)) uart) := by
  unfold uartDequeue
  split
  · exact ⟨huart, nofun⟩
  refine Ensures.bind ensures_frontendRead ?_
  rintro ⟨status, bytes⟩ hbytes
  have hcells : ∀ cell ∈ bytes, CellOk epoch cell := fun cell hmem => (hbytes cell hmem).1
  dsimp only
  split
  · exact ⟨huart, hcells⟩
  cases bytes with
  | nil => exact ⟨huart, fun _ _ => ⟨huart, hcells⟩⟩
  | cons byte rest =>
    have hlatched : strict -> UartOk epoch { uart with tx := byte, txPending := true } :=
      fun hstrict => ⟨fun _ => (hbytes byte mem_cons_self).2, (huart hstrict).rx⟩
    exact ⟨hlatched, fun _ _ => ⟨hlatched, hcells⟩⟩

theorem ensures_uartTransmit {status : UInt8} (huart : strict -> UartOk epoch uart) :
    Ensures (FrontendAns strict epoch) (FrontendUse strict c epoch)
      (fun result => strict -> UartOk epoch result.2) (uartTransmit uart status) := by
  unfold uartTransmit
  split
  case isTrue hready =>
    refine ⟨fun hstrict => (huart hstrict).tx hready.1, fun sent _ => ?_⟩
    show Ensures _ _ _ (if !sent then _ else _)
    split
    · exact huart
    have hsent : strict -> UartOk epoch { uart with txPending := false } :=
      fun hstrict => ⟨nofun, (huart hstrict).rx⟩
    exact ⟨hsent, fun _ _ => hsent⟩
  case isFalse => exact huart

theorem ensures_uartReceive {status : UInt8} (huart : strict -> UartOk epoch uart) :
    Ensures (FrontendAns strict epoch) (FrontendUse strict c epoch)
      (fun result => strict -> UartOk epoch result.2) (uartReceive uart status) := by
  unfold uartReceive
  split
  · refine ⟨trivial, fun byte hbyte => ?_⟩
    cases byte with
    | none => exact huart
    | some byte =>
      have hlatched : strict -> UartOk epoch { uart with rx := byte, rxPending := true } :=
        fun hstrict => ⟨(huart hstrict).tx, fun _ => hbyte⟩
      exact ⟨hlatched, fun _ _ => hlatched⟩
  · exact huart

theorem ensures_uartEnqueue {changed : Bool} (huart : strict -> UartOk epoch uart) :
    Ensures (FrontendAns strict epoch) (FrontendUse strict c epoch) (fun _ => True)
      (uartEnqueue (aosSerialChannelAt (.front c)) uart changed) := by
  unfold uartEnqueue
  split
  · trivial
  rename_i hpending
  refine Ensures.bind (ensures_frontendWrite ?_) fun result _ => ?_
  · rintro bytes' ⟨⟩ i hstrict
    exact (huart hstrict).rx (by simpa using hpending)
  · cases result with
    | invalid => trivial
    | full => trivial
    | ok =>
      refine ⟨fun hstrict => ?_, fun _ _ => trivial⟩
      exact ⟨(huart hstrict).tx, nofun⟩

theorem ensures_uartStepAdmitted : Ensures (FrontendAns strict epoch) (FrontendUse strict c epoch)
      (fun result => ∀ cell ∈ result.dequeued, CellOk epoch cell)
      (uartStepAdmitted (aosSerialChannelAt (.front c))) := by
  refine ensures_perform_bind.mpr ⟨trivial, fun uart huart => ?_⟩
  refine Ensures.bind (ensures_uartDequeue huart) ?_
  rintro ⟨ok, uart, dequeued⟩ ⟨huart, hcells⟩
  dsimp only
  split
  · exact hcells
  refine ensures_perform_bind.mpr ⟨trivial, fun status _ => ?_⟩
  cases status with
  | none => exact hcells
  | some status =>
    dsimp only
    split
    · exact hcells
    refine Ensures.bind (ensures_uartTransmit huart) ?_
    rintro ⟨ok, uart⟩ huart
    dsimp only
    split
    · exact hcells
    refine Ensures.bind (ensures_uartReceive huart) ?_
    rintro ⟨ok, uart⟩ huart
    dsimp only
    split
    · exact hcells
    · exact Ensures.bind (ensures_uartEnqueue huart) fun _ _ => hcells

/-! ## Entering and leaving -/

/-- Between two calls a frontend is outside. -/
def Outside (strict : Prop) (c : UInt32) (i : Nat) (s : SerialState) : Prop :=
  SerialInv strict s /\ s.inside c i = false

theorem setInside_inside {c' : UInt32} {j : Nat} {value : Bool} :
    (s.setInside (.frontend c i) value).inside c' j =
      if c' = c /\ j = i then value else s.inside c' j := by
  show update s.inside c (update (s.inside c) i value) c' j = _
  by_cases hc : c' = c
  · subst hc
    rw [update_self]
    by_cases hj : j = i
    · subst hj
      rw [update_self, if_pos ⟨rfl, rfl⟩]
    · rw [update_of_ne hj, if_neg fun h => hj h.2]
  · rw [update_of_ne hc, if_neg fun h => hc h.1]

/-- The gate word of one client and who is inside, changed together by a frontend. -/
theorem frontend_gate (hs : SerialInv strict s) {value : UInt32} {entered : Bool}
    (hopen : s.gate (.front c) ≠ 1)
    (hgate : GateOk c ((s.setGate (.front c) value).setInside (.frontend c i) entered)) :
    (contract strict).step (.frontend c i) s
      ((s.setGate (.front c) value).setInside (.frontend c i) entered) := by
  have hother {c' : UInt32} (hc : c' ≠ c) :
      update s.gate (.front c) value (.front c') = s.gate (.front c') :=
    update_of_ne (fun hsame => hc (Page.front.inj hsame)) _ _
  refine ⟨⟨⟨rfl, rfl, rfl, rfl, rfl⟩, ?_, ?_, fun _ _ => .of_mem rfl⟩, ?_⟩
  · intro c' j hne
    rw [setInside_inside, if_neg fun h => hne (by rw [h.1, h.2])]
    rfl
  · intro c' hshut
    have hc : c' ≠ c := fun hc => hopen (hc ▸ hshut)
    exact (hother hc).trans hshut
  · refine ⟨forall_client c hgate fun c' hc => ?_, fun c' hdetached => ?_, hs.resetting, hs.front,
      hs.guest, hs.blank_of_mem rfl, hs.frame_lt, hs.returned, hs.uart⟩
    · refine (hs.gate c').congr (hother hc) (funext fun j => ?_)
      rw [setInside_inside, if_neg fun h => hc h.1]
      rfl
    · have hc : c' ≠ c := fun hc => hopen (hc ▸ hs.detached c' hdetached)
      exact (hother hc).trans (hs.detached c' hdetached)

/-- The compare-exchange lets the frontend in, or leaves everything as it was. -/
theorem exec_begin {found : UInt32} (hs : Outside strict c i s)
    (hexec : (serial.restrict condition).exec (.frontend c i)
      (.compareExchangeGate (.front c) 0 aosSerialFrontendBusy) s found s') :
    (contract strict).step (.frontend c i) s s' /\
      if found = 0 then InSection strict c i (s'.epoch c) s' else Outside strict c i s' := by
  obtain ⟨-, oracle, ⟨⟩⟩ := exec_perform hexec
  obtain ⟨hinv, houtside⟩ := hs
  by_cases hfree : s.gate (.front c) = 0
  · rw [if_pos hfree, if_pos hfree]
    have hnone : ∀ j, s.inside c j = false := by
      rcases hinv.gate c with ⟨-, hnone⟩ | ⟨hbusy, -⟩
      · exact hnone
      · rcases hbusy with hbusy | hbusy <;> cases hfree.symm.trans hbusy
    have hgate : GateOk c
        ((s.setGate (.front c) aosSerialFrontendBusy).setInside (.frontend c i) true) := by
      refine .inr ⟨.inl (update_self ..), i, ?_, fun j hj => ?_⟩
      · rw [setInside_inside, if_pos ⟨rfl, rfl⟩]
      · by_contra hne
        rw [setInside_inside, if_neg fun h => hne h.2] at hj
        cases (hnone j).symm.trans hj
    have hstep := frontend_gate hinv
      (fun hshut => absurd (hfree.symm.trans hshut) (by decide)) hgate
    refine ⟨hstep, hstep.2, ?_, rfl⟩
    rw [setInside_inside, if_pos ⟨rfl, rfl⟩]
  · rw [if_neg hfree, if_neg hfree]
    exact ⟨⟨FrontendMoves.refl c i s, hinv⟩, hinv, houtside⟩

/-- Leaving clears the busy bit and keeps the service's. -/
theorem exec_end {found : UInt32} (hs : InSection strict c i epoch s)
    (hexec : (serial.restrict condition).exec (.frontend c i)
      (.fetchAndGate (.front c) (~~~aosSerialFrontendBusy)) s found s') :
    (contract strict).step (.frontend c i) s s' /\ Outside strict c i s' /\
      s'.epoch c = epoch := by
  obtain ⟨-, oracle, ⟨⟩⟩ := exec_perform hexec
  obtain ⟨hinv, hinside, hepoch⟩ := hs
  rcases hinv.gate c with ⟨-, hnone⟩ | ⟨hbusy, k, hk, honly⟩
  · cases (hnone i).symm.trans hinside
  have houtside : ∀ j, ((s.setGate (.front c)
      (s.gate (.front c) &&& ~~~aosSerialFrontendBusy)).setInside (.frontend c i) false).inside
        c j = false := by
    intro j
    rw [setInside_inside]
    split
    · rfl
    case isFalse hne =>
      rw [<- Bool.not_eq_true]
      intro hj
      exact hne ⟨rfl, (honly j hj).trans (honly i hinside).symm⟩
  have hvalue : s.gate (.front c) &&& ~~~aosSerialFrontendBusy = 0 \/
      s.gate (.front c) &&& ~~~aosSerialFrontendBusy = 1 := by
    rcases hbusy with hbusy | hbusy
    · rw [hbusy]
      exact .inl (by decide)
    · rw [hbusy]
      exact .inr (by decide)
  have hgate : GateOk c ((s.setGate (.front c)
      (s.gate (.front c) &&& ~~~aosSerialFrontendBusy)).setInside (.frontend c i) false) := by
    refine .inl ⟨?_, houtside⟩
    show update s.gate (.front c) _ (.front c) = 0 \/ update s.gate (.front c) _ (.front c) = 1
    rw [update_self]
    exact hvalue
  have hopen : s.gate (.front c) ≠ 1 := by
    intro hshut
    rcases hbusy with hbusy | hbusy <;> cases hshut.symm.trans hbusy
  have hstep := frontend_gate hinv hopen hgate
  exact ⟨hstep, ⟨hstep.2, houtside i⟩, hepoch⟩

/-! ## Whole calls of a frontend -/

/-- What a frontend's call leaves before its result is noted. -/
def FrontendReturns (strict : Prop) (c : UInt32) (i : Nat) (s0 : SerialState)
    (cells : List Cell) (s : SerialState) : Prop :=
  (contract strict).step (.frontend c i) s0 s /\ Outside strict c i s /\
    ∀ cell ∈ cells, CellOk (s.epoch c) cell

theorem FrontendReturns.nil (hstep : (contract strict).step (.frontend c i) s0 s)
    (hs : Outside strict c i s) :
    FrontendReturns strict c i s0 [] s :=
  ⟨hstep, hs, nofun⟩

theorem stable_outside_inv : Stable (contract strict) (.frontend c i) (Outside strict c i) :=
  (stable_inv _).and stable_outside

/-- A section: the gate decides, then the body runs inside, then the frontend leaves. -/
theorem within_admitted {α β : Type} {body : SerialM α} {Q : SerialState -> β -> SerialState -> Prop}
    (refused : PumpStatus -> SerialM β) (result : α -> β) (cells : α -> List Cell)
    (hbody : ∀ epoch, Ensures (FrontendAns strict epoch) (FrontendUse strict c epoch)
      (fun value => ∀ cell ∈ cells value, CellOk epoch cell) body)
    (hresult : ∀ s0 value s, FrontendReturns strict c i s0 (cells value) s -> Q s0 (result value) s)
    (hrefused : ∀ s0 status s, (contract strict).step (.frontend c i) s0 s ->
      Outside strict c i s -> Keeping strict condition
      (.frontend c i) Q (refused status) s0 s)
    (hstep : (contract strict).step (.frontend c i) s0 s) (hs : Outside strict c i s) :
    Keeping strict condition (.frontend c i) Q
      (aosSerialFrontendBegin (aosSerialChannelAt (.front c)) >>= fun admission =>
        if admission ≠ .ok then refused admission
        else body >>= fun value =>
          aosSerialFrontendEnd (aosSerialChannelAt (.front c)) >>= fun _ => pure (result value))
      s0 s := by
  refine within_bind (within_op hstep stable_outside_inv hs (fun _ _ => trivial) ?_)
  intro s1 found s2 hs1 hexec
  obtain ⟨hstep, hfound⟩ := exec_begin hs1 hexec
  show Within _ _ _ _ (if found = 0 then _ else _) s1 s2
  split at hfound
  case isTrue hzero =>
    rw [if_pos hzero]
    refine within_bind ((within_section (hbody _) hstep hfound).mono ?_)
    rintro s3 value s4 ⟨hstep, hinside, hcells⟩
    refine within_op hstep stable_inside hinside (fun _ _ => trivial) ?_
    intro s5 found s6 hinside hexec
    obtain ⟨hstep, houtside, hepoch⟩ := exec_end hinside hexec
    exact hresult s5 value s6 ⟨hstep, houtside, hepoch.symm ▸ hcells⟩
  case isFalse hzero =>
    rw [if_neg hzero]
    split
    · exact hrefused s1 .invalid s2 hstep hfound
    · exact hrefused s1 .full s2 hstep hfound

theorem within_frontendSection {accesses : List QueueAccess} (hs : Outside strict c i s) :
    Keeping strict condition (.frontend c i)
      (fun s0 result s => FrontendReturns strict c i s0 result.2 s)
      (frontendSection (aosSerialChannelAt (.front c)) accesses) s s := by
  refine within_admitted (fun admission => pure (admission, [])) id Prod.snd
    (fun epoch => ensures_frontendAccesses ?_)
    (fun _ _ _ hreturns => hreturns) (fun _ _ _ hstep houtside => .nil hstep houtside)
    ⟨FrontendMoves.refl c i s, hs.1⟩ hs
  exact nofun

/-- A refused step looks at the gate again and, if it finds it closed, forgets the latches. -/
theorem within_uartRefused (hstep : (contract strict).step (.frontend c i) s0 s)
    (hs : Outside strict c i s) :
    Keeping strict condition (.frontend c i)
      (fun s0 result s => FrontendReturns strict c i s0 result.dequeued s)
      (loadGate (.front c) >>= fun gate =>
        if gate &&& aosSerialFrontendClosed ≠ 0 then
          dropPending >>= fun _ => pure (⟨true, false, []⟩ : UartResult)
        else pure ⟨true, false, []⟩) s0 s := by
  refine within_op hstep stable_outside_inv hs (fun _ _ => trivial) ?_
  intro s1 gate s2 hs1 hexec
  obtain ⟨-, oracle, ⟨⟩⟩ := exec_perform hexec
  have hstay : (contract strict).step (.frontend c i) s1 s1 :=
    ⟨FrontendMoves.refl c i s1, hs1.1⟩
  show Within _ _ _ _ (if s1.gate (.front c) &&& aosSerialFrontendClosed ≠ 0 then _ else _) s1 s1
  split
  · refine within_op hstay stable_outside_inv hs1 (fun _ _ => trivial) ?_
    intro s3 answer s4 hs3 hexec
    obtain ⟨-, oracle, ⟨⟩⟩ := exec_perform hexec
    have hinv := hs3.1.setUart (c := c) (i := i)
      (fun uart => { uart with txPending := false, rxPending := false })
      fun _ => ⟨nofun, nofun⟩
    exact .nil ⟨FrontendMoves.setUart c i s3 _, hinv⟩ ⟨hinv, hs3.2⟩
  · exact .nil hstay hs1

theorem within_uartStep {present : Bool} (hs : Outside strict c i s) :
    Keeping strict condition (.frontend c i)
      (fun s0 result s => FrontendReturns strict c i s0 result.dequeued s)
      (aosSerialUartStep (aosSerialChannelAt (.front c)) present) s s := by
  have hstay : (contract strict).step (.frontend c i) s s := ⟨FrontendMoves.refl c i s, hs.1⟩
  cases present with
  | false => exact .nil hstay hs
  | true =>
    exact within_admitted _ id UartResult.dequeued
      (fun epoch => ensures_uartStepAdmitted) (fun _ _ _ hreturns => hreturns)
      (fun _ _ _ hstep houtside => within_uartRefused hstep houtside) hstay hs

theorem within_frontend (call : FrontendCall) (hs : Outside strict c i s) :
    Keeping strict condition (.frontend c i)
      (fun s0 result s => FrontendReturns strict c i s0 result.1 s) (frontendCode c call) s s := by
  cases call with
  | write bytes length =>
    exact within_bind ((within_frontendSection hs).mono fun _ _ _ hreturns => hreturns)
  | read bytes capacity length =>
    refine within_bind ?_
    unfold aosSerialFrontendRead
    split
    · exact .nil ⟨FrontendMoves.refl c i s, hs.1⟩ hs
    · exact (within_frontendSection hs).mono fun _ _ _ hreturns => hreturns
  | accesses accesses =>
    exact within_bind ((within_frontendSection hs).mono fun _ _ _ hreturns => hreturns)
  | uartStep present =>
    exact within_bind ((within_uartStep hs).mono fun _ _ _ hreturns => hreturns)

/-! ## Monitors -/

/-- The requests of a monitor. -/
def VmmUse (c : UInt32) (frame : Nat) : SerialOp -> Prop
  | .queue access => ∃ d, OnHandle (channelHandle (.guest c frame) d) (fun _ => True) access
  | .storeMeta page _ _ => page = .guest c frame
  | _ => False

def VmmAns (epoch : Nat) : (request : SerialOp) -> SerialAns request -> Prop
  | .queue (.loadByte _ _), cell => CellOk epoch cell
  | _, _ => True

/-- The frame is the client's, or has been replaced for good. -/
def Active (strict : Prop) (c : UInt32) (frame epoch : Nat) (s : SerialState) : Prop :=
  SerialInv strict s /\ (frame < s.frame c \/ s.frame c = frame /\ s.epoch c = epoch)

variable {frame : Nat}

theorem Active.epoch_eq (hs : Active strict c frame epoch s) (hframe : s.frame c = frame) :
    s.epoch c = epoch := by
  rcases hs.2 with hless | ⟨-, hepoch⟩
  · exact absurd hframe (Nat.ne_of_gt hless)
  · exact hepoch

theorem vmm_keep (huse : VmmUse c frame request) (hs : Active strict c frame epoch s)
    (hexec : (serial.restrict condition).exec (.vmm c frame) request s answer s') :
    VmmAns epoch request answer /\ (contract strict).step (.vmm c frame) s s' /\
      Active strict c frame epoch s' := by
  obtain ⟨hmay, oracle, hperform⟩ := exec_perform hexec
  have hframe : s.frame c = frame := eq_of_beq hmay
  have hepoch := hs.epoch_eq hframe
  have hinv := hs.1
  cases request with
  | queue access =>
    obtain ⟨d, hon⟩ := huse
    have hpage := hon.page_eq
    have hanswer : (s.accessQueue (.vmm c frame) access).1 = answer := congrArg Prod.fst hperform
    have hstate : (s.accessQueue (.vmm c frame) access).2 = s' := congrArg Prod.snd hperform
    have hinv' : SerialInv strict s' := by
      rw [<- hstate]
      refine hinv.accessQueue (.inr (hframe.symm ▸ hpage)) fun data index cell _ k hk => ?_
      exact (some.inj hk).symm
    have hmoves : VmmMoves c frame s s' := by
      rw [<- hstate]
      refine ⟨kept_accessQueue, ?_, ?_, hframe, fun page hne => ?_⟩
      · rw [accessQueue_eq]
      · rw [accessQueue_eq]
      · exact samePage_accessQueue fun hsame => hne (hsame.trans hpage)
    refine ⟨?_, ⟨hmoves, hinv'⟩, hinv', .inr ⟨?_, ?_⟩⟩
    · cases access with
      | loadByte data index =>
        obtain ⟨rfl, hindex⟩ := hon
        rw [<- hanswer, <- hepoch]
        have hcells := hinv.guest c
        rw [hframe] at hcells
        exact hcells d index hindex
      | _ => trivial
    · rw [hmoves.kept.frame, hframe]
    · rw [hmoves.kept.epoch, hepoch]
  | storeMeta page field value =>
    obtain ⟨-, rfl⟩ := Prod.mk.inj hperform
    exact ⟨trivial, ⟨⟨⟨rfl, rfl, rfl, rfl, rfl⟩, rfl, rfl, hframe, fun _ _ => .of_mem rfl⟩,
      hinv.setWord _⟩, hinv.setWord _, .inr ⟨hframe, hepoch⟩⟩
  | _ => exact huse.elim

/-- What a monitor's call leaves before its result is noted. -/
def VmmReturns (strict : Prop) (c : UInt32) (frame : Nat) (s0 : SerialState)
    (cells : List Cell) (s : SerialState) : Prop :=
  (contract strict).step (.vmm c frame) s0 s /\ ∀ cell ∈ cells, CellOk (s.epoch c) cell

theorem loadsOk_of_vmmAns {answer : QueueAns access} (hanswer : VmmAns epoch (.queue access) answer)
    : LoadsOk (CellOk epoch) access answer := by
  cases access with
  | loadByte data index => exact hanswer
  | _ => trivial

theorem ensures_vmm (call : VmmCall) :
    Ensures (VmmAns epoch) (VmmUse c frame) (fun result => ∀ cell ∈ result.1, CellOk epoch cell)
      (vmmCode c frame call) := by
  cases call with
  | write bytes length =>
    refine Ensures.bind ((ensures_write (h := channelHandle (.guest c frame) .fromGuest)
      fun _ _ _ => trivial).lift (fun _ hon => ⟨.fromGuest, hon⟩)
      (fun _ _ hanswer => loadsOk_of_vmmAns hanswer)) fun _ _ => ?_
    exact nofun
  | read bytes capacity length =>
    exact Ensures.bind ((ensures_read (h := channelHandle (.guest c frame) .toGuest)).lift
      (fun _ hon => ⟨.toGuest, hon⟩) (fun _ _ hanswer => loadsOk_of_vmmAns hanswer))
      fun _ hcells => hcells
  | setState value =>
    exact ⟨rfl, nofun⟩

theorem within_vmm (call : VmmCall) (hs : SerialInv strict s) (hframe : s.frame c = frame) :
    Keeping strict condition (.vmm c frame)
      (fun s0 result s => VmmReturns strict c frame s0 result.1 s) (vmmCode c frame call) s s := by
  have hstay : (contract strict).step (.vmm c frame) s s :=
    ⟨⟨⟨rfl, rfl, rfl, rfl, rfl⟩, rfl, rfl, hframe, fun _ _ => .refl⟩, hs⟩
  refine (within_of_ensures (ensures_vmm call) ((stable_inv _).and stable_active)
    (fun _ _ _ _ => trivial) (fun _ _ _ _ huse hs hexec => vmm_keep huse hs hexec) hstay
    ⟨hs, .inr ⟨hframe, rfl⟩⟩).mono ?_
  rintro s0 result s1 ⟨hstep, hactive, hcells⟩
  have hmoves : VmmMoves c frame s0 s1 := hstep.1
  have hepoch := Active.epoch_eq hactive (by rw [hmoves.kept.frame, hmoves.active])
  exact ⟨hstep, hepoch.symm ▸ hcells⟩

end Contract

end AgentOs.Serial
