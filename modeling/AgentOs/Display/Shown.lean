import AgentOs.Display.Producer

/-!
# What is shown is what was committed

However the chunks fall on the rows, a forward copies the selected rectangle into the hidden
bank.
-/

namespace AgentOs.Display

open Library Framebuffer List Option

/-! ## What the driver does with one request -/

/-- How a request can end. -/
inductive Executed (d : DisplayDriver) (data : Nat -> UInt8) (q : DisplayRequest) :
    DisplayStatus -> DisplayDriver -> Prop where
  | refused {status : DisplayStatus} : status ≠ .ok -> Executed d data q status d
  | began : q.operation = aosDisplayBegin -> q.width <= 1024 /\ q.height <= 768 ->
      d.cookie ≠ uint64Max ->
      Executed d data q .ok { d with
        cookie := d.cookie + 1, width := q.width, height := q.height
        bytes := q.width * q.height * 4, written := 0, active := true
        log := d.log ++ [.began q.width q.height] }
  | wrote : q.operation = aosDisplayWrite -> d.active = true -> q.cookie = d.cookie ->
      q.offset = d.written -> q.length <= d.bytes - d.written ->
      Executed d data q .ok { d with
        banks := d.store data q.length, written := d.written + q.length
        log := d.log ++ [.wrote q.length] }
  | aborted : q.operation = aosDisplayAbort -> Executed d data q .ok { d with active := false }
  | rejected : d.active = true -> d.written = d.bytes ->
      Executed d data q .failed { d with
        failed := true, log := d.log ++ [.presented (!d.front) d.width d.height false] }
  | presented : q.operation = aosDisplayPresent -> d.active = true -> q.cookie = d.cookie ->
      d.written = d.bytes ->
      Executed d data q .ok { d with
        front := !d.front, sequence := d.sequence + 1, active := false
        log := d.log ++ [.presented (!d.front) d.width d.height true] }

variable {d : DisplayDriver} {data : Nat -> UInt8} {accepts : Bool} {q : DisplayRequest}

theorem execute_failed (hfailed : d.failed = true) :
    execute d data accepts q = (.failed, d) := if_pos hfailed

theorem executed {r : DisplayStatus × DisplayDriver} (h : execute d data accepts q = r) :
    Executed d data q r.1 r.2 := by
  unfold execute at h
  split at h
  · exact h ▸ .refused nofun
  split at h
  · exact h ▸ .refused nofun
  split at h
  case isTrue hop =>
    unfold executeBegin at h
    split at h
    · exact h ▸ .refused nofun
    split at h
    · exact h ▸ .refused nofun
    rename_i hfields
    simp only [not_or, UInt32.not_lt] at hfields
    obtain ⟨-, -, -, -, hwidth, -, hheight, hcookie, -⟩ := hfields
    exact h ▸ .began hop ⟨hwidth, hheight⟩ hcookie
  split at h
  · exact h ▸ .refused nofun
  rename_i hactive
  simp only [not_or, Bool.not_eq_false, not_not] at hactive
  split at h
  · exact h ▸ .refused nofun
  split at h
  case isTrue hop =>
    unfold executeWrite at h
    split at h
    · exact h ▸ .refused nofun
    rename_i hfields
    simp only [not_or, not_not, UInt32.not_lt] at hfields
    exact h ▸ .wrote hop hactive.1 hactive.2 hfields.1 hfields.2.2.2
  split at h
  · exact h ▸ .refused nofun
  split at h
  case isTrue hop => exact h ▸ .aborted hop
  split at h
  · exact h ▸ .refused nofun
  rename_i hop
  unfold executePresent at h
  split at h
  · exact h ▸ .refused nofun
  rename_i hwritten
  split at h
  · exact h ▸ .presented (not_not.mp hop) hactive.1 hactive.2 (not_not.mp hwritten)
  · exact h ▸ .rejected hactive.1 (not_not.mp hwritten)

/-- Bytes copied since the last BEGIN. -/
def sinceBegin (log : List DisplayEvent) : Nat :=
  log.foldl (fun copied event => match event with
    | .began _ _ => 0
    | .wrote length => copied + length.toNat
    | .presented _ _ _ _ => copied) 0

/-- The bank that the device shows, with its size: that of the last `present` it accepted. -/
def visible (log : List DisplayEvent) : Option (Bool × UInt32 × UInt32) :=
  log.foldl (fun shown event => match event with
    | .presented bank width height true => some (bank, width, height)
    | _ => shown) none

theorem visible_append (log : List DisplayEvent) (event : DisplayEvent) :
    visible (log ++ [event]) = match event with
      | .presented bank width height true => some (bank, width, height)
      | _ => visible log := by
  rw [visible, foldl_append]
  rfl

/-- Drivers after any requests, whatever the page holds and the device answers. -/
inductive DriverReach : DisplayDriver -> Prop where
  | start (banks : Bool -> Nat -> UInt8) : DriverReach { banks }
  | request {d : DisplayDriver} (data : Nat -> UInt8) (accepts : Bool) (q : DisplayRequest) :
      DriverReach d -> DriverReach (execute d data accepts q).2

/-- A frame that is being received. -/
structure Receiving (d : DisplayDriver) : Prop where
  bytes : d.bytes.toNat = d.width.toNat * d.height.toNat * 4
  written : d.written <= d.bytes
  log : sinceBegin d.log = d.written.toNat

theorem written_add {a b n : UInt32} (hle : a <= b) (hn : n <= b - a) :
    (a + n).toNat = a.toNat + n.toNat /\ a + n <= b := by
  have hsub := UInt32.toNat_sub_of_le b a hle
  have hb := b.toNat_lt
  rw [UInt32.le_iff_toNat_le] at hle hn
  have hadd : (a + n).toNat = a.toNat + n.toNat := by
    rw [UInt32.toNat_add]
    exact Nat.mod_eq_of_lt (by omega)
  exact ⟨hadd, UInt32.le_iff_toNat_le.mpr (by omega)⟩

theorem frame_bytes {w h : UInt32} (hw : w <= 1024) (hh : h <= 768) :
    (w * h * 4).toNat = w.toNat * h.toNat * 4 := by
  have hprod : w.toNat * h.toNat <= 1024 * 768 :=
    Nat.mul_le_mul (UInt32.le_iff_toNat_le.mp hw) (UInt32.le_iff_toNat_le.mp hh)
  have hfour : (4 : UInt32).toNat = 4 := rfl
  have hmod : w.toNat * h.toNat % 2 ^ 32 = w.toNat * h.toNat := Nat.mod_eq_of_lt (by omega)
  rw [UInt32.toNat_mul, UInt32.toNat_mul, hfour, hmod]
  exact Nat.mod_eq_of_lt (by omega)

theorem DriverReach.receiving (hreach : DriverReach d) (hactive : d.active = true) :
    Receiving d := by
  induction hreach with
  | start => cases hactive
  | @request d data accepts q _ ih =>
    generalize hresult : execute d data accepts q = result at hactive ⊢
    obtain ⟨status, d'⟩ := result
    cases executed hresult with
    | refused => exact ih hactive
    | began _ hsize =>
      refine ⟨frame_bytes hsize.1 hsize.2, UInt32.zero_le, ?_⟩
      simp [sinceBegin]
    | wrote _ hactive _ _ hlength =>
      obtain ⟨hbytes, hwritten, hlog⟩ := ih hactive
      obtain ⟨hadd, hle⟩ := written_add hwritten hlength
      refine ⟨hbytes, hle, ?_⟩
      simp only [sinceBegin, foldl_append, foldl_cons, foldl_nil]
      rw [hadd, <- hlog, sinceBegin]
    | aborted => cases hactive
    | rejected hactive =>
      obtain ⟨hbytes, hwritten, hlog⟩ := ih hactive
      refine ⟨hbytes, hwritten, ?_⟩
      simpa [sinceBegin, foldl_append] using hlog
    | presented => cases hactive

/-- The bank that is shown is the driver's front bank. -/
theorem DriverReach.visible_front (hreach : DriverReach d) :
    ∀ shown ∈ visible d.log, shown.1 = d.front := by
  induction hreach with
  | start => exact nofun
  | @request d data accepts q _ ih =>
    generalize hresult : execute d data accepts q = result
    obtain ⟨status, d'⟩ := result
    cases executed hresult with
    | refused | aborted => exact ih
    | began | wrote | rejected => rwa [visible_append]
    | presented =>
      rintro shown hshown
      cases (visible_append ..).symm.trans hshown
      rfl

/-- What one request leaves of the driver. -/
structure DriverLaw (d : DisplayDriver) (q : DisplayRequest) (d' : DisplayDriver) : Prop where
  kept : ∀ shown ∈ visible d.log, d'.banks shown.1 = d.banks shown.1
  turned : d'.front ≠ d.front \/ visible d'.log ≠ visible d.log ->
    q.operation = aosDisplayPresent /\ visible d'.log = some (d'.front, d.width, d.height) /\
      sinceBegin d.log = d.width.toNat * d.height.toNat * 4
  latched : d.failed = true -> d' = d

theorem DriverReach.law (hreach : DriverReach d) (data : Nat -> UInt8) (accepts : Bool)
    (q : DisplayRequest) : DriverLaw d q (execute d data accepts q).2 := by
  generalize hresult : execute d data accepts q = result
  have hlatched (hfailed : d.failed = true) : result.2 = d := by rw [<- hresult, execute_failed hfailed]
  obtain ⟨status, d'⟩ := result
  have hsame (hlog : visible d'.log = visible d.log) (hfront : d'.front = d.front)
      (hmoved : d'.front ≠ d.front \/ visible d'.log ≠ visible d.log) : False :=
    hmoved.elim (absurd hfront) (absurd hlog)
  cases executed hresult with
  | refused | aborted => exact ⟨fun _ _ => rfl, fun h => (hsame rfl rfl h).elim, hlatched⟩
  | began | rejected =>
    exact ⟨fun _ _ => rfl, fun h => (hsame (visible_append ..) rfl h).elim, hlatched⟩
  | wrote =>
    refine ⟨fun shown hshown => ?_, fun h => (hsame (visible_append ..) rfl h).elim, hlatched⟩
    rw [hreach.visible_front shown hshown]
    exact Function.update_of_ne (Bool.self_ne_not d.front) ..
  | presented hop hactive _ hall =>
    obtain ⟨hbytes, -, hlog⟩ := hreach.receiving hactive
    exact ⟨fun _ _ => rfl, fun _ => ⟨hop, visible_append .., by rw [hlog, hall, hbytes]⟩, hlatched⟩

/-! ## The shared page -/

/-- Nothing is under way on the page. -/
structure Idle (r : DisplayRegion) : Prop where
  request : r.reqTail = r.reqHead
  taken : r.respHead = r.reqHead
  answer : r.respTail = r.reqHead

/-- The driver's answer to a request. -/
def answerTo (q : DisplayRequest) (r : DisplayStatus × DisplayDriver) : DisplayResponse where
  version := aosDisplayVersion
  status := r.1
  id := q.id
  cookie := r.2.cookie
  sequence := r.2.sequence

/-- The page after a whole transaction. -/
def DisplayRegion.turn (r : DisplayRegion) (q : DisplayRequest) (response : DisplayResponse) :
    DisplayRegion where
  reqHead := r.reqHead + 1
  reqTail := r.reqHead + 1
  respHead := r.reqHead + 1
  respTail := r.reqHead + 1
  request := q
  response := response
  data := r.data

variable {l l' : DisplayLink}

theorem transact_idle (hidle : Idle l.region) (accepts : Bool) (q : DisplayRequest) :
    l.transact accepts q =
      let r := execute l.driver l.region.data accepts q
      (some (answerTo q r), ⟨l.producer, l.region.turn q (answerTo q r), r.2⟩) := by
  obtain ⟨hrequest, htaken, hanswer⟩ := hidle
  have hone : l.region.reqHead + 1 - l.region.reqHead = 1 := by
    rw [UInt32.add_comm, UInt32.add_sub_cancel]
  simp [DisplayLink.transact, aosDisplaySubmit, aosDisplayPump, aosDisplayReceive, hrequest, htaken,
    hanswer, hone, DisplayRegion.turn, answerTo]

variable {cookie : UInt64}

theorem checkResponse_iff {driverSequence : UInt64} {r : DisplayStatus × DisplayDriver} :
    checkResponse driverSequence q (answerTo q r) = some cookie ↔
      r.1 = .ok /\ cookie = r.2.cookie /\ cookie ≠ 0 /\ (q.cookie ≠ 0 -> cookie = q.cookie) /\
      r.2.sequence = driverSequence + if q.operation = aosDisplayPresent then 1 else 0 := by
  rw [checkResponse, ite_none_left_eq_some, ite_none_left_eq_some, Option.some.injEq]
  simp only [answerTo, not_or, not_and, not_not, ne_eq, not_true, not_false_eq_true, true_and]
  constructor
  · rintro ⟨⟨hok, hzero, hsame⟩, hsequence, rfl⟩
    exact ⟨hok, rfl, hzero, hsame, hsequence⟩
  · rintro ⟨hok, rfl, hzero, hsame, hsequence⟩
    exact ⟨⟨hok, hzero, hsame⟩, hsequence, rfl⟩

/-- The request as it is sent. -/
def DisplayLink.sent (l : DisplayLink) (q : DisplayRequest) : DisplayRequest :=
  { q with version := aosDisplayVersion, id := l.producer.id + 1 }

/-- A transaction is one request to the driver, or none. -/
structure Exchanged (l : DisplayLink) (accepts : Bool) (q : DisplayRequest)
    (result : Option UInt64) (l' : DisplayLink) : Prop where
  idle : Idle l'.region
  producer : ∃ id, l'.producer = { l.producer with id }
  driver : l'.driver = l.driver /\ result = none \/
    ∃ status, execute l.driver l.region.data accepts (l.sent q) = (status, l'.driver) /\
      ∀ cookie, result = some cookie ↔ status = .ok /\ cookie = l'.driver.cookie /\ cookie ≠ 0 /\
        (q.cookie ≠ 0 -> cookie = q.cookie) /\
        l'.driver.sequence = l.producer.driverSequence +
          if q.operation = aosDisplayPresent then 1 else 0

theorem exchange_exchanged (hidle : Idle l.region) (accepts : Bool) (q : DisplayRequest) :
    Exchanged l accepts q (exchange l accepts q).1 (exchange l accepts q).2 := by
  unfold exchange
  split
  · exact ⟨hidle, ⟨l.producer.id, rfl⟩, .inl ⟨rfl, rfl⟩⟩
  dsimp only
  rw [transact_idle (l := { l with producer := { l.producer with id := l.producer.id + 1 } }) hidle]
  exact ⟨⟨rfl, rfl, rfl⟩, ⟨_, rfl⟩, .inr ⟨_, rfl, fun _ => checkResponse_iff⟩⟩

/-! ## Between two forwards -/

/-- The two ends agree. -/
structure LinkInv (l : DisplayLink) : Prop where
  idle : Idle l.region
  driver : DriverReach l.driver
  sequence : l.producer.driverSequence = l.driver.sequence

variable {result : Option UInt64}

theorem Exchanged.reach (h : Exchanged l accepts q result l') (hreach : DriverReach l.driver) :
    DriverReach l'.driver := by
  obtain ⟨hsame, -⟩ | ⟨status, hexecute, -⟩ := h.driver
  · exact hsame ▸ hreach
  · have hstep := hreach.request l.region.data accepts (l.sent q)
    rwa [hexecute] at hstep

/-- The driver's count moves exactly when a PRESENT is reported back. -/
theorem Exchanged.sequence (h : Exchanged l accepts q result l') (hinv : LinkInv l)
    (hcookie : q.operation = aosDisplayPresent -> q.cookie ≠ 0) :
    l'.driver.sequence = l.driver.sequence +
      if q.operation = aosDisplayPresent /\ result.isSome = true then 1 else 0 := by
  obtain ⟨hsame, rfl⟩ | ⟨status, hexecute, hresult⟩ := h.driver
  · rw [hsame, if_neg (by simp), UInt64.add_zero]
  have hnone (hne : status ≠ .ok) : ¬ (q.operation = aosDisplayPresent /\ result.isSome = true) := by
    rintro ⟨-, hsome⟩
    obtain ⟨cookie, hcookie⟩ := isSome_iff_exists.mp hsome
    exact hne ((hresult cookie).mp hcookie).1
  have hother {operation : UInt32} (hop : q.operation = operation)
      (hne : operation ≠ aosDisplayPresent) :
      ¬ (q.operation = aosDisplayPresent /\ result.isSome = true) := fun h => hne (hop.symm.trans h.1)
  generalize l'.driver = d' at hexecute hresult ⊢
  cases executed hexecute with
  | refused hne => rw [if_neg (hnone hne), UInt64.add_zero]
  | began hop => rw [if_neg (hother hop (by decide)), UInt64.add_zero]
  | wrote hop => rw [if_neg (hother hop (by decide)), UInt64.add_zero]
  | aborted hop => rw [if_neg (hother hop (by decide)), UInt64.add_zero]
  | rejected => rw [if_neg (hnone nofun), UInt64.add_zero]
  | presented hop _ hsame =>
    have hop : q.operation = aosDisplayPresent := hop
    have hsome := (hresult l.driver.cookie).mpr ⟨rfl, rfl, hsame ▸ hcookie hop, fun _ => hsame.symm,
      by rw [if_pos hop, hinv.sequence]⟩
    rw [if_pos ⟨hop, by rw [hsome]; rfl⟩]

theorem Exchanged.inv (h : Exchanged l accepts q result l') (hinv : LinkInv l)
    (hop : q.operation ≠ aosDisplayPresent) : LinkInv l' := by
  refine ⟨h.idle, h.reach hinv.driver, ?_⟩
  obtain ⟨id, hproducer⟩ := h.producer
  rw [h.sequence hinv fun h => absurd h hop, if_neg fun h => hop h.1, UInt64.add_zero, hproducer]
  exact hinv.sequence

/-! ## The chunks of a frame -/

/-- Byte `k` of the rectangle, row by row. -/
def View.byte (v : View) (k : Nat) : UInt8 :=
  v.committed (((v.y + k / v.rowBytes) * v.stride + v.x) * 4 + k % v.rowBytes)

variable {v : View}

/-- A part of one row lies in one piece. -/
theorem View.byte_add (v : View) {k j : Nat} (hj : k % v.rowBytes + j < v.rowBytes) :
    v.byte (k + j) =
      v.committed (((v.y + k / v.rowBytes) * v.stride + v.x) * 4 + k % v.rowBytes + j) := by
  have hpos : 0 < v.rowBytes := Nat.lt_of_le_of_lt (Nat.zero_le _) hj
  have hsum : k + j = v.rowBytes * (k / v.rowBytes) + (k % v.rowBytes + j) := by
    rw [<- Nat.add_assoc, Nat.div_add_mod]
  rw [View.byte, hsum, Nat.mul_add_div hpos, Nat.mul_add_mod, Nat.div_eq_of_lt hj,
    Nat.mod_eq_of_lt hj, Nat.add_zero, Nat.add_assoc]

theorem fillChunk_byte (hrow : 0 < v.rowBytes) (offset count fuel : Nat) {copied : Nat}
    {data : Nat -> UInt8} (hfuel : count - copied <= fuel)
    (hdata : ∀ k < copied, data k = v.byte (offset + k)) {k : Nat} (hk : k < count) :
    fillChunk v offset count fuel copied data k = v.byte (offset + k) := by
  induction fuel generalizing copied data with
  | zero => exact hdata k (by omega)
  | succ fuel ih =>
    rw [fillChunk]
    split
    case isFalse hdone => exact hdata k (by omega)
    case isTrue hmore =>
      have hcolumn := Nat.mod_lt (offset + copied) hrow
      refine ih (by omega) fun k hk => ?_
      by_cases hold : k < copied
      · rw [copyRange_below _ _ _ hold, hdata k hold]
      · obtain ⟨j, rfl⟩ := Nat.exists_eq_add_of_le (Nat.not_lt.mp hold)
        rw [copyRange_inside _ _ _ _ (by omega), <- Nat.add_assoc, v.byte_add (by omega)]

/-- The driver has received the first `offset` bytes of the rectangle. -/
structure Filling (v : View) (offset : Nat) (cookie : UInt64) (l : DisplayLink) : Prop where
  inv : LinkInv l
  active : l.driver.active = true
  cookie : cookie = l.driver.cookie /\ cookie ≠ 0
  written : l.driver.written.toNat = offset
  size : l.driver.width = v.width.toUInt32 /\ l.driver.height = v.height.toUInt32
  filled : ∀ k < offset, l.driver.banks (!l.driver.front) k = v.byte k

theorem filling_begin (hinv : LinkInv l)
    (h : Exchanged l accepts (beginRequest v) (some cookie) l') : Filling v 0 cookie l' := by
  obtain ⟨-, hnone⟩ | ⟨status, hexecute, hresult⟩ := h.driver
  · cases hnone
  obtain ⟨rfl, hcookie, hzero, -⟩ := (hresult cookie).mp rfl
  have hinv' := h.inv hinv (by decide : aosDisplayBegin ≠ aosDisplayPresent)
  generalize hdriver : l'.driver = d' at hexecute hcookie
  cases executed hexecute with
  | refused hne => exact absurd rfl hne
  | began =>
    exact ⟨hinv', by rw [hdriver], ⟨hdriver ▸ hcookie, hzero⟩, by rw [hdriver]; rfl,
      by rw [hdriver]; exact ⟨rfl, rfl⟩, fun k hk => absurd hk (Nat.not_lt_zero k)⟩
  | wrote hop => exact absurd hop (by decide : aosDisplayBegin ≠ aosDisplayWrite)
  | aborted hop => exact absurd hop (by decide : aosDisplayBegin ≠ aosDisplayAbort)
  | presented hop => exact absurd hop (by decide : aosDisplayBegin ≠ aosDisplayPresent)

theorem toNat_toUInt32 {n : Nat} (hn : n < 2 ^ 32) : n.toUInt32.toNat = n :=
  UInt32.toNat_ofNat_of_lt' hn

variable {offset : Nat}

theorem filling_write {count : Nat} {cookie' : UInt64} (hfilling : Filling v offset cookie l)
    (hdata : ∀ k < count, l.region.data k = v.byte (offset + k)) (hcount : count < 2 ^ 32)
    (h : Exchanged l accepts (writeRequest cookie offset count) (some cookie') l') :
    Filling v (offset + count) cookie' l' := by
  obtain ⟨hinv, hactive, -, hwritten, hsize, hfilled⟩ := hfilling
  obtain ⟨-, hnone⟩ | ⟨status, hexecute, hresult⟩ := h.driver
  · cases hnone
  obtain ⟨rfl, hcookie, hzero, -⟩ := (hresult cookie').mp rfl
  have hinv' := h.inv hinv (by decide : aosDisplayWrite ≠ aosDisplayPresent)
  generalize hdriver : l'.driver = d' at hexecute hcookie
  cases executed hexecute with
  | refused hne => exact absurd rfl hne
  | wrote _ _ _ hoffset hlength =>
    obtain ⟨hadd, -⟩ := written_add (hinv.driver.receiving hactive).written hlength
    have hlen : (l.sent (writeRequest cookie offset count)).length.toNat = count :=
      toNat_toUInt32 hcount
    refine ⟨hinv', by rw [hdriver]; exact hactive, ⟨hdriver ▸ hcookie, hzero⟩, ?_,
      by rw [hdriver]; exact hsize, fun k hk => ?_⟩
    · rw [hdriver, hadd, hwritten, hlen]
    · rw [hdriver]
      show Function.update l.driver.banks (!l.driver.front) _ (!l.driver.front) k = _
      rw [Function.update_self, hwritten, hlen]
      by_cases hold : k < offset
      · rw [copyRange_below _ _ _ hold, hfilled k hold]
      · obtain ⟨j, rfl⟩ := Nat.exists_eq_add_of_le (Nat.not_lt.mp hold)
        rw [copyRange_inside _ _ _ _ (by omega), Nat.zero_add, hdata j (by omega)]
  | began hop => exact absurd hop (by decide : aosDisplayWrite ≠ aosDisplayBegin)
  | aborted hop => exact absurd hop (by decide : aosDisplayWrite ≠ aosDisplayAbort)
  | presented hop => exact absurd hop (by decide : aosDisplayWrite ≠ aosDisplayPresent)

/-- Whatever becomes of the chunks, the ends agree; if they all go through, the back bank
holds the rectangle. -/
theorem sendChunks_spec (hrow : 0 < v.rowBytes) (accepts : Bool) (fuel : Nat)
    (hfuel : v.bytes - offset <= fuel) (hoffset : offset <= v.bytes) (h : Filling v offset cookie l) :
    LinkInv (sendChunks v accepts fuel offset cookie l).2 /\
      (∃ id, (sendChunks v accepts fuel offset cookie l).2.producer = { l.producer with id }) /\
      ∀ cookie', (sendChunks v accepts fuel offset cookie l).1 = some cookie' ->
        Filling v v.bytes cookie' (sendChunks v accepts fuel offset cookie l).2 := by
  induction fuel generalizing offset cookie l with
  | zero =>
    obtain rfl : offset = v.bytes := by omega
    exact ⟨h.inv, ⟨_, rfl⟩, fun _ hcookie => some.inj hcookie ▸ h⟩
  | succ fuel ih =>
    rw [sendChunks]
    split
    case isFalse hdone =>
      obtain rfl : offset = v.bytes := by omega
      exact ⟨h.inv, ⟨_, rfl⟩, fun _ hcookie => some.inj hcookie ▸ h⟩
    case isTrue hmore =>
      dsimp only
      generalize hcount : min (v.bytes - offset) aosDisplayChunk = count
      have hsmall : count <= aosDisplayChunk := hcount ▸ Nat.min_le_right ..
      have hpos : 0 < count := hcount ▸ Nat.lt_min.mpr ⟨by omega, by decide⟩
      let filled : DisplayLink :=
        { l with region := { l.region with data := fillChunk v offset count count 0 l.region.data } }
      have hfilled : Filling v offset cookie filled :=
        ⟨⟨⟨h.inv.idle.request, h.inv.idle.taken, h.inv.idle.answer⟩, h.inv.driver, h.inv.sequence⟩,
          h.active, h.cookie, h.written, h.size, h.filled⟩
      have hexchanged := exchange_exchanged (l := filled) hfilled.inv.idle accepts
        (writeRequest cookie offset count)
      generalize exchange filled accepts _ = result at hexchanged ⊢
      obtain ⟨_ | cookie', l'⟩ := result
      · exact ⟨hexchanged.inv hfilled.inv (by decide : aosDisplayWrite ≠ aosDisplayPresent),
          hexchanged.producer, nofun⟩
      · obtain ⟨id, hproducer⟩ := hexchanged.producer
        have hnext := filling_write hfilled (fun k hk => fillChunk_byte hrow offset count count
          (Nat.sub_le ..) (fun k hk => absurd hk (Nat.not_lt_zero k)) hk)
          (Nat.lt_of_le_of_lt hsmall (by decide)) hexchanged
        obtain ⟨hinv, ⟨id', hproducer'⟩, hall⟩ := ih (by omega) (by omega) hnext
        exact ⟨hinv, ⟨id', by rw [hproducer', hproducer]⟩, hall⟩

/-- The device shows a bank that holds the first `size` bytes of the rectangle. -/
def ShownBytes (v : View) (size : Nat) (d : DisplayDriver) : Prop :=
  ∃ bank, visible d.log = some (bank, v.width.toUInt32, v.height.toUInt32) /\
    ∀ k < size, d.banks bank k = v.byte k

theorem shown_present {cookie' : UInt64} (h : Filling v offset cookie l)
    (hexchanged : Exchanged l accepts (presentRequest cookie) (some cookie') l') :
    ShownBytes v offset l'.driver := by
  obtain ⟨-, hnone⟩ | ⟨status, hexecute, hresult⟩ := hexchanged.driver
  · cases hnone
  obtain ⟨rfl, -⟩ := (hresult cookie').mp rfl
  generalize l'.driver = d' at hexecute ⊢
  cases executed hexecute with
  | refused hne => exact absurd rfl hne
  | presented =>
    refine ⟨_, (visible_append ..).trans ?_, h.filled⟩
    rw [h.size.1, h.size.2]
  | began hop => exact absurd hop (by decide : aosDisplayPresent ≠ aosDisplayBegin)
  | wrote hop => exact absurd hop (by decide : aosDisplayPresent ≠ aosDisplayWrite)
  | aborted hop => exact absurd hop (by decide : aosDisplayPresent ≠ aosDisplayAbort)

/-- The two ends after a frame was sent, or given up. -/
structure Sent (v : View) (l : DisplayLink) (result : Option UInt64) (l' : DisplayLink) :
    Prop where
  idle : Idle l'.region
  driver : DriverReach l'.driver
  producer : ∃ id, l'.producer = { l.producer with id }
  sequence : l'.driver.sequence = l.producer.driverSequence + if result.isSome = true then 1 else 0
  shown : result.isSome = true -> ShownBytes v v.bytes l'.driver

theorem sent_none (hinv : LinkInv l') (hproducer : ∃ id, l'.producer = { l.producer with id }) :
    Sent v l none l' := by
  refine ⟨hinv.idle, hinv.driver, hproducer, ?_, nofun⟩
  obtain ⟨id, hproducer⟩ := hproducer
  rw [<- hinv.sequence, hproducer]
  exact (UInt64.add_zero _).symm

theorem sendFrame_sent (hrow : 0 < v.rowBytes) (hinv : LinkInv l) (accepts : Bool) :
    Sent v l (sendFrame v accepts l).1 (sendFrame v accepts l).2 := by
  have hbegin := exchange_exchanged hinv.idle accepts (beginRequest v)
  unfold sendFrame
  generalize exchange l accepts _ = begun at hbegin ⊢
  obtain ⟨_ | cookie, l1⟩ := begun
  · exact sent_none (hbegin.inv hinv (by decide : aosDisplayBegin ≠ aosDisplayPresent)) hbegin.producer
  have hchunks := sendChunks_spec hrow accepts v.bytes (Nat.sub_le ..) (Nat.zero_le _)
    (filling_begin hinv hbegin)
  obtain ⟨id1, hproducer1⟩ := hbegin.producer
  dsimp only at hchunks ⊢
  generalize sendChunks v accepts v.bytes 0 cookie l1 = sent at hchunks ⊢
  obtain ⟨result, l2⟩ := sent
  obtain ⟨hinv2, ⟨id2, hproducer2⟩, hall⟩ := hchunks
  have hproducer : ∃ id, l2.producer = { l.producer with id } :=
    ⟨id2, by rw [hproducer2, hproducer1]⟩
  cases result with
  | none => exact sent_none hinv2 hproducer
  | some cookie' =>
    have hfilling := hall cookie' rfl
    have hpresent := exchange_exchanged hinv2.idle accepts (presentRequest cookie')
    have hsequence := hpresent.sequence hinv2 fun _ => hfilling.cookie.2
    obtain ⟨id, hsame⟩ := hproducer
    obtain ⟨id', hproducer'⟩ := hpresent.producer
    refine ⟨hpresent.idle, hpresent.reach hinv2.driver, ⟨id', by rw [hproducer', hsame]⟩, ?_, ?_⟩
    · rw [hsequence, <- hinv2.sequence, hsame]
      exact congrArg _ (if_congr (and_iff_right rfl) rfl rfl)
    · intro hsome
      obtain ⟨last, hlast⟩ := isSome_iff_exists.mp hsome
      exact shown_present hfilling (hlast ▸ hpresent)

/-- A driver that has failed refuses the frame at once. -/
theorem sendFrame_latched (hidle : Idle l.region) (hfailed : l.driver.failed = true)
    (v : View) (accepts : Bool) :
    (sendFrame v accepts l).1 = none /\ (sendFrame v accepts l).2.driver = l.driver := by
  have hbegin := exchange_exchanged hidle accepts (beginRequest v)
  unfold sendFrame
  generalize exchange l accepts (beginRequest v) = begun at hbegin ⊢
  obtain ⟨result, l1⟩ := begun
  have hsame : result = none /\ l1.driver = l.driver := by
    obtain ⟨hdriver, hnone⟩ | ⟨status, hexecute, hresult⟩ := hbegin.driver
    · exact ⟨hnone, hdriver⟩
    obtain ⟨rfl, hdriver⟩ := Prod.mk.inj ((execute_failed hfailed).symm.trans hexecute)
    refine ⟨Option.eq_none_iff_forall_ne_some.mpr fun cookie hsome => ?_, hdriver.symm⟩
    exact absurd ((hresult cookie).mp hsome).1 nofun
  obtain ⟨rfl, hdriver⟩ := hsame
  exact ⟨rfl, hdriver⟩

/-! ## Forwards -/

/-- The bank the device shows, at the size of the selection, holds the selected rectangle of the
surface, row by row. -/
def Shows (d : DisplayDriver) (mem : Nat -> UInt8) (c : FbClient) (s : FbSurface) : Prop :=
  ∃ bank, visible d.log = some (bank, c.selectedWidth, c.selectedHeight) /\
    ∀ row < c.selectedHeight.toNat, ∀ column < c.selectedWidth.toNat * 4,
      d.banks bank (row * (c.selectedWidth.toNat * 4) + column) =
        mem (s.committed.toNat + (((c.selectedY.toNat + row) * s.width.toNat + c.selectedX.toNat) *
          4 + column))

theorem shows_of_bytes {mem : Nat -> UInt8} {c : FbClient} {s : FbSurface}
    (h : ShownBytes (viewOf mem c s) (viewOf mem c s).bytes d) : Shows d mem c s := by
  obtain ⟨bank, hbank, h⟩ := h
  have hsize (w : UInt32) : w.toNat.toUInt32 = w := UInt32.ofNat_toNat
  refine ⟨bank, hbank.trans (by rw [viewOf, hsize, hsize]), fun row hrow column hcolumn => ?_⟩
  have hrows : (viewOf mem c s).rowBytes = c.selectedWidth.toNat * 4 := rfl
  have hstart : row * (viewOf mem c s).rowBytes % (viewOf mem c s).rowBytes = 0 :=
    Nat.mul_mod_left ..
  have hpos : 0 < (viewOf mem c s).rowBytes := Nat.lt_of_le_of_lt (Nat.zero_le _) hcolumn
  rw [<- hrows] at hcolumn ⊢
  rw [h, View.byte_add _ (by rwa [hstart, Nat.zero_add]), hstart, Nat.mul_div_cancel _ hpos]
  · rfl
  · calc row * (viewOf mem c s).rowBytes + column
        < row * (viewOf mem c s).rowBytes + (viewOf mem c s).rowBytes := Nat.add_lt_add_left hcolumn _
      _ = (viewOf mem c s).rowBytes * (row + 1) := by rw [Nat.mul_comm, Nat.mul_succ]
      _ <= (viewOf mem c s).bytes := Nat.mul_le_mul_left _ hrow

/-- What a forward returns and leaves behind. -/
structure Forwarded (l : DisplayLink) (mem : Nat -> UInt8) (c : FbClient) (r : Int × DisplayLink) :
    Prop where
  inv : LinkInv r.2
  shown : r.1 = 1 -> ∃ s, selectedSurface c = some s /\ Shows r.2.driver mem c s
  latched : l.producer.failed = true \/ l.driver.failed = true -> r.2.driver = l.driver

theorem forwarded (hinv : LinkInv l) (mem : Nat -> UInt8) (c : FbClient) (accepts : Bool) :
    Forwarded l mem c (aosDisplayForward l mem c accepts) := by
  have hsame {n : Int} (hn : n ≠ 1) : Forwarded l mem c (n, l) :=
    ⟨hinv, fun h => absurd h hn, fun _ => rfl⟩
  unfold aosDisplayForward
  dsimp only
  split
  · exact hsame (by decide)
  rename_i hproducer
  split
  · exact hsame (by decide)
  rename_i s hs
  split
  · exact hsame (by decide)
  split
  · exact hsame (by decide)
  split
  · exact hsame (by decide)
  rename_i hfields
  simp only [not_or, UInt32.not_lt] at hfields
  have hrow : 0 < (viewOf mem c s).rowBytes := by
    have hwidth := UInt32.le_iff_toNat_le.mp hfields.2.2.2.1
    exact Nat.mul_pos (Nat.lt_of_lt_of_le (by decide) hwidth) (by decide)
  have hsent := sendFrame_sent hrow hinv accepts
  have hlatched (hfailed : l.producer.failed = true \/ l.driver.failed = true) :=
    sendFrame_latched hinv.idle (hfailed.resolve_left hproducer) (viewOf mem c s) accepts
  generalize sendFrame (viewOf mem c s) accepts l = result at hsent hlatched ⊢
  obtain ⟨result, l'⟩ := result
  obtain ⟨hidle, hdriver, ⟨id, hid⟩, hsequence, hshown⟩ := hsent
  have hcount : (result, l').2.producer.driverSequence = l.producer.driverSequence := by rw [hid]
  cases result with
  | none =>
    refine ⟨⟨hidle, hdriver, ?_⟩, fun h => absurd h (by decide : (-1 : Int) ≠ 1),
      fun h => (hlatched h).2⟩
    exact hcount.trans (hsequence.trans (UInt64.add_zero _)).symm
  | some cookie =>
    refine ⟨⟨hidle, hdriver, ?_⟩, fun _ => ⟨s, hs, shows_of_bytes (hshown rfl)⟩, fun h =>
      absurd (hlatched h).1 (some_ne_none _)⟩
    exact (congrArg (· + 1) hcount).trans hsequence.symm

/-- Links after any forwards, of any clients, with any answers of the device. -/
inductive LinkReach : DisplayLink -> Prop where
  | start (banks : Bool -> Nat -> UInt8) (data : Nat -> UInt8) : LinkReach ⟨{}, { data }, { banks }⟩
  | forward {l : DisplayLink} (mem : Nat -> UInt8) (c : FbClient) (accepts : Bool) :
      LinkReach l -> LinkReach (aosDisplayForward l mem c accepts).2

theorem LinkReach.inv (hreach : LinkReach l) : LinkInv l := by
  induction hreach with
  | start banks data => exact ⟨⟨rfl, rfl, rfl⟩, .start banks, rfl⟩
  | forward mem c accepts _ ih => exact (forwarded ih mem c accepts).inv

/-- After any forwards: a forward that returns 1 has the device show the selected rectangle, the
two sequences agree, nothing is presented once an end has failed, the bank shown is the front
bank, and no request ever touches it or has another one shown before a whole frame has
arrived. -/
theorem display_shows_committed (hreach : LinkReach l) (mem : Nat -> UInt8) (c : FbClient)
    (accepts : Bool) :
    let r := aosDisplayForward l mem c accepts
    (r.1 = 1 -> ∃ s, selectedSurface c = some s /\ Shows r.2.driver mem c s) /\
    r.2.producer.driverSequence = r.2.driver.sequence /\
    (l.producer.failed = true \/ l.driver.failed = true -> r.2.driver = l.driver) /\
    DriverReach r.2.driver /\
    ∀ d, DriverReach d -> (∀ shown ∈ visible d.log, shown.1 = d.front) /\
      ∀ data accepts q, DriverLaw d q (execute d data accepts q).2 := by
  obtain ⟨hinv, hshown, hlatched⟩ := forwarded hreach.inv mem c accepts
  exact ⟨hshown, hinv.sequence, hlatched, hinv.driver, fun _ hd => ⟨hd.visible_front, hd.law⟩⟩

/-- A surface of 32 by 32 pixels, with a rectangle of 16 by 16 of its bytes selected. -/
def smallClient : FbClient where
  selectedHandle := 1
  selectedX := 8
  selectedY := 4
  selectedWidth := 16
  selectedHeight := 16
  surfaces i := if i = ⟨0, by decide⟩ then
    { handle := 1, sequence := 1, width := 32, height := 32, committed := 4096 } else {}

def bootLink : DisplayLink := ⟨{}, { data := fun _ => 0 }, { banks := fun _ _ => 0 }⟩

theorem display_shows_committed_small :
    (aosDisplayForward bootLink (fun k => k.toUInt8) smallClient true).1 = 1 /\
      ∃ s, selectedSurface smallClient = some s /\
        Shows (aosDisplayForward bootLink (fun k => k.toUInt8) smallClient true).2.driver
          (fun k => k.toUInt8) smallClient s := by
  have hone : (aosDisplayForward bootLink (fun k => k.toUInt8) smallClient true).1 = 1 := by
    decide +kernel
  exact ⟨hone, (display_shows_committed (.start _ _) _ _ _).1 hone⟩

end AgentOs.Display
