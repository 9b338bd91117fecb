import AgentOs.X86.Firmware

/-!
# Level interrupts do not stick

An input that waits for the end of its vector waits for a processor.
-/

namespace AgentOs.X86

open Library List Option

/-! ## The vectors that a processor answers for -/

/-- The vector is requested as a level interrupt, or served as one. -/
def Apic.Holds (a : Apic) (v : Nat) : Prop :=
  (a.irr.test v = true /\ a.irrLevel.test v = true) \/ (a.isr.test v = true /\ a.tmr.test v = true)

/-- Requests are only added, and nothing that is served changes. -/
structure Apic.Grows (a b : Apic) : Prop where
  irr : ∀ v, a.irr.test v = true -> b.irr.test v = true
  irrLevel : ∀ v, a.irrLevel.test v = true -> b.irrLevel.test v = true
  isr : b.isr = a.isr
  tmr : b.tmr = a.tmr

namespace Apic.Grows

variable {a b c : Apic} {v : Nat}

theorem refl (a : Apic) : a.Grows a := ⟨fun _ h => h, fun _ h => h, rfl, rfl⟩

theorem trans (h : a.Grows b) (k : b.Grows c) : a.Grows c where
  irr v hv := k.irr v (h.irr v hv)
  irrLevel v hv := k.irrLevel v (h.irrLevel v hv)
  isr := k.isr.trans h.isr
  tmr := k.tmr.trans h.tmr

theorem holds (h : a.Grows b) (hv : a.Holds v) : b.Holds v := by
  rcases hv with ⟨hirr, hlevel⟩ | ⟨hisr, htmr⟩
  · exact .inl ⟨h.irr v hirr, h.irrLevel v hlevel⟩
  · exact .inr ⟨h.isr ▸ hisr, h.tmr ▸ htmr⟩

end Apic.Grows

theorem expire_grows (a : Apic) : a.Grows a.expire := by
  unfold Apic.expire
  dsimp only
  split_ifs
  · exact ⟨fun _ => BitTable.test_set_of_test, fun _ h => h, rfl, rfl⟩
  · exact ⟨fun _ h => h, fun _ h => h, rfl, rfl⟩
  · exact .refl a

theorem advance_grows (a : Apic) (ticks : UInt64) : a.Grows (a.advance ticks) := by
  have hsame : ∀ {phase now : UInt64} {counter : UInt32},
      a.Grows { a with phase := phase, now := now, counter := counter } :=
    ⟨fun _ h => h, fun _ h => h, rfl, rfl⟩
  unfold Apic.advance
  dsimp only
  by_cases hstopped : a.counter = 0
  · rw [if_pos hstopped]
    exact ⟨fun _ h => h, fun _ h => h, rfl, rfl⟩
  · rw [if_neg hstopped]
    split
    · exact hsame
    · exact hsame.trans (expire_grows _)

variable {vector : Nat} {a : Apic}

theorem apicRoute_grows {b : Apic} {destination : UInt32} {logical level : Bool}
    (h : apicRoute a vector destination logical level = some b) : a.Grows b := by
  unfold apicRoute at h
  rw [ite_none_left_eq_some] at h
  obtain ⟨-, h⟩ := h
  cases h
  refine ⟨fun _ => BitTable.test_set_of_test, fun v hv => ?_, rfl, rfl⟩
  cases level with
  | false => exact hv
  | true => exact BitTable.test_set_of_test hv

/-- A level route that was taken leaves its vector with the processor. -/
theorem apicRoute_holds {b : Apic} {destination : UInt32} {logical : Bool}
    (h : apicRoute a vector destination logical true = some b) : b.Holds vector := by
  unfold apicRoute at h
  rw [ite_none_left_eq_some] at h
  obtain ⟨-, h⟩ := h
  cases h
  exact .inl ⟨BitTable.test_set_self, BitTable.test_set_self⟩

theorem apicRoute_getD_grows (a : Apic) (vector : Nat) (destination : UInt32)
    (logical level : Bool) :
    a.Grows ((apicRoute a vector destination logical level).getD a) := by
  cases h : apicRoute a vector destination logical level with
  | none => exact .refl a
  | some b => exact apicRoute_grows h

/-! ## The highest vector -/

theorem highestFrom_cases (bits : BitTable) (n : Nat) :
    (highestFrom bits n = 0 /\ ∀ v, 16 <= v -> v < 16 + n -> bits.test v = false) \/
      (16 <= highestFrom bits n /\ highestFrom bits n < 16 + n /\
        bits.test (highestFrom bits n) = true /\
        ∀ v, highestFrom bits n < v -> v < 16 + n -> bits.test v = false) := by
  induction n with
  | zero => exact .inl ⟨rfl, fun v hlow hhigh => absurd hhigh (Nat.not_lt.mpr hlow)⟩
  | succ n ih =>
    rw [highestFrom]
    by_cases htop : bits.test (16 + n) = true
    · rw [if_pos htop]
      exact .inr ⟨Nat.le_add_right .., by omega, htop, fun v hlow hhigh => by omega⟩
    · rw [if_neg htop]
      -- the vector above is clear, so the search below decides
      have hextend : ∀ {l v : Nat}, (l < v -> v < 16 + n -> bits.test v = false) ->
          l < v -> v < 16 + (n + 1) -> bits.test v = false := by
        intro l v hbelow hlow hhigh
        rcases Nat.lt_or_ge v (16 + n) with hlt | hge
        · exact hbelow hlow hlt
        · obtain rfl : v = 16 + n := by omega
          exact Bool.eq_false_iff.mpr htop
      rcases ih with ⟨hzero, hnone⟩ | ⟨hlow, hhigh, htest, habove⟩
      · exact .inl ⟨hzero, fun v hv => hextend (l := 15) (fun _ => hnone v hv) hv⟩
      · exact .inr ⟨hlow, by omega, htest, fun v => hextend (habove v)⟩

theorem highest_range {bits : BitTable} (h : highest bits ≠ 0) :
    16 <= highest bits /\ highest bits < 256 := by
  rcases highestFrom_cases bits 240 with ⟨hzero, -⟩ | ⟨hlow, hhigh, -⟩
  · exact absurd hzero h
  · exact ⟨hlow, hhigh⟩

variable {v : Nat}

theorem le_highest {bits : BitTable} (hv : 16 <= v /\ v < 256) (htest : bits.test v = true) :
    v <= highest bits := by
  rcases highestFrom_cases bits 240 with ⟨-, hnone⟩ | ⟨-, -, -, habove⟩
  · exact absurd htest (by rw [hnone v hv.1 hv.2]; nofun)
  · by_contra hlt
    exact absurd htest (by rw [habove v (Nat.not_le.mp hlt) hv.2]; nofun)

/-- The priority class is at least that of the vector in service. -/
theorem highest_class_le_priority (a : Apic) : highest a.isr >>> 4 <= a.priority >>> 4 := by
  have hmask : ∀ h < 256, (h &&& 0xf0) >>> 4 = h >>> 4 := by
    intro h hh
    have hlow : h >>> 4 &&& 15 = h >>> 4 % 2 ^ 4 := Nat.and_two_pow_sub_one_eq_mod (h >>> 4) 4
    rw [Nat.shiftRight_and_distrib]
    show h >>> 4 &&& 15 = h >>> 4
    rw [hlow, Nat.shiftRight_eq_div_pow]
    omega
  unfold Apic.priority
  dsimp only
  split
  case isTrue hle => exact hle
  rcases Nat.eq_zero_or_pos (highest a.isr) with hzero | hpos
  · rw [hzero, Nat.zero_shiftRight]
    exact Nat.zero_le _
  · exact Nat.le_of_eq (hmask _ (highest_range (Nat.pos_iff_ne_zero.mp hpos)).2).symm

/-! ## Taking an interrupt -/

/-- A vector that is pending is not in service. -/
theorem not_served_of_pending (hvector : 16 <= highest a.irr /\ highest a.irr < 256)
    (hclass : highest a.irr >>> 4 > a.priority >>> 4) : a.isr.test (highest a.irr) = false := by
  rw [Bool.eq_false_iff]
  intro hserved
  have hle := le_highest hvector hserved
  have hshift : highest a.irr >>> 4 <= highest a.isr >>> 4 := by
    rw [Nat.shiftRight_eq_div_pow, Nat.shiftRight_eq_div_pow]
    exact Nat.div_le_div_right hle
  have hpriority := highest_class_le_priority a
  omega

theorem serve_holds (hfree : a.isr.test vector = false) (hv : a.Holds v) :
    (a.serve vector).Holds v := by
  by_cases hsame : vector = v
  · subst hsame
    rcases hv with ⟨-, hlevel⟩ | ⟨hisr, -⟩
    · refine .inr ⟨BitTable.test_set_self, ?_⟩
      rw [Apic.serve, if_pos hlevel]
      exact BitTable.test_set_self
    · exact absurd hisr (by rw [hfree]; nofun)
  · rcases hv with ⟨hirr, hlevel⟩ | ⟨hisr, htmr⟩
    · exact .inl ⟨(BitTable.test_clear_of_ne hsame).trans hirr,
        (BitTable.test_clear_of_ne hsame).trans hlevel⟩
    · refine .inr ⟨BitTable.test_set_of_test hisr, ?_⟩
      rw [Apic.serve]
      dsimp only
      split
      · exact BitTable.test_set_of_test htmr
      · exact (BitTable.test_clear_of_ne hsame).trans htmr

theorem apicPending_state (a : Apic) (ticks : UInt64) :
    (apicPending a ticks).2 = if ticks < a.now then a else a.advance ticks := by
  unfold apicPending
  dsimp only
  split_ifs <;> rfl

theorem apicPending_grows (a : Apic) (ticks : UInt64) : a.Grows (apicPending a ticks).2 := by
  rw [apicPending_state]
  split
  · exact .refl a
  · exact advance_grows a ticks

variable {ticks : UInt64}

theorem apicPending_eq (hvector : vector ≠ 0 /\ vector < 256) (h : vector = (apicPending a ticks).1)
    :
    vector = highest (apicPending a ticks).2.irr /\
      vector >>> 4 > (apicPending a ticks).2.priority >>> 4 := by
  unfold apicPending at h ⊢
  dsimp only at h ⊢
  by_cases hpast : ticks < a.now
  · rw [if_pos hpast] at h
    exact absurd h hvector.1
  · rw [if_neg hpast] at h ⊢
    by_cases hinvalid : (a.advance ticks).invalidVector = true
    · rw [if_pos hinvalid] at h
      exact absurd hvector.2 (by rw [h]; exact Nat.lt_irrefl 256)
    · rw [if_neg hinvalid] at h ⊢
      dsimp only at h ⊢
      split at h
      case isFalse => exact absurd h hvector.1
      case isTrue heligible =>
        rw [Bool.and_eq_true, decide_eq_true_iff] at heligible
        exact ⟨h, h ▸ heligible.2⟩

/-- An accepted vector was the highest request, above the priority. -/
theorem apicAccept_cases {b : Apic} (h : apicAccept a vector = some b) :
    ∃ c, a.Grows c /\ b = c.serve vector /\ (16 <= vector /\ vector < 256) /\ vector = highest c.irr /\
      vector >>> 4 > c.priority >>> 4 := by
  unfold apicAccept at h
  rw [ite_none_left_eq_some] at h
  obtain ⟨hrange, h⟩ := h
  have hvector : vector ≠ 0 /\ vector < 256 :=
    ⟨fun hzero => hrange (.inl hzero), Nat.not_le.mp fun hge => hrange (.inr hge)⟩
  dsimp only at h
  rw [ite_none_left_eq_some, not_not] at h
  obtain ⟨hpending, h⟩ := h
  obtain ⟨hhighest, hclass⟩ := apicPending_eq hvector hpending
  exact ⟨_, apicPending_grows a a.now, (some.inj h).symm,
    hhighest ▸ highest_range (hhighest ▸ hvector.1), hhighest, hclass⟩

theorem apicAccept_holds {b : Apic} (h : apicAccept a vector = some b) (hv : a.Holds v) :
    b.Holds v := by
  obtain ⟨c, hgrows, rfl, hrange, hhighest, hclass⟩ := apicAccept_cases h
  refine serve_holds ?_ (hgrows.holds hv)
  rw [hhighest] at hrange hclass ⊢
  exact not_served_of_pending hrange hclass

/-! ## Registers -/

theorem put_grows (a : Apic) (value : UInt32) (register : PlainRegister) :
    a.Grows (a.put value register) := by
  cases register <;> exact ⟨fun _ h => h, fun _ h => h, rfl, rfl⟩

theorem command_grows (a : Apic) (value : UInt32) : a.Grows (a.command value) := by
  unfold Apic.command
  dsimp only
  split
  · have hroute := apicRoute_getD_grows a (value &&& 255).toNat
      (if (value >>> 18) &&& 3 ≠ 0 then a.id.toUInt32 else a.icrHigh >>> 24)
      ((value >>> 18) &&& 3 == 0 && value &&& 0x800 != 0) false
    exact ⟨hroute.irr, hroute.irrLevel, hroute.isr, hroute.tmr⟩
  · exact ⟨fun _ h => h, fun _ h => h, rfl, rfl⟩

variable {value : UInt32}

theorem writeRegister_grows {b : Apic} {register : ApicRegister}
    (h : writeRegister a value register = some b) :
    a.Grows b \/ (register = .eoi /\ value = 0 /\ b = a.endOfInterrupt) := by
  cases register with
  | dfr =>
    obtain ⟨-, ⟨⟩⟩ := ite_none_left_eq_some.mp h
    exact .inl ⟨fun _ h => h, fun _ h => h, rfl, rfl⟩
  | eoi =>
    obtain ⟨hzero, hb⟩ := ite_none_left_eq_some.mp h
    exact .inr ⟨rfl, not_not.mp hzero, (some.inj hb).symm⟩
  | errorStatus =>
    obtain ⟨-, ⟨⟩⟩ := ite_none_left_eq_some.mp h
    exact .inl (.refl a)
  | icrLow =>
    obtain ⟨-, ⟨⟩⟩ := ite_none_left_eq_some.mp h
    exact .inl (command_grows a value)
  | plain register =>
    obtain ⟨-, ⟨⟩⟩ := ite_none_left_eq_some.mp h
    exact .inl (put_grows a value register)
  | id | version | priority | counter | isr _ | tmr _ | irr _ => exact absurd h nofun

variable {off : Nat}

theorem apicRegister_eoi (h : apicRegister off = some .eoi) : off = 0xb0 := by
  have hentries : ∀ entry ∈ apicOffsets, entry.2 = .eoi -> entry.1 = 0xb0 := by decide
  unfold apicRegister at h
  split at h
  case h_1 entry hfind =>
    rw [<- hentries entry (mem_of_find?_eq_some hfind) (some.inj h)]
    have hfound := find?_some hfind
    exact (beq_iff_eq.mp hfound).symm
  case h_2 =>
    unfold tableRegister at h
    split_ifs at h <;> exact absurd (some.inj h) nofun

/-- The end of an interrupt keeps every vector but the one it ends. -/
theorem endOfInterrupt_holds (hv : a.Holds v) :
    a.endOfInterrupt.Holds v \/ (v = apicEoiVector a /\ 16 <= v /\ v < 256) := by
  unfold Apic.endOfInterrupt
  dsimp only
  split
  · exact .inl hv
  rename_i hserved
  rcases hv with hrequested | ⟨hisr, htmr⟩
  · exact .inl (.inl hrequested)
  · by_cases hsame : highest a.isr = v
    · refine .inr ⟨?_, hsame ▸ highest_range hserved⟩
      rw [apicEoiVector, hsame, if_pos htmr]
    · exact .inl (.inr ⟨(BitTable.test_clear_of_ne hsame).trans hisr,
        (BitTable.test_clear_of_ne hsame).trans htmr⟩)

variable {out : UInt32} {write : Bool}

/-- An access brings the controller up to date and then reads or writes a register. -/
theorem apicIo_eq_some {b : Apic} (h : apicIo a off write value ticks = some (out, b)) :
    ¬ ticks < a.now /\ ((write = false /\ b = a.advance ticks) \/ (write = true /\
      ∃ register, apicRegister off = some register /\
        writeRegister (a.advance ticks) value register = some b)) := by
  unfold apicIo at h
  rw [ite_none_left_eq_some] at h
  obtain ⟨hpast, h⟩ := h
  refine ⟨hpast, ?_⟩
  cases hregister : apicRegister off with
  | none => exact absurd (hregister ▸ h) nofun
  | some register =>
    rw [hregister] at h
    cases write with
    | false =>
      obtain ⟨read, -, hread⟩ := map_eq_some_iff.mp h
      exact .inl ⟨rfl, (congrArg Prod.snd hread).symm⟩
    | true =>
      obtain ⟨next, hwrite, hnext⟩ := map_eq_some_iff.mp h
      obtain rfl : next = b := congrArg Prod.snd hnext
      exact .inr ⟨rfl, register, rfl, hwrite⟩

/-- An access adds requests, or it is the write that ends an interrupt. -/
theorem apicIo_cases {b : Apic} (h : apicIo a off write value ticks = some (out, b)) :
    a.Grows b \/ (off = 0xb0 /\ write = true /\ b = (a.advance ticks).endOfInterrupt) := by
  have hgrows := advance_grows a ticks
  obtain ⟨-, ⟨-, rfl⟩ | ⟨rfl, register, hregister, hwrite⟩⟩ := apicIo_eq_some h
  · exact .inl hgrows
  rcases writeRegister_grows hwrite with hmore | ⟨rfl, -, rfl⟩
  · exact .inl (hgrows.trans hmore)
  · exact .inr ⟨apicRegister_eoi hregister, rfl, rfl⟩

theorem apicIo_holds {b : Apic} (h : apicIo a off write value ticks = some (out, b))
    (hv : a.Holds v) :
    b.Holds v \/ (off = 0xb0 /\ write = true /\ v = apicEoiVector a /\ 16 <= v /\ v < 256) := by
  have hgrows := advance_grows a ticks
  rcases apicIo_cases h with hmore | ⟨hoff, hwrite, rfl⟩
  · exact .inl (hmore.holds hv)
  rcases endOfInterrupt_holds (hgrows.holds hv) with hkept | ⟨hended, hrange⟩
  · exact .inl hkept
  · have hvector : apicEoiVector (a.advance ticks) = apicEoiVector a := by
      rw [apicEoiVector, apicEoiVector, hgrows.isr, hgrows.tmr]
    exact .inr ⟨hoff, hwrite, hvector ▸ hended, hrange⟩

/-! ## The board -/

variable {n : Nat}

/-- Every input that waits for the end of its vector has a processor that holds the vector. -/
def Board.Held (b : Board n) : Prop :=
  ∀ i < ioapicInputs, hasBit b.ioapic.remoteIrr i = true ->
    ∃ cpu, (b.cpus cpu).apic.Holds (b.ioapic.acceptedVector i).toNat

variable {after : Board n} {b : Board n}

/-- The invariant under a step that takes no vector away and marks no input. -/
theorem Board.Held.of_keeps (hheld : b.Held) (hsame : SameWaiting b.ioapic after.ioapic)
    (hkeeps : ∀ cpu v, (b.cpus cpu).apic.Holds v -> (after.cpus cpu).apic.Holds v) :
    after.Held := by
  intro i hi hwaits
  rw [hsame.1] at hwaits
  obtain ⟨cpu, hcpu⟩ := hheld i hi hwaits
  exact ⟨cpu, hsame.2 ▸ hkeeps cpu _ hcpu⟩

variable {cpu : Fin n}

theorem setApic_holds {other : Fin n} {apic : Apic}
    (hkeeps : (b.cpus cpu).apic.Holds v -> apic.Holds v) (hv : (b.cpus other).apic.Holds v) :
    ((b.setApic cpu apic).cpus other).apic.Holds v := by
  unfold Board.setApic
  dsimp only
  by_cases hsame : other = cpu
  · subst hsame
    rw [Function.update_self]
    exact hkeeps hv
  · rw [Function.update_of_ne hsame]
    exact hv

variable {command : UInt32}

theorem publish_holds {cpu : SmpCpu} (hv : cpu.apic.Holds v) :
    (cpu.publish command ticks).apic.Holds v := by
  unfold SmpCpu.publish
  cases h : apicIo cpu.apic 0x300 false 0 ticks with
  | none => exact hv
  | some result =>
    rcases apicIo_holds h hv with hkept | ⟨hoff, -⟩
    · exact hkept
    · cases hoff

theorem deliver_holds {cpu : SmpCpu} (hinit : initAssert command = false) (hv : cpu.apic.Holds v) :
    (cpu.deliver command ticks).apic.Holds v := by
  unfold SmpCpu.deliver
  dsimp only
  rw [hinit, Bool.not_false, if_pos rfl]
  split_ifs
  · exact (apicRoute_getD_grows ..).holds hv
  · exact hv
  · exact hv
  · exact hv

theorem smpIcr_holds {cpus after : Fin n -> SmpCpu} {sender : Fin n}
    (h : smpIcr cpus sender command ticks = some after) (hinit : initAssert command = false)
    (hv : (cpus cpu).apic.Holds v) :
    (after cpu).apic.Holds v := by
  unfold smpIcr at h
  rw [ite_none_left_eq_some] at h
  obtain ⟨-, h⟩ := h
  rw [ite_none_left_eq_some] at h
  obtain ⟨-, h⟩ := h
  cases h
  have hpublished : (Function.update cpus sender
      ((cpus sender).publish command ticks) cpu).apic.Holds v := by
    by_cases hsame : cpu = sender
    · subst hsame
      rw [Function.update_self]
      exact publish_holds hv
    · rw [Function.update_of_ne hsame]
      exact hv
  dsimp only
  split
  · exact deliver_holds hinit hpublished
  · exact hpublished

/-- The vector that an access ends, if it is the write that ends one. -/
def Board.ended (b : Board n) (cpu : Fin n) (access : Access) : Nat :=
  if access.physical = apicBase + 0xb0 /\ access.write then apicEoiVector (b.cpus cpu).apic else 0

variable {access : Access}

theorem apicAccess_holds (h : b.apicAccess cpu access = some (out, after))
    (hinit : ¬ (FirmwareAction.access cpu access).sendsInit) :
    after.ioapic = b.ioapic /\ ∀ other v, (b.cpus other).apic.Holds v ->
      (after.cpus other).apic.Holds v \/ (v = b.ended cpu access /\ 16 <= v /\ v < 256) := by
  unfold Board.apicAccess at h
  rw [ite_none_left_eq_some] at h
  obtain ⟨-, h⟩ := h
  split at h
  case isTrue hcommand =>
    obtain ⟨cpus, hcpus, hafter⟩ := map_eq_some_iff.mp h
    obtain rfl : { b with cpus := cpus } = after := congrArg Prod.snd hafter
    have hplain : initAssert access.value = false := by
      rw [Bool.eq_false_iff]
      exact fun hvalue => hinit ⟨hcommand.1, hcommand.2, hvalue⟩
    exact ⟨rfl, fun other v hv => .inl (smpIcr_holds hcpus hplain hv)⟩
  case isFalse =>
    obtain ⟨⟨value, apic⟩, hio, hafter⟩ := map_eq_some_iff.mp h
    obtain rfl : b.setApic cpu apic = after := congrArg Prod.snd hafter
    refine ⟨rfl, fun other v hv => ?_⟩
    by_cases hkept : (b.cpus cpu).apic.Holds v -> apic.Holds v
    · exact .inl (setApic_holds hkept hv)
    · obtain ⟨hheld, hlost⟩ := Classical.not_imp.mp hkept
      obtain ⟨hoff, hwrite, hvector, hrange⟩ := (apicIo_holds hio hheld).resolve_left hlost
      have hphysical : access.physical = apicBase + 0xb0 := by
        have hsub : access.physical - apicBase = 0xb0 := UInt64.toNat_inj.mp hoff
        rw [<- hsub, UInt64.add_comm, UInt64.sub_add_cancel]
      refine .inr ⟨?_, hrange⟩
      rw [Board.ended, if_pos ⟨hphysical, hwrite⟩]
      exact hvector

theorem ended_range (h : b.ended cpu access ≠ 0) :
    16 <= b.ended cpu access /\ b.ended cpu access < 256 := by
  unfold Board.ended apicEoiVector at h ⊢
  dsimp only at h ⊢
  split_ifs at h ⊢
  · exact highest_range h
  · exact absurd rfl h
  · exact absurd rfl h

/-- The end of a vector releases the inputs that the vector's loss could leave behind. -/
theorem Board.Held.ends {handled : Board n} (hheld : b.Held) {ended : Nat}
    (hrange : ended ≠ 0 -> 16 <= ended /\ ended < 256) (hsame : SameWaiting b.ioapic handled.ioapic)
    (hkeeps : ∀ cpu v, (b.cpus cpu).apic.Holds v -> (handled.cpus cpu).apic.Holds v \/
      (v = ended /\ 16 <= v /\ v < 256)) :
    Board.Held (if ended ≠ 0 then { handled with ioapic := ioapicEoi handled.ioapic ended }
      else handled) := by
  by_cases hended : ended ≠ 0
  · rw [if_pos hended]
    intro i hi hwaits
    rw [hasBit_ioapicEoi (hrange hended) hi, Bool.and_eq_true, hsame.1, hsame.2,
      Bool.not_eq_true', beq_eq_false_iff_ne] at hwaits
    obtain ⟨cpu, hcpu⟩ := hheld i hi hwaits.1
    refine ⟨cpu, ?_⟩
    rw [ioapicEoi_acceptedVector, hsame.2]
    exact (hkeeps cpu _ hcpu).resolve_right fun hlost => hwaits.2 hlost.1
  · rw [if_neg hended]
    refine hheld.of_keeps hsame fun cpu v hv => ?_
    refine (hkeeps cpu v hv).resolve_right fun hlost => ?_
    have hzero := not_not.mp hended
    omega

theorem ioapicAccess_waiting (h : b.ioapicAccess access = some (out, after)) :
    SameWaiting b.ioapic after.ioapic /\ after.cpus = b.cpus := by
  unfold Board.ioapicAccess at h
  rw [ite_none_left_eq_some] at h
  obtain ⟨⟨value, ioapic⟩, hio, hafter⟩ := map_eq_some_iff.mp h.2
  obtain rfl : { b with ioapic := ioapic } = after := congrArg Prod.snd hafter
  exact ⟨ioapicIo_waiting hio, rfl⟩

theorem mmio_held (hheld : b.Held) (h : b.mmio cpu access = some (out, after))
    (hinit : ¬ (FirmwareAction.access cpu access).sendsInit) : after.Held := by
  unfold Board.mmio at h
  dsimp only at h
  obtain ⟨⟨value, handled⟩, hhandled, hafter⟩ := map_eq_some_iff.mp h
  obtain rfl : (if b.ended cpu access ≠ 0 then
      { handled with ioapic := ioapicEoi handled.ioapic (b.ended cpu access) } else handled) = after :=
    congrArg Prod.snd hafter
  split_ifs at hhandled
  · obtain ⟨hioapic, hkeeps⟩ := apicAccess_holds hhandled hinit
    exact hheld.ends ended_range ⟨hioapic ▸ rfl, hioapic ▸ rfl⟩ hkeeps
  · obtain ⟨hsame, hcpus⟩ := ioapicAccess_waiting hhandled
    exact hheld.ends ended_range hsame fun cpu v hv => .inl (hcpus ▸ hv)

/-! ## The round -/

theorem offer_grows (cpu : SmpCpu) (route : IoApicRoute) :
    cpu.apic.Grows ((cpu.offer route).getD cpu.apic) := by
  unfold SmpCpu.offer
  split
  · exact apicRoute_getD_grows ..
  · exact .refl _

theorem offer_holds {cpu : SmpCpu} {route : IoApicRoute} {apic : Apic}
    (h : cpu.offer route = some apic) (hlevel : route.level = true) :
    apic.Holds route.vector.toNat := by
  unfold SmpCpu.offer at h
  rw [hlevel, ite_none_right_eq_some] at h
  exact apicRoute_holds h.2

theorem routeInput_held (hheld : b.Held) (input : Nat) : (b.routeInput input).Held := by
  unfold Board.routeInput
  cases hroute : ioapicRoute b.ioapic input with
  | none => exact hheld
  | some route =>
    have hkeeps : ∀ cpu v, (b.cpus cpu).apic.Holds v ->
        (((b.cpus cpu).offer route).getD (b.cpus cpu).apic).Holds v :=
      fun cpu v hv => (offer_grows (b.cpus cpu) route).holds hv
    dsimp only
    split
    case isFalse => exact hheld.of_keeps ⟨rfl, rfl⟩ hkeeps
    case isTrue htaken =>
      intro i hi hwaits
      rcases ioapicAccept_waiting hroute hi hwaits with ⟨hwaited, hvector⟩ | ⟨hlevel, hvector⟩
      · obtain ⟨cpu, hcpu⟩ := hheld i hi hwaited
        exact ⟨cpu, hvector ▸ hkeeps cpu _ hcpu⟩
      · -- the input is marked because this processor took the route
        obtain ⟨cpu, hcpu⟩ := htaken
        obtain ⟨apic, hapic⟩ := isSome_iff_exists.mp hcpu
        refine ⟨cpu, ?_⟩
        dsimp only
        rw [hvector, hapic, Option.getD_some]
        exact offer_holds hapic hlevel

theorem routeInputs_held (hheld : b.Held) (inputs : Nat) : (b.routeInputs inputs).Held := by
  induction inputs with
  | zero => exact hheld
  | succ input ih => exact routeInput_held ih input

/-! ## The interrupt before an entry -/

theorem takeInterrupt_held {facts : EntryFacts} (hheld : b.Held)
    (h : b.takeInterrupt cpu facts = some after) : after.Held := by
  have hgrows := apicPending_grows (b.cpus cpu).apic facts.ticks
  unfold Board.takeInterrupt at h
  generalize apicPending (b.cpus cpu).apic facts.ticks = pending at h hgrows
  obtain ⟨vector, apic⟩ := pending
  dsimp only at h hgrows
  rw [ite_none_left_eq_some] at h
  obtain ⟨-, h⟩ := h
  split at h
  case h_1 => exact absurd h nofun
  case h_2 event _ =>
    have hset : ∀ {served : Apic}, (∀ v, apic.Holds v -> served.Holds v) ->
        (b.setApic cpu served).Held := fun hserved =>
      hheld.of_keeps ⟨rfl, rfl⟩ fun other v hv =>
        setApic_holds (fun hcpu => hserved v (hgrows.holds hcpu)) hv
    split at h
    · obtain ⟨served, haccept, rfl⟩ := map_eq_some_iff.mp h
      exact hset fun v hv => apicAccept_holds haccept hv
    · cases h
      exact hset fun v hv => hv

/-! ## Whole runs -/

theorem perform_held {action : FirmwareAction n} (hheld : b.Held) (hinit : ¬ action.sendsInit)
    (h : b.perform action = some after) : after.Held := by
  cases action with
  | line input asserted =>
    obtain ⟨ioapic, hline, rfl⟩ := map_eq_some_iff.mp h
    exact hheld.of_keeps (ioapicSetIrq_waiting hline) fun _ _ hv => hv
  | access cpu access =>
    obtain ⟨⟨out, board⟩, hmmio, rfl⟩ := map_eq_some_iff.mp h
    exact mmio_held hheld hmmio hinit
  | round =>
    cases h
    exact routeInputs_held hheld ioapicInputs
  | interrupt cpu facts => exact takeInterrupt_held hheld h
  | startup =>
    obtain ⟨-, ⟨⟩⟩ := ite_none_left_eq_some.mp h
    exact hheld.of_keeps ⟨rfl, rfl⟩ fun _ _ hv => hv

theorem starts_held (hstarts : b.Starts) : b.Held := by
  obtain ⟨id, hid⟩ := hstarts.ioapic
  obtain ⟨-, hioapic⟩ := ite_none_left_eq_some.mp hid
  intro i _ hwaits
  rw [<- some.inj hioapic, hasBit_zero] at hwaits
  exact absurd hwaits nofun

theorem boardReach_held (hreach : BoardReach b) : b.Held := by
  induction hreach with
  | start hstarts => exact starts_held hstarts
  | action action _ hinit hperform ih => exact perform_held ih hinit hperform

/-! ## The end arrives -/

/-- The write that ends the highest vector in service. -/
def eoiWrite (now : UInt64) : Access := ⟨apicBase + 0xb0, 4, true, 0, now⟩

/-- A processor that serves the vector as a level interrupt releases the input when it ends it. -/
theorem mmio_eoiWrite {now : UInt64} (hnow : ¬ now < (b.cpus cpu).apic.now) {i : Nat}
    (hi : i < ioapicInputs)
    (hserves : apicEoiVector (b.cpus cpu).apic = (b.ioapic.acceptedVector i).toNat)
    (hvector : apicEoiVector (b.cpus cpu).apic ≠ 0) :
    ∃ after, b.mmio cpu (eoiWrite now) = some (0, after) /\
      hasBit after.ioapic.remoteIrr i = false := by
  have hregister : apicRegister (apicBase + 0xb0 - apicBase).toNat = some .eoi := by decide
  have hio : apicIo (b.cpus cpu).apic (apicBase + 0xb0 - apicBase).toNat true 0 now =
      some (0, ((b.cpus cpu).apic.advance now).endOfInterrupt) := by
    unfold apicIo
    dsimp only
    rw [if_neg hnow, hregister]
    rfl
  have haccess : b.apicAccess cpu (eoiWrite now) =
      some (0, b.setApic cpu ((b.cpus cpu).apic.advance now).endOfInterrupt) := by
    have hwidth : ¬ (eoiWrite now).width ≠ 4 := fun h => h rfl
    have hcommand : ¬ ((eoiWrite now).write = true /\ (eoiWrite now).physical = apicBase + 0x300) :=
      fun h => (by decide : ¬ apicBase + 0xb0 = apicBase + 0x300) h.2
    unfold Board.apicAccess
    rw [if_neg hwidth, if_neg hcommand]
    show (apicIo (b.cpus cpu).apic (apicBase + 0xb0 - apicBase).toNat true 0 now).map _ = _
    rw [hio]
    rfl
  have hended : b.ended cpu (eoiWrite now) = apicEoiVector (b.cpus cpu).apic := if_pos ⟨rfl, rfl⟩
  have hpage : (eoiWrite now).isApic = true := rfl
  refine ⟨{ b.setApic cpu ((b.cpus cpu).apic.advance now).endOfInterrupt with
    ioapic := ioapicEoi b.ioapic (apicEoiVector (b.cpus cpu).apic) }, ?_, ?_⟩
  · unfold Board.mmio
    dsimp only
    rw [if_pos hpage, haccess, Option.map_some]
    show some (_, if b.ended cpu (eoiWrite now) ≠ 0 then _ else _) = _
    rw [hended, if_pos hvector]
    rfl
  · have hrange := ended_range (b := b) (hended.symm ▸ hvector)
    rw [hended] at hrange
    dsimp only
    rw [hasBit_ioapicEoi hrange hi, hserves, beq_self_eq_true, Bool.not_true, Bool.and_false]

/-- In every reachable board an input that waits has a processor with its vector, pending or
served as a level interrupt, and the end of that vector by such a processor releases the input. -/
theorem waiting_input_held {b : Board n} (hreach : BoardReach b) {i : Nat} (hi : i < ioapicInputs)
    (hwaits : hasBit b.ioapic.remoteIrr i = true) :
    (∃ cpu, (b.cpus cpu).apic.Holds (b.ioapic.acceptedVector i).toNat) /\
      ∀ cpu now, ¬ now < (b.cpus cpu).apic.now ->
        apicEoiVector (b.cpus cpu).apic = (b.ioapic.acceptedVector i).toNat ->
        apicEoiVector (b.cpus cpu).apic ≠ 0 ->
        ∃ after, b.mmio cpu (eoiWrite now) = some (0, after) /\
          hasBit after.ioapic.remoteIrr i = false := by
  refine ⟨boardReach_held hreach i hi hwaits, ?_⟩
  intro cpu now hnow hserves hvector
  exact mmio_eoiWrite hnow hi hserves hvector

/-- One processor with its controller as it starts. -/
def startBoard : Board 1 where
  ioapic := ⟨fun _ => rteMask, 0, 0, 0, fun _ => 0, 0, 1⟩
  cpus := fun _ => ⟨{
    svr := 0xff, tpr := 0, lvtTimer := 0x10000, initial := 0, divide := 0
    lint0 := 0x10000, lint1 := 0x10000, ldr := 0, dfr := 0xffffffff, icrLow := 0, icrHigh := 0
    lvtThermal := 0x10000, lvtPerf := 0x10000, lvtError := 0x10000
    now := 0, phase := 0, counter := 0
    irr := fun _ => 0, isr := fun _ => 0, irrLevel := fun _ => 0, tmr := fun _ => 0
    invalidVector := false, id := 0, bootstrap := true }, .running, false, 0⟩

/-- The guest enables its controller, opens input 0 as a level input under vector 48, and the
line of the input rises. -/
def openLevel : List (FirmwareAction 1) :=
  [.access 0 ⟨apicBase + 0xf0, 4, true, 0x1ff, 0⟩, .access 0 ⟨ioapicBase, 4, true, 0x10, 0⟩,
    .access 0 ⟨ioapicBase + 0x10, 4, true, 0x8030, 0⟩, .line 0 true, .round]

theorem reach_of_actions {actions : List (FirmwareAction n)} (hreach : BoardReach b)
    (hinit : ∀ action ∈ actions, ¬ action.sendsInit)
    (h : actions.foldlM Board.perform b = some after) : BoardReach after := by
  induction actions generalizing b with
  | nil => exact some.inj h ▸ hreach
  | cons action actions ih =>
    rw [foldlM_cons] at h
    obtain ⟨middle, hfirst, hrest⟩ := bind_eq_some_iff.mp h
    refine ih (.action action hreach (hinit action mem_cons_self) hfirst) ?_ hrest
    exact fun other hother => hinit other (mem_cons_of_mem _ hother)

/-- Input 0 then waits, and the processor holds its vector. -/
theorem waiting_input_held_opened :
    ∃ b : Board 1, openLevel.foldlM Board.perform startBoard = some b /\
      hasBit b.ioapic.remoteIrr 0 = true /\
      ∃ cpu, (b.cpus cpu).apic.Holds (b.ioapic.acceptedVector 0).toNat := by
  have hrun : (openLevel.foldlM Board.perform startBoard).map
      (fun b => hasBit b.ioapic.remoteIrr 0) = some true := by decide +kernel
  obtain ⟨b, hb, hwaits⟩ := map_eq_some_iff.mp hrun
  have hstart : BoardReach startBoard := .start ⟨⟨1, rfl⟩, fun _ => ⟨0, 0, true, rfl⟩⟩
  have hinit : ∀ action ∈ openLevel, ¬ action.sendsInit := by
    intro action haction
    simp only [openLevel, mem_cons, not_mem_nil, or_false] at haction
    rcases haction with rfl | rfl | rfl | rfl | rfl
    · exact fun h => absurd h.2.1 (by decide)
    · exact fun h => absurd h.2.1 (by decide)
    · exact fun h => absurd h.2.1 (by decide)
    · exact id
    · exact id
  exact ⟨b, hb, hwaits, (waiting_input_held (reach_of_actions hstart hinit hb) (by decide) hwaits).1⟩

end AgentOs.X86
