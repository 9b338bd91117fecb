import AgentOs.Library.Bits

/-!
# The interrupt controller of one processor

`x86_apic.c`.  A vector is requested in `irr`, and moves to `isr` when the processor takes it.
`irrLevel` and `tmr` say of a requested and of a served vector that it came from a level input.
-/

namespace AgentOs.X86

open Library

def apicInvalidVector : Nat := 256

/-- `aos_x86_apic_t`. -/
structure Apic where
  svr : UInt32
  tpr : UInt32
  lvtTimer : UInt32
  initial : UInt32
  divide : UInt32
  lint0 : UInt32
  lint1 : UInt32
  ldr : UInt32
  dfr : UInt32
  icrLow : UInt32
  icrHigh : UInt32
  lvtThermal : UInt32
  lvtPerf : UInt32
  lvtError : UInt32
  now : UInt64
  phase : UInt64
  counter : UInt32
  irr : BitTable
  isr : BitTable
  irrLevel : BitTable
  tmr : BitTable
  invalidVector : Bool
  id : UInt8
  bootstrap : Bool

/-- `aos_x86_apic_init_cpu`. -/
def apicInitCpu (ticks : UInt64) (id : Nat) (bootstrap : Bool) : Option Apic :=
  if id >= 255 then none
  else some {
    svr := 0xff, tpr := 0, lvtTimer := 0x10000, initial := 0, divide := 0
    lint0 := 0x10000, lint1 := 0x10000, ldr := 0, dfr := 0xffffffff, icrLow := 0, icrHigh := 0
    lvtThermal := 0x10000, lvtPerf := 0x10000, lvtError := 0x10000
    now := ticks, phase := 0, counter := 0
    irr := fun _ => 0, isr := fun _ => 0, irrLevel := fun _ => 0, tmr := fun _ => 0
    invalidVector := false, id := .ofNat id, bootstrap := bootstrap }

/-- The software enable bit of the spurious vector register. -/
def Apic.enabled (a : Apic) : Bool := a.svr &&& 0x100 != 0

def Apic.divisor (a : Apic) : UInt64 :=
  let encoding := (a.divide &&& (3 : UInt32)) ||| ((a.divide >>> (1 : UInt32)) &&& (4 : UInt32))
  (1 : UInt64) <<< ((encoding + 1) &&& 7).toUInt64

/-- The expiry of the timer: its vector is requested unless the timer is masked. -/
def Apic.expire (a : Apic) : Apic :=
  if a.enabled && a.lvtTimer &&& 0x10000 == 0 then
    let vector := (a.lvtTimer &&& 0xff).toNat
    if vector >= 16 then { a with irr := a.irr.set vector } else { a with invalidVector := true }
  else a

def Apic.advance (a : Apic) (ticks : UInt64) : Apic :=
  let delta := ticks - a.now
  let div := a.divisor
  let fraction := delta % div + a.phase
  let elapsed := delta / div + fraction / div
  let a := { a with phase := fraction % div, now := ticks }
  if a.counter = 0 then a
  else if elapsed < a.counter.toUInt64 then { a with counter := a.counter - elapsed.toUInt32 }
  else
    let elapsed := elapsed - a.counter.toUInt64
    let counter :=
      if a.lvtTimer &&& 0x20000 ≠ 0 /\ a.initial ≠ 0 then
        a.initial - (elapsed % a.initial.toUInt64).toUInt32
      else 0
    Apic.expire { a with counter := counter }

/-- The search of `highest` through the `n` vectors from 16 on, downwards. -/
def highestFrom (bits : BitTable) : Nat -> Nat
  | 0 => 0
  | n + 1 => if bits.test (16 + n) then 16 + n else highestFrom bits n

def highest (bits : BitTable) : Nat := highestFrom bits 240

def Apic.priority (a : Apic) : Nat :=
  let inService := highest a.isr
  if a.tpr.toNat >>> 4 >= inService >>> 4 then a.tpr.toNat else inService &&& 0xf0

/-- `aos_x86_apic_pending`. -/
def apicPending (a : Apic) (ticks : UInt64) : Nat × Apic :=
  if ticks < a.now then (0, a)
  else
    let a := a.advance ticks
    if a.invalidVector then (apicInvalidVector, a)
    else
      let v := highest a.irr
      (if a.enabled && decide (v >>> 4 > a.priority >>> 4) then v else 0, a)

/-- The move of a vector from requested to served. -/
def Apic.serve (a : Apic) (vector : Nat) : Apic :=
  { a with
    irr := a.irr.clear vector
    isr := a.isr.set vector
    tmr := if a.irrLevel.test vector then a.tmr.set vector else a.tmr.clear vector
    irrLevel := a.irrLevel.clear vector }

/-- `aos_x86_apic_accept`. -/
def apicAccept (a : Apic) (vector : Nat) : Option Apic :=
  if vector = 0 \/ vector >= 256 then none
  else
    let (pending, a) := apicPending a a.now
    if vector ≠ pending then none else some (a.serve vector)

/-- `aos_x86_apic_destination`. -/
def apicDestination (a : Apic) (destination : UInt32) (logical : Bool) : Bool :=
  if destination > 255 then false
  else
    let localId := a.ldr >>> 24
    destination == 255 ||
      if logical then
        if a.dfr = 0xffffffff then destination &&& localId != 0
        else destination >>> 4 == localId >>> 4 && destination &&& localId &&& 15 != 0
      else destination == a.id.toUInt32

/-- `aos_x86_apic_route`. -/
def apicRoute (a : Apic) (vector : Nat) (destination : UInt32) (logical level : Bool) :
    Option Apic :=
  if vector < 16 \/ vector > 255 \/ !a.enabled \/ !apicDestination a destination logical then none
  else some { a with
    irr := a.irr.set vector
    irrLevel := if level then a.irrLevel.set vector else a.irrLevel }

/-- `aos_x86_apic_eoi_vector`. -/
def apicEoiVector (a : Apic) : Nat :=
  let vector := highest a.isr
  if a.tmr.test vector then vector else 0

/-! ## Registers -/

/-- The registers that only hold what was written. -/
inductive PlainRegister where
  | tpr | ldr | svr | icrHigh | lvtTimer | lvtThermal | lvtPerf | lvtError | lint0 | lint1
  | initial | divide
  deriving DecidableEq

def PlainRegister.mask : PlainRegister -> UInt32
  | .tpr => 0xff
  | .ldr => 0xff000000
  | .svr => 0x3ff
  | .icrHigh => 0xff000000
  | .lvtTimer => 0x300ff
  | .lvtThermal => 0x107ff
  | .lvtPerf => 0x107ff
  | .lvtError => 0x100ff
  | .lint0 => 0x1a7ff
  | .lint1 => 0x1a7ff
  | .initial => 0xffffffff
  | .divide => 0xb

def Apic.get (a : Apic) : PlainRegister -> UInt32
  | .tpr => a.tpr
  | .ldr => a.ldr
  | .svr => a.svr
  | .icrHigh => a.icrHigh
  | .lvtTimer => a.lvtTimer
  | .lvtThermal => a.lvtThermal
  | .lvtPerf => a.lvtPerf
  | .lvtError => a.lvtError
  | .lint0 => a.lint0
  | .lint1 => a.lint1
  | .initial => a.initial
  | .divide => a.divide

/-- A write; the timer restarts with its count, and the prescaler with a new divider. -/
def Apic.put (a : Apic) (value : UInt32) : PlainRegister -> Apic
  | .tpr => { a with tpr := value }
  | .ldr => { a with ldr := value }
  | .svr => { a with svr := value }
  | .icrHigh => { a with icrHigh := value }
  | .lvtTimer => { a with lvtTimer := value }
  | .lvtThermal => { a with lvtThermal := value }
  | .lvtPerf => { a with lvtPerf := value }
  | .lvtError => { a with lvtError := value }
  | .lint0 => { a with lint0 := value }
  | .lint1 => { a with lint1 := value }
  | .initial => { a with initial := value, counter := value, phase := 0 }
  | .divide => { a with divide := value, phase := if value ≠ a.divide then 0 else a.phase }

inductive ApicRegister where
  | id | version | dfr | priority | eoi | errorStatus | icrLow | counter
  | plain (register : PlainRegister)
  | isr (word : Nat)
  | tmr (word : Nat)
  | irr (word : Nat)
  deriving DecidableEq

/-- The cases of the switch in `aos_x86_apic_io`. -/
def apicOffsets : List (Nat × ApicRegister) :=
  [(0x20, .id), (0x30, .version), (0x80, .plain .tpr), (0xd0, .plain .ldr), (0xe0, .dfr),
    (0xa0, .priority), (0xb0, .eoi), (0xf0, .plain .svr), (0x280, .errorStatus), (0x300, .icrLow),
    (0x310, .plain .icrHigh), (0x320, .plain .lvtTimer), (0x330, .plain .lvtThermal),
    (0x340, .plain .lvtPerf), (0x370, .plain .lvtError), (0x350, .plain .lint0),
    (0x360, .plain .lint1), (0x380, .plain .initial), (0x390, .counter), (0x3e0, .plain .divide)]

/-- Its default case: the words of the three bit maps. -/
def tableRegister (off : Nat) : Option ApicRegister :=
  if off % 16 ≠ 0 then none
  else if 0x100 <= off /\ off <= 0x170 then some (.isr ((off - 0x100) / 16))
  else if 0x180 <= off /\ off <= 0x1f0 then some (.tmr ((off - 0x180) / 16))
  else if 0x200 <= off /\ off <= 0x270 then some (.irr ((off - 0x200) / 16))
  else none

def apicRegister (off : Nat) : Option ApicRegister :=
  match apicOffsets.find? fun entry => entry.1 == off with
  | some entry => some entry.2
  | none => tableRegister off

/-- The end of the highest vector in service. -/
def Apic.endOfInterrupt (a : Apic) : Apic :=
  let v := highest a.isr
  if v = 0 then a else { a with isr := a.isr.clear v, tmr := a.tmr.clear v }

/-- A fixed interrupt that a processor sends while it is the only one. -/
def Apic.command (a : Apic) (value : UInt32) : Apic :=
  let shortcut := (value >>> 18) &&& 3
  let destination := if shortcut ≠ 0 then a.id.toUInt32 else a.icrHigh >>> 24
  let logical := shortcut == 0 && value &&& 0x800 != 0
  let a :=
    if shortcut ≠ 3 then
      (apicRoute a (value &&& 255).toNat destination logical false).getD a
    else a
  { a with icrLow := value }

def readRegister (next : Apic) : ApicRegister -> Option UInt32
  | .id => some (next.id.toUInt32 <<< 24)
  | .version => some 0x00050014
  | .dfr => some next.dfr
  | .priority => some (.ofNat next.priority)
  | .eoi => none
  | .errorStatus => some 0
  | .icrLow => some next.icrLow
  | .counter => some next.counter
  | .plain register => some (next.get register)
  | .isr word => some (next.isr word)
  | .tmr word => some (next.tmr word)
  | .irr word => some (next.irr word)

def writeRegister (next : Apic) (value : UInt32) : ApicRegister -> Option Apic
  | .dfr =>
    if value >>> 28 ≠ 0 /\ value >>> 28 ≠ 15 then none
    else some { next with dfr := value ||| 0x0fffffff }
  | .eoi => if value ≠ 0 then none else some next.endOfInterrupt
  | .errorStatus => if value ≠ 0 then none else some next
  | .icrLow =>
    if value &&& ~~~0x000c48ff ≠ 0 \/ value &&& 0xff < 16 then none else some (next.command value)
  | .plain register =>
    if value &&& ~~~register.mask ≠ 0 then none else some (next.put value register)
  | .id | .version | .priority | .counter | .isr _ | .tmr _ | .irr _ => none

/-- `aos_x86_apic_io`; no result is the false return, which changes nothing. -/
def apicIo (a : Apic) (off : Nat) (write : Bool) (value : UInt32) (ticks : UInt64) :
    Option (UInt32 × Apic) :=
  if ticks < a.now then none
  else
    let next := a.advance ticks
    match apicRegister off with
    | none => none
    | some register =>
      if write then (writeRegister next value register).map fun next => (value, next)
      else (readRegister next register).map fun read => (read, next)

end AgentOs.X86
