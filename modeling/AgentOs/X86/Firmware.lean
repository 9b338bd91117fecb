import AgentOs.X86.Apic
import AgentOs.X86.IoApic

/-!
# Processors, their controllers and the firmware loop

`x86_smp.c`, `x86_event.c` and the parts of the loop of `x86_firmware.c` that reach an interrupt
controller: the guest's accesses to the two register pages, the lines of the devices, the round
that routes inputs to processors, and the interrupt that a processor takes.
-/

namespace AgentOs.X86

open Library

def smpMaxCpus : Nat := 32
def apicBase : UInt64 := 0xfee00000
def ioapicBase : UInt64 := 0xfec00000

inductive CpuStartState where
  | running | waitSipi | startPending
  deriving DecidableEq

/-- `aos_x86_smp_cpu_t`. -/
structure SmpCpu where
  apic : Apic
  state : CpuStartState
  resetPending : Bool
  startupVector : UInt8

variable {n : Nat}

/-! ## Commands between processors -/

/-- A command that puts its targets back to their reset state. -/
def initAssert (command : UInt32) : Bool :=
  (command >>> 8) &&& 7 == 5 && !(command &&& 0x8000 != 0 && command &&& 0x4000 == 0)

/-- The command has a known form. -/
def commandKnown (command : UInt32) : Bool :=
  let mode := (command >>> 8) &&& 7
  let level := command &&& 0x8000 != 0
  command &&& ~~~0x000ccfff == 0 && (mode == 0 || mode == 5 || mode == 6) &&
    !(mode == 0 && (command &&& 255 < 16 || level)) && !(mode == 6 && level)

def commandTargets (cpus : Fin n -> SmpCpu) (sender : Fin n) (command : UInt32) (i : Fin n) : Bool :=
  let shortcut := (command >>> 18) &&& 3
  if shortcut = 1 then i == sender
  else if shortcut = 2 then true
  else if shortcut = 3 then i != sender
  else apicDestination (cpus i).apic ((cpus sender).apic.icrHigh >>> 24) (command &&& 0x800 != 0)

/-- What a command does to one of its targets. -/
def SmpCpu.deliver (cpu : SmpCpu) (command : UInt32) (ticks : UInt64) : SmpCpu :=
  let mode := (command >>> 8) &&& 7
  if mode = 0 then
    let vector := (command &&& 255).toNat
    { cpu with apic := (apicRoute cpu.apic vector cpu.apic.id.toUInt32 false false).getD cpu.apic }
  else if mode = 5 then
    if !initAssert command then cpu
    else {
      apic := (apicInitCpu ticks cpu.apic.id.toNat cpu.apic.bootstrap).getD cpu.apic
      state := .waitSipi
      resetPending := true
      startupVector := 0 }
  else if cpu.state = .waitSipi then
    { cpu with startupVector := (command &&& 255).toUInt8, state := .startPending }
  else cpu

/-- The sender's clock advances and its command register holds the command. -/
def SmpCpu.publish (cpu : SmpCpu) (command : UInt32) (ticks : UInt64) : SmpCpu :=
  let apic := ((apicIo cpu.apic 0x300 false 0 ticks).map Prod.snd).getD cpu.apic
  { cpu with apic := { apic with icrLow := command } }

/-- `aos_x86_smp_icr`. -/
def smpIcr (cpus : Fin n -> SmpCpu) (sender : Fin n) (command : UInt32) (ticks : UInt64) :
    Option (Fin n -> SmpCpu) :=
  if n > smpMaxCpus \/ !commandKnown command then none
  else if ∃ i, (cpus i).apic.id = 255 \/ (cpus i).apic.now > ticks \/
      ∃ j, j < i /\ (cpus i).apic.id = (cpus j).apic.id then none
  else
    let published := Function.update cpus sender ((cpus sender).publish command ticks)
    some fun i =>
      if commandTargets cpus sender command i then (published i).deliver command ticks
      else published i

/-! ## The event of an entry -/

/-- `aos_x86_entry_event_t`. -/
structure EntryEvent where
  interruptionInfo : UInt32
  errorCode : UInt32
  advance : UInt8
  acceptIrq : Bool
  interruptWindow : Bool

/-- `aos_x86_entry_event`. -/
def entryEvent (gp protectedMode : Bool) (length irq : Nat) (flags : UInt64)
    (interruptibility : UInt32) : Option EntryEvent :=
  if length > 15 \/ (irq ≠ 0 /\ (irq < 16 \/ irq > 255)) then none
  else if gp then
    some ⟨0x8000030d ||| (if protectedMode then 0x800 else 0), 0, 0, false, false⟩
  else if irq ≠ 0 then
    if flags &&& 0x200 ≠ 0 /\ interruptibility &&& 3 = 0 then
      some ⟨0x80000000 ||| UInt32.ofNat irq, 0, UInt8.ofNat length, true, false⟩
    else some ⟨0, 0, UInt8.ofNat length, false, true⟩
  else some ⟨0, 0, UInt8.ofNat length, false, false⟩

/-! ## The loop -/

/-- The controllers of a guest. -/
structure Board (n : Nat) where
  ioapic : IoApic
  cpus : Fin n -> SmpCpu

def Board.setApic (b : Board n) (cpu : Fin n) (apic : Apic) : Board n :=
  { b with cpus := Function.update b.cpus cpu { b.cpus cpu with apic := apic } }

/-- An access of a guest instruction. -/
structure Access where
  physical : UInt64
  width : Nat
  write : Bool
  value : UInt32
  now : UInt64

def Access.isApic (access : Access) : Bool :=
  apicBase <= access.physical && access.physical < apicBase + 4096

def Access.isIoApic (access : Access) : Bool :=
  ioapicBase <= access.physical && access.physical < ioapicBase + 4096

/-- An access to the page of a processor's own controller. -/
def Board.apicAccess (b : Board n) (cpu : Fin n) (access : Access) : Option (UInt32 × Board n) :=
  if access.width ≠ 4 then none
  else if access.write /\ access.physical = apicBase + 0x300 then
    (smpIcr b.cpus cpu access.value access.now).map fun cpus =>
      (access.value, { b with cpus := cpus })
  else
    (apicIo (b.cpus cpu).apic (access.physical - apicBase).toNat access.write access.value
      access.now).map fun result => (result.1, b.setApic cpu result.2)

/-- An access to the page of the I/O controller. -/
def Board.ioapicAccess (b : Board n) (access : Access) : Option (UInt32 × Board n) :=
  if access.width ≠ 4 then none
  else
    (ioapicIo b.ioapic (access.physical - ioapicBase).toNat access.write access.value).map
      fun result => (result.1, { b with ioapic := result.2 })

/-- The dispatch of an access to one of the two pages; no result stops the guest. -/
def Board.mmio (b : Board n) (cpu : Fin n) (access : Access) : Option (UInt32 × Board n) :=
  let eoiVector :=
    if access.physical = apicBase + 0xb0 /\ access.write then apicEoiVector (b.cpus cpu).apic else 0
  let handled :=
    if access.isApic then b.apicAccess cpu access
    else if access.isIoApic then b.ioapicAccess access
    else none
  handled.map fun (value, b) =>
    (value, if eoiVector ≠ 0 then { b with ioapic := ioapicEoi b.ioapic eoiVector } else b)

/-- The processor's controller after a route was offered, if it took it. -/
def SmpCpu.offer (cpu : SmpCpu) (route : IoApicRoute) : Option Apic :=
  if cpu.state = .running then
    apicRoute cpu.apic route.vector.toNat route.destination.toUInt32 route.logical route.level
  else none

/-- One input of the routing round. -/
def Board.routeInput (b : Board n) (input : Nat) : Board n :=
  match ioapicRoute b.ioapic input with
  | none => b
  | some route =>
    let cpus := fun i => { b.cpus i with apic := ((b.cpus i).offer route).getD (b.cpus i).apic }
    if ∃ i, ((b.cpus i).offer route).isSome then
      ⟨(ioapicAccept b.ioapic input).getD b.ioapic, cpus⟩
    else { b with cpus := cpus }

/-- The round over the first inputs. -/
def Board.routeInputs (b : Board n) : Nat -> Board n
  | 0 => b
  | input + 1 => (b.routeInputs input).routeInput input

/-- What decides how the guest is entered next. -/
structure EntryFacts where
  ticks : UInt64
  gp : Bool
  protectedMode : Bool
  length : Nat
  flags : UInt64
  interruptibility : UInt32

/-- The interrupt before an entry; no result stops the guest. -/
def Board.takeInterrupt (b : Board n) (cpu : Fin n) (facts : EntryFacts) : Option (Board n) :=
  let (vector, apic) := apicPending (b.cpus cpu).apic facts.ticks
  if vector = apicInvalidVector then none
  else
    match entryEvent facts.gp facts.protectedMode facts.length vector facts.flags
      facts.interruptibility with
    | none => none
    | some event =>
      if event.acceptIrq then (apicAccept apic vector).map (b.setApic cpu)
      else some (b.setApic cpu apic)

/-- `firmware_apply_startup` on one processor, when the native steps succeed. -/
def SmpCpu.startup (cpu : SmpCpu) : SmpCpu :=
  { cpu with
    resetPending := false
    state := if cpu.state = .startPending then .running else cpu.state }

def Board.applyStartup (b : Board n) : Option (Board n) :=
  if n = 0 \/ n > 2 then none else some { b with cpus := fun i => (b.cpus i).startup }

inductive FirmwareAction (n : Nat) where
  | line (input : Nat) (asserted : Bool)
  | access (cpu : Fin n) (access : Access)
  | round
  | interrupt (cpu : Fin n) (facts : EntryFacts)
  | startup

def Board.perform (b : Board n) : FirmwareAction n -> Option (Board n)
  | .line input asserted =>
    (ioapicSetIrq b.ioapic input asserted).map fun ioapic => { b with ioapic := ioapic }
  | .access cpu access => (b.mmio cpu access).map Prod.snd
  | .round => some (b.routeInputs ioapicInputs)
  | .interrupt cpu facts => b.takeInterrupt cpu facts
  | .startup => b.applyStartup

/-- The action sends a command that resets processors. -/
def FirmwareAction.sendsInit : FirmwareAction n -> Prop
  | .access _ request =>
    request.write = true /\ request.physical = apicBase + 0x300 /\ initAssert request.value = true
  | _ => False

/-- The controllers of a guest that starts. -/
structure Board.Starts (b : Board n) : Prop where
  ioapic : ∃ id, ioapicInit id = some b.ioapic
  cpus : ∀ i, ∃ ticks id bootstrap, apicInitCpu ticks id bootstrap = some (b.cpus i).apic

/-- The boards that any sequence of actions without a reset command leads to. -/
inductive BoardReach : Board n -> Prop where
  | start {b : Board n} : b.Starts -> BoardReach b
  | action {b after : Board n} (action : FirmwareAction n) :
      BoardReach b -> ¬ action.sendsInit -> b.perform action = some after -> BoardReach after

end AgentOs.X86
