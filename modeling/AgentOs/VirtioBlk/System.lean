import AgentOs.Library.Copy
import AgentOs.VirtioBlk.Driver

/-!
# The driver, its devices and its client

A device takes the chains of its medium in the order of the available ring and completes each
once, in any order and after any delay: it moves the data, answers in the status byte and then
advances the used index.  The client writes the staging windows between its calls.
-/

namespace AgentOs.VirtioBlk

open Library Prog Ipc BlkVirt

/-! ## A device -/

/-- A chain as the device read it; `number` counts the chains it has taken before. -/
structure Chain where
  number : Nat
  hdr : ReqHdr
  data : Option (UInt64 × UInt32)
  statusAddr : UInt64

inductive Stage where
  | taken
  | moved
  | answered (status : UInt8)

/-- The memory of a medium and its device.  `published` counts the chains of the driver, and
`completed` keeps the chains of the device with their status. -/
structure Medium where
  queue : QueueMem
  lastAvail : UInt16
  inFlight : List (Chain × Stage)
  disk : Nat -> UInt8
  published : Nat
  completed : List (Chain × UInt8)

/-- The descriptors from one on. -/
def walk (desc : UInt16 -> VirtqDesc) : Nat -> UInt16 -> List VirtqDesc
  | 0, _ => []
  | n + 1, i =>
    desc i :: if (desc i).flags &&& virtqDescFNext ≠ 0 then walk desc n (desc i).next else []

def Medium.taken (x : Medium) : Nat := x.inFlight.length + x.completed.length

/-- The next chain of the available ring: a header, data if any, and a status byte. -/
def Medium.nextChain (x : Medium) : Option Chain :=
  match walk x.queue.desc virtioBlkQueueSize.toNat
      (x.queue.availRing (x.lastAvail % virtioBlkQueueSize)) with
  | [_, status] => some ⟨x.taken, x.queue.hdr, none, status.addr⟩
  | [_, data, status] => some ⟨x.taken, x.queue.hdr, some (data.addr, data.len), status.addr⟩
  | _ => none

/-- The place of a physical address in the window that starts at `base`. -/
def windowOff (base addr : UInt64) : Nat := (addr - base).toNat

def diskOff (hdr : ReqHdr) : Nat := hdr.sector.toNat * 512

/-- The window after the transfer: a READ puts the sectors there. -/
def Chain.bytesAfter (base : UInt64) (c : Chain) (bytes disk : Nat -> UInt8) : Nat -> UInt8 :=
  match c.data with
  | none => bytes
  | some (addr, len) =>
    if c.hdr.type = virtioBlkTIn then
      copyRange disk bytes (diskOff c.hdr) (windowOff base addr) len.toNat
    else bytes

/-- The medium after the transfer: a WRITE puts the window there. -/
def Chain.diskAfter (base : UInt64) (c : Chain) (bytes disk : Nat -> UInt8) : Nat -> UInt8 :=
  match c.data with
  | none => disk
  | some (addr, len) =>
    if c.hdr.type = virtioBlkTOut then
      copyRange bytes disk (windowOff base addr) (diskOff c.hdr) len.toNat
    else disk

def Medium.transfer (base : UInt64) (x : Medium) (c : Chain) : Medium :=
  { x with
    queue := { x.queue with bytes := c.bytesAfter base x.queue.bytes x.disk }
    disk := c.diskAfter base x.queue.bytes x.disk }

def Medium.putStatus (base : UInt64) (x : Medium) (c : Chain) (status : UInt8) : Medium :=
  { x with queue := { x.queue with
    bytes := Function.update x.queue.bytes (windowOff base c.statusAddr) status } }

inductive DeviceStep (base : UInt64) : Medium -> Medium -> Prop where
  | take {x : Medium} {c : Chain} : x.lastAvail ≠ x.queue.availIdx -> x.nextChain = some c ->
      DeviceStep base x
        { x with lastAvail := x.lastAvail + 1, inFlight := x.inFlight ++ [(c, .taken)] }
  | move {x : Medium} {b after : List (Chain × Stage)} {c : Chain} :
      x.inFlight = b ++ (c, .taken) :: after ->
      DeviceStep base x { x.transfer base c with inFlight := b ++ (c, .moved) :: after }
  | answer {x : Medium} {b after : List (Chain × Stage)} {c : Chain} {stage : Stage}
      {status : UInt8} : x.inFlight = b ++ (c, stage) :: after ->
      (stage = .moved \/ stage = .taken /\ status ≠ virtioBlkSOk) ->
      DeviceStep base x
        { x.putStatus base c status with inFlight := b ++ (c, .answered status) :: after }
  | complete {x : Medium} {b after : List (Chain × Stage)} {c : Chain} {status : UInt8} :
      x.inFlight = b ++ (c, .answered status) :: after ->
      DeviceStep base x
        { x with
          queue := { x.queue with usedIdx := x.queue.usedIdx + 1 }
          inFlight := b ++ after
          completed := x.completed ++ [(c, status)] }

/-! ## The system -/

/-- A request that the driver serves, with the media as they were when it arrived. -/
structure Call where
  driver : Driver
  req : Sel4Msg
  before : MediaId -> Medium

structure Record where
  call : Call
  rep : Sel4Msg
  after : MediaId -> Medium

structure BlkSystem where
  media : MediaId -> Medium
  current : Option Call
  history : List Record

def BlkSystem.setMedium (s : BlkSystem) (m : MediaId) (x : Medium) : BlkSystem :=
  { s with media := Function.update s.media m x }

def Medium.store (x : Medium) (w : Write) : Medium :=
  { x with
    queue := x.queue.store w
    published := match w with
      | .availIdx _ => x.published + 1
      | _ => x.published }

/-- The reply ends the call. -/
def BlkSystem.finish (s : BlkSystem) (rep : Sel4Msg) : BlkSystem :=
  match s.current with
  | none => s
  | some call => { s with current := none, history := s.history ++ [⟨call, rep, s.media⟩] }

def access : (request : DriverIo.Op) -> BlkSystem -> DriverIo.Ans request × BlkSystem
  | DriverOp.write m w, s => ((), s.setMedium m ((s.media m).store w))
  | DriverOp.usedIdx m, s => ((s.media m).queue.usedIdx, s)
  | DriverOp.availIdx m, s => ((s.media m).queue.availIdx, s)
  | DriverOp.byte m off, s => ((s.media m).queue.bytes off.toNat, s)
  | DriverOp.notify _, s => ((), s)
  | DriverOp.reply rep, s => ((), s.finish rep)

inductive Surroundings (base : MediaId -> UInt64) : BlkSystem -> BlkSystem -> Prop where
  | device {s : BlkSystem} {m : MediaId} {x : Medium} :
      DeviceStep (base m) (s.media m) x -> Surroundings base s (s.setMedium m x)
  | client {s : BlkSystem} {m : MediaId} (bytes : Nat -> UInt8) : s.current = none ->
      Surroundings base s
        (s.setMedium m { s.media m with queue := { (s.media m).queue with bytes := bytes } })

/-- Where the window of each medium starts. -/
def windowBase (sharedPaddr : UInt64) (m : MediaId) : UInt64 :=
  sharedPaddr + UInt64.ofNat (agentosBlkMediaDmaOff (.ofNat m))

/-- The server; `admits` restricts the requests that arrive. -/
def blkServer (sharedPaddr : UInt64) (admits : Driver -> Sel4Msg -> BlkSystem -> Prop) :
    Server DriverIo Driver BlkSystem where
  exec request s answer s' := access request s = (answer, s')
  env := Surroundings (windowBase sharedPaddr)
  recv driver s program s' := ∃ req, admits driver req s /\ program = serve driver req /\
    s' = { s with current := some ⟨driver, req, s.media⟩ }

/-- Any request may arrive at any time. -/
def anyRequest (_ : Driver) (_ : Sel4Msg) (_ : BlkSystem) : Prop := True

/-- Every chain that the driver has published is completed. -/
def Medium.Settled (x : Medium) : Prop := x.completed.length = x.published

/-- A transfer is asked for only when the device has nothing left of its medium. -/
def settledRequest (driver : Driver) (req : Sel4Msg) (s : BlkSystem) : Prop :=
  ∀ io, ioOf driver req = some io -> (s.media io.media).Settled

/-- A driver after `virtio_blk_pd_init`. -/
def Driver.Ready (sharedPaddr : UInt64) (driver : Driver) : Prop :=
  driver.sharedPaddr = sharedPaddr /\ ∀ m, (driver.dev m).mediaId = .ofNat m /\
    (driver.dev m).dmaOff = .ofNat (agentosBlkMediaDmaOff (.ofNat m))

/-- Queues that have not been used. -/
def Medium.Fresh (x : Medium) : Prop :=
  x.queue.availIdx = 0 /\ x.queue.usedIdx = 0 /\ x.lastAvail = 0 /\ x.inFlight = [] /\
    x.published = 0 /\ x.completed = []

def BlkSystem.Fresh (s : BlkSystem) : Prop :=
  (∀ m, (s.media m).Fresh) /\ s.current = none /\ s.history = []

/-! ## A completion that is the caller's own -/

/-- The device has completed this very request with success; a READ left its sectors in the
window, and a WRITE put the window as it was at the call on the medium. -/
structure OwnCompletion (io : Io) (before after : Medium) : Prop where
  completed : ∃ c, (c, virtioBlkSOk) ∈ after.completed /\ c.number = before.published /\
    c.hdr = ⟨io.type, 0, io.sector⟩
  read : io.type = virtioBlkTIn -> ∀ i, i < io.count.toNat * 512 ->
    after.queue.bytes (dmaDataOffset.toNat + i) = after.disk (io.sector.toNat * 512 + i)
  written : io.type = virtioBlkTOut -> ∀ i, i < io.count.toNat * 512 ->
    after.disk (io.sector.toNat * 512 + i) = before.queue.bytes (dmaDataOffset.toNat + i)

def Record.Own (r : Record) : Prop :=
  ∀ io, ioOf r.call.driver r.call.req = some io -> rd32 r.rep.data 0 = aosHostBlkOk ->
    OwnCompletion io (r.call.before io.media) (r.after io.media)

end AgentOs.VirtioBlk
