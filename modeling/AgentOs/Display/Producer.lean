import AgentOs.Display.Driver
import AgentOs.Framebuffer.Client

/-!
# Forwarding frames to the display

The framebuffer service copies the selected rectangle of a committed surface chunk by
chunk through the shared page and has the driver present it.
-/

namespace AgentOs.Display

open Library Framebuffer

structure DisplayProducer where
  handle : UInt64 := 0
  sequence : UInt64 := 0
  driverSequence : UInt64 := 0
  x : UInt32 := 0
  y : UInt32 := 0
  width : UInt32 := 0
  height : UInt32 := 0
  id : UInt32 := 0
  failed : Bool := false

/-- The producer and the driver at the two ends of the shared page. -/
structure DisplayLink where
  producer : DisplayProducer
  region : DisplayRegion
  driver : DisplayDriver

/-- The exchange callback: submit, let the driver run, receive. -/
def DisplayLink.transact (l : DisplayLink) (accepts : Bool) (q : DisplayRequest) :
    Option DisplayResponse × DisplayLink :=
  match aosDisplaySubmit l.region q with
  | none => (none, l)
  | some submitted =>
    let (driver, pumped) := aosDisplayPump l.driver submitted accepts
    match aosDisplayReceive pumped with
    | none => (none, { l with driver, region := pumped })
    | some (response, received) => (some response, { l with driver, region := received })

/-- The producer's check of a response; the result is the cookie. -/
def checkResponse (driverSequence : UInt64) (q : DisplayRequest) (response : DisplayResponse) :
    Option UInt64 :=
  if response.version ≠ aosDisplayVersion \/ response.id ≠ q.id \/ response.reserved ≠ 0 \/
      response.status ≠ .ok \/ response.cookie = 0 \/
      (q.cookie ≠ 0 /\ response.cookie ≠ q.cookie) then none
  else if response.sequence ≠ driverSequence +
      (if q.operation = aosDisplayPresent then 1 else 0) then none
  else some response.cookie

/-- One transaction. -/
def exchange (l : DisplayLink) (accepts : Bool) (q : DisplayRequest) :
    Option UInt64 × DisplayLink :=
  if l.producer.id = 0xffffffff then (none, l)
  else
    let q := { q with version := aosDisplayVersion, id := l.producer.id + 1 }
    let l := { l with producer := { l.producer with id := l.producer.id + 1 } }
    let (response, l) := l.transact accepts q
    (response.bind (checkResponse l.producer.driverSequence q), l)

/-- The rectangle that a forward copies; `committed` is the surface's committed image. -/
structure View where
  committed : Nat -> UInt8
  stride : Nat
  x : Nat
  y : Nat
  width : Nat
  height : Nat

def View.rowBytes (v : View) : Nat := v.width * 4

def View.bytes (v : View) : Nat := v.rowBytes * v.height

/-- The copy loop of one chunk; every turn copies at least one byte. -/
def fillChunk (v : View) (offset count : Nat) : Nat -> Nat -> (Nat -> UInt8) -> Nat -> UInt8
  | 0, _, data => data
  | fuel + 1, copied, data =>
    if copied < count then
      let row := (offset + copied) / v.rowBytes
      let column := (offset + copied) % v.rowBytes
      let part := min (v.rowBytes - column) (count - copied)
      fillChunk v offset count fuel (copied + part)
        (copyRange v.committed data (((v.y + row) * v.stride + v.x) * 4 + column) copied part)
    else
      data

def beginRequest (v : View) : DisplayRequest :=
  { operation := aosDisplayBegin, width := v.width.toUInt32, height := v.height.toUInt32 }

def writeRequest (cookie : UInt64) (offset count : Nat) : DisplayRequest :=
  { operation := aosDisplayWrite, cookie, offset := offset.toUInt32, length := count.toUInt32 }

def presentRequest (cookie : UInt64) : DisplayRequest := { operation := aosDisplayPresent, cookie }

/-- The loop over the chunks; every turn sends at least one byte. -/
def sendChunks (v : View) (accepts : Bool) :
    Nat -> Nat -> UInt64 -> DisplayLink -> Option UInt64 × DisplayLink
  | 0, _, cookie, l => (some cookie, l)
  | fuel + 1, offset, cookie, l =>
    if offset < v.bytes then
      let count := min (v.bytes - offset) aosDisplayChunk
      let data := fillChunk v offset count count 0 l.region.data
      match exchange { l with region := { l.region with data } } accepts
          (writeRequest cookie offset count) with
      | (none, l) => (none, l)
      | (some cookie, l) => sendChunks v accepts fuel (offset + count) cookie l
    else
      (some cookie, l)

/-- BEGIN, the chunks, PRESENT. -/
def sendFrame (v : View) (accepts : Bool) (l : DisplayLink) : Option UInt64 × DisplayLink :=
  match exchange l accepts (beginRequest v) with
  | (none, l) => (none, l)
  | (some cookie, l) =>
    match sendChunks v accepts v.bytes 0 cookie l with
    | (none, l) => (none, l)
    | (some cookie, l) => exchange l accepts (presentRequest cookie)

/-- The selected surface of a client. -/
def selectedSurface (c : FbClient) : Option FbSurface :=
  if c.selectedHandle = 0 then none
  else ((List.finRange aosFbMaxSurfaces).map c.surfaces).find? (·.handle = c.selectedHandle)

/-- The rectangle selected on a surface, in the memory that holds its committed image. -/
def viewOf (mem : Nat -> UInt8) (c : FbClient) (s : FbSurface) : View where
  committed offset := mem (s.committed.toNat + offset)
  stride := s.width.toNat
  x := c.selectedX.toNat
  y := c.selectedY.toNat
  width := c.selectedWidth.toNat
  height := c.selectedHeight.toNat

def aosDisplayForward (l : DisplayLink) (mem : Nat -> UInt8) (c : FbClient) (accepts : Bool) :
    Int × DisplayLink :=
  let p := l.producer
  if p.failed = true then (-1, l)
  else
    match selectedSurface c with
    | none => (0, l)
    | some s =>
      if s.sequence = 0 then (0, l)
      else if p.handle = s.handle /\ p.sequence = s.sequence /\ p.x = c.selectedX /\
          p.y = c.selectedY /\ p.width = c.selectedWidth /\ p.height = c.selectedHeight then (0, l)
      else if s.committed = 0 \/ s.width > 1024 \/ s.height > 768 \/ c.selectedWidth < 16 \/
          c.selectedHeight < 16 \/ c.selectedX > s.width \/
          c.selectedWidth > s.width - c.selectedX \/ c.selectedY > s.height \/
          c.selectedHeight > s.height - c.selectedY \/ p.driverSequence = uint64Max then
        (-1, l)
      else
        match sendFrame (viewOf mem c s) accepts l with
        | (none, l) => (-1, { l with producer := { l.producer with failed := true } })
        | (some _, l) =>
          (1, { l with producer := { l.producer with
            driverSequence := l.producer.driverSequence + 1, handle := s.handle
            sequence := s.sequence, x := c.selectedX, y := c.selectedY
            width := c.selectedWidth, height := c.selectedHeight } })

end AgentOs.Display
