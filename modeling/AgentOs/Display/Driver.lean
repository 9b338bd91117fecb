import AgentOs.Library.Copy
import Mathlib.Logic.Function.Basic

/-!
# The display driver

The driver owns two scanout banks.  One request at a time arrives in a page shared with the
framebuffer service; a frame is written into the hidden bank and then presented as a whole.
-/

namespace AgentOs.Display

open Library

def uint64Max : UInt64 := 0xffffffffffffffff

def aosDisplayVersion : UInt32 := 1

def aosDisplayChunk : Nat := 65536

def aosDisplayBegin : UInt32 := 1

def aosDisplayWrite : UInt32 := 2

def aosDisplayPresent : UInt32 := 3

def aosDisplayAbort : UInt32 := 4

inductive DisplayStatus where
  | ok
  | invalid
  | busy
  | stale
  | incomplete
  | failed
  deriving DecidableEq

structure DisplayRequest where
  version : UInt32 := 0
  operation : UInt32 := 0
  id : UInt32 := 0
  reserved : UInt32 := 0
  cookie : UInt64 := 0
  width : UInt32 := 0
  height : UInt32 := 0
  offset : UInt32 := 0
  length : UInt32 := 0

structure DisplayResponse where
  version : UInt32 := 0
  status : DisplayStatus := .ok
  id : UInt32 := 0
  reserved : UInt32 := 0
  cookie : UInt64 := 0
  sequence : UInt64 := 0

/-- The shared page. -/
structure DisplayRegion where
  reqHead : UInt32 := 0
  reqTail : UInt32 := 0
  respHead : UInt32 := 0
  respTail : UInt32 := 0
  request : DisplayRequest := {}
  response : DisplayResponse := {}
  data : Nat -> UInt8

/-- What the driver has done with its banks and its device: the arguments of `present` are
logged with the device's answer. -/
inductive DisplayEvent where
  | began (width height : UInt32)
  | wrote (length : UInt32)
  | presented (bank : Bool) (width height : UInt32) (accepted : Bool)

/-- `aos_display_driver_t`, with the two banks behind its pointers (initialization refuses
banks that overlap) and a record of what was done. -/
structure DisplayDriver where
  banks : Bool -> Nat -> UInt8
  cookie : UInt64 := 0
  sequence : UInt64 := 0
  width : UInt32 := 0
  height : UInt32 := 0
  written : UInt32 := 0
  bytes : UInt32 := 0
  front : Bool := false
  active : Bool := false
  failed : Bool := false
  log : List DisplayEvent := []

/-- The back bank after a chunk has been copied into it. -/
def DisplayDriver.store (d : DisplayDriver) (data : Nat -> UInt8) (length : UInt32) :
    Bool -> Nat -> UInt8 :=
  Function.update d.banks (!d.front)
    (copyRange data (d.banks !d.front) 0 d.written.toNat length.toNat)

/-- The BEGIN branch of `execute`. -/
def executeBegin (d : DisplayDriver) (q : DisplayRequest) : DisplayStatus × DisplayDriver :=
  if d.active = true then (.busy, d)
  else if q.cookie ≠ 0 \/ q.offset ≠ 0 \/ q.length ≠ 0 \/ q.width < 16 \/ q.width > 1024 \/
      q.height < 16 \/ q.height > 768 \/ d.cookie = uint64Max \/ d.sequence = uint64Max then
    (.invalid, d)
  else
    (.ok, { d with
      cookie := d.cookie + 1, width := q.width, height := q.height
      bytes := q.width * q.height * 4, written := 0, active := true
      log := d.log ++ [.began q.width q.height] })

/-- The WRITE branch. -/
def executeWrite (d : DisplayDriver) (data : Nat -> UInt8) (q : DisplayRequest) :
    DisplayStatus × DisplayDriver :=
  if q.offset ≠ d.written \/ q.length = 0 \/ q.length.toNat > aosDisplayChunk \/
      q.length > d.bytes - d.written then (.invalid, d)
  else
    (.ok, { d with
      banks := d.store data q.length, written := d.written + q.length
      log := d.log ++ [.wrote q.length] })

/-- The PRESENT branch; `accepts` is what the device's `present` answers. -/
def executePresent (d : DisplayDriver) (accepts : Bool) : DisplayStatus × DisplayDriver :=
  if d.written ≠ d.bytes then (.incomplete, d)
  else if accepts = true then
    (.ok, { d with
      front := !d.front, sequence := d.sequence + 1, active := false
      log := d.log ++ [.presented (!d.front) d.width d.height true] })
  else
    (.failed, { d with
      failed := true, log := d.log ++ [.presented (!d.front) d.width d.height false] })

def execute (d : DisplayDriver) (data : Nat -> UInt8) (accepts : Bool) (q : DisplayRequest) :
    DisplayStatus × DisplayDriver :=
  if d.failed = true then (.failed, d)
  else if q.version ≠ aosDisplayVersion \/ q.reserved ≠ 0 then (.invalid, d)
  else if q.operation = aosDisplayBegin then executeBegin d q
  else if d.active = false \/ q.cookie ≠ d.cookie then (.stale, d)
  else if q.width ≠ 0 \/ q.height ≠ 0 then (.invalid, d)
  else if q.operation = aosDisplayWrite then executeWrite d data q
  else if q.offset ≠ 0 \/ q.length ≠ 0 then (.invalid, d)
  else if q.operation = aosDisplayAbort then (.ok, { d with active := false })
  else if q.operation ≠ aosDisplayPresent then (.invalid, d)
  else executePresent d accepts

def aosDisplaySubmit (r : DisplayRegion) (q : DisplayRequest) : Option DisplayRegion :=
  if r.reqTail ≠ r.reqHead \/ r.reqTail ≠ r.respHead \/ r.reqTail ≠ r.respTail then none
  else some { r with request := q, reqTail := r.reqTail + 1 }

def aosDisplayReceive (r : DisplayRegion) : Option (DisplayResponse × DisplayRegion) :=
  if r.respTail - r.respHead ≠ 1 then none
  else some (r.response, { r with respHead := r.respHead + 1 })

def aosDisplayPump (d : DisplayDriver) (r : DisplayRegion) (accepts : Bool) :
    DisplayDriver × DisplayRegion :=
  if r.reqTail - r.reqHead ≠ 1 \/ r.respTail ≠ r.reqHead \/ r.respHead ≠ r.reqHead then (d, r)
  else
    let (status, d') := execute d r.data accepts r.request
    (d', { r with
      response := { version := aosDisplayVersion, status, id := r.request.id
                    cookie := d'.cookie, sequence := d'.sequence }
      reqHead := r.reqHead + 1, respTail := r.reqHead + 1 })

end AgentOs.Display
