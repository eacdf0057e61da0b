import Mathlib.Algebra.Ring.Int.Defs
import WireTap.Lib.Broadcast
import WireTap.Lib.Outage
import WireTap.Lib.Run
import WireTap.Wire.Sample

/-!
# Capture from the CAN interfaces

`read_loop`, which reads one interface and publishes its frames, and `responder_loop`, which answers
the Test Pattern frames it hears on one bus.  The loops share a broadcast channel, and a run is any
interleaving of what happens on the interfaces, of the responder's turns, and of values being
overwritten before it gets to them.  `start_capture` spawns the loops that read before it subscribes
the responder, so an interface may have been read by then: subscribing is a step of the run.

The socket is `wslib_can`'s `CanTask`, and what answers a Test Pattern frame is the protocol crate's
`Responder`: the events are arbitrary, and `ResponderLib` is a parameter.  `archived` is what was put on
the queue of the archive; `reads`, `hears` and `heard` are not the program's: what came from the socket
and from the channel, and the frames the responder was given.
-/

namespace WireTap.Daemon

open Wire

/-! ### The status and the journal -/

inductive DeviceState where
  | starting
  | up
  | waiting
  | error
  deriving DecidableEq

structure DeviceStatus where
  state : DeviceState
  frames : Nat
  deriving DecidableEq

namespace DeviceStatus

def default : DeviceStatus := ⟨.starting, 0⟩

def nowUp (s : DeviceStatus) : DeviceStatus := { s with state := .up }

/-- Lost after it had opened, or never yet found. -/
def lost (s : DeviceStatus) (opened : Bool) : DeviceStatus :=
  { s with state := if opened then .error else .waiting }

def read (s : DeviceStatus) (frames : Nat) : DeviceStatus := { s with frames := s.frames + frames }

end DeviceStatus

inductive Level where
  | info
  | warn
  | error
  deriving DecidableEq

structure LogLine where
  level : Level
  text : String
  deriving DecidableEq

/-! ### The socket -/

inductive CanErrorKind where
  | closed
  | read (networkDown : Bool)
  | other
  deriving DecidableEq

/-- `CanError`, and the text it displays. -/
structure CanError where
  kind : CanErrorKind
  text : String
  deriving DecidableEq

/-- A read error keeps the socket. -/
def CanError.keepsSocket (e : CanError) : Bool :=
  match e.kind with
  | .read _ => true
  | .closed | .other => false

/-- `socketcan::loss`: down and gone are different fixes. -/
def loss (e : CanError) : String :=
  match e.kind with
  | .closed => "interface is gone; reopening it by name"
  | .read true => "interface is down; capture resumes once it is up"
  | .read false | .other => e.text

variable {φ ρ : Type}

/-- `CanRead`; `transmitted` is what this socket sent, and the time is in nanoseconds. -/
structure CanRead (φ : Type) where
  frame : φ
  transmitted : Bool
  time : Int
  deriving DecidableEq

inductive CanEvent (φ : Type) where
  | connected
  | read (reads : List (CanRead φ))
  | disconnected (error : CanError) (consecutive : Nat)
  /-- Of gs_usb and PEAK alone. -/
  | bus
  deriving DecidableEq

/-- The frames an event brings. -/
def CanEvent.frames : CanEvent φ → List (CanRead φ)
  | read reads => reads
  | _ => []

/-- `system_time_to_us`: clamped to the epoch and to an `i64`. -/
def systemTimeToUs (ns : Int) : Int := if ns < 0 then 0 else min (ns / 1000) (2 ^ 63 - 1)

variable (can : CanLib φ)

/-- `socketcan::sample`. -/
def sampleOf (read : CanRead φ) (bus : UInt8) (dir : Direction) : CanSample :=
  canSample can read.frame (systemTimeToUs read.time) bus (if read.transmitted then .tx else dir)

/-! ### `read_loop` -/

/-- The loop of one interface. -/
structure Reader (φ : Type) where
  iface : String
  bus : UInt8
  dir : Direction
  hasArchive : Bool
  opened : Bool
  reopening : Bool
  lost : Bool
  rateStale : Bool
  status : DeviceStatus
  /-- How many times the bitrate has been read. -/
  rates : Nat
  archived : List Sample
  journal : List LogLine
  reads : List (CanRead φ)
  deriving DecidableEq

/-- What the first of several failures is logged as. -/
def lossLine (iface : String) (opened : Bool) (e : CanError) : LogLine :=
  if opened then ⟨.error, iface ++ ": " ++ loss e⟩
  else ⟨.warn, "waiting for " ++ iface ++ ": " ++ e.text ++ ". Check `ip link show " ++ iface ++ "`"⟩

/-- A new socket, after a loss. -/
def foundLine (iface : String) (opened : Bool) : LogLine :=
  ⟨.info, iface ++ ": " ++ if opened then "reopened" else "found"⟩

def againLine (iface : String) : LogLine := ⟨.info, iface ++ ": reading again"⟩

namespace Reader

def log (r : Reader φ) (line : LogLine) : Reader φ := { r with journal := r.journal ++ [line] }

/-- `archive.enqueue`, if the interface has an archive. -/
def enqueue (r : Reader φ) (s : Sample) : Reader φ :=
  { r with archived := if r.hasArchive then r.archived ++ [s] else r.archived }

def rereadRate (r : Reader φ) : Reader φ := { r with rates := r.rates + 1 }

/-- A read: to the archive, and to the channel unless this socket sent it. -/
def publish (r : Reader φ) (frames : Broadcast Sample) (read : CanRead φ) :
    Reader φ × Broadcast Sample :=
  let sample := Sample.can (sampleOf can read r.bus r.dir)
  let r := { r with reads := r.reads ++ [read] }
  -- Broadcast, an own transmit would echo to every client, and a responder would hear its own replies.
  if read.transmitted then (r.enqueue sample, frames)
  else (r.enqueue sample, frames.send sample)

def publishAll (r : Reader φ) (frames : Broadcast Sample) (reads : List (CanRead φ)) :
    Reader φ × Broadcast Sample :=
  reads.foldl (fun (r, frames) read => r.publish can frames read) (r, frames)

/-- What a turn of `read_loop` does with its flags, the status and the journal. -/
def notice (r : Reader φ) : CanEvent φ → Reader φ
  | .connected =>
    let r := { r with status := r.status.nowUp }.rereadRate
    let r := { r with rateStale := true }
    let r := if r.reopening then
      { r.log (foundLine r.iface r.opened) with reopening := false, lost := false } else r
    { r with opened := true }
  | .read reads =>
    let r := { r with status := r.status.nowUp.read reads.length }
    let r := if r.lost then { r.log (againLine r.iface) with lost := false } else r
    if r.rateStale then { r.rereadRate with rateStale := false } else r
  | .disconnected error consecutive =>
    let r := if consecutive = 1 then r.log (lossLine r.iface r.opened error) else r
    { r with
      status := r.status.lost r.opened
      reopening := !error.keepsSocket
      lost := true
      rateStale := true }
  | .bus => r

/-- A turn of `read_loop`. -/
def turn (r : Reader φ) (frames : Broadcast Sample) (event : CanEvent φ) :
    Reader φ × Broadcast Sample :=
  (r.notice event).publishAll can frames event.frames

end Reader

/-! ### `responder_loop` -/

/-- A frame to be sent: the crate's `Reply`. -/
structure PatternReply where
  arbId : UInt32
  extended : Bool
  fd : Bool
  data : Bytes
  deriving DecidableEq

/-- What the loop uses of the protocol crate's `testpattern`; `ρ` is `Responder`. -/
structure ResponderLib (ρ : Type) where
  extendedCapability : UInt8
  fdCapability : UInt8
  new (capabilities bus : UInt8) : ρ
  /-- `on_frame`; the time is in microseconds. -/
  onFrame (responder : ρ) (arbId : UInt32) (extended fd : Bool) (data : Bytes) (tsUs : Nat) :
    ρ × List PatternReply
  isTestPatternFrame (arbId : UInt32) (extended : Bool) : Bool

structure Responding (ρ : Type) where
  bus : UInt8
  responder : ρ
  /-- The replies handed to the interface's writer. -/
  replies : List PatternReply
  /-- The channel is closed and the loop has returned. -/
  ended : Bool
  journal : List LogLine
  hears : List (Received Sample)
  heard : List CanSample
  deriving DecidableEq

variable (lib : ResponderLib ρ)

namespace Responding

/-- The loop's start. -/
def start (bus : UInt8) (canFd : Bool) : Responding ρ where
  bus
  responder := lib.new (lib.extendedCapability ||| if canFd then lib.fdCapability else 0) bus
  replies := []
  ended := false
  journal := []
  hears := []
  heard := []

/-- The frame is one to answer. -/
def accepts (s : CanSample) (bus : UInt8) : Bool :=
  s.bus = bus && s.rtr.isNone && lib.isTestPatternFrame s.arbId s.extended

/-- What the loop does with what it receives; `failures` are the sends that fail, by their place. -/
def receive (r : Responding ρ) (failures : List (Nat × String)) (got : Received Sample) :
    Responding ρ :=
  let r := { r with hears := r.hears ++ [got] }
  match got with
  | .value (.can s) =>
    if accepts lib s r.bus then
      let (responder, replies) :=
        lib.onFrame r.responder s.arbId s.extended s.isFd s.data s.tsUs.toNat
      let failed := replies.zipIdx.filterMap fun (_, i) => failures.lookup i
      { r with
        responder
        replies := r.replies ++ replies
        journal := r.journal ++ failed.map fun e =>
          ⟨.warn, "test pattern: reply on bus " ++ toString r.bus.toNat ++ " failed: " ++ e⟩
        heard := r.heard ++ [s] }
    else r
  | .value _ | .empty => r
  | .lagged n =>
    { r with journal := r.journal ++
        [⟨.warn, "test pattern: bus " ++ toString r.bus.toNat ++ " missed " ++ toString n ++
          " frames"⟩] }
  | .closed => { r with ended := true }

end Responding

/-! ### The loops together -/

structure Capture (φ ρ : Type) where
  readers : List (Reader φ)
  /-- The channel, as the responder has it. -/
  frames : Broadcast Sample
  /-- The responder, once it has subscribed. -/
  responding : Option (Responding ρ)
  deriving DecidableEq

inductive CaptureEvent (φ : Type) where
  /-- An interface's task gives its loop an event. -/
  | device (i : Nat) (event : CanEvent φ)
  /-- `start_capture` subscribes the responder of a bus and spawns its loop. -/
  | subscribe (bus : UInt8) (canFd : Bool)
  /-- The oldest values of the channel are overwritten. -/
  | overwrite (n : Nat)
  /-- The responder's receive returns. -/
  | hear (failures : List (Nat × String))
  deriving DecidableEq

namespace Capture

/-- An interface to be captured: its name, its bus, and whether it has an archive. -/
structure Source where
  iface : String
  bus : UInt8
  hasArchive : Bool
  deriving DecidableEq

def Source.reader (dir : Direction) (s : Source) : Reader φ where
  iface := s.iface
  bus := s.bus
  dir
  hasArchive := s.hasArchive
  opened := false
  reopening := false
  lost := false
  rateStale := false
  status := .default
  rates := 0
  archived := []
  journal := []
  reads := []

/-- The loops `start_capture` has spawned to read the interfaces. -/
def start (sources : List Source) (dir : Direction) : Capture φ ρ where
  readers := sources.map (·.reader dir)
  frames := .new
  responding := none

def step (s : Capture φ ρ) : CaptureEvent φ → Option (Capture φ ρ)
  | .device i event => do
    let r ← s.readers[i]?
    let (r, frames) := r.turn can s.frames event
    return { s with readers := s.readers.set i r, frames }
  | .subscribe bus canFd =>
    if s.responding.isNone then
      some { s with frames := s.frames.subscribe, responding := some (.start lib bus canFd) }
    else none
  | .overwrite n => some { s with frames := s.frames.overwrite n }
  | .hear failures => do
    let r ← s.responding
    let (got, frames) := s.frames.tryRecv
    if r.ended || got = .empty then none
    else some { s with frames, responding := some (r.receive lib failures got) }

end Capture

end WireTap.Daemon
