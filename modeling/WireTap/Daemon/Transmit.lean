import WireTap.Lib.Run
import WireTap.Wire.Sample
import WireTap.Daemon.Settings

/-!
# Transmits from GVRET clients

What `start_capture` starts on the CAN devices: a task for each client, which reads commands off the
client's bytes and puts its transmits on a queue; the loop that takes them off again and hands each to
the writer of the device on its bus; and the Test Pattern responders.  A run is any interleaving of
connects, reads, disconnects and turns of the loop.

How bytes become commands is `wslib_can_gvret`'s `Decoder`, and a frame is made by `wslib_can`: both
are parameters.  `heard` and `sent` are not the program's: the commands of all clients, in the order in
which they were taken, and the frames handed to writers.

Left out: the frames sent to clients, and what becomes of a frame after its writer has it.
-/

namespace WireTap.Daemon

/-- `ClientCommand`. -/
inductive ClientCommand where
  | devInfo
  | canbusParams
  | numBuses
  | timebase
  | keepalive
  | transmit (bus : UInt8) (arbId : UInt32) (extended : Bool) (data : List UInt8) (declared : UInt8)
  deriving DecidableEq

/-- `Decoder`: a state that bytes are fed to. -/
structure Decoder (δ : Type) where
  new : δ
  feed (decoder : δ) (bytes : List UInt8) : δ × List ClientCommand

/-- A frame a client asked for, by the bus it named. -/
structure Transmit where
  bus : SourceId
  arbId : UInt32
  extended : Bool
  data : List UInt8
  deriving DecidableEq

/-- What a client is answered. -/
inductive Reply where
  | devInfo
  | canbusParams (count : UInt8)
  | numBuses (count : UInt8)
  | timebase
  | keepalive
  deriving DecidableEq

/-- A frame in a writer's hands. -/
structure Handed (φ : Type) where
  device : Device
  asked : Transmit
  frame : φ
  deriving DecidableEq

/-- The bridge: the devices opened, the clients, and the queue between them. -/
structure Bridge (φ δ : Type) where
  opened : List Device
  busOffset : UInt8
  /-- The clients' decoders; none once one is gone. -/
  clients : List (Option δ)
  queue : List Transmit
  /-- The devices with a responder. -/
  responders : List Device
  heard : List (Nat × ClientCommand)
  sent : List (Handed φ)
  deriving DecidableEq

inductive BridgeEvent where
  | connect
  | disconnect (client : Nat)
  /-- A client's bytes are read, as many as came. -/
  | read (client : Nat) (bytes : List UInt8)
  /-- `transmit_loop` takes the next transmit. -/
  | transmit
  deriving DecidableEq

/-- `TRANSMIT_QUEUE`. -/
def transmitQueue : Nat := 64

namespace Bridge

variable {φ δ : Type}

/-- `try_send`. -/
def trySend (s : Bridge φ δ) (t : Transmit) : Bridge φ δ :=
  if s.queue.length < transmitQueue then { s with queue := s.queue ++ [t] } else s

/-- `Client::reply`: an answer, or a transmit queued.  A transmit that declares more than it carries
is refused. -/
def reply (s : Bridge φ δ) (client : Nat) (command : ClientCommand) : Bridge φ δ × Option Reply :=
  let s := { s with heard := s.heard ++ [(client, command)] }
  let count := busCount s.opened.length s.busOffset
  match command with
  | .devInfo => (s, some .devInfo)
  | .canbusParams => (s, some (.canbusParams count))
  | .numBuses => (s, some (.numBuses count))
  | .timebase => (s, some .timebase)
  | .keepalive => (s, some .keepalive)
  | .transmit bus arbId extended data declared =>
    if declared.toNat > data.length then (s, none)
    else (s.trySend ⟨bus, arbId, extended, data⟩, none)

/-- The commands of one read, in turn. -/
def replies (s : Bridge φ δ) (client : Nat) (commands : List ClientCommand) : Bridge φ δ :=
  commands.foldl (fun s command => (s.reply client command).1) s

/-- One turn of `transmit_loop`, on a transmit: a bus that is not there is passed over, and a passive
device refuses. -/
def transmit (can : Wire.CanLib φ) (s : Bridge φ δ) (t : Transmit) : Bridge φ δ :=
  match (indexForBus t.bus s.busOffset s.opened.length).bind (s.opened[·]?) with
  | none => s
  | some device =>
    if device.mode = .passive then s
    else
      let frame := can.data 0 t.arbId t.extended false false t.data
      { s with sent := s.sent ++ [⟨device, t, frame⟩] }

def step (can : Wire.CanLib φ) (decoder : Decoder δ) (s : Bridge φ δ) :
    BridgeEvent → Option (Bridge φ δ)
  | .connect => some { s with clients := s.clients ++ [some decoder.new] }
  | .disconnect client => some { s with clients := s.clients.set client none }
  | .read client bytes => do
    let d ← (s.clients[client]?).join
    let (d, commands) := decoder.feed d bytes
    some ({ s with clients := s.clients.set client (some d) }.replies client commands)
  | .transmit =>
    match s.queue with
    | [] => none
    | t :: queue => some ({ s with queue }.transmit can t)

/-- `start_capture`: the CAN devices opened, and a responder on each that is armed. -/
def startCapture (s : Settings) : Bridge φ δ where
  opened := s.canDevices
  busOffset := s.busOffset
  clients := []
  queue := []
  responders := match s.testPattern with
    | some tp => (s.armedIndices tp).filterMap (s.canDevices[·]?)
    | none => []
  heard := []
  sent := []

end Bridge

end WireTap.Daemon
