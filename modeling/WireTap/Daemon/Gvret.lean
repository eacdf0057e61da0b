import WireTap.Lib.Broadcast
import WireTap.Daemon.Transmit

/-!
# A GVRET client's connection

`Client::serve`: one task for each client, which waits in `select!` for the client's bytes and, in
`drain`, for what the capture side broadcasts, and writes what either has put into `out`.  A run is any
interleaving of its steps with what is outside: samples sent and overwritten, the channel's end, the
client's bytes, a speed that changes, and the transmit queue, which the other clients share.

`drain` waits in one place, its first `recv`: there `select!` may drop it, and there alone the client's
bytes are read (`selecting`).  Everything after is its own steps (`draining`).

`wslib_can_gvret`, whose encoders and decoder these are, is a parameter.  `received`, `drains` and
`written` are for the specifications: what `recv` and `try_recv` gave the drain under way, each drain
that has returned, and what the socket has taken, by what had filled `out`.  No function reads them.

Left out: the listener, and what is logged.
-/

namespace WireTap.Daemon

open Wire

/-- What `encode_frame_into` is given. -/
structure GvretFrame where
  timestampUs : UInt32
  arbId : UInt32
  extended : Bool
  bus : UInt8
  data : Bytes
  isFd : Bool
  deriving DecidableEq

/-- `wslib_can_gvret`; the encoders as what they append. -/
structure GvretLib (δ : Type) where
  decoder : Decoder δ
  isBinary : δ → Bool
  encodeDevInfo : Bytes
  encodeCanbusParams (count : UInt8) (speeds : List UInt32) : Bytes
  encodeNumBuses (count : UInt8) : Bytes
  encodeTimebase (us : UInt32) : Bytes
  encodeKeepalive : Bytes
  encodeFrame : GvretFrame → Bytes

/-- `READ_BUF`. -/
def readBuf : Nat := 4096

/-- `WRITE_COALESCE`. -/
def writeCoalesce : Nat := 8 * 1024

structure BusInfo where
  count : UInt8
  speeds : List UInt32
  deriving DecidableEq

/-- What `out` was filled by. -/
inductive Filled where
  | replies
  | frames
  deriving DecidableEq

/-- Why `serve` broke off. -/
inductive Ended where
  | hungUp
  | captureGone
  | unwritable (filled : Filled)
  deriving DecidableEq

/-- Where `serve` is. -/
inductive Serving where
  /-- In `select!`, with `drain` called for a client that is `binary` or not. -/
  | selecting (binary : Bool)
  /-- In `drain`'s loop, past its `recv`. -/
  | draining (binary : Bool) (lagged : Nat)
  | writing (filled : Filled)
  | ended (why : Ended)
  deriving DecidableEq

/-- A drain that has returned: what it was given by the channel, and the lag it returned. -/
structure Drained where
  received : List (Received Sample)
  lagged : Nat
  deriving DecidableEq

structure Client (δ : Type) where
  decoder : δ
  frames : Broadcast Sample
  buses : BusInfo
  /-- The queue all clients put their transmits on. -/
  transmits : List Transmit
  /-- What each `elapsed_us` still to come gives. -/
  clock : List UInt32
  out : Bytes
  serving : Serving
  received : List (Received Sample)
  drains : List Drained
  written : List (Filled × Bytes)
  deriving DecidableEq

inductive ClientEvent where
  /-- The capture side's. -/
  | send (s : Sample)
  | overwrite (n : Nat)
  | close
  | setSpeed (interface : Nat) (nominal : UInt32)
  /-- The queue as the others leave it. -/
  | others (transmits : List Transmit)
  /-- `read` is ready first: with bytes, or with the client's end. -/
  | read (bytes : Bytes)
  | hangUp
  /-- `recv` is ready first. -/
  | recv
  /-- The next turn of `drain`'s loop. -/
  | turn
  /-- `write_all`; it may fail with some of the bytes written. -/
  | write
  | writeFails (n : Nat)
  deriving DecidableEq

namespace Client

variable {δ : Type} (lib : GvretLib δ)

/-- `elapsed_us`. -/
def elapsedUs (c : Client δ) : UInt32 := c.clock.headD 0

/-- `encode`. -/
def encode (c : Client δ) (s : CanSample) : Client δ :=
  { c with
    out := c.out ++ lib.encodeFrame ⟨c.elapsedUs, s.arbId, s.extended, s.bus, s.data, s.isFd⟩
    clock := c.clock.tail }

/-- `encode_can`: a remote frame is left out. -/
def encodeCan (c : Client δ) (s : Sample) : Client δ :=
  match s with
  | .can s => match s.rtr with
    | none => c.encode lib s
    | some _ => c
  | _ => c

/-- `Client::reply`. -/
def reply (c : Client δ) (command : ClientCommand) : Client δ :=
  match command with
  | .devInfo => { c with out := c.out ++ lib.encodeDevInfo }
  | .canbusParams =>
    { c with out := c.out ++ lib.encodeCanbusParams c.buses.count c.buses.speeds }
  | .numBuses => { c with out := c.out ++ lib.encodeNumBuses c.buses.count }
  | .timebase =>
    { c with out := c.out ++ lib.encodeTimebase c.elapsedUs, clock := c.clock.tail }
  | .keepalive => { c with out := c.out ++ lib.encodeKeepalive }
  | .transmit bus arbId extended data declared =>
    if declared.toNat > data.length then c
    -- `try_send`.
    else if c.transmits.length < transmitQueue then
      { c with transmits := c.transmits ++ [⟨bus, arbId, extended, data⟩] }
    else c

/-- What `drain` does with what the channel gave it. -/
def take (c : Client δ) (binary : Bool) (lagged : Nat) (r : Received Sample) : Client δ :=
  let c := { c with received := c.received ++ [r] }
  match r with
  | .value s =>
    let c := if binary then c.encodeCan lib s else c
    { c with serving := .draining binary lagged }
  | .lagged n => { c with serving := .draining binary (lagged + n) }
  | _ => c

/-- `drain` returns. -/
def drained (c : Client δ) (lagged : Nat) : Client δ :=
  { c with
    serving := .writing .frames
    received := []
    drains := c.drains ++ [⟨c.received, lagged⟩] }

/-- The top of the loop: `out` is cleared and `select!` entered. -/
def select (c : Client δ) : Client δ :=
  { c with out := [], serving := .selecting (lib.isBinary c.decoder) }

def step (c : Client δ) : ClientEvent → Option (Client δ)
  | .send s => if c.frames.closed then none else some { c with frames := c.frames.send s }
  | .overwrite n => some { c with frames := c.frames.overwrite n }
  | .close => some { c with frames := { c.frames with closed := true } }
  | .setSpeed interface nominal =>
    some { c with buses := { c.buses with speeds := c.buses.speeds.set interface nominal } }
  | .others transmits => some { c with transmits }
  | .read bytes =>
    match c.serving with
    | .selecting _ =>
      -- `drain` is dropped where it waits: nothing has been received or encoded.
      if bytes = [] ∨ readBuf < bytes.length then none
      else
        let (decoder, commands) := lib.decoder.feed c.decoder bytes
        some { commands.foldl (reply lib) { c with decoder } with serving := .writing .replies }
    | _ => none
  | .hangUp =>
    match c.serving with
    | .selecting _ => some { c with serving := .ended .hungUp }
    | _ => none
  | .recv =>
    match c.serving with
    | .selecting binary =>
      match c.frames.tryRecv with
      | (.empty, _) => none
      | (.closed, _) => some { c with serving := .ended .captureGone }
      | (r, frames) => some ({ c with frames }.take lib binary 0 r)
    | _ => none
  | .turn =>
    match c.serving with
    | .draining binary lagged =>
      if c.out.length < writeCoalesce then
        match c.frames.tryRecv with
        | (.empty, _) | (.closed, _) => some (c.drained lagged)
        | (r, frames) => some ({ c with frames }.take lib binary lagged r)
      else some (c.drained lagged)
    | _ => none
  | .write =>
    match c.serving with
    | .writing filled =>
      if c.out = [] then some (c.select lib)
      else some ({ c with written := c.written ++ [(filled, c.out)] }.select lib)
    | _ => none
  | .writeFails n =>
    match c.serving with
    | .writing filled =>
      if c.out = [] then none
      else
        some
          { c with
            written := c.written ++ [(filled, c.out.take n)]
            out := c.out.drop n
            serving := .ended (.unwritable filled) }
    | _ => none

/-- A client that has just been accepted. -/
def accepted (frames : Broadcast Sample) (buses : BusInfo) (transmits : List Transmit)
    (clock : List UInt32) : Client δ where
  decoder := lib.decoder.new
  frames := frames.subscribe
  buses
  transmits
  clock
  out := []
  serving := .selecting (lib.isBinary lib.decoder.new)
  received := []
  drains := []
  written := []

end Client

end WireTap.Daemon
