import WireTap.Daemon.Capture
import WireTap.Forward.Catalogues

/-!
# The serial tap

`serial_tap::drain`: a serial line's reads are published as they are, framed as Modbus messages, or
both, and the framer follows the catalogue that the line's session assigns.  The rules reach it through
a watch channel, between any two of its events.

The framer and the chunker are libraries': `RtuLib` and `RawLib` are what the tap uses of them.
-/

namespace WireTap

namespace Rules

def catalogue : Rules → Option LineCatalogue
  | gateway _ catalogue | etc catalogue => some catalogue
  | none => Option.none

/-- `gateway ce013625`, the `/etc` path, or `none`. -/
def source : Rules → String
  | gateway sha _ => "gateway " ++ String.ofList (sha.toList.take 8)
  | etc catalogue => catalogue.path
  | none => "none"

end Rules

namespace Daemon

open Wire

/-! ### The libraries -/

/-- `TappedMessage`; the time is in nanoseconds. -/
structure TappedMessage where
  time : Int
  unit : UInt8
  func : UInt8
  crcValid : Bool
  raw : Bytes
  deriving DecidableEq

/-- `wslib_modbus::RtuTap`, for one line: the options are those a catalogue gives. -/
structure RtuLib (τ : Type) where
  new (catalogue : Option WireTap.LineCatalogue) : τ
  /-- `set_options`. -/
  setOptions (tap : τ) (catalogue : Option WireTap.LineCatalogue) : τ
  push (tap : τ) (bytes : Bytes) (readAt : Int) : τ × List TappedMessage
  reset (tap : τ) : τ

/-- `RawChunk`; the time is in nanoseconds. -/
structure RawChunk where
  time : Int
  seq : UInt32
  data : Bytes
  deriving DecidableEq

/-- `ingest::RawTap`, for one line. -/
structure RawLib (σ : Type) where
  new : σ
  push (tap : σ) (bytes : Bytes) (readAt : Int) : σ × List RawChunk
  reset (tap : σ) : σ

variable {τ σ : Type} (rtu : RtuLib τ) (rawLib : RawLib σ)

/-- `RtuTap::push`'s samples. -/
def modbusSample (bus : UInt8) (m : TappedMessage) : ModbusSample where
  tsUs := systemTimeToUs m.time
  bus
  unit := m.unit
  func := m.func
  crcValid := m.crcValid
  raw := m.raw

/-- `RawTap::push`'s samples. -/
def serialSample (bus : UInt8) (c : RawChunk) : SerialSample where
  tsUs := systemTimeToUs c.time
  bus
  seq := c.seq
  data := c.data

/-! ### The rules a line follows -/

/-- A watch channel's receiver: the latest value, whether it has been looked at since it was sent,
and whether the sender is gone. -/
structure Watch (α : Type) where
  latest : α
  changed : Bool
  closed : Bool
  deriving DecidableEq

namespace Watch

variable {α : Type}

def send (w : Watch α) (a : α) : Watch α :=
  if w.closed then w else { w with latest := a, changed := true }

/-- `has_changed().unwrap_or(false)`. -/
def hasChanged (w : Watch α) : Bool := !w.closed && w.changed

/-- `borrow_and_update`. -/
def seen (w : Watch α) : Watch α := { w with changed := false }

end Watch

/-- A line of the journal. -/
inductive SerialLine where
  | outage (r : Report String)
  | catalogue (old new : String)
  deriving DecidableEq

/-- The line as it is logged. -/
def SerialLine.log (interface : String) : SerialLine → LogLine
  | outage (.lost true e) => ⟨.error, interface ++ ": " ++ e ++ "; reopening"⟩
  | outage (.lost false e) => ⟨.warn, "waiting for " ++ interface ++ ": " ++ e⟩
  | outage (.connected before) => foundLine interface before
  | outage .readAgain => againLine interface
  | catalogue old new => ⟨.info, interface ++ ": catalogue " ++ old ++ " → " ++ new⟩

/-- A line's framer, and the catalogue rules it follows. -/
structure Framed (τ : Type) where
  tap : τ
  rules : Watch Rules
  current : Rules
  deriving DecidableEq

namespace Framed

/-- `Framed::new`. -/
def new (rules : Watch Rules) : Framed τ where
  tap := rtu.new rules.latest.catalogue
  rules := rules.seen
  current := rules.latest

/-- Rebuilt with the line's latest rules, if they changed. -/
def follow (f : Framed τ) : Framed τ × List SerialLine :=
  if f.rules.hasChanged then
    let next := f.rules.latest
    ({ tap := rtu.setOptions f.tap next.catalogue, rules := f.rules.seen, current := next },
      [.catalogue f.current.source next.source])
  else (f, [])

end Framed

/-! ### `drain` -/

inductive SerialEvent where
  | connected
  | read (bytes : Bytes) (time : Int)
  | disconnected (error : String) (consecutive : Nat)
  deriving DecidableEq

/-- What happens to a tapped line: an event of its task, or its rules change or are given up. -/
inductive LineEvent where
  | serial (event : SerialEvent)
  | rules (r : Rules)
  | unwatched
  deriving DecidableEq

structure Drain (τ σ : Type) where
  bus : UInt8
  framed : Option (Framed τ)
  raw : Option σ
  opened : Bool
  lost : Bool
  status : DeviceStatus
  published : List Sample
  journal : List SerialLine
  deriving DecidableEq

namespace Drain

/-- `drain`'s start. -/
def start (bus : UInt8) (framed : Option (Watch Rules)) (raw : Bool) : Drain τ σ where
  bus
  framed := framed.map (.new rtu)
  raw := if raw then some rawLib.new else none
  opened := false
  lost := false
  status := .default
  published := []
  journal := []

def log (d : Drain τ σ) (lines : List SerialLine) : Drain τ σ :=
  { d with journal := d.journal ++ lines }

/-- Every sample is counted. -/
def publish (d : Drain τ σ) (samples : List Sample) : Drain τ σ :=
  { d with
    status := d.status.read samples.length
    published := d.published ++ samples }

/-- A read, unframed. -/
def publishRaw (d : Drain τ σ) (bytes : Bytes) (time : Int) : Drain τ σ :=
  match d.raw with
  | none => d
  | some tap =>
    let (tap, chunks) := rawLib.push tap bytes time
    { d with raw := some tap }.publish (chunks.map fun c => .serial (serialSample d.bus c))

/-- A read, framed with the latest rules. -/
def publishFramed (d : Drain τ σ) (bytes : Bytes) (time : Int) : Drain τ σ :=
  match d.framed with
  | none => d
  | some f =>
    let (f, lines) := f.follow rtu
    let (tap, messages) := rtu.push f.tap bytes time
    { d.log lines with framed := some { f with tap } }.publish
      (messages.map fun m => .modbus (modbusSample d.bus m))

def turn (d : Drain τ σ) : SerialEvent → Drain τ σ
  | .connected =>
    let d := { d with status := d.status.nowUp, raw := d.raw.map rawLib.reset }
    let d := if d.lost then { d.log [.outage (.connected d.opened)] with lost := false } else d
    { d with opened := true }
  | .read bytes time =>
    ({ d with status := d.status.nowUp }.publishRaw rawLib bytes time).publishFramed rtu bytes time
  | .disconnected error consecutive =>
    let d := if consecutive = 1 then d.log [.outage (.lost d.opened error)] else d
    { d with
      status := d.status.lost d.opened
      framed := d.framed.map fun f => { f with tap := rtu.reset f.tap }
      lost := true }

def step (d : Drain τ σ) : LineEvent → Drain τ σ
  | .serial event => d.turn rtu rawLib event
  | .rules r => { d with framed := d.framed.map fun f => { f with rules := f.rules.send r } }
  | .unwatched =>
    { d with framed := d.framed.map fun f => { f with rules := { f.rules with closed := true } } }

/-- The line after these events. -/
def run (d : Drain τ σ) (es : List LineEvent) : Drain τ σ := es.foldl (step rtu rawLib) d

end Drain

end Daemon

end WireTap
