import WireTap.Daemon.CacheFiles
import WireTap.Forward.Sink

/-!
# The pipelines of a run

One for each database: `forwardings`, the settings' `forwards` with what a pipeline's `HELLO` names,
the devices with a stream landing in the database and whether raw serial can reach it.
`Archives.startAll` starts them and `handle` finds one by its database.

What a stream is: the frames of a CAN device, or the messages or the raw chunks of a serial one
(`Device.streams`).  `start_devices` gives each device the handles of the databases its streams land
in, and the ingest listener has the default's.

How a cache is opened is a parameter, as is what a sink finds outside (`Outside`).
-/

namespace WireTap.Daemon

/-! ### Streams -/

/-- What a device captures. -/
inductive Stream where
  | can
  | framed
  | raw
  deriving DecidableEq

/-- Each stream captured, and the database it lands in. -/
def Device.streams (d : Device) : List (Stream × String) :=
  match d.kind with
  | .can _ => [(.can, d.database)]
  | .serial s => (s.framing.map fun _ => (.framed, d.database)).toList ++
      (s.rawDatabase.map (.raw, ·)).toList

namespace Settings

/-- `devices_in`: the devices with a stream landing in `database`, as a `HELLO` names them. -/
def devicesIn (s : Settings) (database : String) : List WireTap.Device :=
  (s.devices.filter (·.databases.contains database)).map fun d => ⟨d.bus, d.interface⟩

/-- `carries_raw_serial`: whether a device's raw stream lands in `database`. -/
def carriesRawSerial (s : Settings) (database : String) : Bool :=
  s.devices.any fun d => match d.kind with
    | .can _ => false
    | .serial t => t.rawDatabase = some database

end Settings

/-- A `Forward` as `forwards` has it. -/
structure Forwarding extends Forward where
  devices : List WireTap.Device
  rawSerial : Bool

namespace Settings

/-- `Settings::forwards`, all of it. -/
def forwardings (lib : SettingsLib) (s : Settings) : List Forwarding :=
  match s.forward with
  | none => []
  | some f => s.databases.map fun database =>
    { forDatabase lib f database with
      devices := s.devicesIn database
      rawSerial := s.carriesRawSerial database }

end Settings

/-! ### Archives -/

section Archives

variable {α C ε : Type}

/-- What a sink finds outside: the shared catalogues, what other sessions do to them, what each dial
gives and how each quarantine ends, and the table in the dead-letter file. -/
structure Outside (α : Type) where
  catalogues : Catalogues
  turns : List (List Elsewhere)
  dials : List Dial
  quarantines : List Quarantine
  dead : Table α

/-- `ForwardSink::new`. -/
def newSink (f : Forwarding) (outside : Outside α) : ForwardSink α where
  apiKey := f.apiKey
  database := f.database
  daemonId := f.daemonId
  devices := f.devices
  rawSerial := f.rawSerial
  catalogues := outside.catalogues
  seen := outside.catalogues.changes
  deadLetter := deadLetterPath f.batching.cachePath
  dead := outside.dead
  dials := outside.dials
  quarantines := outside.quarantines
  turns := outside.turns

/-- A pipeline that is running. -/
structure Running (α C : Type) where
  sink : ForwardSink α
  cache : C

/-- `archive::start`; opening a cache, and adopting what an older install left, may fail. -/
def start (openCache : Forwarding → Except ε C) (outside : Forwarding → Outside α)
    (f : Forwarding) : Except ε (Running α C) :=
  (openCache f).map fun cache => ⟨newSink f (outside f), cache⟩

/-- The pipelines, each under its database. -/
abbrev Archives (α C : Type) := List (String × Running α C)

namespace Archives

/-- `Archives::start_all`; an error names the cache that could not be opened. -/
def startAll (openCache : Forwarding → Except ε C) (outside : Forwarding → Outside α) :
    List Forwarding → Except (String × ε) (Archives α C)
  | [] => .ok []
  | f :: fs => do
    let r ← (start openCache outside f).mapError (f.batching.cachePath, ·)
    let rest ← startAll openCache outside fs
    pure ((f.database, r) :: rest)

/-- `Archives::handle`. -/
def handle (archives : Archives α C) (database : String) : Option (Running α C) :=
  (archives.find? (·.1 = database)).map (·.2)

/-- The handle `start_devices` gives the samples of a device's stream to. -/
def ofStream (archives : Archives α C) (d : Device) : Stream → Option (Running α C)
  | .can | .framed => archives.handle d.database
  | .raw => match d.kind with
    | .can _ => none
    | .serial s => s.rawDatabase.bind archives.handle

end Archives

end Archives

end WireTap.Daemon
