import WireTap.Daemon.Config

/-!
# Resolving the settings

`resolve`: the UI's values under the flags, the file over both, the environment for secrets the file
and the flags leave out, and last the devices, whose defaults are what every layer settled on.  One
layer names the whole device set: the file, else `-i`, else the UI, else `can0`.

CAN devices are numbered first, in order, then the serial ones (`number`), so that the bus a GVRET
client names is an index into the CAN devices once the offset is taken off (`indexForBus`).

Left out: the texts that settings are shown as.
-/

namespace WireTap.Daemon

/-! ### Buses -/

/-- A GVRET bus number. -/
abbrev SourceId := UInt8

/-- `bus_for_index`: the bus of the `index`th interface. -/
def busForIndex (index : Nat) (busOffset : UInt8) : Option SourceId :=
  if index < 256 ∧ index + busOffset.toNat < 256 then some (UInt8.ofNat (index + busOffset.toNat))
  else none

/-- `bus_count`: how many buses to advertise, saturating. -/
def busCount (ifaceCount : Nat) (busOffset : UInt8) : UInt8 :=
  (busForIndex ifaceCount busOffset).getD 255

/-- `index_for_bus`: the interface a client means by a bus. -/
def indexForBus (bus : SourceId) (busOffset : UInt8) (ifaceCount : Nat) : Option Nat :=
  if busOffset ≤ bus ∧ bus.toNat - busOffset.toNat < ifaceCount then
    some (bus.toNat - busOffset.toNat)
  else none

/-! ### Devices -/

inductive Mode where
  | active
  | passive
  deriving DecidableEq

inductive Framing where
  | modbusRtu
  deriving DecidableEq

structure SerialSettings where
  line : LineSettings
  /-- None when only raw chunks are captured. -/
  framing : Option Framing
  catalogue : Option LineCatalogue
  /-- None when only framed messages are captured. -/
  rawDatabase : Option String
  deriving DecidableEq

inductive DeviceKind where
  | can (fd : Bool)
  | serial (settings : SerialSettings)
  deriving DecidableEq

structure Device where
  interface : String
  mode : Mode
  database : String
  bus : SourceId
  kind : DeviceKind
  deriving DecidableEq

/-- Why the server declined to start. -/
inductive SettingsError where
  | retiredPostgresSink
  | badDirection (text : String)
  | badLogLevel (text : String)
  /-- The config file could not be read. -/
  | io (path err : String)
  /-- Or not parsed. -/
  | parse (what : String)
  | device (index : Nat) (what : String)
  | badDatabase (name : String)
  | badDaemonId (id : String)
  | badAllowedClient (why : String)
  deriving DecidableEq

def supportedBauds : List Nat :=
  [1200, 2400, 4800, 9600, 19200, 38400, 57600, 115200, 230400, 460800, 921600]

/-- Where the packaged unit leaves the daemon nothing to read. -/
def hiddenFromTheUnit : List String := ["/home", "/root", "/run/user", "/tmp", "/var/tmp"]

/-- `LineCatalogue::load`. -/
def LineCatalogue.load (lib : SettingsLib) (path : String) : Except String LineCatalogue :=
  let components (p : String) := (splitAt '/' p.toList).filter (· ≠ [])
  if path.toList.head? ≠ some '/' then
    .error s!"catalog must be an absolute path, got {lib.debug path}"
  else if (splitAt '/' path.toList).any (fun c => c = ['.'] || c = ['.', '.']) then
    .error s!"catalog {path} must not contain . or .. components"
  else match hiddenFromTheUnit.find? fun dir => (components dir).isPrefixOf (components path) with
    | some dir => .error <|
      s!"catalog {path} is under {dir}, which the packaged unit hides from the " ++
        "daemon; put it in /etc/wiretap-server/"
    | none => lib.readCatalogue path

namespace Device

/-- A CAN device as the sugar declares it. -/
def can (interface : String) (fd : Bool) (database : String) : Device :=
  ⟨interface, .active, database, 0, .can fd⟩

def isCan (d : Device) : Bool :=
  match d.kind with
  | .can _ => true
  | .serial _ => false

/-- A key that must be there, and not be empty. -/
def need (value : Option String) (key : String) : Except String String :=
  match value with
  | some v => if v.isEmpty then .error s!"{key} is required" else .ok v
  | none => .error s!"{key} is required"

/-- A key of the other kind. -/
def onlyFor (set : Bool) (key kind : String) : Except String Unit :=
  if set then .error s!"{key} applies to a {kind} device" else .ok ()

/-- An early return. -/
def refuseIf (p : Bool) (why : String) : Except String Unit := if p then .error why else .ok ()

def parseMode (lib : SettingsLib) (mode : Option String) : Except String (Option Mode) :=
  match mode with
  | none => .ok none
  | some mode =>
    if mode = "active" then .ok (some .active)
    else if mode = "passive" then .ok (some .passive)
    else .error s!"mode must be active or passive, got {lib.debug mode}"

def canKind (t : DeviceSection) (canFd : Bool) (mode : Option Mode) :
    Except String (DeviceKind × Mode) := do
  onlyFor t.baud.isSome "baud" "serial"
  onlyFor t.dataBits.isSome "data_bits" "serial"
  onlyFor t.parity.isSome "parity" "serial"
  onlyFor t.stopBits.isSome "stop_bits" "serial"
  onlyFor t.framing.isSome "framing" "serial"
  onlyFor t.catalog.isSome "catalog" "modbus-rtu"
  onlyFor t.capture.isSome "capture" "serial"
  onlyFor t.rawDatabase.isSome "raw_database" "serial"
  pure (.can (t.fd.getD canFd), mode.getD .active)

/-- Whether framed messages are captured, and raw chunks. -/
def parseCapture (lib : SettingsLib) (capture : Option String) : Except String (Bool × Bool) :=
  match capture with
  | none => .ok (true, false)
  | some capture =>
    if capture = "framed" then .ok (true, false)
    else if capture = "raw" then .ok (false, true)
    else if capture = "both" then .ok (true, true)
    else .error s!"capture must be \"framed\", \"raw\" or \"both\", got {lib.debug capture}"

def parseFraming (lib : SettingsLib) (framed : Bool) (framing : Option String) :
    Except String (Option Framing) :=
  if framed then do
    let framing ← need framing "framing"
    if framing = "modbus-rtu" then pure (some .modbusRtu)
    else .error s!"framing must be \"modbus-rtu\", got {lib.debug framing}"
  else pure none

def serialKind (lib : SettingsLib) (t : DeviceSection) (database : String) (mode : Option Mode) :
    Except String (DeviceKind × Mode) := do
  onlyFor t.fd.isSome "fd" "CAN"
  refuseIf (mode = some .active)
    "an active serial device (a Modbus master) is not built; use passive"
  let baud ← t.baud.elim (.error "baud is required") .ok
  refuseIf (!supportedBauds.contains baud.toNat) s!"baud {baud} is not one of {supportedBauds}"
  let parity ← lib.parseParity (t.parity.getD "none")
  let line : LineSettings := ⟨baud, t.dataBits.getD 8, parity, t.stopBits.getD 1⟩
  lib.validateLine line
  let (framed, raw) ← parseCapture lib t.capture
  refuseIf (!raw && t.rawDatabase.isSome)
    "raw_database applies to capture = \"raw\" or \"both\""
  refuseIf (!framed && t.catalog.isSome)
    "catalog applies to framed capture, not capture = \"raw\""
  let framing ← parseFraming lib framed t.framing
  let catalogue ← t.catalog.elim (.ok none) fun path => (LineCatalogue.load lib path).map some
  let rawDatabase := if raw then some (t.rawDatabase.getD database) else none
  pure (.serial ⟨line, framing, catalogue, rawDatabase⟩, .passive)

/-- What a table's kind makes of it. -/
def tableKind (lib : SettingsLib) (t : DeviceSection) (canFd : Bool) (database : String)
    (mode : Option Mode) (kind : String) : Except String (DeviceKind × Mode) :=
  if kind = "can" then canKind t canFd mode
  else if kind = "serial" then serialKind lib t database mode
  else .error s!"kind must be \"can\" or \"serial\", got {lib.debug kind}"

/-- `Device::from_table`. -/
def fromTable (lib : SettingsLib) (t : DeviceSection) (canFd : Bool) (database : String) :
    Except String Device := do
  let interface ← need t.interface "interface"
  let database := t.database.getD database
  let mode ← parseMode lib t.mode
  let kind ← need t.kind "kind"
  let (kind, mode) ← tableKind lib t canFd database mode kind
  pure ⟨interface, mode, database, 0, kind⟩

/-- The databases this device's streams land in. -/
def databases (d : Device) : List String :=
  match d.kind with
  | .can _ => [d.database]
  | .serial s => (s.framing.map fun _ => d.database).toList ++ s.rawDatabase.toList

end Device

/-! ### Sections -/

structure Batching where
  size : UInt64
  flushInterval : F64
  queueSize : UInt64
  cachePath : String
  cacheMaxMb : UInt64
  queueFlushPct : UInt8
  legacyCachePath : Option String
  deriving DecidableEq

structure Forward where
  host : String
  port : UInt16
  apiKey : String
  database : String
  batching : Batching
  daemonId : String
  deriving DecidableEq

structure Ingest where
  host : String
  port : UInt16
  token : String
  keepaliveSecs : F64
  maxBatchFrames : UInt64
  deriving DecidableEq

/-- The interfaces that answer; none named is all of them. -/
structure TestPattern where
  ifaces : List String
  deriving DecidableEq

/-- Which layer a setting came from. -/
inductive Source where
  | default
  | ui
  | file
  | env (name : String)
  | flag (field : String)
  deriving DecidableEq

structure Settings where
  devices : List Device
  host : String
  port : UInt16
  allowedClients : List Cidr
  allowedClientsSource : Source
  busOffset : UInt8
  echoConsole : Bool
  colour : Bool
  defaultDir : Wire.Direction
  canFd : Bool
  logLevel : LogLevel
  statsInterval : F64
  ingest : Option Ingest
  forward : Option Forward
  testPattern : Option TestPattern
  deriving DecidableEq

inductive Warning where
  | retiredFlags (flags : List String)
  | unknownKey (key : String)
  | noCaptureSource
  | noForwardSink
  | forwardKeyMissing
  | uiIgnored (why : String)
  | testPatternDisarmedByFile
  deriving DecidableEq

structure Resolved where
  settings : Settings
  warnings : List Warning
  deriving DecidableEq

def legacyCacheFile : String := ".wiretap-server-cache.db"

def stagedCacheFile : String := "adopt.db"

/-- `cache_path`: what is configured, else `$PG_CACHE_PATH`, else in the state directory or at
home. -/
def cachePath (lib : SettingsLib) (configured : Option String) (env : Env) : String :=
  match configured.or env.cachePath with
  | some p => p
  | none => match env.stateDir, env.home with
    | some state, _ => lib.join state "cache.db"
    | none, some home => lib.join home legacyCacheFile
    | none, none => legacyCacheFile

/-- `legacy_cache_path`. -/
def legacyCachePath (lib : SettingsLib) (inUse : String) (env : Env) : Option String :=
  ((env.stateDir.map (lib.join · stagedCacheFile)).toList ++
    (env.home.map (lib.join · legacyCacheFile)).toList).find? fun p =>
      p ≠ inUse && lib.fileExists p

def Batching.fromCli (lib : SettingsLib) (cli : Cli) (env : Env) : Batching where
  size := cli.pgBatchSize
  flushInterval := cli.pgFlushInterval
  queueSize := cli.pgQueueSize
  cachePath := WireTap.Daemon.cachePath lib cli.pgCachePath env
  cacheMaxMb := cli.pgCacheMaxMb
  queueFlushPct := cli.pgQueueFlushPct
  legacyCachePath := none

def Forward.fromCli (lib : SettingsLib) (cli : Cli) (env : Env) : Forward where
  host := cli.forwardHost
  port := cli.forwardPort
  apiKey := cli.forwardApiKey.getD ""
  database := cli.forwardDatabase
  batching := .fromCli lib cli env
  daemonId := (env.hostname.map shortName).getD ""

def Ingest.fromCli (cli : Cli) : Ingest where
  host := cli.ingestHost
  port := cli.ingestPort
  token := cli.ingestToken.getD ""
  keepaliveSecs := cli.ingestKeepaliveSecs
  maxBatchFrames := cli.ingestMaxBatchFrames

def TestPattern.fromCli (cli : Cli) : TestPattern := ⟨parseIfaces cli.testPatternIfaces⟩

def parseDirection (text : String) : Except SettingsError Wire.Direction :=
  match Wire.Direction.fromStr text with
  | some dir => .ok dir
  | none => .error (.badDirection text)

def parseLogLevel (text : String) : Except SettingsError LogLevel :=
  match LogLevel.parse text with
  | some level => .ok level
  | none => .error (.badLogLevel text)

/-- A direction written over another. -/
def overDirection (now : Wire.Direction) (text : Option String) :
    Except SettingsError Wire.Direction :=
  text.elim (.ok now) parseDirection

/-- A level written over another. -/
def overLogLevel (now : LogLevel) (text : Option String) : Except SettingsError LogLevel :=
  text.elim (.ok now) parseLogLevel

/-- `valid_database`: empty is the key's pinned one. -/
def validDatabase (lib : SettingsLib) (name : String) : Bool :=
  name.isEmpty || lib.validDatabaseName name

/-- `allowed_clients`: from the file or a flag only. -/
def allowedClientsOf (lib : SettingsLib) (cli : Cli) (file : Option FileConfig) :
    Except SettingsError (List Cidr × Source) :=
  let parsed (given : List String) (source : Source) : Except SettingsError (List Cidr × Source) :=
    match given.mapM (Cidr.parse lib) with
    | .ok networks => .ok (networks, source)
    | .error why => .error (.badAllowedClient why)
  match file.bind (·.server.allowedClients), cli.allowedClients with
  | some list, _ => parsed list .file
  | none, some flag => parsed (parseIfaces flag) (.flag "allowed_clients")
  | none, none => .ok (Cidr.loopback, .default)

/-! ### The file over the flags -/

/-- `enable = false` turns off what the UI turned on, never a flag. -/
def applyIngest (cli : Cli) (f : IngestSection) (ingest : Option Ingest) : Option Ingest :=
  let ingest := if f.enable = some false && !cli.isGiven "ingest_enable" then none else ingest
  if f.enable = some true || ingest.isSome then
    let i := ingest.getD (.fromCli cli)
    some
      { host := f.host.getD i.host
        port := f.port.getD i.port
        token := f.token.getD i.token
        keepaliveSecs := f.keepaliveSecs.getD i.keepaliveSecs
        maxBatchFrames := f.maxBatchFrames.getD i.maxBatchFrames }
  else none

/-- `enable = false` disarms, flag or not. -/
def applyTestPattern (cli : Cli) (f : TestPatternSection) (tp : Option TestPattern) :
    Option TestPattern :=
  if f.enable = some false then none
  else if f.enable = some true || tp.isSome then
    let tp := tp.getD (.fromCli cli)
    some ⟨(f.ifaces.map parseIfaces).getD tp.ifaces⟩
  else none

/-- An empty `cache_path` in the file is the default again. -/
def applyForward (lib : SettingsLib) (cli : Cli) (env : Env) (f : ForwardSection)
    (forward : Option Forward) : Option Forward :=
  let forward := if f.enable = some false && !cli.isGiven "forward_enable" then none else forward
  if f.enable = some true || forward.isSome then
    let fwd := forward.getD (.fromCli lib cli env)
    let b := fwd.batching
    some
      { host := f.host.getD fwd.host
        port := f.port.getD fwd.port
        apiKey := f.apiKey.getD fwd.apiKey
        database := f.database.getD fwd.database
        daemonId := f.daemonId.getD fwd.daemonId
        batching :=
          { size := f.batchSize.getD b.size
            flushInterval := f.flushInterval.getD b.flushInterval
            queueSize := f.queueSize.getD b.queueSize
            cacheMaxMb := f.cacheMaxMb.getD b.cacheMaxMb
            queueFlushPct := f.queueFlushPct.getD b.queueFlushPct
            cachePath := match f.cachePath with
              | some p => cachePath lib (if p.isEmpty then none else some p) env
              | none => b.cachePath
            legacyCachePath := b.legacyCachePath } }
  else none

namespace Settings

/-- `Settings::apply_file`. -/
def applyFile (lib : SettingsLib) (cli : Cli) (env : Env) (f : FileConfig) (s : Settings) :
    Except SettingsError Settings := do
  let defaultDir ← overDirection s.defaultDir f.server.defaultDir
  let logLevel ← overLogLevel s.logLevel f.logging.level
  pure
    { s with
      host := f.server.host.getD s.host
      port := f.server.port.getD s.port
      busOffset := f.server.busOffset.getD s.busOffset
      echoConsole := f.server.echoConsole.getD s.echoConsole
      colour := f.server.colour.getD s.colour
      canFd := f.server.canFd.getD s.canFd
      defaultDir
      logLevel
      statsInterval := f.logging.statsInterval.getD s.statsInterval
      ingest := applyIngest cli f.ingest s.ingest
      testPattern := applyTestPattern cli f.testPattern s.testPattern
      forward := applyForward lib cli env f.forward s.forward }

/-! ### Devices -/

/-- `default_database`. -/
def defaultDatabase (s : Settings) : String := (s.forward.map (·.database)).getD ""

/-- The tables, each checked; `index` is the next one's place in the list, sugar included. -/
def tableDevices (lib : SettingsLib) (canFd : Bool) (database : String) :
    Nat → List DeviceSection → Except SettingsError (List Device)
  | _, [] => .ok []
  | index, t :: tables => do
    let d ← (Device.fromTable lib t canFd database).mapError (.device index)
    match (d.database :: d.databases).find? fun db => !validDatabase lib db with
    | some bad => .error (.badDatabase bad)
    | none => do
      let rest ← tableDevices lib canFd database (index + 1) tables
      pure (d :: rest)

/-- No interface is a device twice; `before` are the ones so far. -/
def checkInterfaces : List String → List Device → Except SettingsError Unit
  | _, [] => .ok ()
  | before, d :: devices =>
    if before.contains d.interface then
      .error (.device before.length s!"{d.interface} is already a device")
    else checkInterfaces (before ++ [d.interface]) devices

/-- One pass of the numbering, over the CAN devices or the serial ones: `index` is the device's
place, and `n` the number of its bus less the offset. -/
def number (busOffset : UInt8) (can : Bool) :
    Nat → Nat → List Device → Except SettingsError (Nat × List Device)
  | _, n, [] => .ok (n, [])
  | index, n, d :: devices =>
    if d.isCan = can then
      match busForIndex n busOffset with
      | none => .error (.device index "bus number past 255")
      | some bus => do
        let (n, devices) ← number busOffset can (index + 1) (n + 1) devices
        pure (n, { d with bus } :: devices)
    else do
      let (n, devices) ← number busOffset can (index + 1) n devices
      pure (n, d :: devices)

/-- `build_devices`: the sugar, then the tables, checked and numbered. -/
def buildDevices (lib : SettingsLib) (s : Settings) (sugar : List String)
    (tables : List DeviceSection) : Except SettingsError (List Device) := do
  let database := s.defaultDatabase
  let ofTables ← tableDevices lib s.canFd database sugar.length tables
  let devices := sugar.map (Device.can · s.canFd database) ++ ofTables
  checkInterfaces [] devices
  let (n, devices) ← number s.busOffset true 0 0 devices
  let (_, devices) ← number s.busOffset false 0 n devices
  pure devices

/-- The tables of the UI's devices. -/
def uiTables (lib : SettingsLib) : Nat → List UiDevice → Except SettingsError (List DeviceSection)
  | _, [] => .ok []
  | index, d :: devices => do
    let t ← (d.table lib).mapError (.device index)
    let rest ← uiTables lib (index + 1) devices
    pure (t :: rest)

/-- The layer that names the devices: its sugar and its tables. -/
def deviceSet (lib : SettingsLib) (cli : Cli) (file : Option FileConfig) (ui : Option UiConfig) :
    Except SettingsError (String × List DeviceSection) :=
  let fileTables := (file.map (·.device)).getD []
  match (file.bind (·.server.iface)).or cli.iface, ui.bind (·.devices) with
  | some sugar, _ => .ok (sugar, fileTables)
  | none, devices =>
    if !fileTables.isEmpty then .ok ("", fileTables)
    else match devices with
      | some devices => (uiTables lib 0 devices).map ("", ·)
      | none => .ok ("can0", [])

/-! ### All the layers -/

/-- A secret that no flag and no file sets is the environment's, else the UI's. -/
def fillSecret (now : String) (env ui : Option String) : String :=
  if now.isEmpty then (env.or ui).getD now else now

/-- The secrets, and the cache to adopt. -/
def fillGaps (lib : SettingsLib) (env : Env) (ui : Option UiConfig) (s : Settings) : Settings :=
  { s with
    ingest := s.ingest.map fun i =>
      { i with token := fillSecret i.token env.ingestToken (ui.bind (·.ingest.token)) }
    forward := s.forward.map fun f =>
      { f with
        apiKey := fillSecret f.apiKey env.forwardApiKey (ui.bind (·.forward.apiKey))
        batching :=
          { f.batching with legacyCachePath := legacyCachePath lib f.batching.cachePath env } } }

/-- The names `[forward]` gives the gateway. -/
def checkForward (lib : SettingsLib) (forward : Option Forward) : Except SettingsError Unit :=
  match forward with
  | none => .ok ()
  | some f =>
    if !validDatabase lib f.database then .error (.badDatabase f.database)
    else if !lib.validDaemonId f.daemonId then .error (.badDaemonId f.daemonId)
    else .ok ()

/-- The flags' settings, before the file. -/
def ofCli (lib : SettingsLib) (cli : Cli) (file : Option FileConfig) (env : Env) :
    Except SettingsError Settings := do
  let (allowedClients, allowedClientsSource) ← allowedClientsOf lib cli file
  let defaultDir ← parseDirection cli.defaultDir
  let logLevel ← parseLogLevel cli.logLevel
  pure
    { devices := []
      host := cli.host
      port := cli.port
      allowedClients
      allowedClientsSource
      busOffset := cli.busOffset
      echoConsole := cli.echoConsole
      colour := cli.colour
      defaultDir
      canFd := cli.canFd
      logLevel
      statsInterval := cli.statsInterval
      ingest := if cli.ingestEnable then some (.fromCli cli) else none
      forward := if cli.forwardEnable then some (.fromCli lib cli env) else none
      testPattern := if cli.testPatternEnable then some (.fromCli cli) else none }

/-- What an operator should hear about the result. -/
def warnings (cli : Cli) (file : Option FileConfig) (s : Settings) : List Warning :=
  (if cli.retiredFlagsUsed.isEmpty then [] else [.retiredFlags cli.retiredFlagsUsed]) ++
  ((file.map (·.unknownKeys)).getD []).map .unknownKey ++
  (if cli.testPatternEnable && s.testPattern.isNone then [.testPatternDisarmedByFile] else []) ++
  (if s.devices.isEmpty && s.ingest.isNone then [.noCaptureSource] else []) ++
  (match s.forward with
    | none => [.noForwardSink]
    | some f => if f.apiKey.isEmpty then [.forwardKeyMissing] else [])

/-- `Settings::resolve`, once the UI's values are under the flags. -/
def resolveLayered (lib : SettingsLib) (cli : Cli) (file : Option FileConfig)
    (ui : Option UiConfig) (env : Env) : Except SettingsError Resolved :=
  if cli.pgEnable || (file.map (·.retiredPostgresSink)).getD false then
    .error .retiredPostgresSink
  else do
    let s ← ofCli lib cli file env
    let s ← file.elim (.ok s) (applyFile lib cli env · s)
    let (sugar, tables) ← deviceSet lib cli file ui
    -- `--pg-dir` is above even the file.
    let defaultDir ← overDirection s.defaultDir cli.pgDir
    let s := fillGaps lib env ui { s with defaultDir }
    checkForward lib s.forward
    let devices ← buildDevices lib s (parseIfaces sugar) tables
    let s := { s with devices }
    pure ⟨s, warnings cli file s⟩

/-- `Settings::resolve`. -/
def resolve (lib : SettingsLib) (cli : Cli) (file : Option FileConfig) (ui : Option UiConfig)
    (env : Env) : Except SettingsError Resolved :=
  let layered := match ui with
    | some ui => ui.beneath cli
    | none => cli
  resolveLayered lib layered file ui env

/-! ### What is started from them -/

/-- `can_devices`. -/
def canDevices (s : Settings) : List Device := s.devices.filter (·.isCan)

/-- `armed_indices`: the CAN devices the responder answers on. -/
def armedIndices (s : Settings) (tp : TestPattern) : List Nat :=
  ((s.canDevices.zipIdx).filter fun (d, _) =>
    d.mode = .active && (tp.ifaces.isEmpty || tp.ifaces.contains d.interface)).map (·.2)

/-- `databases`: the default first when anything feeds it, then the rest in device order. -/
def databases (s : Settings) : List String :=
  let fed := s.devices.flatMap (·.databases)
  let first := if s.ingest.isSome || fed.contains s.defaultDatabase then [s.defaultDatabase] else []
  fed.foldl (fun out db => if out.contains db then out else out ++ [db]) first

/-- `for_database`: the same gateway, another database, with a cache of its own. -/
def forDatabase (lib : SettingsLib) (f : Forward) (database : String) : Forward :=
  if database = f.database then f
  else
    { f with
      database
      batching :=
        { f.batching with
          cachePath := lib.sibling f.batching.cachePath database
          legacyCachePath := none } }

/-- `forwards`: one for each database. -/
def forwards (lib : SettingsLib) (s : Settings) : List Forward :=
  match s.forward with
  | some f => s.databases.map (forDatabase lib f)
  | none => []

end Settings

/-- Why the server would not start. -/
inductive RunError where
  | nothingToDo
  | ingestNeedsForward
  | noDeviceCapture
  deriving DecidableEq

/-- `pipeline::check`: what would stop a start, short of opening anything. -/
def check (lib : SettingsLib) (s : Settings) : Except RunError Unit :=
  if s.devices.isEmpty && s.ingest.isNone then .error .nothingToDo
  else if s.ingest.isSome && s.forward.isNone then .error .ingestNeedsForward
  else if !lib.linux && !s.devices.isEmpty then .error .noDeviceCapture
  else .ok ()

end WireTap.Daemon
