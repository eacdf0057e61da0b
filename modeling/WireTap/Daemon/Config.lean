import Mathlib.Algebra.Group.Nat.Defs
import WireTap.Lib.Text
import WireTap.Wire.Sample

/-!
# The layers of the daemon's configuration

What the daemon is configured from: the flags (`Cli`), the config file (`FileConfig`), the
environment (`Env`) and what a UI has written (`UiConfig`), with the texts they carry.  Every key of
the file and of the UI is optional, so that a layer that does not speak can be told from one that
sets the default.

What the repository takes from libraries that are not part of it, and from the system, is the
parameter of everything here (`SettingsLib`).  A number of 64 bits is a `UInt64`, and an `f64` is
taken by its value (`F64`).

Left out: the flags that no setting comes from, and the tables of keys the file's schema does not
know, of which only the names matter.
-/

namespace WireTap.Daemon

/-! ### Texts -/

/-- `char::is_whitespace`: Unicode's `White_Space`. -/
def isWhitespace (c : Char) : Bool :=
  let n := c.toNat
  (9 ≤ n && n ≤ 13) || n = 32 || n = 0x85 || n = 0xA0 || n = 0x1680 || (0x2000 ≤ n && n ≤ 0x200A) ||
    n = 0x2028 || n = 0x2029 || n = 0x202F || n = 0x205F || n = 0x3000

/-- `str::split`. -/
def splitAt (separator : Char) : List Char → List (List Char)
  | [] => [[]]
  | c :: text =>
    if c = separator then [] :: splitAt separator text
    else match splitAt separator text with
      | [] => [[c]]
      | word :: words => (c :: word) :: words

/-- `str::trim`. -/
def trim (text : List Char) : List Char :=
  ((text.dropWhile isWhitespace).reverse.dropWhile isWhitespace).reverse

/-- `parse_ifaces`: a comma-separated list, less blanks. -/
def parseIfaces (spec : String) : List String :=
  (((splitAt ',' spec.toList).map trim).filter (· ≠ [])).map String.ofList

/-- `to_ascii_uppercase`. -/
def asciiUppercase (text : String) : String := String.ofList (text.toList.map Char.toUpper)

/-- `to_ascii_lowercase`. -/
def asciiLowercase (text : String) : String := String.ofList (text.toList.map Char.toLower)

/-- `Pi-Bench.local` → `pi-bench`. -/
def shortName (hostname : String) : String :=
  asciiLowercase (String.ofList (hostname.toList.takeWhile (· ≠ '.')))

/-! ### Values -/

/-- An `f64`, by its value. -/
inductive F64 where
  | nan
  | infinite (negative : Bool)
  | finite (value : Rat)
  deriving DecidableEq

inductive LogLevel where
  | debug
  | info
  | warning
  | error
  deriving DecidableEq

def LogLevel.parse (text : String) : Option LogLevel :=
  if asciiUppercase text = "DEBUG" then some .debug
  else if asciiUppercase text = "INFO" then some .info
  else if asciiUppercase text = "WARNING" then some .warning
  else if asciiUppercase text = "ERROR" then some .error
  else none

inductive IpAddr where
  | v4 (bits : UInt32)
  | v6 (bits : BitVec 128)
  deriving DecidableEq

/-- An IPv4 or IPv6 network, with no host bits set. -/
structure Cidr where
  network : IpAddr
  length : Nat
  deriving DecidableEq

inductive Parity where
  | none
  | even
  | odd
  deriving DecidableEq

structure LineSettings where
  baud : UInt32
  dataBits : UInt8
  parity : Parity
  stopBits : UInt8
  deriving DecidableEq

/-- A `modbus-rtu` line's catalogue. -/
structure LineCatalogue where
  path : String
  name : String
  deriving DecidableEq

/-- What is taken from elsewhere. -/
structure SettingsLib where
  /-- The build is for Linux. -/
  linux : Bool
  /-- The gateway's rule. -/
  validDatabaseName : String → Bool
  validDaemonId : String → Bool
  parseParity : String → Except String Parity
  /-- `LineSettings::validate`. -/
  validateLine : LineSettings → Except String Unit
  /-- `LineCatalogue::read`. -/
  readCatalogue : String → Except String LineCatalogue
  parseIp : String → Option IpAddr
  showIp : IpAddr → String
  /-- A text as `{:?}` shows it. -/
  debug : String → String
  /-- `Path::join`. -/
  join : String → String → String
  /-- `sibling_cache`. -/
  sibling : String → String → String
  /-- `Path::exists`. -/
  fileExists : String → Bool

/-! ### Networks -/

namespace Cidr

/-- The bits of an address, and how many. -/
def bits : IpAddr → Nat × Nat
  | .v4 a => (a.toNat, 32)
  | .v6 a => (a.toNat, 128)

/-- The bits with the host's cleared. -/
def networkBits (bits width length : Nat) : Nat := bits / 2 ^ (width - length) * 2 ^ (width - length)

/-- `to_ipv4_mapped`: `::ffff:0:0/96`. -/
def isMapped : IpAddr → Bool
  | .v4 _ => false
  | .v6 a => a.toNat / 2 ^ 32 = 0xFFFF

def loopback : List Cidr := [⟨.v4 0x7F000000, 8⟩, ⟨.v6 1, 128⟩]

/-- `Cidr::from_str`. -/
def parse (lib : SettingsLib) (text : String) : Except String Cidr :=
  let (addr, length) := match Lib.splitOnce '/' text.toList with
    | some (a, p) => (String.ofList a, some p)
    | none => (text, none)
  match lib.parseIp addr with
  | none => .error s!"{lib.debug text} is not an IP address or CIDR range"
  | some network =>
    if isMapped network then .error s!"{lib.debug text} is IPv4-mapped; write it as IPv4"
    else
      let (b, width) := bits network
      let length := match length with
        | none => some width
        | some p => (Lib.unsigned? p).filter (· ≤ width)
      match length with
      | none => .error s!"{lib.debug text}: the prefix must be 0 to {width}"
      | some length =>
        let masked := networkBits b width length
        if masked ≠ b then
          let masked : IpAddr := match network with
            | .v4 _ => .v4 (UInt32.ofNat masked)
            | .v6 _ => .v6 (BitVec.ofNat 128 masked)
          let shown := lib.showIp masked
          .error s!"{lib.debug text} has host bits set; the network is {shown}/{length}"
        else .ok ⟨network, length⟩

end Cidr

/-! ### Flags -/

structure Cli where
  iface : Option String
  host : String
  port : UInt16
  allowedClients : Option String
  busOffset : UInt8
  echoConsole : Bool
  colour : Bool
  defaultDir : String
  canFd : Bool
  logLevel : String
  statsInterval : F64
  testPatternEnable : Bool
  testPatternIfaces : String
  ingestEnable : Bool
  ingestHost : String
  ingestPort : UInt16
  ingestToken : Option String
  ingestKeepaliveSecs : F64
  ingestMaxBatchFrames : UInt64
  forwardEnable : Bool
  forwardHost : String
  forwardPort : UInt16
  forwardApiKey : Option String
  forwardDatabase : String
  pgBatchSize : UInt64
  pgFlushInterval : F64
  pgQueueSize : UInt64
  pgDir : Option String
  pgCachePath : Option String
  pgCacheMaxMb : UInt64
  pgQueueFlushPct : UInt8
  pgEnable : Bool
  pgDsn : Option String
  pgFunc : Option String
  pgWriteMode : Option String
  config : Option String
  /-- The flags given on the command line, by field name. -/
  given : List String
  deriving DecidableEq

namespace Cli

/-- The defaults of a command line without flags. -/
def defaults : Cli where
  iface := none
  host := "0.0.0.0"
  port := 23
  allowedClients := none
  busOffset := 0
  echoConsole := false
  colour := false
  defaultDir := "rx"
  canFd := false
  logLevel := "INFO"
  statsInterval := .finite 10
  testPatternEnable := false
  testPatternIfaces := ""
  ingestEnable := false
  ingestHost := "0.0.0.0"
  ingestPort := 9323
  ingestToken := none
  ingestKeepaliveSecs := .finite 30
  ingestMaxBatchFrames := 256
  forwardEnable := false
  forwardHost := "127.0.0.1"
  forwardPort := 9323
  forwardApiKey := none
  forwardDatabase := ""
  pgBatchSize := 500
  pgFlushInterval := .finite (1 / 2)
  pgQueueSize := 50000
  pgDir := none
  pgCachePath := none
  pgCacheMaxMb := 1000
  pgQueueFlushPct := 50
  pgEnable := false
  pgDsn := none
  pgFunc := none
  pgWriteMode := none
  config := none
  given := []

def isGiven (cli : Cli) (field : String) : Bool := cli.given.contains field

def retiredFlagsUsed (cli : Cli) : List String :=
  ([("--pg-dsn", cli.pgDsn.isSome), ("--pg-func", cli.pgFunc.isSome),
    ("--pg-write-mode", cli.pgWriteMode.isSome)].filter (·.2)).map (·.1)

end Cli

/-! ### The file -/

structure ServerSection where
  iface : Option String
  host : Option String
  port : Option UInt16
  allowedClients : Option (List String)
  busOffset : Option UInt8
  echoConsole : Option Bool
  colour : Option Bool
  defaultDir : Option String
  canFd : Option Bool
  deriving DecidableEq, Inhabited

structure IngestSection where
  enable : Option Bool
  host : Option String
  port : Option UInt16
  token : Option String
  keepaliveSecs : Option F64
  maxBatchFrames : Option UInt64
  deriving DecidableEq, Inhabited

structure TestPatternSection where
  enable : Option Bool
  ifaces : Option String
  deriving DecidableEq, Inhabited

structure ForwardSection where
  enable : Option Bool
  host : Option String
  port : Option UInt16
  apiKey : Option String
  database : Option String
  daemonId : Option String
  batchSize : Option UInt64
  flushInterval : Option F64
  queueSize : Option UInt64
  cachePath : Option String
  cacheMaxMb : Option UInt64
  queueFlushPct : Option UInt8
  deriving DecidableEq, Inhabited

/-- A `[[device]]` table. -/
structure DeviceSection where
  kind : Option String
  interface : Option String
  mode : Option String
  database : Option String
  fd : Option Bool
  baud : Option UInt32
  dataBits : Option UInt8
  parity : Option String
  stopBits : Option UInt8
  framing : Option String
  catalog : Option String
  capture : Option String
  rawDatabase : Option String
  deriving DecidableEq, Inhabited

structure LoggingSection where
  level : Option String
  statsInterval : Option F64
  deriving DecidableEq, Inhabited

structure FileConfig where
  server : ServerSection
  /-- `[postgres].enable`. -/
  postgresEnable : Option Bool
  ingest : IngestSection
  testPattern : TestPatternSection
  forward : ForwardSection
  logging : LoggingSection
  device : List DeviceSection
  /-- `unknown_keys`: the keys no section defines, sorted. -/
  unknownKeys : List String
  deriving DecidableEq, Inhabited

/-- The file enables the sink that is gone. -/
def FileConfig.retiredPostgresSink (f : FileConfig) : Bool := f.postgresEnable = some true

/-! ### The environment -/

structure Env where
  ingestToken : Option String
  forwardApiKey : Option String
  cachePath : Option String
  stateDir : Option String
  home : Option String
  hostname : Option String
  deriving DecidableEq, Inhabited

/-! ### What a UI writes -/

/-- A CAN interface, always passive. -/
structure UiDevice where
  interface : String
  fd : Option Bool
  database : Option String
  deriving DecidableEq

structure UiForward where
  enable : Option Bool
  host : Option String
  port : Option UInt16
  apiKey : Option String
  database : Option String
  batchSize : Option UInt64
  flushInterval : Option F64
  queueSize : Option UInt64
  cacheMaxMb : Option UInt64
  queueFlushPct : Option UInt8
  deriving DecidableEq, Inhabited

structure UiIngest where
  enable : Option Bool
  port : Option UInt16
  token : Option String
  deriving DecidableEq, Inhabited

structure UiConfig where
  devices : Option (List UiDevice)
  forward : UiForward
  ingest : UiIngest
  /-- `[logging] level`. -/
  logLevel : Option String
  deriving DecidableEq, Inhabited

/-- `UiDevice::table`: a `[[device]]` table, if the name is one a network interface can have. -/
def UiDevice.table (lib : SettingsLib) (d : UiDevice) : Except String DeviceSection :=
  let name := d.interface
  if name.isEmpty || name.utf8ByteSize > 15 || name.toList.any (fun c => c = '/' || c = ':') ||
      name.toList.any isWhitespace then
    .error s!"{lib.debug name} is not a CAN interface name"
  else
    .ok { (default : DeviceSection) with
      kind := some "can"
      interface := some name
      mode := some "passive"
      fd := d.fd
      database := d.database }

/-- `UiConfig::beneath`: the flags, with the UI's values under every one that was not given. -/
def UiConfig.beneath (ui : UiConfig) (cli : Cli) : Cli :=
  let fill {α : Type} (value : Option α) (flag : String) (now : α) : α :=
    match value with
    | some v => if cli.isGiven flag then now else v
    | none => now
  { cli with
    forwardEnable := fill ui.forward.enable "forward_enable" cli.forwardEnable
    forwardHost := fill ui.forward.host "forward_host" cli.forwardHost
    forwardPort := fill ui.forward.port "forward_port" cli.forwardPort
    forwardDatabase := fill ui.forward.database "forward_database" cli.forwardDatabase
    pgBatchSize := fill ui.forward.batchSize "pg_batch_size" cli.pgBatchSize
    pgFlushInterval := fill ui.forward.flushInterval "pg_flush_interval" cli.pgFlushInterval
    pgQueueSize := fill ui.forward.queueSize "pg_queue_size" cli.pgQueueSize
    pgCacheMaxMb := fill ui.forward.cacheMaxMb "pg_cache_max_mb" cli.pgCacheMaxMb
    pgQueueFlushPct := fill ui.forward.queueFlushPct "pg_queue_flush_pct" cli.pgQueueFlushPct
    ingestEnable := fill ui.ingest.enable "ingest_enable" cli.ingestEnable
    ingestPort := fill ui.ingest.port "ingest_port" cli.ingestPort
    logLevel := fill ui.logLevel "log_level" cli.logLevel }

end WireTap.Daemon
