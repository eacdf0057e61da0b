import Mathlib.Logic.Function.Basic
import WireTap.Daemon.Start

/-!
# The control socket's settings

`PUT /v1/settings`: a JSON object of keys, each a setting a UI may change, `null` to clear it.
`apply` merges it into what `ui.toml` holds, resolves that as a start would, and writes it.  The
daemon then starts again on it.

A document is a value for each key (`Doc`): every key is there, as `null` where it is not set, and a
change writes over some of them.  How `serde_json` reads a body and writes and reads a value is a
parameter (`JsonLib`), as is what `Secret` serialises to.

`put` lets one change through at a time.  `Process` has a request's steps apart, so that those of
others may come between them.

Left out: `merge`'s refusal of a key that is no setting, which `apply` makes before it, and the
answers to `GET`.
-/

namespace WireTap.Daemon

/-! ### Keys -/

/-- A setting a UI may change. -/
inductive UiKey where
  | devices
  | apiKey
  | token
  | forwardEnable
  | forwardHost
  | forwardPort
  | forwardDatabase
  | batchSize
  | flushInterval
  | queueSize
  | cacheMaxMb
  | queueFlushPct
  | ingestEnable
  | ingestPort
  | logLevel
  deriving DecidableEq

namespace UiKey

/-- `ui::keys`. -/
def all : List UiKey :=
  [devices, apiKey, token, forwardEnable, forwardHost, forwardPort, forwardDatabase, batchSize,
    flushInterval, queueSize, cacheMaxMb, queueFlushPct, ingestEnable, ingestPort, logLevel]

/-- The order `serde_json` has the keys of a document in, which is the alphabet's. -/
def sorted : List UiKey :=
  [devices, apiKey, batchSize, cacheMaxMb, forwardDatabase, forwardEnable, flushInterval,
    forwardHost, forwardPort, queueFlushPct, queueSize, ingestEnable, ingestPort, token, logLevel]

/-- As `PUT` names it. -/
def name : UiKey → String
  | devices => "devices"
  | apiKey => "forward.api_key"
  | token => "ingest.token"
  | forwardEnable => "forward.enable"
  | forwardHost => "forward.host"
  | forwardPort => "forward.port"
  | forwardDatabase => "forward.database"
  | batchSize => "forward.batch_size"
  | flushInterval => "forward.flush_interval"
  | queueSize => "forward.queue_size"
  | cacheMaxMb => "forward.cache_max_mb"
  | queueFlushPct => "forward.queue_flush_pct"
  | ingestEnable => "ingest.enable"
  | ingestPort => "ingest.port"
  | logLevel => "logging.level"

/-- The flag that also sets it, by its `Cli` field. -/
def flag : UiKey → String
  | devices => "iface"
  | apiKey => "forward_api_key"
  | token => "ingest_token"
  | forwardEnable => "forward_enable"
  | forwardHost => "forward_host"
  | forwardPort => "forward_port"
  | forwardDatabase => "forward_database"
  | batchSize => "pg_batch_size"
  | flushInterval => "pg_flush_interval"
  | queueSize => "pg_queue_size"
  | cacheMaxMb => "pg_cache_max_mb"
  | queueFlushPct => "pg_queue_flush_pct"
  | ingestEnable => "ingest_enable"
  | ingestPort => "ingest_port"
  | logLevel => "log_level"

/-- What it holds. -/
def Value : UiKey → Type
  | devices => List UiDevice
  | apiKey | token | forwardHost | forwardDatabase | logLevel => String
  | forwardEnable | ingestEnable => Bool
  | forwardPort | ingestPort => UInt16
  | batchSize | queueSize | cacheMaxMb => UInt64
  | flushInterval => F64
  | queueFlushPct => UInt8

/-- What `ui` has it at. -/
def get (ui : UiConfig) : (k : UiKey) → Option k.Value
  | devices => ui.devices
  | apiKey => ui.forward.apiKey
  | token => ui.ingest.token
  | forwardEnable => ui.forward.enable
  | forwardHost => ui.forward.host
  | forwardPort => ui.forward.port
  | forwardDatabase => ui.forward.database
  | batchSize => ui.forward.batchSize
  | flushInterval => ui.forward.flushInterval
  | queueSize => ui.forward.queueSize
  | cacheMaxMb => ui.forward.cacheMaxMb
  | queueFlushPct => ui.forward.queueFlushPct
  | ingestEnable => ui.ingest.enable
  | ingestPort => ui.ingest.port
  | logLevel => ui.logLevel

def set (ui : UiConfig) : (k : UiKey) → Option k.Value → UiConfig
  | devices, v => { ui with devices := v }
  | apiKey, v => { ui with forward := { ui.forward with apiKey := v } }
  | token, v => { ui with ingest := { ui.ingest with token := v } }
  | forwardEnable, v => { ui with forward := { ui.forward with enable := v } }
  | forwardHost, v => { ui with forward := { ui.forward with host := v } }
  | forwardPort, v => { ui with forward := { ui.forward with port := v } }
  | forwardDatabase, v => { ui with forward := { ui.forward with database := v } }
  | batchSize, v => { ui with forward := { ui.forward with batchSize := v } }
  | flushInterval, v => { ui with forward := { ui.forward with flushInterval := v } }
  | queueSize, v => { ui with forward := { ui.forward with queueSize := v } }
  | cacheMaxMb, v => { ui with forward := { ui.forward with cacheMaxMb := v } }
  | queueFlushPct, v => { ui with forward := { ui.forward with queueFlushPct := v } }
  | ingestEnable, v => { ui with ingest := { ui.ingest with enable := v } }
  | ingestPort, v => { ui with ingest := { ui.ingest with port := v } }
  | logLevel, v => { ui with logLevel := v }

/-- Whether the file sets it. -/
def inFile (f : FileConfig) : UiKey → Bool
  | devices => f.server.iface.isSome || !f.device.isEmpty
  | apiKey => f.forward.apiKey.isSome
  | token => f.ingest.token.isSome
  | forwardEnable => f.forward.enable.isSome
  | forwardHost => f.forward.host.isSome
  | forwardPort => f.forward.port.isSome
  | forwardDatabase => f.forward.database.isSome
  | batchSize => f.forward.batchSize.isSome
  | flushInterval => f.forward.flushInterval.isSome
  | queueSize => f.forward.queueSize.isSome
  | cacheMaxMb => f.forward.cacheMaxMb.isSome
  | queueFlushPct => f.forward.queueFlushPct.isSome
  | ingestEnable => f.ingest.enable.isSome
  | ingestPort => f.ingest.port.isSome
  | logLevel => f.logging.level.isSome

end UiKey

/-! ### Where a setting comes from -/

namespace Source

/-- Set where a UI cannot change it. -/
def pinned : Source → Bool
  | file | env _ | flag _ => true
  | default | ui => false

/-- `_` for `-`, as a flag is written. -/
def dashed (field : String) : String :=
  String.ofList (field.toList.map fun c => if c = '_' then '-' else c)

/-- Where a pinned value is pinned. -/
def place (config : Option String) : Source → Option String
  | default | ui => none
  | file => config
  | env var => some s!"env {var}"
  | flag field => some s!"flag --{dashed field}"

/-- `source`: the highest layer that set it. -/
def highest (inFile : Bool) (flag : Option String) (inUi : Bool) : Source :=
  match inFile, flag, inUi with
  | true, _, _ => .file
  | _, some f, _ => .flag f
  | _, _, true => .ui
  | _, _, _ => .default

/-- A secret's: an empty value is a gap, and the environment fills one above the UI. -/
def ofSecret (field var : String) (inFile inFlag fromEnv fromUi : Option String) : Source :=
  let given (layer : Option String) : Bool := layer.any (!·.isEmpty)
  if given inFile then .file
  else if given inFlag then .flag field
  else if given fromEnv then .env var
  else if given fromUi then .ui
  else .default

end Source

/-- `sources`, for one key. -/
def sourceOf (cli : Cli) (file : Option FileConfig) (ui : UiConfig) (env : Env) (k : UiKey) :
    Source :=
  let plain := Source.highest (file.any (UiKey.inFile · k))
    (if cli.isGiven k.flag then some k.flag else none) (UiKey.get ui k).isSome
  -- A flag turns a listener on over a file's `enable = false`.
  let listener (inFile : Option Bool) : Source :=
    if inFile = some false && cli.isGiven k.flag then .flag k.flag else plain
  match k with
  | .forwardEnable => listener (file.bind (·.forward.enable))
  | .ingestEnable => listener (file.bind (·.ingest.enable))
  | .apiKey => .ofSecret "forward_api_key" "WIRETAP_FORWARD_TOKEN"
      (file.bind (·.forward.apiKey)) cli.forwardApiKey env.forwardApiKey ui.forward.apiKey
  | .token => .ofSecret "ingest_token" "WIRETAP_INGEST_TOKEN"
      (file.bind (·.ingest.token)) cli.ingestToken env.ingestToken ui.ingest.token
  | _ => plain

/-! ### Documents -/

/-- A type as `serde_json` has it. -/
structure Codec (J α : Type) where
  toValue : α → J
  fromValue : J → Except String α

/-- What `serde_json` does, over its values `J`. -/
structure JsonLib (J : Type) where
  null : J
  isNull : J → Bool
  /-- A body that is an object, its keys sorted. -/
  fromSlice : List UInt8 → Except String (List (String × J))
  bool : Codec J Bool
  string : Codec J String
  secret : Codec J String
  u8 : Codec J UInt8
  u16 : Codec J UInt16
  u64 : Codec J UInt64
  f64 : Codec J F64
  devices : Codec J (List UiDevice)

section Json

variable {J : Type}

namespace UiKey

def codec (json : JsonLib J) : (k : UiKey) → Codec J k.Value
  | devices => json.devices
  | apiKey | token => json.secret
  | forwardHost | forwardDatabase | logLevel => json.string
  | forwardEnable | ingestEnable => json.bool
  | forwardPort | ingestPort => json.u16
  | batchSize | queueSize | cacheMaxMb => json.u64
  | flushInterval => json.f64
  | queueFlushPct => json.u8

/-- An `Option`: none is `null`. -/
def encode (json : JsonLib J) (k : UiKey) (v : Option k.Value) : J :=
  v.elim json.null (k.codec json).toValue

def decode (json : JsonLib J) (k : UiKey) (v : J) : Except String (Option k.Value) :=
  if json.isNull v then .ok none else ((k.codec json).fromValue v).map some

end UiKey

/-- A `UiConfig` as JSON. -/
abbrev Doc (J : Type) := UiKey → J

/-- `to_value`. -/
def toValue (json : JsonLib J) (ui : UiConfig) : Doc J := fun k => k.encode json (UiKey.get ui k)

/-- These keys of a document, read one after the other. -/
def readKeys (json : JsonLib J) (doc : Doc J) : List UiKey → UiConfig → Except String UiConfig
  | [], ui => .ok ui
  | k :: ks, ui => do
    let v ← k.decode json (doc k)
    readKeys json doc ks (UiKey.set ui k v)

/-- `from_value`. -/
def fromValue (json : JsonLib J) (doc : Doc J) : Except String UiConfig :=
  readKeys json doc UiKey.sorted default

/-- `ui::merge`: the change's keys written over. -/
def merge (json : JsonLib J) (current : UiConfig) (put : List (UiKey × J)) :
    Except String UiConfig :=
  fromValue json (put.foldl (fun doc kv => Function.update doc kv.1 kv.2) (toValue json current))

/-! ### A change -/

/-- An answer that is not `202`. -/
structure Answer where
  status : Nat
  error : String
  key : Option String := none
  /-- `where`, which may be `null`. -/
  place : Option (Option String) := none
  deriving DecidableEq

def refuse (status : Nat) (error : String) : Answer := { status, error }

def unstartable (why : String) : Answer := refuse 422 why

/-- An early return. -/
def refuseWhen (p : Bool) (a : Answer) : Except Answer Unit := if p then .error a else .ok ()

/-- Why an address could not be bound. -/
structure BindError where
  text : String
  permissionDenied : Bool
  deriving DecidableEq

/-- What `apply` finds: the config file as `settings::load` reads it, the addresses it can listen on,
and `ui.toml`. -/
structure Host where
  load : String → Except SettingsError (Option FileConfig)
  bind : String → UInt16 → Except BindError Unit
  ui : UiFile

/-- The config file, if `--config` names one that is there. -/
def Host.configFile (host : Host) (cli : Cli) : Except SettingsError (Option FileConfig) :=
  cli.config.elim (.ok none) host.load

/-- The body's keys, each one a UI may change. -/
def named : List (String × J) → Except Answer (List (UiKey × J))
  | [] => .ok []
  | (key, value) :: put => match UiKey.all.find? (·.name = key) with
    | none => .error
      { refuse 400 s!"{key} is not a setting a UI may change" with key := some key }
    | some k => (named put).map ((k, value) :: ·)

/-- The first key that is pinned. -/
def refusePinned (cli : Cli) (file : Option FileConfig) (next : UiConfig) (env : Env) :
    List (UiKey × J) → Except Answer Unit
  | [] => .ok ()
  | (k, _) :: put =>
    let source := sourceOf cli file next env k
    if source.pinned then
      let place := source.place cli.config
      let shown := place.getD "the config file"
      .error
        { status := 409
          error := s!"{k.name} is pinned by {shown}"
          key := some k.name
          place := some place }
    else refusePinned cli file next env put

/-- `devices: null`. -/
def clearsDevices (json : JsonLib J) (put : List (UiKey × J)) : Bool :=
  put.any fun kv => kv.1 = .devices && json.isNull kv.2

/-- The one listener whose address a UI can move; the daemon holds the old one. -/
def checkBind (host : Host) (running next : Option Ingest) : Except Answer Unit :=
  match next with
  | none => .ok ()
  | some i =>
    if running.any fun r => r.host = i.host && r.port = i.port then .ok ()
    else (host.bind i.host i.port).mapError fun e =>
      let hint := if e.permissionDenied then ". A port below 1024 needs CAP_NET_BIND_SERVICE" else ""
      unstartable s!"cannot listen on {i.host}:{i.port}: {e.text}{hint}"

/-- What a change is to: the flags, where `ui.toml` is, the environment, and the settings this
process started on. -/
structure Control where
  cli : Cli
  uiPath : Option String
  env : Env
  running : Settings

/-- What `ui.toml` holds, empty where it cannot be read. -/
def stored (toml : TomlLib) (path : String) (ui : UiFile) : UiConfig :=
  (load toml path ui).toOption.getD default

/-- `apply` up to the write. -/
def validate (lib : SettingsLib) (toml : TomlLib) (json : JsonLib J) (c : Control) (host : Host)
    (body : List UInt8) : Except Answer (String × UiConfig) := do
  let path ← c.uiPath.elim
    (.error (refuse 503 "there is no ui.toml to write: set STATE_DIRECTORY or --ui-config")) .ok
  let put ← (json.fromSlice body).mapError fun e => refuse 400 s!"not a JSON object: {e}"
  refuseWhen put.isEmpty (refuse 400 "the change names no setting")
  let put ← named put
  let file ← (host.configFile c.cli).mapError fun e => unstartable (e.text lib)
  let next ← (merge json (stored toml path host.ui) put).mapError (refuse 400)
  refusePinned c.cli file next c.env put
  refuseWhen (clearsDevices json put)
    { status := 400
      error := "devices cannot be cleared: the default, can0, transmits; set a device list instead"
      key := some UiKey.devices.name }
  let r ← (Settings.resolve lib c.cli file (some next) c.env).mapError fun e =>
    unstartable (e.text lib)
  (check lib r.settings).mapError fun e => unstartable e.text
  checkBind host c.running.ingest r.settings.ingest
  pure (path, next)

end Json

def header : String :=
  "# Written by wiretap-server for its UI. Set a value in the config file\n" ++
  "# instead to pin it: anything set there wins over this file.\n"

/-- `ui::write`: the whole file or nothing; `io` is what replacing it comes to. -/
def write (toml : TomlLib) (io : Except String Unit) (next : UiConfig) : Except String UiFile := do
  let text ← toml.toStr next
  io
  pure (.text (header ++ text))

def writeFailed (path e : String) : Answer := refuse 500 s!"cannot write {path}: {e}"

/-- `control::apply`: what is answered, and what `ui.toml` is then. -/
def apply {J : Type} (lib : SettingsLib) (toml : TomlLib) (json : JsonLib J) (c : Control)
    (host : Host) (io : Except String Unit) (body : List UInt8) : Except Answer Unit × UiFile :=
  match validate lib toml json c host body with
  | .error a => (.error a, host.ui)
  | .ok (path, next) => match write toml io next with
    | .error e => (.error (writeFailed path e), host.ui)
    | .ok ui => (.ok (), ui)

/-! ### Requests side by side -/

/-- How far a request has come. -/
inductive Stage where
  | idle
  /-- `applying` was swapped by this one. -/
  | applying (body : List UInt8)
  | validated (path : String) (next : UiConfig)
  | answered (answer : Except Answer Unit)

/-- The daemon as the socket's requests see it. -/
structure Process where
  applying : Bool
  ui : UiFile
  stage : Nat → Stage

namespace Process

def start (ui : UiFile) : Process where
  applying := false
  ui
  stage := fun _ => .idle

def setStage (p : Process) (i : Nat) (stage : Stage) : Process :=
  { p with stage := Function.update p.stage i stage }

/-- Refused, with `applying` let go. -/
def release (p : Process) (i : Nat) (a : Answer) : Process :=
  { p.setStage i (.answered (.error a)) with applying := false }

/-- `MAX_BODY`. -/
def maxBody : Nat := 64 * 1024

/-- A step of the `i`th request, with what it finds outside. -/
inductive Event where
  | put (i : Nat) (body : List UInt8)
  | validate (i : Nat) (load : String → Except SettingsError (Option FileConfig))
      (bind : String → UInt16 → Except BindError Unit)
  | write (i : Nat) (io : Except String Unit)

/-- `State::put`, a step at a time. -/
def step {J : Type} (lib : SettingsLib) (toml : TomlLib) (json : JsonLib J) (c : Control)
    (p : Process) : Event → Option Process
  | .put i body => match p.stage i with
    | .idle =>
      if maxBody < body.length then
        some (p.setStage i (.answered (.error (refuse 413 "length limit exceeded"))))
      else if p.applying then
        some (p.setStage i (.answered (.error (refuse 503 "another change is being applied"))))
      else some { p.setStage i (.applying body) with applying := true }
    | _ => none
  | .validate i load bind => match p.stage i with
    | .applying body => match Daemon.validate lib toml json c ⟨load, bind, p.ui⟩ body with
      | .error a => some (p.release i a)
      | .ok (path, next) => some (p.setStage i (.validated path next))
    | _ => none
  | .write i io => match p.stage i with
    | .validated path next => match Daemon.write toml io next with
      | .error e => some (p.release i (writeFailed path e))
      | .ok ui => some { p.setStage i (.answered (.ok ())) with ui }
    | _ => none

/-- Answered `202`. -/
def Accepted (p : Process) (i : Nat) : Prop := p.stage i = .answered (.ok ())

end Process

end WireTap.Daemon
