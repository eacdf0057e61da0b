import WireTap.Daemon.Control

/-!
# The settings a UI is shown

`listing`: every setting a UI may change, with its value and the layer it came from (`sourceOf`).  A
secret is shown only as set or unset.  Whether a section is on, the devices and the log level are
read from the settings that were resolved; every other value is the file's, else the flag's with the
UI's under it, as resolving has it, and is shown whether or not the section is on.

A value is what `serde_json` makes of it (`JsonLib`); the object a device is shown as is a parameter
of its own.

Left out: a setting as a line of `--check-config`.
-/

namespace WireTap.Daemon

def Mode.asStr : Mode → String
  | active => "active"
  | passive => "passive"

def LogLevel.asStr : LogLevel → String
  | debug => "DEBUG"
  | info => "INFO"
  | warning => "WARNING"
  | error => "ERROR"

/-- A device as it is shown. -/
structure ListedDevice where
  interface : String
  kind : String
  mode : String
  fd : Bool
  database : String
  bus : SourceId
  deriving DecidableEq

namespace Device

/-- Whether FD frames are reported. -/
def fd (d : Device) : Bool := d.kind = .can true

def listed (d : Device) : ListedDevice where
  interface := d.interface
  kind := if d.isCan then "can" else "serial"
  mode := d.mode.asStr
  fd := d.fd
  database := d.database
  bus := d.bus

end Device

namespace UiKey

/-- In the order `sources` has them. -/
def listed : List UiKey :=
  [devices, forwardEnable, forwardHost, forwardPort, forwardDatabase, batchSize, flushInterval,
    queueSize, cacheMaxMb, queueFlushPct, ingestEnable, ingestPort, logLevel, apiKey, token]

/-- `SECRETS`. -/
def secret : UiKey → Bool
  | apiKey | token => true
  | _ => false

/-- What the file has it at; the devices have no one value there. -/
def fileValue (f : FileConfig) : (k : UiKey) → Option k.Value
  | devices => none
  | apiKey => f.forward.apiKey
  | token => f.ingest.token
  | forwardEnable => f.forward.enable
  | forwardHost => f.forward.host
  | forwardPort => f.forward.port
  | forwardDatabase => f.forward.database
  | batchSize => f.forward.batchSize
  | flushInterval => f.forward.flushInterval
  | queueSize => f.forward.queueSize
  | cacheMaxMb => f.forward.cacheMaxMb
  | queueFlushPct => f.forward.queueFlushPct
  | ingestEnable => f.ingest.enable
  | ingestPort => f.ingest.port
  | logLevel => f.logging.level

/-- What its flag has it at, given or by default. -/
def flagValue (cli : Cli) : (k : UiKey) → Option k.Value
  | devices => none
  | apiKey => cli.forwardApiKey
  | token => cli.ingestToken
  | forwardEnable => some cli.forwardEnable
  | forwardHost => some cli.forwardHost
  | forwardPort => some cli.forwardPort
  | forwardDatabase => some cli.forwardDatabase
  | batchSize => some cli.pgBatchSize
  | flushInterval => some cli.pgFlushInterval
  | queueSize => some cli.pgQueueSize
  | cacheMaxMb => some cli.pgCacheMaxMb
  | queueFlushPct => some cli.pgQueueFlushPct
  | ingestEnable => some cli.ingestEnable
  | ingestPort => some cli.ingestPort
  | logLevel => some cli.logLevel

end UiKey

section Json

variable {J : Type}

/-- One setting as it stands. -/
structure Setting (J : Type) where
  key : UiKey
  value : J
  secret : Bool
  source : Source

/-- A value as it is shown, a secret's apart; what resolving decided comes before what the layers
said. -/
def listedValue (json : JsonLib J) (shown : List ListedDevice → J) (layered : Cli)
    (file : Option FileConfig) (settings : Settings) : UiKey → J
  | .devices => shown (settings.devices.map Device.listed)
  | .forwardEnable => json.bool.toValue settings.forward.isSome
  | .ingestEnable => json.bool.toValue settings.ingest.isSome
  | .logLevel => json.string.toValue settings.logLevel.asStr
  | k => k.encode json ((file.bind (UiKey.fileValue · k)).or (UiKey.flagValue layered k))

/-- `ui::listing`. -/
def listing (json : JsonLib J) (shown : List ListedDevice → J) (cli : Cli)
    (file : Option FileConfig) (ui : UiConfig) (env : Env) (settings : Settings) :
    List (Setting J) :=
  UiKey.listed.map fun k =>
    let source := sourceOf cli file ui env k
    { key := k
      value := if k.secret then json.bool.toValue (source ≠ .default)
        else listedValue json shown (ui.beneath cli) file settings k
      secret := k.secret
      source }

end Json

end WireTap.Daemon
