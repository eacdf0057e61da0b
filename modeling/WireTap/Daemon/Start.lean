import Mathlib.Algebra.Order.Ring.Unbundled.Rat
import Mathlib.Algebra.Ring.Rat
import WireTap.Archive.Batcher
import WireTap.Daemon.Settings

/-!
# What a start runs on

`ui.toml` is read, and the settings are resolved with what the UI wrote and, if that would stop the
start, without it (`resolveAtStart`): a daemon that does not start has no socket to repair the file
through.  Then a pipeline is built for each database (`startAll`).

How `toml` reads and writes a `UiConfig` is a parameter (`TomlLib`).

Left out: opening the caches, and rounding a duration to the nanosecond.  An allocation that does
not overflow is made.
-/

namespace WireTap.Daemon

/-! ### Texts -/

/-- `SettingsError`'s text. -/
def SettingsError.text (lib : SettingsLib) : SettingsError → String
  | retiredPostgresSink =>
    "the direct-to-PostgreSQL sink has been removed: the gateway owns the " ++
    "database and nothing else writes to it.\n" ++
    "Set [postgres].enable = false and configure [forward] to point at a " ++
    "gateway. To move an existing archive, use tools/migrate_to_timescale.py.\n" ++
    "Refusing to start rather than capturing with no archive."
  | badDirection d => s!"direction must be \"rx\" or \"tx\", got {lib.debug d}"
  | badLogLevel l =>
    "log level must be one of [\"DEBUG\", \"INFO\", \"WARNING\", \"ERROR\"], got " ++ lib.debug l
  | io path err => s!"cannot read {path}: {err}"
  | parse e => e
  | device index what => s!"device[{index}]: {what}"
  | badDatabase d =>
    s!"database name {lib.debug d} is not what the gateway accepts: " ++
    "a lowercase letter, then lowercase letters, digits or _, at most 63"
  | badAllowedClient why => s!"allowed_clients: {why}"
  | badDaemonId id =>
    if id.isEmpty then
      "[forward] daemon_id defaults to the host's short name, and this host has " ++
      "none; set daemon_id"
    else
      s!"[forward] daemon_id {lib.debug id} is not what the gateway accepts: a lowercase " ++
      "letter or digit, then lowercase letters, digits, ., _ or -, at most 63. " ++
      "It defaults to the host's short name; set daemon_id to name this daemon"

/-- `RunError`'s text. -/
def RunError.text : RunError → String
  | nothingToDo => "no devices configured and the ingest listener is disabled; nothing to do"
  | ingestNeedsForward =>
    "the ingest listener is enabled but [forward] is not: frames pushed by a " ++
    "device would be acknowledged and then dropped. Configure a gateway."
  | noDeviceCapture =>
    "capturing from a device needs Linux; this build can still run an ingest-only " ++
    "server, which needs no local hardware"

/-! ### The file -/

/-- What is at `ui.toml`'s path. -/
inductive UiFile where
  | absent
  | text (text : String)
  /-- Reading it fails. -/
  | unreadable (err : String)
  deriving DecidableEq

/-- What `toml` makes of a text and of a `UiConfig`. -/
structure TomlLib where
  /-- An error has a message, and the byte it is at if it has one. -/
  fromStr : String → Except (Option Nat × String) UiConfig
  toStr : UiConfig → Except String String

/-- Why a text did not parse, less the line itself, which may hold a secret. -/
def parseFailure (path text : String) (e : Option Nat × String) : String :=
  let line := match e.1 with
    | some start =>
      let n := ((Lib.toUtf8 text.toList).take start).count 10
      s!" line {n + 1}"
    | none => ""
  s!"{path}{line}: {e.2}"

/-- `ui::load`: absent is empty. -/
def load (toml : TomlLib) (path : String) : UiFile → Except String UiConfig
  | .text text => (toml.fromStr text).mapError (parseFailure path text)
  | .absent => .ok default
  | .unreadable err => .error s!"{path}: {err}"

/-! ### A start -/

/-- What would stop a start on these settings. -/
def stopping (lib : SettingsLib) (resolved : Except SettingsError Resolved) : Option String :=
  match resolved with
  | .ok r => match check lib r.settings with
    | .ok _ => none
    | .error e => some e.text
  | .error e => some (e.text lib)

/-- The settings without the UI's, with why. -/
def ignoring (why : String) (r : Resolved) : Resolved :=
  { r with warnings := r.warnings ++ [.uiIgnored why] }

/-- A start on what the UI wrote, or without it where that would stop the start and leaving it out
would not. -/
def resolveWith (lib : SettingsLib) (cli : Cli) (file : Option FileConfig) (path : Option String)
    (env : Env) (ui : UiConfig) : Except SettingsError (Resolved × UiConfig) :=
  let with_ := Settings.resolve lib cli file (some ui) env
  match stopping lib with_ with
  | none => with_.map (·, ui)
  | some why => do
    let without ← Settings.resolve lib cli file none env
    let why := (path.map (· ++ ": ")).getD "" ++ why
    match check lib without.settings, with_ with
    | .error _, .ok r => pure (r, ui)
    | _, _ => pure (ignoring why without, default)

/-- `ui::resolve_at_start`. -/
def resolveAtStart (lib : SettingsLib) (toml : TomlLib) (cli : Cli) (file : Option FileConfig)
    (path : Option String) (disk : UiFile) (env : Env) :
    Except SettingsError (Resolved × UiConfig) :=
  match path.elim (.ok default) (load toml · disk) with
  | .ok ui => resolveWith lib cli file path env ui
  | .error why => (Settings.resolve lib cli file none env).map fun r => (ignoring why r, default)

/-! ### Pipelines -/

/-- `Duration::from_secs_f64(x.max(0.0))`, in seconds; none is a panic.  `max` of a NaN is the other
operand. -/
def F64.duration : F64 → Option Rat
  | nan => some 0
  | infinite negative => if negative then some 0 else none
  | finite v => if v < 2 ^ 64 then some (max v 0) else none

/-- `Semaphore::MAX_PERMITS`: a longer queue `mpsc::channel` panics on. -/
def maxPermits : Nat := 2 ^ 61 - 1

/-- How many pointers fit in `isize::MAX` bytes: `Vec::with_capacity` panics on more. -/
def maxPointers : Nat := 2 ^ 60 - 1

/-- What `channel` makes. -/
structure Pipeline (S C α : Type) where
  batcher : Batcher S C α
  flushInterval : Rat
  statsInterval : Rat

/-- `size` of `cap` is at `queue_flush_pct`. -/
def filling (queueFlushPct : UInt8) (size cap : Nat) : Bool :=
  0 < queueFlushPct && queueFlushPct.toNat * cap ≤ size * 100

section Pipeline

variable {S C α : Type}

/-- `archive::channel`; none is a panic. -/
def channel (sink : S) (cache : C) (b : Batching) (statsInterval : F64) :
    Option (Pipeline S C α) :=
  if maxPermits < max b.queueSize.toNat 1 then none
  else
    b.flushInterval.duration.bind fun flushInterval =>
      statsInterval.duration.map fun statsInterval =>
        { batcher := WireTap.channel sink cache
            ⟨b.size.toNat, b.queueSize.toNat, filling b.queueFlushPct⟩
          flushInterval
          statsInterval }

/-- The room `next_batch` makes for a batch; none is a panic. -/
def Pipeline.batchRoom (p : Pipeline S C α) : Option Nat :=
  if maxPointers < p.batcher.batchSize then none else some p.batcher.batchSize

/-- `Archives::start_all`, once the caches are open. -/
def startAll (opened : Forward → S × C) (statsInterval : F64) :
    List Forward → Option (List (String × Pipeline S C α))
  | [] => some []
  | f :: fs =>
    (channel (opened f).1 (opened f).2 f.batching statsInterval).bind fun p =>
      (startAll opened statsInterval fs).map ((f.database, p) :: ·)

end Pipeline

end WireTap.Daemon
