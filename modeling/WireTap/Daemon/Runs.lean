import Mathlib.Algebra.Group.Nat.Defs
import Mathlib.Logic.Function.Basic
import WireTap.Archive.Batcher
import WireTap.Cache.Adopt
import WireTap.Daemon.CacheFiles
import WireTap.Daemon.Pipelines
import WireTap.Ingest.Session
import WireTap.Wire.Sample

/-!
# One run after another

A state directory outlives a run: what a pipeline could not send is in its cache when the next run
opens one at the same path, for whatever database its settings say.

A run is its settings and the `Life` of each of its pipelines: what SQLite and the file system answer,
what the gateway does, what is enqueued and when, and for how many passes the worker goes on.  A life
is `archive::start` (the cache opened, a legacy one adopted) and then `run`.  A process that dies in
the middle of a pass leaves what a pass would whose later operations all fail, and one that dies
before a pipeline has started one that does not open.

The pipelines of a run share no file (`caches_apart_iff` says when they do), so their lives can be
taken one by one, the default's first as `start_all` has it.  Files are told apart by the components of
their paths; a link from one to another is not modelled here.
-/

namespace WireTap.Daemon

open Lib (Path.Component Path.components)

variable {α : Type}

/-- What a pipeline is answered in one run. -/
structure Life (α : Type) where
  /-- Whether the cache can be opened at all. -/
  opens : Bool := true
  host : WireTap.Host := {}
  /-- For the call of `adopt`. -/
  answers : Answers α := {}
  /-- The last connection to a database checkpoints its log when it is closed. -/
  checkpoints : answers.legacyLags = none ∧ answers.ownLags = none
  /-- Its dead letters are the directory's. -/
  outside : Outside α
  others : List (List (Other α)) := []
  filling : Nat → Nat → Bool := fun _ _ => false
  passes : Nat

/-- What one pipeline sent in one run, and the databases its cache had been opened for. -/
structure Sent (α : Type) where
  database : String
  sources : List String
  log : List (Event α)
  deriving DecidableEq

/-- Which file a path leads to. -/
def fileAt (path : String) : List Path.Component := Path.components path.toList

/-- The caches on disk, and what has happened so far, for the specifications: no function of the model
reads that. -/
structure StateDir (α : Type) where
  files : List Path.Component → Option (Table α)
  /-- The databases whose pipelines have had the file as their cache, or as their dead letters, since
  it was last found empty. -/
  sources : List Path.Component → List String := fun _ => []
  /-- What the queue of a database's pipeline has accepted. -/
  enqueued : String → List α := fun _ => []
  /-- What calls of `adopt` have put into a cache. -/
  adopted : List α := []
  sent : List (Sent α) := []

namespace StateDir

/-- The file at a path. -/
def file (dir : StateDir α) (path : String) : Option (Table α) := dir.files (fileAt path)

def setFile (dir : StateDir α) (path : String) (file : Option (Table α)) : StateDir α :=
  { dir with files := Function.update dir.files (fileAt path) file }

def noteSources (dir : StateDir α) (path : String) (sources : List String) : StateDir α :=
  { dir with sources := Function.update dir.sources (fileAt path) sources }

def noteAdopted (dir : StateDir α) (frames : List α) : StateDir α :=
  { dir with adopted := dir.adopted ++ frames }

/-- The databases a file is from, if there is anything in it. -/
def origins (dir : StateDir α) (path : String) : List String :=
  if (framesIn (dir.file path)).isEmpty then [] else dir.sources (fileAt path)

/-- The cache at `path`, and the dead letters beside it, are now those of `database`. -/
def claim (dir : StateDir α) (path database : String) : StateDir α :=
  let sources := database :: dir.origins path
  (dir.noteSources path sources).noteSources (deadLetterPath path)
    (dir.origins (deadLetterPath path) ++ sources)

end StateDir

/-- `SqliteCache::open(path, max_mb)`. -/
def openCache (dir : StateDir α) (f : Forwarding) (host : WireTap.Host) : SqliteCache α :=
  .opened ((dir.file f.batching.cachePath).getD .empty)
    (min (f.batching.cacheMaxMb.toNat * (1024 * 1024)) (2 ^ 64 - 1)) host

/-- The legacy cache `start` adopts, unless it is the one in use. -/
def legacyOf (f : Forwarding) : Option String :=
  f.batching.legacyCachePath.filter fun path => ¬ SamePath path f.batching.cachePath

/-- Whether the process died in the call. -/
def died {β : Type} : EStateM.Result Halt (Site α) β → Bool
  | .error .crashed _ => true
  | _ => false

/-- `archive::start`, up to the worker: no cache if the process died. -/
def StateDir.start (dir : StateDir α) (f : Forwarding) (life : Life α) :
    Option (SqliteCache α) × StateDir α :=
  let cache := openCache dir f life.host
  let dir := (dir.claim f.batching.cachePath f.database).setFile f.batching.cachePath cache.file
  match legacyOf f with
  | none => (some cache, dir)
  | some path =>
    let result := cache.adopting (dir.file path) life.answers
    let site := adoptLeaves result
    let moved := (framesIn site.own.file).drop (framesIn cache.file).length
    (if died result then none else some site.own,
      ((dir.setFile f.batching.cachePath site.own.file).setFile path site.legacy.file).noteAdopted
        moved)

/-- A batch was quarantined. -/
def Event.isQuarantined : Event α → Bool
  | .quarantined _ => true
  | _ => false

section Worker

variable [Protocol α] [CatalogueFormat]

/-- The worker of a pipeline, before its first pass. -/
def StateDir.worker (dir : StateDir α) (f : Forwarding) (life : Life α) (cache : SqliteCache α) :
    World (ForwardSink α) (SqliteCache α) α :=
  let dead := (dir.file (deadLetterPath f.batching.cachePath)).getD .empty
  { channel (newSink f { life.outside with dead }) cache
      ⟨f.batching.size.toNat, f.batching.queueSize.toNat, life.filling⟩ with
    turns := life.others }

/-- The worker once it has done its passes, or returned. -/
def StateDir.worked (dir : StateDir α) (f : Forwarding) (life : Life α) (cache : SqliteCache α) :
    World (ForwardSink α) (SqliteCache α) α :=
  ((run life.passes).run (dir.worker f life cache)).2

/-- What the worker leaves.  The dead-letter file is made when there is something to put in it. -/
def StateDir.work (dir : StateDir α) (f : Forwarding) (life : Life α) (cache : SqliteCache α) :
    StateDir α :=
  let path := f.batching.cachePath
  let w := dir.worked f life cache
  let dead := if (dir.file (deadLetterPath path)).isSome || w.sink.log.any Event.isQuarantined
    then some w.sink.dead else none
  { (dir.setFile path w.cache.file).setFile (deadLetterPath path) dead with
    enqueued := Function.update dir.enqueued f.database
      (dir.enqueued f.database ++ w.history.accepted)
    sent := dir.sent ++ [⟨f.database, dir.sources (fileAt path), w.sink.log⟩] }

/-- A pipeline, from its start on. -/
def StateDir.live (dir : StateDir α) (f : Forwarding) (life : Life α) : StateDir α :=
  if life.opens then
    match dir.start f life with
    | (none, dir) => dir
    | (some cache, dir) => dir.work f life cache
  else dir

/-- A run of the daemon. -/
structure DaemonRun (α : Type) where
  settings : Settings
  life : Forwarding → Life α

/-- A run whose pipelines share no file. -/
def StateDir.afterRun (lib : SettingsLib) (dir : StateDir α) (r : DaemonRun α) :
    Option (StateDir α) :=
  if (caches (r.settings.forwards lib)).Pairwise Apart then
    some ((r.settings.forwardings lib).foldl (fun dir f => dir.live f (r.life f)) dir)
  else none

end Worker

/-! ### Where samples come from -/

/-- `matches!(sample, Sample::Serial(_))`. -/
def isSerial : Wire.Sample → Bool
  | .serial _ => true
  | _ => false

/-- What is enqueued on the pipeline of `database`: the streams that land there, as `serial_tap` and
the CAN reader make samples of them, and what clients push to the ingest listener, which has the
default's handle. -/
inductive Feeds (s : Settings) (database : String) : Wire.Sample → Prop where
  | can {d : Device} (c : Wire.CanSample) :
      d ∈ s.devices → (.can, database) ∈ d.streams → Feeds s database (.can c)
  | framed {d : Device} (m : Wire.ModbusSample) :
      d ∈ s.devices → (.framed, database) ∈ d.streams → Feeds s database (.modbus m)
  | raw {d : Device} (r : Wire.SerialSample) :
      d ∈ s.devices → (.raw, database) ∈ d.streams → Feeds s database (.serial r)
  | pushed {session : Ingest.Session Wire.Sample} {samples : List Wire.Sample} {x : Wire.Sample} :
      s.ingest.isSome = true → database = s.defaultDatabase →
        session.relaysRawSerial = s.carriesRawSerial s.defaultDatabase →
        x ∈ ((Ingest.batch isSerial samples).run session).2.accepted → x ∉ session.accepted →
        Feeds s database x

/-- What the others enqueue on each pipeline of the run comes from the settings' sources. -/
def DaemonRun.Fed (lib : SettingsLib) (r : DaemonRun Wire.Sample) : Prop :=
  ∀ f ∈ r.settings.forwardings lib, ∀ turn ∈ (r.life f).others, ∀ x, .enqueue x ∈ turn →
    Feeds r.settings f.database x

end WireTap.Daemon
