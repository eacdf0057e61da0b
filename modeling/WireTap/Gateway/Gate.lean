import WireTap.Gateway.Buffer

/-!
# The schema gate

Only a database whose `schema_state` is `Current` serves.  Seven paths write that state, each from a
look of its own at the database: `migrate_all`, `migrate_one`/`migrate_from`, `start_migration`, the
retry in `require_current`, `recheck_if_behind`, `create_database` and `finish_import`.

This is one database with every path that is under way on it, as far as the order of the paths'
looks, of what they do to the database and of what they write matters; `WireTap.Gateway.Databases`
has the requests around them.  A path runs from one `await` to the next in one step,
`Gate.advance`, and a run is any interleaving, with batches being buffered and the version changed
by hand in between.

`detect_version` can answer any integer.  Rows of `schema_version` are never deleted, and the only
one written is the last statement of `init_schema.sql`.

Left out: the pools, the rollup beyond `capture_frame_drained`, the texts of errors, and whether the
database exists: a path stopped for a reason of its own meets a failure.
-/

namespace WireTap.Gateway

/-- `SCHEMA_VERSION`, among the versions a database can be at. -/
def thisVersion : Int := schemaVersion

/-- Whether `detect_version` answers more than `SCHEMA_VERSION`. -/
def newer : Option Int → Bool
  | none => false
  | some v => thisVersion < v

/-- The last statement of `init_schema.sql`, as `detect_version` sees it: the row is inserted unless
it is there, and the greatest counts. -/
def stamp : Option Int → Option Int
  | none => some thisVersion
  | some v => some (max v thisVersion)

/-- The migrations that come after this version: what `schema::migrate` runs before the schema
itself. -/
def pendingMigrations : Option Int → List Int
  | none => []
  | some v => [1, 2, 3, 4, 5].filter fun m => v < m

/-- What statements of a migration or of the schema can make of `detect_version`'s answer.  One of a
version table that has this version, or a greater one, stays as it is. -/
def leaves (before after : Option Int) : Bool :=
  after = before || (before ≠ some thisVersion && !newer before && !newer after)

/-- A database, as a connection sees it. -/
structure GateDb where
  /-- What `detect_version` answers. -/
  version : Option Int
  /-- There is a `capture_frame_pending`. -/
  pending : Bool
  /-- There is a `capture_frame_drained`. -/
  drained : Bool
  /-- Transactions of `buffer_rows` on their way into the buffer. -/
  writers : Nat
  deriving DecidableEq

/-- `DbSchemaState`, without the times. -/
inductive SchemaState where
  | current (version : Int)
  | pending (version : Int)
  | migrating
  | failed (version : Int)
  deriving DecidableEq

def SchemaState.isCurrent : SchemaState → Bool
  | current _ => true
  | _ => false

/-- Who drains: `migrate_holding` of a database found at this version, `recheck_if_behind`, or
`abandon_import`. -/
inductive Drainer where
  | migration (at_ : Option Int)
  | recheck
  | abandon
  deriving DecidableEq

/-- Where a path is. -/
inductive GatePath where
  /-- `migrate_all` probes the database. -/
  | sweeping
  /-- It found it at `SCHEMA_VERSION`: `buffer_left` is next. -/
  | looking
  /-- `set_state` is next and then, with a version, `migrate_from`. -/
  | setting (state : SchemaState) (found : Option Int)
  /-- `create_database` probes a database that was there. -/
  | creating
  /-- `migrate_from` waits for the migration lock. -/
  | queued (at_ : Option Int)
  /-- It has the lock. -/
  | locked (at_ : Option Int)
  /-- `migrate_holding` begins. -/
  | holding (at_ : Option Int)
  /-- `schema::migrate` runs the migrations. -/
  | migrating (at_ : Option Int)
  /-- It calls `apply_capture_schema`. -/
  | applying (at_ : Option Int)
  /-- `drain_pending` asks for the buffer. -/
  | draining (by_ : Drainer)
  /-- It found one, and waits for `BUFFER_LOCK`. -/
  | emptying (by_ : Drainer)
  /-- `refresh_drained` asks for the spans. -/
  | refreshing (by_ : Drainer)
  /-- It found some. -/
  | dropping (by_ : Drainer)
  /-- `migrate_holding` sets `Current`. -/
  | serving
  /-- `migrate_from` or `migrate_holding` sets `Failed`. -/
  | failing (version : Int)
  /-- `start_migration` looks at the state. -/
  | starting
  /-- It tries the migration lock. -/
  | locking
  /-- It has the lock, and probes. -/
  | startProbing
  /-- It claims the database. -/
  | claiming (version : Int)
  /-- `recheck_if_behind` looks at the state. -/
  | rechecking
  /-- It probes. -/
  | probing
  /-- It writes what it found. -/
  | rechecked (state : SchemaState)
  /-- `swap_in`. -/
  | swapping (replace : Bool)
  /-- `swap_in` has replaced the database, and sets `Migrating`. -/
  | swapped
  | finished
  deriving DecidableEq

/-- The path has the database's migration lock. -/
def GatePath.holdsLock : GatePath → Bool
  | locked _ | holding _ | migrating _ | applying _ | serving | failing _ | startProbing
  | claiming _ => true
  | draining (.migration _) | emptying (.migration _) | refreshing (.migration _)
  | dropping (.migration _) => true
  | _ => false

/-- Where a drain that fails leaves its caller. -/
def Drainer.failed : Drainer → GatePath
  | migration at_ => .failing (at_.getD 0)
  | recheck => .finished
  | abandon => .setting (.pending thisVersion) none

/-- Where `drain_pending` and `refresh_drained` leave their caller. -/
def Drainer.done : Drainer → GatePath
  | migration _ => .serving
  | recheck => .rechecked (.current thisVersion)
  | abandon => .finished

/-- What a path meets in its next step. -/
structure GateMet where
  /-- It is answered, and without an error. -/
  ok : Bool := true
  /-- What failed took effect all the same. -/
  took : Bool := false
  /-- Where a migration, or a schema that fails, leaves the version. -/
  version : Option Int := none
  /-- `FAILED_RETRY_INTERVAL` has passed. -/
  elapsed : Bool := true
  deriving DecidableEq

/-- One database, and the gateway's paths on it. -/
structure Gate where
  autoMigrate : Bool
  db : GateDb
  state : Option SchemaState
  paths : List GatePath
  /-- The database at each setting of `Current`: for the specifications. -/
  served : List GateDb
  /-- Its version at each `apply_capture_schema`: for the specifications. -/
  applied : List (Option Int)
  deriving DecidableEq

namespace Gate

/-- A gateway that has just started. -/
def init (autoMigrate : Bool) (db : GateDb) : Gate := ⟨autoMigrate, db, none, [], [], []⟩

/-- The state is written, by `set_state` or under the lock of `schema_state`. -/
def setState (s : Gate) (state : SchemaState) : Gate :=
  { s with state := some state, served := if state.isCurrent then s.served ++ [s.db] else s.served }

/-- `recheck_if_behind`'s test. -/
def behind (s : Gate) (elapsed : Bool) : Bool :=
  match s.state with
  | some (.pending _) => true
  | some (.failed _) => !s.autoMigrate && elapsed
  | none => !s.autoMigrate
  | _ => false

/-- `start_migration`'s refusal. -/
def settled (s : Gate) : Bool :=
  match s.state with
  | some (.current _) | some .migrating => true
  | _ => false

/-- Nobody has the migration lock. -/
def lockFree (s : Gate) : Bool := s.paths.all fun p => !p.holdsLock

/-! ### The probes -/

/-- `migrate_all`'s first pass.  One behind is swept again only with automatic migration on. -/
def sweep (s : Gate) (m : GateMet) : GatePath :=
  if !m.ok then .setting (.failed 0) none
  else
    match s.db.version with
    -- Carries no capture schema, so it is not ours.
    | none => .finished
    | some v =>
      if v = thisVersion then .looking
      else .setting (.pending v) (if s.autoMigrate then some v else none)

/-- `migrate_all` at a database it found at `SCHEMA_VERSION`: an error counts as a buffer left. -/
def bufferLeft (s : Gate) (m : GateMet) : GatePath :=
  if m.ok && !(s.db.pending || s.db.drained) then
    .setting (.current thisVersion) (some thisVersion)
  else .setting (.pending thisVersion) (some thisVersion)

/-- `create_database` at a database that was there, automatic migration being off. -/
def createProbe (s : Gate) (m : GateMet) : GatePath :=
  if !m.ok then .finished
  else
    match s.db.version with
    | none => .queued none
    | some v => if v ≠ thisVersion then .setting (.pending v) none else .queued (some v)

/-- `migrate_from` under the lock: a version its caller found is taken if it is `SCHEMA_VERSION`,
and asked again otherwise. -/
def migrateFrom (s : Gate) (m : GateMet) (at_ : Option Int) : GatePath :=
  if at_ = some thisVersion then .holding at_
  else if m.ok then .holding s.db.version
  else .failing (at_.getD 0)

/-- `start_migration` under the lock. -/
def startProbe (s : Gate) (m : GateMet) : GatePath :=
  if !m.ok then .finished
  else
    match s.db.version with
    | none => .finished
    | some v => .claiming v

/-- `recheck_if_behind` at a database whose state is behind. -/
def recheckProbe (s : Gate) (m : GateMet) : GatePath :=
  if !m.ok then .finished
  else
    match s.db.version with
    | none => .finished
    | some v => if v = thisVersion then .draining .recheck else .rechecked (.pending v)

/-! ### What the paths do to the database -/

/-- `schema::migrate` after its migrations. -/
def migrated (m : GateMet) (at_ : Option Int) : GatePath :=
  if m.ok then .applying at_ else .failing (at_.getD 0)

/-- The migrations of `schema::migrate`. -/
def runMigrations (s : Gate) (m : GateMet) (at_ : Option Int) : Option (Gate × GatePath) :=
  if pendingMigrations at_ = [] then some (s, migrated m at_)
  else if leaves s.db.version m.version then
    some ({ s with db.version := m.version }, migrated m at_)
  else none

/-- `apply_capture_schema`. -/
def applyCaptureSchema (s : Gate) (m : GateMet) (at_ : Option Int) : Option (Gate × GatePath) :=
  let applied := s.applied ++ [s.db.version]
  if m.ok then
    some ({ s with db.version := stamp s.db.version, applied }, .draining (.migration at_))
  else if leaves s.db.version m.version then
    some ({ s with db.version := m.version, applied }, .failing (at_.getD 0))
  else none

/-- The drain's transaction: the buffer goes, and its span is recorded. -/
def empty (s : Gate) : Gate :=
  if s.db.pending then { s with db.pending := false, db.drained := true } else s

/-- `drain_pending` after it found a buffer: it waits for the writers, and asks again. -/
def drainPending (s : Gate) (m : GateMet) (by_ : Drainer) : Option (Gate × GatePath) :=
  if !m.ok && !m.took then some (s, by_.failed)
  else if s.db.writers ≠ 0 then none
  else some (s.empty, if m.ok then .refreshing by_ else by_.failed)

/-- `refresh_drained` after it found spans: they are refreshed, and the table is dropped. -/
def dropDrained (s : Gate) (m : GateMet) (by_ : Drainer) : Gate × GatePath :=
  if m.ok then ({ s with db.drained := false }, by_.done)
  else (if m.took then { s with db.drained := false } else s, by_.failed)

/-- `swap_in`: the staging database, which `begin_import` made at `SCHEMA_VERSION`, takes the
database's place, with the buffer of the one it replaces moved across; nothing stays connected.  If
that fails, `abandon_import` drains what was held. -/
def swapIn (s : Gate) (m : GateMet) (replace : Bool) : Gate × GatePath :=
  if m.ok then
    ({ s with db := ⟨some thisVersion, replace && s.db.pending, false, 0⟩ },
      if replace then .swapped else .queued none)
  else (s, if replace then .draining .abandon else .finished)

/-! ### Steps -/

/-- A path runs to its next `await`. -/
def advance (s : Gate) (m : GateMet) : GatePath → Option (Gate × GatePath)
  | .sweeping => some (s, s.sweep m)
  | .looking => some (s, s.bufferLeft m)
  | .setting state found =>
    some (s.setState state, if found.isSome then .queued found else .finished)
  | .creating => some (s, s.createProbe m)
  | .queued at_ => if s.lockFree then some (s, .locked at_) else none
  | .locked at_ => some (s, s.migrateFrom m at_)
  | .holding at_ =>
    some (if at_ = some thisVersion then s else s.setState .migrating, .migrating at_)
  | .migrating at_ => s.runMigrations m at_
  | .applying at_ => s.applyCaptureSchema m at_
  | .draining by_ =>
    some (s, if !m.ok then by_.failed else if s.db.pending then .emptying by_ else .refreshing by_)
  | .emptying by_ => s.drainPending m by_
  | .refreshing by_ =>
    some (s, if !m.ok then by_.failed else if s.db.drained then .dropping by_ else by_.done)
  | .dropping by_ => some (s.dropDrained m by_)
  | .serving => some (s.setState (.current thisVersion), .finished)
  | .failing version => some (s.setState (.failed version), .finished)
  | .starting => some (s, if s.settled then .finished else .locking)
  | .locking => some (s, if s.lockFree then .startProbing else .finished)
  | .startProbing => some (s, s.startProbe m)
  | .claiming version =>
    if s.settled then some (s, .finished)
    else some (s.setState .migrating, .holding (some version))
  | .rechecking => some (s, if s.behind m.elapsed then .probing else .finished)
  | .probing => some (s, s.recheckProbe m)
  | .rechecked state => some (if s.behind m.elapsed then s.setState state else s, .finished)
  | .swapping replace => some (s.swapIn m replace)
  | .swapped => some (s.setState .migrating, .queued none)
  | .finished => none

def spawn (s : Gate) (p : GatePath) : Gate := { s with paths := s.paths ++ [p] }

/-- `require_current`: a database never met, and one whose failure is to be retried, is migrated in
the background. -/
def requireCurrent (s : Gate) (elapsed : Bool) : Gate :=
  match s.state with
  | some (.failed _) =>
    if s.autoMigrate && elapsed then (s.setState .migrating).spawn (.queued none) else s
  | some _ => s
  | none => if s.autoMigrate then s.spawn (.queued none) else s

end Gate

inductive GateEvent where
  /-- `migrate_all` comes to the database. -/
  | sweep
  /-- `migrate_one`. -/
  | migrate
  /-- `start_migration`. -/
  | start
  /-- `require_current`. -/
  | request (elapsed : Bool)
  /-- `recheck_if_behind`. -/
  | recheck
  /-- `create_database`, which made the database or found it there. -/
  | create (created : Bool)
  /-- `finish_import`. -/
  | finishImport (replace : Bool)
  /-- A path goes on. -/
  | advance (i : Nat) (m : GateMet)
  /-- A `buffer_rows` finds that its batch goes into the buffer. -/
  | buffer (held : Bool)
  /-- One of these commits. -/
  | commit
  /-- One of these fails. -/
  | abort
  /-- The schema is changed by hand. -/
  | byHand (version : Option Int)
  /-- The gateway dies, and starts again. -/
  | restart (autoMigrate : Bool)
  deriving DecidableEq

namespace Gate

/-- One step; `none` where it cannot happen. -/
def step (s : Gate) : GateEvent → Option Gate
  | .sweep => some (s.spawn .sweeping)
  | .migrate => some (s.spawn (.queued none))
  | .start => some (s.spawn .starting)
  | .request elapsed => some (s.requireCurrent elapsed)
  | .recheck => some (s.spawn .rechecking)
  | .create created =>
    if created then
      -- It is empty.
      if s.db.version = none ∧ !s.db.pending ∧ !s.db.drained then some (s.spawn (.queued none))
      else none
    else some (s.spawn (if s.autoMigrate then .queued none else .creating))
  | .finishImport replace => some (s.spawn (.swapping replace))
  | .advance i m =>
    match s.paths[i]? with
    | none => none
    | some p => (s.advance m p).map fun (s', p') => { s' with paths := s'.paths.set i p' }
  | .buffer held =>
    if held || s.db.version ≠ some thisVersion then some { s with db.writers := s.db.writers + 1 }
    else none
  | .commit =>
    if s.db.writers = 0 then none
    else some { s with db.pending := true, db.writers := s.db.writers - 1 }
  | .abort =>
    if s.db.writers = 0 then none else some { s with db.writers := s.db.writers - 1 }
  | .byHand version => some { s with db.version := version }
  | .restart autoMigrate =>
    some { s with autoMigrate, state := none, paths := [], db.writers := 0 }

end Gate

end WireTap.Gateway
