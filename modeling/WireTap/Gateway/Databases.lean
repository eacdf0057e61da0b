import WireTap.Gateway.Buffer

/-!
# What the gateway does with a database it finds

`Databases` keeps a schema state for every database it has met.  This is one database's part of
that, and everything that can lead to `schema::migrate` on it without an admin or an import asking:
a request's `pool`, a batch's `route`, a `HELLO`'s `ensure_database`, the startup sweep,
`start_migration`, and the migrations they spawn.  A task runs from one `await` to the next in one
step, `Tracked.runTask`; a run is any interleaving of tasks, with time passing in between and
another application creating the database if nobody has.

The name is valid, and no import is under way.  The `route` a `HELLO` goes on to once it has created
the database is an `ingest` of its own.  Left out: the texts of refusals, the rollup, and the
progress a migration reports.
-/

namespace WireTap.Gateway

/-- `DbSchemaState`. -/
inductive DbSchemaState where
  | current (version : Nat)
  | pending (version : Nat)
  | migrating (since : Nat)
  | failed (version : Nat) (error : String) (since : Nat)
  deriving DecidableEq

/-- `FAILED_RETRY_INTERVAL`, in seconds. -/
def failedRetryInterval : Nat := 30

/-- Who created a database. -/
inductive Origin where
  /-- `create_database`, of this gateway. -/
  | gateway
  /-- Another application on the cluster. -/
  | other
  deriving DecidableEq

/-- Where a task is. -/
inductive DbTask where
  /-- `recheck_if_behind` is next; a request goes on to `require_current`. -/
  | checking (request : Bool)
  /-- `recheck_if_behind` asks for the version. -/
  | probing (request : Bool)
  /-- It has found this. -/
  | rechecked (found : DbSchemaState) (request : Bool)
  /-- `require_current` is next. -/
  | requiring
  /-- `migrate_from` waits for the migration lock, with the version its caller found. -/
  | queued (found : Option Nat)
  /-- It has the lock. -/
  | locked (found : Option Nat)
  /-- `migrate_holding` calls `schema::migrate` next. -/
  | migrating (found : Option Nat)
  /-- `migrate_holding` records how that went. -/
  | settling (found : Option Nat) (error : Option String)
  /-- The sweep probes the database. -/
  | sweeping
  /-- The sweep found it a capture database. -/
  | ours (version : Nat)
  /-- `start_migration` has the lock, and probes. -/
  | starting
  /-- It claims the database. -/
  | claiming (version : Nat)
  /-- `create_database`, of a `HELLO` that found no such database, waits for `create_lock`. -/
  | creating
  /-- It has the lock, and asks again whether there is one. -/
  | asking
  /-- `CREATE DATABASE` is next. -/
  | making
  /-- It has made the database or found it, and released the lock. -/
  | created (made : Bool)
  | finished
  deriving DecidableEq

/-- The task has the database's migration lock. -/
def DbTask.holdsLock : DbTask → Bool
  | locked _ | migrating _ | settling .. | starting | claiming _ => true
  | _ => false

/-- The task has `create_lock`. -/
def DbTask.holdsCreateLock : DbTask → Bool
  | asking | making => true
  | _ => false

/-- What a task meets in its next step. -/
structure Outcome where
  /-- The connection or the statement fails. -/
  error : Option String := none
  /-- `schema::migrate` was called before that; `CREATE DATABASE` was carried out. -/
  called : Bool := false
  /-- A buffer, or a drained span, is left. -/
  bufferLeft : Bool := false
  deriving DecidableEq

/-- One database, as the cluster has it and as the gateway tracks it. -/
structure Tracked where
  autoMigrate : Bool
  /-- `auto_create_databases`. -/
  autoCreate : Bool
  /-- Nobody's: it does not exist. -/
  origin : Option Origin
  /-- What `detect_version` answers. -/
  version : Option Nat
  state : Option DbSchemaState
  /-- A pool is cached. -/
  pooled : Bool
  now : Nat
  tasks : List DbTask
  /-- How often `schema::migrate` was called on it. -/
  migrations : Nat
  deriving DecidableEq

namespace Tracked

/-- A database that is not the gateway's: it carries no capture schema, if it exists, and has not
been met. -/
def foreign (autoMigrate autoCreate «exists» : Bool) : Tracked where
  autoMigrate
  autoCreate
  origin := if «exists» then some .other else none
  version := none
  state := none
  pooled := false
  now := 0
  tasks := []
  migrations := 0

/-- `set_state`: leaving `Current` drops the pool. -/
def setState (s : Tracked) (state : DbSchemaState) : Tracked :=
  match state with
  | .current _ => { s with state := some state }
  | _ => { s with state := some state, pooled := false }

def setTask (s : Tracked) (i : Nat) (t : DbTask) : Tracked := { s with tasks := s.tasks.set i t }

def spawn (s : Tracked) (t : DbTask) : Tracked := { s with tasks := s.tasks ++ [t] }

/-- A failure the retry interval has passed for. -/
def retryDue (s : Tracked) : Bool :=
  match s.state with
  | some (.failed _ _ since) => failedRetryInterval ≤ s.now - since
  | _ => false

/-- `recheck_if_behind`'s test. -/
def behind (s : Tracked) : Bool :=
  match s.state with
  | some (.pending _) => true
  | some (.failed ..) => !s.autoMigrate && s.retryDue
  | none => !s.autoMigrate
  | _ => false

/-- `owes_migration`. -/
def owesMigration (s : Tracked) (failedToo : Bool) : Bool :=
  match s.state with
  | some (.pending _) | some (.migrating _) => true
  | some (.failed ..) => failedToo
  | _ => false

/-- `start_migration`'s refusal. -/
def settled (s : Tracked) : Bool :=
  match s.state with
  | some (.current _) | some (.migrating _) => true
  | _ => false

/-- `pool_if_current`: a database that is `Current` is served; one never met, and one whose failure
is to be retried, is migrated in the background. -/
def requireCurrent (s : Tracked) : Tracked :=
  match s.state with
  | some (.current _) => { s with pooled := true }
  | some (.failed ..) =>
    if s.autoMigrate && s.retryDue then
      { s with state := some (.migrating s.now) }.spawn (.queued none)
    else s
  | some _ => s
  | none => if s.autoMigrate then s.spawn (.queued none) else s

/-- Where `recheck_if_behind` leaves its caller. -/
def afterRecheck (request : Bool) : DbTask := if request then .requiring else .finished

/-- `migrate_holding` begins: a database not at the current version is marked. -/
def beginMigration (s : Tracked) (i : Nat) (found : Option Nat) : Tracked :=
  if found = some schemaVersion then s.setTask i (.migrating found)
  else (s.setState (.migrating s.now)).setTask i (.migrating found)

/-- Task `i` runs to its next `await`. -/
def runTask (s : Tracked) (i : Nat) (o : Outcome) : DbTask → Option Tracked
  | .checking request =>
    some (s.setTask i (if s.behind then .probing request else afterRecheck request))
  | .probing request =>
    match o.error, s.version with
    | none, some v =>
      some (s.setTask i (.rechecked (if v = schemaVersion then .current v else .pending v) request))
    -- Not reached, not drained, or no capture database.
    | _, _ => some (s.setTask i (afterRecheck request))
  | .rechecked found request =>
    some ((if s.behind then { s with state := some found } else s).setTask i (afterRecheck request))
  | .requiring => some (s.requireCurrent.setTask i .finished)
  | .queued found =>
    if s.tasks.any DbTask.holdsLock then none else some (s.setTask i (.locked found))
  | .locked found =>
    if found = some schemaVersion then some (s.beginMigration i found)
    else
      match o.error with
      | some e => some ((s.setState (.failed (found.getD 0) e s.now)).setTask i .finished)
      | none => some (s.beginMigration i s.version)
  | .migrating found =>
    match o.error with
    | some e =>
      some { s.setTask i (.settling found (some e)) with
             migrations := if o.called then s.migrations + 1 else s.migrations }
    | none =>
      some { s.setTask i (.settling found none) with
             migrations := s.migrations + 1, version := some schemaVersion }
  | .settling _ none => some ((s.setState (.current schemaVersion)).setTask i .finished)
  | .settling found (some e) =>
    some ((s.setState (.failed (found.getD 0) e s.now)).setTask i .finished)
  | .sweeping =>
    match o.error, s.version with
    | some e, _ => some ((s.setState (.failed 0 e s.now)).setTask i .finished)
    -- Carries no capture schema, so it is not ours.
    | none, none => some (s.setTask i .finished)
    | none, some v =>
      let state := if v = schemaVersion ∧ !o.bufferLeft then .current v else .pending v
      -- One behind waits where automatic migration is off.
      let next := if v = schemaVersion ∨ s.autoMigrate then .ours v else .finished
      some ((s.setState state).setTask i next)
  | .ours version => some (s.setTask i (.queued (some version)))
  | .starting =>
    match o.error, s.version with
    | none, some v => some (s.setTask i (.claiming v))
    -- Not reached, or refused: it holds no capture schema.
    | _, _ => some (s.setTask i .finished)
  | .claiming version =>
    if s.settled then some (s.setTask i .finished)
    else some ({ s with state := some (.migrating s.now) }.beginMigration i (some version))
  | .creating =>
    if s.tasks.any DbTask.holdsCreateLock then none else some (s.setTask i .asking)
  | .asking =>
    match o.error with
    | some _ => some (s.setTask i .finished)
    | none => some (s.setTask i (if s.origin.isSome then .created false else .making))
  | .making =>
    -- Somebody else's by now, the statement fails.
    if s.origin.isSome then some (s.setTask i .finished)
    else
      match o.error with
      | none => some { s.setTask i (.created true) with origin := some .gateway }
      | some _ =>
        some { s.setTask i .finished with origin := if o.called then some .gateway else none }
  | .created made =>
    if made || s.autoMigrate then some (s.setTask i (.queued none))
    else
      match o.error, s.version with
      | some _, _ => some (s.setTask i .finished)
      | none, none => some (s.setTask i (.queued none))
      | none, some v =>
        if v = schemaVersion then some (s.setTask i (.queued (some v)))
        else some ((s.setState (.pending v)).setTask i .finished)
  | .finished => none

/-- `pool`, as far as its first `await` on the schema state. -/
def pool (s : Tracked) : Tracked :=
  if s.pooled then s else if s.origin.isSome then s.spawn (.checking true) else s

/-- `route`, up to the pool: what owes a migration is buffered, and its buffer may turn out to
belong to a database that is current. -/
def route (s : Tracked) (foundCurrent : Bool) : Tracked :=
  if s.owesMigration !s.autoMigrate then
    if foundCurrent then s.spawn (.checking false) else s
  else s.pool

/-- `ensure_database`: a database that exists is routed to, and one that does not is created where
that is allowed. -/
def ensureDatabase (s : Tracked) (allowCreate : Bool) : Tracked :=
  if s.origin.isSome then s.route false
  else if allowCreate && s.autoCreate then s.spawn .creating
  else s

inductive DatabaseEvent where
  /-- Seconds pass. -/
  | tick (n : Nat)
  /-- Another application creates the database. -/
  | appear
  /-- A read or a query asks for the pool. -/
  | request
  /-- `ensure_database`, of a `HELLO`, with `allow_create`, or of an upload, as it says. -/
  | hello (allowCreate : Bool)
  /-- A batch is routed; one buffered may find the database current. -/
  | ingest (foundCurrent : Bool)
  /-- `migrate_all` comes to it. -/
  | sweep
  /-- `start_migration`. -/
  | start
  /-- A task goes on. -/
  | run (i : Nat) (o : Outcome)
  deriving DecidableEq

/-- One step; `none` where it cannot happen. -/
def step (s : Tracked) : DatabaseEvent → Option Tracked
  | .tick n => some { s with now := s.now + n }
  | .appear => if s.origin.isSome then none else some { s with origin := some .other }
  | .request => some s.pool
  | .hello allowCreate => some (s.ensureDatabase allowCreate)
  | .ingest foundCurrent => some (s.route foundCurrent)
  | .sweep => if s.origin.isSome then some (s.spawn .sweeping) else none
  | .start =>
    some (if s.origin.isNone || s.settled || s.tasks.any DbTask.holdsLock then s
      else s.spawn .starting)
  | .run i o =>
    match s.tasks[i]? with
    | some t => s.runTask i o t
    | none => none

end Tracked

end WireTap.Gateway
