import Mathlib.Algebra.Group.Nat.Defs
import WireTap.Lib.Guarded
import WireTap.Gateway.Keys
import WireTap.Gateway.Gate

/-!
# The HTTP routes

Every route of the gateway's API, with the checks its handler makes and the databases it then touches.
A handler is a program on the `Desk`: the process-wide registry of running queries, and the export
links.  What a request meets outside the gateway (`World`) is anything: the clock, the rows of
`pg_database`, which database a backend's pid belongs to, and how each thing the handler waits for
comes out.

`log` is not the program's: what each request did to which database, under the caller that asked for
it.  A download has no caller of its own, so what it does is under the request that issued its link.

Left out: the bodies and the answers themselves beyond what decides a check, a request refused before
its handler (a path or a body that does not parse), and the static files of the admin UI.
-/

namespace WireTap.Gateway

/-! ### Callers -/

/-- Reads are for read and admin keys. -/
def Role.allowsRead (role : Role) : Bool := role = .read || role = .admin

def Role.allowsIngest (role : Role) : Bool := role = .ingest || role = .admin

def Role.allowsAdmin (role : Role) : Bool := role = .admin

/-- Whom an appliance's console asserts. -/
structure ConsoleIdentity where
  username : String
  /-- The password was proved within `REAUTHENTICATION_WINDOW`. -/
  reauthenticated : Bool
  deriving DecidableEq

/-- Whom a request is from: the key it carries, or what stands for one. -/
structure Caller where
  key : KeyInfo
  console : Option ConsoleIdentity
  deriving DecidableEq

/-! ### Requests -/

inductive QueryKind where
  | byteChanges
  | frameChanges
  | mirrorValidation
  | muxStatistics
  | firstLast
  | frequency
  | distribution
  | gapAnalysis
  | patternSearch
  deriving DecidableEq

/-- The handler's name, of which an id is made. -/
def QueryKind.name : QueryKind → String
  | byteChanges => "q_byte_changes"
  | frameChanges => "q_frame_changes"
  | mirrorValidation => "q_mirror_validation"
  | muxStatistics => "q_mux_statistics"
  | firstLast => "q_first_last"
  | frequency => "q_frequency"
  | distribution => "q_distribution"
  | gapAnalysis => "q_gap_analysis"
  | patternSearch => "q_pattern_search"

/-- `WindowQuery`. -/
structure WindowQuery where
  fromUs : Option Int
  toUs : Option Int
  deriving DecidableEq

/-- A request, by its route. -/
inductive Request where
  | whoami
  | listDatabases
  | createDatabase (name : String)
  | deleteDatabase (db : String)
  | exportStart (db : String) (window : WindowQuery)
  | exportEstimate (db : String) (window : WindowQuery)
  | importArchive (db : String) (replace : Bool)
  | migrateDatabase (db : String)
  | refreshRollup (db : String)
  | timeBounds (db : String)
  | inventory (db : String)
  | frames (db : String)
  | payloads (db : String)
  | eventsList (db : String)
  | eventsCreate (db : String)
  | eventsUpdate (db : String) (id : Int)
  | eventsDelete (db : String) (id : Int)
  | query (kind : QueryKind) (db : String) (queryId : Option String)
  | cancelQuery (id : String)
  | activity (db : String)
  | activityCancel (db : String) (pid : Int)
  | activityTerminate (db : String) (pid : Int)
  | importCapture (db : String) (create : Bool)
  | keysList
  | keysCreate
  | keysDelete (id : Int)
  | keysEdit (id : Int)
  | keysDisable (id : Int)
  | keysEnable (id : Int)
  | keysRotate (id : Int)
  | secretsList
  | rotateDbPassword
  | rotateAdminKey
  | ingestSessions
  | daemons
  | assignmentsPut
  | assignmentsDelete
  | catalogGet (sha : String)
  | logs
  deriving DecidableEq

/-- The `{db}` of its path. -/
def Request.db : Request → Option String
  | deleteDatabase db | exportStart db _ | exportEstimate db _ | importArchive db _
  | migrateDatabase db | refreshRollup db | timeBounds db | inventory db | frames db | payloads db
  | eventsList db | eventsCreate db | eventsUpdate db _ | eventsDelete db _ | query _ db _
  | activity db | activityCancel db _ | activityTerminate db _ | importCapture db _ => some db
  | _ => none

/-- The routes behind `check_admin`. -/
def Request.administrative : Request → Bool
  | whoami | listDatabases | timeBounds _ | inventory _ | frames _ | payloads _ | eventsList _
  | eventsCreate _ | eventsUpdate _ _ | eventsDelete _ _ | query _ _ _ | cancelQuery _
  | importCapture _ _ => false
  | _ => true

/-! ### What requests do -/

inductive Act where
  /-- Its name, its size and its state are returned. -/
  | lists
  /-- A pool of it is opened, which may recheck it or start its migration. -/
  | opens
  /-- Its frames, its events, its activity, or what a query makes of them, are returned. -/
  | shows
  /-- Its events are changed. -/
  | annotates
  /-- Frames or an archive are imported into it. -/
  | imports
  /-- An archive of it is returned. -/
  | exports
  | creates
  | drops
  | migrates
  /-- Its rollup is rebuilt. -/
  | refreshes
  /-- A statement on it is cancelled. -/
  | cancels
  /-- A backend of it is terminated. -/
  | terminates
  deriving DecidableEq

structure Deed where
  caller : Caller
  request : Request
  act : Act
  database : String
  deriving DecidableEq

/-- A download link, with the request that issued it. -/
structure Link where
  database : String
  window : Option (Int × Int)
  issued : Nat
  caller : Caller
  request : Request
  deriving DecidableEq

structure Desk where
  /-- `Links`, by their tokens. -/
  exports : List (String × Link)
  /-- `RUNNING`: query ids, and the database each one's token cancels on. -/
  running : List (String × String)
  log : List Deed
  deriving DecidableEq

structure ApiError where
  status : Nat
  message : String
  deriving DecidableEq

def badRequest (message : String) : ApiError := ⟨400, message⟩

def forbidden (message : String) : ApiError := ⟨403, message⟩

def notFound (message : String) : ApiError := ⟨404, message⟩

def conflict (message : String) : ApiError := ⟨409, message⟩

/-- `db::protected`. -/
def protectedText (name : String) : String :=
  s!"'{name}' is the gateway's own database (WIRETAP_DEFAULT_DB): it holds keys and " ++
    "catalogues, and takes no captures"

/-- What a request meets outside the gateway's own state. -/
structure World where
  /-- `WIRETAP_DEFAULT_DB`. -/
  defaultDatabase : String
  /-- Nanoseconds. -/
  now : Nat
  /-- How the `i`th thing a handler waits for fails, if it does. -/
  fails : Nat → Option ApiError
  /-- `pg_database`: names and sizes. -/
  rows : List (String × Option Nat)
  validDatabaseName : String → Bool
  schemaStates : List (String × SchemaState)
  /-- The databases of the ingest sessions. -/
  sessions : List String
  /-- The databases the daemons' devices forward to. -/
  devices : List String
  /-- The databases being imported. -/
  importBusy : List String
  /-- The backends of the cluster, by pid, and the database of each. -/
  backends : List (Int × String)
  /-- `REAUTHENTICATION_WINDOW`. -/
  reauthenticationMinutes : Nat
  /-- What `random_hex` answers. -/
  token : String
  /-- There is nothing in the window to export. -/
  empty : Bool

abbrev Handler := ExceptT ApiError (StateM Desk)

/-- A request on its way to its handler. -/
structure HttpCall where
  caller : Caller
  request : Request
  world : World

namespace HttpCall

/-- The `i`th thing the handler waits for. -/
def awaits (c : HttpCall) (i : Nat) : Handler Unit :=
  match c.world.fails i with
  | some e => throw e
  | none => pure ()

/-- The request does this to these databases. -/
def deeds (c : HttpCall) (act : Act) (databases : List String) : Handler Unit :=
  modifyThe Desk fun s =>
    { s with log := s.log ++ databases.map (⟨c.caller, c.request, act, ·⟩) }

/-! ### Checks -/

/-- An early return. -/
def refuseIf (p : Bool) (e : ApiError) : Handler Unit := if p then throw e else pure ()

/-- A pinned key is for its own database. -/
def checkPin (c : HttpCall) (db : String) : Handler Unit :=
  match c.caller.key.databasePin with
  | some pin => refuseIf (pin ≠ db) (forbidden "key is pinned to another database")
  | none => pure ()

/-- `check_read`: the role, and the pin. -/
def checkRead (c : HttpCall) (db : String) : Handler Unit := do
  refuseIf (!c.caller.key.role.allowsRead) (forbidden "key role does not allow reads")
  c.checkPin db

/-- `check_admin`: the role only. -/
def checkAdmin (c : HttpCall) : Handler Unit :=
  refuseIf (!c.caller.key.role.allowsAdmin) (forbidden "admin role required")

def checkAdminReauthenticated (c : HttpCall) : Handler Unit := do
  c.checkAdmin
  match c.caller.console with
  | some user =>
    let minutes := c.world.reauthenticationMinutes
    refuseIf (!user.reauthenticated)
      (forbidden s!"this needs the password confirmed in the last {minutes} minutes")
  | none => pure ()

/-- `is_gateway_database`. -/
def isGatewayDatabase (c : HttpCall) (name : String) : Bool := name = c.world.defaultDatabase

/-- `client_for`. -/
def clientFor (c : HttpCall) (db : String) : Handler Unit := do
  c.deeds .opens [db]
  c.awaits 0
  c.awaits 1

/-- `WindowQuery::window`. -/
def window (q : WindowQuery) : Handler (Option (Int × Int)) :=
  match q.fromUs, q.toUs with
  | none, none => pure none
  | some fromUs, some toUs =>
    if fromUs < toUs then pure (some (fromUs, toUs))
    else throw (badRequest "the window's from_us must be before its to_us")
  | _, _ => throw (badRequest "a window needs both from_us and to_us")

/-! ### Handlers that read -/

/-- A handler that checks for a read, and does one thing to the database. -/
def reading (c : HttpCall) (act : Act) (db : String) : Handler Unit := do
  c.checkRead db
  c.clientFor db
  c.deeds act [db]
  c.awaits 2

def timeBounds (c : HttpCall) (db : String) : Handler Unit := c.reading .shows db

def inventory (c : HttpCall) (db : String) : Handler Unit := c.reading .shows db

def frames (c : HttpCall) (db : String) : Handler Unit := c.reading .shows db

def payloads (c : HttpCall) (db : String) : Handler Unit := c.reading .shows db

def eventsList (c : HttpCall) (db : String) : Handler Unit := c.reading .shows db

def eventsCreate (c : HttpCall) (db : String) : Handler Unit := c.reading .annotates db

def eventsUpdate (c : HttpCall) (db : String) : Handler Unit := c.reading .annotates db

def eventsDelete (c : HttpCall) (db : String) : Handler Unit := c.reading .annotates db

/-- `query_handler!`: the query is registered under its id while it runs, in place of one that has
the id already. -/
def queryHandler (c : HttpCall) (kind : QueryKind) (db : String) (queryId : Option String) :
    Handler Unit := do
  c.checkRead db
  c.clientFor db
  let id := queryId.getD s!"{kind.name}_{c.world.now}"
  modifyThe Desk fun s => { s with running := (id, db) :: s.running.filter (·.1 ≠ id) }
  c.deeds .shows [db]
  c.awaits 2

/-- `cancel_query`, with `running::cancel`: the role only. -/
def cancelQuery (c : HttpCall) (id : String) : Handler Unit := do
  refuseIf (!c.caller.key.role.allowsRead) (forbidden "key role does not allow reads")
  let s ← getThe Desk
  modifyThe Desk fun s => { s with running := s.running.filter (·.1 ≠ id) }
  match s.running.lookup id with
  | some db =>
    c.deeds .cancels [db]
    c.awaits 0
  | none => throw (notFound s!"query not found: {id}")

/-- The rows of `pg_database` that `list_databases` answers with. -/
def listed (c : HttpCall) : List String :=
  c.world.rows.filterMap fun (name, size) =>
    if size.isNone then none
    else if !c.world.validDatabaseName name || c.isGatewayDatabase name then none
    else if c.caller.key.databasePin.any (· ≠ name) then none
    else some name

def listDatabases (c : HttpCall) : Handler Unit := do
  refuseIf (!c.caller.key.role.allowsRead) (forbidden "key role does not allow reads")
  c.awaits 0
  c.awaits 1
  c.deeds .lists c.listed

/-- The body's header is read before the database is looked at. -/
def importCapture (c : HttpCall) (db : String) : Handler Unit := do
  refuseIf (!(c.caller.key.role.allowsIngest || c.caller.key.role.allowsAdmin))
    (forbidden "ingest or admin role required")
  c.checkPin db
  c.awaits 0
  c.deeds .opens [db]
  c.awaits 1
  c.deeds .imports [db]
  c.awaits 2

/-! ### Handlers that administer -/

def createDatabase (c : HttpCall) (name : String) : Handler Unit := do
  c.checkAdmin
  refuseIf (c.isGatewayDatabase name) (forbidden (protectedText name))
  c.deeds .creates [name]
  c.awaits 0

def deleteDatabase (c : HttpCall) (db : String) : Handler Unit := do
  c.checkAdminReauthenticated
  refuseIf (c.world.sessions.contains db)
    (conflict s!"database '{db}' is being ingested — stop the device first")
  refuseIf (c.world.schemaStates.lookup db = some .migrating)
    (conflict s!"database '{db}' is migrating")
  refuseIf (c.world.importBusy.contains db)
    (conflict s!"database '{db}' is being imported from an archive")
  c.deeds .drops [db]
  c.awaits 0

def migrateDatabase (c : HttpCall) (db : String) : Handler Unit := do
  c.checkAdmin
  c.deeds .migrates [db]
  c.awaits 0

def refreshRollup (c : HttpCall) (db : String) : Handler Unit := do
  c.checkAdmin
  match c.world.schemaStates.lookup db with
  | some (.current _) => c.deeds .refreshes [db]
  | _ => throw (conflict s!"database '{db}' is not at the current schema")

def exportEstimate (c : HttpCall) (db : String) (q : WindowQuery) : Handler Unit := do
  c.checkAdmin
  let _ ← window q
  c.clientFor db
  c.deeds .shows [db]
  c.awaits 2

/-- `LINK_LIFE`, in nanoseconds. -/
def linkLife : Nat := 60 * 10 ^ 9

/-- `Links::issue`. -/
def issue (c : HttpCall) (db : String) (window : Option (Int × Int)) : Handler Unit :=
  modifyThe Desk fun s =>
    let link : Link := ⟨db, window, c.world.now, c.caller, c.request⟩
    let kept := s.exports.filter fun (token, l) =>
      c.world.now - l.issued < linkLife && token ≠ c.world.token
    { s with exports := (c.world.token, link) :: kept }

def exportStart (c : HttpCall) (db : String) (q : WindowQuery) : Handler Unit := do
  c.checkAdmin
  let window ← window q
  c.clientFor db
  c.awaits 2
  refuseIf c.world.empty
    (badRequest s!"database '{db}' holds nothing in that window to export")
  c.issue db window

/-- A replace needs the password, too. -/
def importArchive (c : HttpCall) (db : String) (replace : Bool) : Handler Unit := do
  c.checkAdmin
  (if replace then c.checkAdminReauthenticated else pure ())
  c.deeds .imports [db]
  c.awaits 0

def activity (c : HttpCall) (db : String) : Handler Unit := do
  c.checkAdmin
  c.clientFor db
  c.deeds .shows [db]
  c.awaits 2

/-- `signal_backend`: whichever database the backend is of. -/
def signalBackend (c : HttpCall) (act : Act) (db : String) (pid : Int) : Handler Unit := do
  c.checkAdmin
  c.clientFor db
  c.deeds act (c.world.backends.lookup pid).toList
  c.awaits 2

def activityCancel (c : HttpCall) (db : String) (pid : Int) : Handler Unit :=
  c.signalBackend .cancels db pid

def activityTerminate (c : HttpCall) (db : String) (pid : Int) : Handler Unit :=
  c.signalBackend .terminates db pid

def ingestSessions (c : HttpCall) : Handler Unit := do
  c.checkAdmin
  c.deeds .lists c.world.sessions

def daemons (c : HttpCall) : Handler Unit := do
  c.checkAdmin
  c.awaits 0
  c.deeds .lists c.world.devices

/-- The handlers of keys, secrets, catalogues and logs, which touch no capture database. -/
def administering (c : HttpCall) : Handler Unit := do
  c.checkAdmin
  c.awaits 0

/-- Those that issue or destroy a credential. -/
def administeringReauthenticated (c : HttpCall) : Handler Unit := do
  c.checkAdminReauthenticated
  c.awaits 0

/-! ### Dispatch -/

def handle (c : HttpCall) : Handler Unit :=
  match c.request with
  | .whoami => pure ()
  | .listDatabases => c.listDatabases
  | .createDatabase name => c.createDatabase name
  | .deleteDatabase db => c.deleteDatabase db
  | .exportStart db q => c.exportStart db q
  | .exportEstimate db q => c.exportEstimate db q
  | .importArchive db replace => c.importArchive db replace
  | .migrateDatabase db => c.migrateDatabase db
  | .refreshRollup db => c.refreshRollup db
  | .timeBounds db => c.timeBounds db
  | .inventory db => c.inventory db
  | .frames db => c.frames db
  | .payloads db => c.payloads db
  | .eventsList db => c.eventsList db
  | .eventsCreate db => c.eventsCreate db
  | .eventsUpdate db _ => c.eventsUpdate db
  | .eventsDelete db _ => c.eventsDelete db
  | .query kind db queryId => c.queryHandler kind db queryId
  | .cancelQuery id => c.cancelQuery id
  | .activity db => c.activity db
  | .activityCancel db pid => c.activityCancel db pid
  | .activityTerminate db pid => c.activityTerminate db pid
  | .importCapture db _ => c.importCapture db
  | .ingestSessions => c.ingestSessions
  | .daemons => c.daemons
  | .keysCreate | .keysDelete _ | .keysRotate _ | .rotateDbPassword | .rotateAdminKey =>
    c.administeringReauthenticated
  | .keysList | .keysEdit _ | .keysDisable _ | .keysEnable _ | .secretsList | .assignmentsPut
  | .assignmentsDelete | .catalogGet _ | .logs => c.administering

/-- `refuse_gateway_database_mw`, before the handler. -/
def serve (c : HttpCall) : Handler Unit :=
  match c.request.db with
  | some db => if c.isGatewayDatabase db then throw (forbidden (protectedText db)) else c.handle
  | none => c.handle

end HttpCall

/-- `export_download`, with `Links::redeem`: the link is the credential. -/
def exportDownload (w : World) (token : String) : Handler Unit := do
  let s ← getThe Desk
  modifyThe Desk fun s => { s with exports := s.exports.filter (·.1 ≠ token) }
  match s.exports.lookup token with
  | some link =>
    if w.now - link.issued < HttpCall.linkLife then
      let c : HttpCall := ⟨link.caller, link.request, w⟩
      c.deeds .opens [link.database]
      c.awaits 0
      c.deeds .exports [link.database]
    else throw (notFound "this export link is unknown, used or expired")
  | none => throw (notFound "this export link is unknown, used or expired")

/-! ### Runs -/

inductive ApiEvent where
  | request (c : HttpCall)
  /-- A link is followed, by whoever has it. -/
  | download (w : World) (token : String)
  /-- `QueryGuard`'s drop: the id is unregistered, whoever's query has it by now. -/
  | finished (id : String)

namespace Desk

def step (s : Desk) : ApiEvent → Option Desk
  | .request c => some (c.serve.run s).2
  | .download w token => some ((exportDownload w token).run s).2
  | .finished id => some { s with running := s.running.filter (·.1 ≠ id) }

/-- A gateway that has just started. -/
def init : Desk := ⟨[], [], []⟩

end Desk

end WireTap.Gateway
