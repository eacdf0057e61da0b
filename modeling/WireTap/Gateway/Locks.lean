import WireTap.Gateway.Gate
import WireTap.Lib.Run

/-!
# The migration lock of a database

A migration holds a lock of its database's name from before it looks at the database until it has
recorded how it went.  The lock is not in the database: it is an entry of a map, made when it is
first asked for, and `delete_database` removes the entry.  This is one name with every call under way
on it: `migrate_from`, as the sweep, the retry, `create_database` and `finish_import` call it;
`start_migration`; `create_database`; and the HTTP handler that deletes the database.  Each runs from
one `await` to the next in one step, and a run is any interleaving.

A lock has a number, so that a new entry under the name can be told from the one before it.  `drops`
and `log` are not the program's: how often the database was dropped, and for each `schema_state` a
migration wrote, how often it had been when the migration began and when it wrote.

Left out: what a migration does to the database, the pools, the texts of refusals, and the other
names.
-/

namespace WireTap.Gateway

/-! ### Calls under way -/

/-- Where a migration is. -/
inductive LockStage where
  /-- `migrate_from`, with the version its caller found, asks for the lock. -/
  | called (at_ : Option Int)
  /-- It has the lock's `Arc` and waits for it. -/
  | queued (lock : Nat) (at_ : Option Int)
  /-- It has the lock. -/
  | locked (lock : Nat) (at_ : Option Int)
  /-- The probe under the lock failed. -/
  | unprobed (lock : Nat) (at_ : Option Int)
  /-- `start_migration` looks whether the database exists. -/
  | asked
  /-- Then at its state. -/
  | checking
  /-- Then it asks for the lock, -/
  | looking
  /-- tries it, -/
  | trying (lock : Nat)
  /-- probes the database under it, -/
  | probing (lock : Nat)
  /-- and claims it. -/
  | claiming (lock : Nat) (version : Int)
  /-- `migrate_holding` starts. -/
  | holding (lock : Nat) (at_ : Option Int)
  /-- It migrates and drains. -/
  | working (lock : Nat) (at_ : Option Int)
  /-- It records how that went. -/
  | settling (lock : Nat) (at_ : Option Int) (ok : Bool)
  /-- It has, and its guard is dropped next. -/
  | releasing (lock : Nat)
  | ended
  deriving DecidableEq

/-- Where `create_database` is. -/
inductive CreateStage where
  | called
  /-- Nothing is imported under the name. -/
  | admitted
  /-- It has `create_lock` and found whether the database exists. -/
  | looked (exists_ : Bool)
  /-- It let go of `create_lock`. -/
  | made (created : Bool)
  | ended
  deriving DecidableEq

/-- Where the HTTP `delete_database` is. -/
inductive DeleteStage where
  /-- It looks for sessions that ingest into the database. -/
  | called
  /-- Then at its state, -/
  | guarding
  /-- then for an import, -/
  | clearing
  /-- and `Databases::delete_database` forgets its state, -/
  | forgetting
  /-- its lock, -/
  | unlocking
  /-- and drops it. -/
  | dropping
  | ended
  deriving DecidableEq

structure LockRun where
  /-- How often the database had been dropped when this began. -/
  began : Nat
  stage : LockStage
  deriving DecidableEq

/-- A `schema_state` a migration wrote. -/
structure LockWrite where
  /-- How often the database had been dropped when the migration began. -/
  began : Nat
  /-- And when it wrote. -/
  drops : Nat
  /-- Whether there was a database to write it for. -/
  exists_ : Bool
  state : SchemaState
  deriving DecidableEq

/-- One name: its database, its entries in the maps, and the calls under way on it. -/
structure Locks where
  autoMigrate : Bool
  exists_ : Bool
  /-- Its entry in `schema_state`. -/
  state : Option SchemaState
  /-- Its entry in `migration_locks`. -/
  entry : Option Nat
  /-- The number of the next lock. -/
  next : Nat
  createLock : Bool
  runs : List LockRun
  creates : List CreateStage
  deletes : List DeleteStage
  drops : Nat
  log : List LockWrite
  deriving DecidableEq

/-- How what a call waits for comes out. -/
inductive LockOutcome where
  | ok (version : Option Int)
  | fails
  deriving DecidableEq

inductive LockEvent where
  /-- `migrate_from` is called. -/
  | migrateFrom (at_ : Option Int)
  | startMigration
  | createDatabase
  | deleteDatabase
  /-- A path that is not a migration writes the state: a probe of the sweep, a claim, a recheck. -/
  | setState (state : SchemaState)
  /-- `finish_import` puts its staging database in the name's place. -/
  | swapIn
  | run (i : Nat) (outcome : LockOutcome)
  | create (i : Nat) (outcome : LockOutcome)
  | delete (i : Nat) (outcome : LockOutcome)
  deriving DecidableEq

/-! ### Locks -/

/-- The lock a migration holds. -/
def LockStage.held : LockStage → Option Nat
  | locked l _ | unprobed l _ | probing l | claiming l _ | holding l _ | working l _
  | settling l _ _ | releasing l => some l
  | _ => none

/-- The lock it waits for, or holds and has more to do under. -/
def LockStage.wanted : LockStage → Option Nat
  | queued l _ | locked l _ | unprobed l _ | trying l | probing l | claiming l _ | holding l _
  | working l _ | settling l _ _ => some l
  | _ => none

/-- It has the lock, and its last `set_state` is still to come. -/
def LockStage.inside (stage : LockStage) : Bool := stage.held.isSome && stage.wanted.isSome

/-- It may still write the state. -/
def LockStage.underWay : LockStage → Bool
  | releasing _ | ended => false
  | _ => true

namespace Locks

/-- `migration_lock`: the entry, made if there is none. -/
def migrationLock (s : Locks) : Nat × Locks :=
  match s.entry with
  | some lock => (lock, s)
  | none => (s.next, { s with entry := some s.next, next := s.next + 1 })

/-- Nobody holds the lock. -/
def free (s : Locks) (lock : Nat) : Bool := s.runs.all fun r => r.stage.held ≠ some lock

/-- A migration writes the state. -/
def write (s : Locks) (run : LockRun) (state : SchemaState) : Locks :=
  { s with
    state := some state
    log := s.log ++ [{ began := run.began, drops := s.drops, exists_ := s.exists_, state }] }

/-- `refuse_settled`. -/
def settled (s : Locks) : Bool :=
  match s.state with
  | some (.current _) | some .migrating => true
  | _ => false

/-! ### One step of a call -/

/-- A migration goes on, from its stage to the next. -/
def advance (s : Locks) (run : LockRun) (outcome : LockOutcome) : Option (Locks × LockStage) :=
  match run.stage with
  | .called at_ => some (s.migrationLock.2, .queued s.migrationLock.1 at_)
  | .queued lock at_ => if s.free lock then some (s, .locked lock at_) else none
  | .locked lock at_ =>
    if at_ = some thisVersion then some (s, .holding lock at_)
    else match outcome with
      | .ok version => some (s, .holding lock version)
      | .fails => some (s, .unprobed lock at_)
  | .unprobed lock at_ => some (s.write run (.failed (at_.getD 0)), .releasing lock)
  | .asked => match outcome with
    | .ok _ => some (s, if s.exists_ then .checking else .ended)
    | .fails => some (s, .ended)
  | .checking => some (s, if s.settled then .ended else .looking)
  | .looking => some (s.migrationLock.2, .trying s.migrationLock.1)
  | .trying lock => some (s, if s.free lock then .probing lock else .ended)
  | .probing lock => match outcome with
    | .ok (some version) => some (s, .claiming lock version)
    | .ok none | .fails => some (s, .ended)
  | .claiming lock version =>
    if s.settled then some (s, .ended)
    else some (s.write run .migrating, .holding lock (some version))
  -- A database already current is not marked: the schema is re-applied all the same.
  | .holding lock at_ =>
    if at_ = some thisVersion then some (s, .working lock at_)
    else some (s.write run .migrating, .working lock at_)
  | .working lock at_ => match outcome with
    | .ok _ => some (s, .settling lock at_ true)
    | .fails => some (s, .settling lock at_ false)
  | .settling lock at_ ok =>
    some (s.write run (if ok then .current thisVersion else .failed (at_.getD 0)), .releasing lock)
  | .releasing _ => some (s, .ended)
  | .ended => none

/-- `migrate_from` is called with the version `at_`. -/
def call (s : Locks) (stage : LockStage) : Locks :=
  { s with runs := s.runs ++ [{ began := s.drops, stage }] }

/-- `create_database` goes on. -/
def advanceCreate (s : Locks) (stage : CreateStage) (outcome : LockOutcome) :
    Option (Locks × CreateStage) :=
  match stage with
  | .called => match outcome with
    | .ok _ => some (s, .admitted)
    | .fails => some (s, .ended)
  | .admitted =>
    if s.createLock then none
    else match outcome with
      | .ok _ => some ({ s with createLock := true }, .looked s.exists_)
      | .fails => some (s, .ended)
  | .looked true => some ({ s with createLock := false }, .made false)
  -- `CREATE DATABASE` fails where there is one by now.
  | .looked false => match outcome with
    | .ok _ =>
      if s.exists_ then some ({ s with createLock := false }, .ended)
      else some ({ s with exists_ := true, createLock := false }, .made true)
    | .fails => some ({ s with createLock := false }, .ended)
  | .made created =>
    if created || s.autoMigrate then some (s.call (.called none), .ended)
    else match outcome with
      | .ok (some version) =>
        if version ≠ thisVersion then some ({ s with state := some (.pending version) }, .ended)
        else some (s.call (.called (some version)), .ended)
      | .ok none => some (s.call (.called none), .ended)
      | .fails => some (s, .ended)
  | .ended => none

/-- The handler goes on; a look at the sessions or the imports that fails here has found one. -/
def advanceDelete (s : Locks) (stage : DeleteStage) (outcome : LockOutcome) :
    Option (Locks × DeleteStage) :=
  match stage with
  | .called => match outcome with
    | .ok _ => some (s, .guarding)
    | .fails => some (s, .ended)
  | .guarding => some (s, if s.state = some .migrating then .ended else .clearing)
  | .clearing => match outcome with
    | .ok _ => some (s, .forgetting)
    | .fails => some (s, .ended)
  | .forgetting => some ({ s with state := none }, .unlocking)
  | .unlocking => some ({ s with entry := none }, .dropping)
  | .dropping => match outcome with
    | .ok _ =>
      if s.exists_ then some ({ s with exists_ := false, drops := s.drops + 1 }, .ended)
      else some (s, .ended)
    | .fails => some (s, .ended)
  | .ended => none

/-- One event on the name. -/
def step (s : Locks) : LockEvent → Option Locks
  | .migrateFrom at_ => some (s.call (.called at_))
  | .startMigration => some (s.call .asked)
  | .createDatabase => some { s with creates := s.creates ++ [.called] }
  | .deleteDatabase => some { s with deletes := s.deletes ++ [.called] }
  | .setState state => some { s with state := some state }
  | .swapIn => some { s with exists_ := true }
  | .run i outcome => do
    let run ← s.runs[i]?
    let (s', stage) ← s.advance run outcome
    some { s' with runs := s'.runs.set i { run with stage } }
  | .create i outcome => do
    let stage ← s.creates[i]?
    let (s', stage) ← s.advanceCreate stage outcome
    some { s' with creates := s'.creates.set i stage }
  | .delete i outcome => do
    let stage ← s.deletes[i]?
    let (s', stage) ← s.advanceDelete stage outcome
    some { s' with deletes := s'.deletes.set i stage }

/-- A gateway that has just started: no lock was asked for yet, and nothing is under way. -/
def init (autoMigrate exists_ : Bool) (state : Option SchemaState) : Locks where
  autoMigrate
  exists_
  state
  entry := none
  next := 0
  createLock := false
  runs := []
  creates := []
  deletes := []
  drops := 0
  log := []

end Locks

end WireTap.Gateway
