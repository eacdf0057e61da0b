import WireTap.Gateway.Buffer

/-!
# An import that replaces a database

`begin_import` registers an import and loads the archive into a staging database; `finish_import`
puts that in the target's place and `abandon_import` drops it.  While a replace is registered,
`write_rows` holds the target's ingest in the buffer of the database about to be replaced, and the
swap moves the buffer across first.

The run starts when the import has been registered.  `Import.step` is one step of the import, of a
`write_rows` call that starts after that, or a drain of the target's buffer by anyone else
(`OtherDrain`).  A request asks `imports` before it gets as far as a drain, but one already on its
way, spawned or queued does not ask again, and the sweep never does: any of them may come at any
moment.
A write into the buffer and a drain are one step each, their commit: their statements are in
`Gateway/Buffer.lean`.  A rename ends every connection to the databases it renames, so nothing begun
on one of them commits after it.

Left out: `schema_state`.  Once the import is over, a batch's way into `capture_frame` or the buffer
depends on it; either way is open here.
-/

namespace WireTap.Gateway

/-- How far the import has come. -/
inductive ImportPhase where
  /-- `begin_import` has registered it, and its archive is being loaded. -/
  | loading
  /-- `swap_in` waits for the held writes. -/
  | gating
  /-- `swap_in` has shut the gate. -/
  | swapping
  /-- `move_pending` has found a buffer, and made one in the staging database. -/
  | reading
  /-- It has read these rows. -/
  | writing (rows : List Batch)
  /-- The rename is next. -/
  | moved
  /-- The rename is done, and the import still registered. -/
  | renamed
  /-- `finish_import` serves the target. -/
  | serving
  /-- `abandon_import` waits for the held writes. -/
  | abandoning
  /-- It has shut the gate. -/
  | abandoned
  /-- The import is not registered any more, and the target is to be drained. -/
  | leaving
  /-- `finish_import` or `abandon_import` has returned. -/
  | returned
  deriving DecidableEq

/-- `imports` has an entry for the target. -/
def ImportPhase.registered : ImportPhase → Bool
  | serving | leaving | returned => false
  | _ => true

/-- The rename has not been made. -/
def ImportPhase.early : ImportPhase → Bool
  | loading | gating | swapping | reading | writing _ | moved => true
  | _ => false

/-- How far a call of `write_rows` has come. -/
inductive Holding where
  /-- Routed to `Held`, it waits for the gate. -/
  | waiting
  /-- It holds the gate shared. -/
  | holding
  /-- Routed past the import. -/
  | routed
  | ok
  /-- It committed, and its caller never learnt of it. -/
  | unanswered
  | failed
  deriving DecidableEq

/-- The batch is stored. -/
def Holding.committed : Holding → Bool
  | ok | unanswered => true
  | _ => false

structure Import where
  replace : Bool
  /-- `true` from the swap on. -/
  gate : Bool
  phase : ImportPhase
  /-- The database that has the target's name. -/
  target : Option CaptureDb
  staging : Option CaptureDb
  /-- The database replaced. -/
  old : Option CaptureDb
  calls : List Holding
  deriving DecidableEq

/-- Who drains a database's buffer, apart from the end of an import. -/
inductive OtherDrain where
  /-- `migrate_from`, of the startup sweep. -/
  | sweep
  /-- `migrate_one`, which `require_current` spawned for a request, perhaps before the import was
  registered. -/
  | migrateOne
  /-- `recheck_if_behind`, of a request, or spawned by a `write_rows` that found the database
  current. -/
  | recheck
  /-- `migrate_holding`, of `start_migration`. -/
  | startMigration
  deriving DecidableEq

inductive ImportEvent where
  /-- The staging database is created and the archive loaded. -/
  | load (frames : Nat)
  /-- `finish_import` is called. -/
  | finish
  /-- The gate is shut. -/
  | gate
  /-- `has_pending` on the target, and `CREATE_PENDING` on the staging database. -/
  | lookPending
  /-- `COPY` out of the target's buffer. -/
  | readPending
  /-- `COPY` into the staging database's. -/
  | writePending
  /-- The rename commits, and `swap_in` learns of it or does not. -/
  | rename (answered : Bool)
  /-- The import is taken off the register. -/
  | unregister
  /-- The target's buffer is drained, or that fails; the database not wanted is dropped, and the
  call returns. -/
  | settle (drained : Bool)
  /-- A step before the rename fails, and the import is abandoned. -/
  | fail
  /-- A call of `write_rows` is routed. -/
  | write
  /-- It gets the gate. -/
  | enter (i : Nat)
  /-- It commits, if it was routed past the import to `capture_frame` or to the buffer. -/
  | store (i : Nat) (live answered : Bool)
  | abort (i : Nat)
  /-- `drain_pending` commits on the target. -/
  | drain (drainer : OtherDrain)
  deriving DecidableEq

namespace Import

/-- A target with this many batches in it, and an import just registered; the target of an import
that replaces nothing does not exist. -/
def init (replace : Bool) (frames : Nat) (pending : Option Nat) : Import where
  replace
  gate := false
  phase := .loading
  target :=
    if replace then
      some ⟨some schemaVersion, .replicate frames .earlier,
        pending.map fun n => .replicate n .earlier⟩
    else none
  staging := none
  old := none
  calls := []

def setCall (s : Import) (i : Nat) (w : Holding) : Import := { s with calls := s.calls.set i w }

/-- `drain_pending` on the target. -/
def drainTarget (s : Import) : Import := { s with target := s.target.map CaptureDb.drain }

/-- `move_pending` looks at the target's buffer. -/
def lookPending (s : Import) : Option Import :=
  match s.target, s.staging with
  | some db, some staging =>
    match db.pending with
    | none => some { s with phase := .moved }
    | some _ =>
      some { s with phase := .reading
                    staging := some { staging with pending := some staging.buffered } }
  | _, _ => none

/-- The staging database takes the target's name. -/
def renameTo (s : Import) (staging : CaptureDb) (phase : ImportPhase) : Import :=
  { s with target := some staging, staging := none, old := s.target, phase }

/-- One step; `none` where it cannot happen. -/
def step (s : Import) : ImportEvent → Option Import
  | .load frames =>
    if s.phase = .loading then
      some { s with staging := some ⟨some schemaVersion, .replicate frames .earlier, none⟩ }
    else none
  | .finish =>
    if s.phase = .loading ∧ s.staging.isSome then
      some { s with phase := if s.replace then .gating else .moved }
    else none
  | .gate =>
    if s.replace ∧ .holding ∈ s.calls then none
    else
      match s.phase with
      | .gating => some { s with gate := true, phase := .swapping }
      | .abandoning => some { s with gate := true, phase := .abandoned }
      | _ => none
  | .lookPending => if s.phase = .swapping then s.lookPending else none
  | .readPending =>
    match s.phase, s.target.bind CaptureDb.pending with
    | .reading, some rows => some { s with phase := .writing rows }
    | _, _ => none
  | .writePending =>
    match s.phase, s.staging with
    | .writing rows, some staging =>
      match staging.pending with
      | none => none
      | some pending =>
        some { s with phase := .moved
                      staging := some { staging with pending := some (pending ++ rows) } }
    | _, _ => none
  | .rename answered =>
    match s.phase, s.staging with
    | .moved, some staging =>
      -- A target that is not replaced must not be there.
      if s.replace ∨ s.target = none then
        some (s.renameTo staging (if answered then .renamed else .abandoning))
      else none
    | _, _ => none
  | .unregister =>
    match s.phase with
    | .renamed => some { s with phase := .serving }
    | .abandoned => some { s with phase := .leaving }
    | _ => none
  | .settle drained =>
    match s.phase with
    | .serving =>
      some { if drained then s.drainTarget else s with phase := .returned, old := none }
    | .leaving =>
      some { if drained && s.replace then s.drainTarget else s with
             phase := .returned, staging := none }
    | _ => none
  | .fail => if s.phase.early then some { s with phase := .abandoning } else none
  | .write =>
    if s.phase.registered then
      some { s with calls := s.calls ++ [if s.replace then .waiting else .failed] }
    else some { s with calls := s.calls ++ [.routed] }
  | .enter i =>
    if s.calls[i]? = some .waiting then
      some (s.setCall i (if s.gate then .failed else .holding))
    else none
  | .store i live answered =>
    match s.calls[i]?, s.target with
    | some .holding, some db =>
      some { s.setCall i (if answered then .ok else .unanswered) with
             target := some (db.buffer (.call i)) }
    | some .routed, some db =>
      some { s.setCall i (if answered then .ok else .unanswered) with
             target := some (if live then db.copy (.call i) else db.buffer (.call i)) }
    | _, _ => none
  | .abort i =>
    match s.calls[i]? with
    | some .waiting | some .holding | some .routed => some (s.setCall i .failed)
    | _ => none
  | .drain _ => some s.drainTarget

end Import

end WireTap.Gateway
