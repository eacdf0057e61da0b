import Mathlib.Data.List.Basic

/-!
# The ingest buffer of a capture database

A batch for a database behind this build's schema waits in `capture_frame_pending` until a drain
moves the buffer into `capture_frame` and drops it.  `buffer_rows` decides where a batch goes under
`BUFFER_LOCK`, which every write holds shared and the drain holds exclusively.

`Buffer.step` is one statement of one of the transactions.  What a transaction did is seen by the
others when it commits, and its locks go with it.  A batch is what one `COPY` stores, named by the
call that wrote it.  A `buffer_rows` that does not get the lock is refused and leaves no trace, and
neither does a drain that finds no buffer, so neither is an event.

Left out: `capture_frame_drained` and the rollup refresh, which touch no row of either table.
-/

namespace WireTap.Gateway

/-- The rows of one `COPY`: those of call `i` of the run, or rows from before it. -/
inductive Batch where
  | earlier
  | call (i : Nat)
  deriving DecidableEq

/-- `SCHEMA_VERSION`. -/
def schemaVersion : Nat := 5

/-- A capture database: what `detect_version` answers, `capture_frame`, and
`capture_frame_pending` if there is one. -/
structure CaptureDb where
  version : Option Nat
  frames : List Batch
  pending : Option (List Batch)
  deriving DecidableEq

namespace CaptureDb

/-- At this build's schema. -/
def current (db : CaptureDb) : Bool := db.version = some schemaVersion

/-- What the buffer holds. -/
def buffered (db : CaptureDb) : List Batch := db.pending.getD []

/-- Everything stored. -/
def rows (db : CaptureDb) : List Batch := db.frames ++ db.buffered

/-- A `COPY` into `capture_frame`. -/
def copy (db : CaptureDb) (b : Batch) : CaptureDb := { db with frames := db.frames ++ [b] }

/-- A `COPY` into `capture_frame_pending`, created if it is not there. -/
def buffer (db : CaptureDb) (b : Batch) : CaptureDb :=
  { db with pending := some (db.buffered ++ [b]) }

/-- The drain's transaction: the buffer's rows go into `capture_frame`, and the buffer goes. -/
def drain (db : CaptureDb) : CaptureDb :=
  { db with frames := db.frames ++ db.buffered, pending := none }

theorem count_rows_copy (db : CaptureDb) (b c : Batch) :
    (db.copy b).rows.count c = db.rows.count c + if b = c then 1 else 0 := by
  simp only [rows, buffered, copy, List.count_append, List.count_singleton, beq_iff_eq]
  omega

theorem count_rows_buffer (db : CaptureDb) (b c : Batch) :
    (db.buffer b).rows.count c = db.rows.count c + if b = c then 1 else 0 := by
  simp only [rows, buffered, buffer, Option.getD_some, List.count_append, List.count_singleton,
    beq_iff_eq]
  omega

@[simp] theorem rows_drain (db : CaptureDb) : db.drain.rows = db.rows := by
  simp [rows, buffered, drain]

@[simp] theorem buffered_drain (db : CaptureDb) : db.drain.buffered = [] := rfl

end CaptureDb

/-- `Written`: where `buffer_rows` put a batch. -/
inductive Written where
  | buffered
  | live
  deriving DecidableEq

/-- How far a call of `buffer_rows` has come. -/
inductive Writing where
  /-- It holds `BUFFER_LOCK` shared. -/
  | locked
  /-- It found the database current. -/
  | live
  /-- It found the database behind. -/
  | behind
  /-- It found no buffer, and waits for `CREATE_PENDING_LOCK`. -/
  | creating
  /-- It copies into the buffer, which it `created` or found. -/
  | buffering (created : Bool)
  | ok (written : Written)
  /-- It committed, and its caller never learnt of it. -/
  | unanswered
  | failed
  deriving DecidableEq

namespace Writing

/-- The transaction is open, and holds `BUFFER_LOCK`. -/
def holds : Writing → Bool
  | locked | live | behind | creating | buffering _ => true
  | ok _ | unanswered | failed => false

/-- The batch is on its way into the buffer. -/
def buffers : Writing → Bool
  | behind | creating | buffering _ => true
  | _ => false

/-- The transaction committed. -/
def committed : Writing → Bool
  | ok _ | unanswered => true
  | _ => false

/-- What becomes of a call whose connection is lost. -/
def abort (w : Writing) : Writing := if w.holds then failed else w

end Writing

/-- How far a call of `drain_pending` that found a buffer has come. -/
inductive Draining where
  | waiting
  /-- It holds `BUFFER_LOCK` exclusively. -/
  | locked
  | finished
  deriving DecidableEq

/-- One database, the calls of `buffer_rows` and the drains that run on it. -/
structure Buffer where
  db : CaptureDb
  calls : List Writing
  drains : List Draining
  /-- The database has been behind since the last drain that dropped a buffer: for the
  specifications. -/
  wasBehind : Bool
  deriving DecidableEq

inductive BufferEvent where
  /-- A call of `buffer_rows` gets the lock. -/
  | begin
  /-- `detect_version`. -/
  | probe (i : Nat)
  /-- `has_pending`. -/
  | look (i : Nat)
  /-- `CREATE_PENDING`, under its own lock. -/
  | create (i : Nat)
  /-- The `COPY` and the commit; the caller learns of it or does not. -/
  | commit (i : Nat) (answered : Bool)
  | abort (i : Nat)
  /-- A call of `drain_pending` finds a buffer. -/
  | drain
  | drainLock (j : Nat)
  /-- It asks again under the lock, moves the rows, drops the buffer and commits. -/
  | drainCommit (j : Nat)
  | drainAbort (j : Nat)
  /-- A migration's commit, or a change by hand: the schema is at another version. -/
  | migrate (version : Option Nat)
  /-- The gateway dies, and every open transaction with it. -/
  | crash
  deriving DecidableEq

namespace Buffer

/-- A database with this many batches in it, and none written by this run. -/
def init (version : Option Nat) (frames : Nat) (pending : Option Nat) : Buffer where
  db := ⟨version, .replicate frames .earlier, pending.map fun n => .replicate n .earlier⟩
  calls := []
  drains := []
  wasBehind := version ≠ some schemaVersion

def setCall (s : Buffer) (i : Nat) (w : Writing) : Buffer := { s with calls := s.calls.set i w }

def setDrain (s : Buffer) (j : Nat) (d : Draining) : Buffer := { s with drains := s.drains.set j d }

/-- One step; `none` where it cannot happen. -/
def step (s : Buffer) : BufferEvent → Option Buffer
  | .begin =>
    if .locked ∈ s.drains then none else some { s with calls := s.calls ++ [.locked] }
  | .probe i =>
    if s.calls[i]? = some .locked then
      some (s.setCall i (if s.db.current then .live else .behind))
    else none
  | .look i =>
    if s.calls[i]? = some .behind then
      some (s.setCall i (if s.db.pending.isSome then .buffering false else .creating))
    else none
  | .create i =>
    if s.calls[i]? = some .creating ∧ .buffering true ∉ s.calls then
      some (s.setCall i (.buffering true))
    else none
  | .commit i answered =>
    match s.calls[i]? with
    | some .live =>
      some { s.setCall i (if answered then .ok .live else .unanswered) with
             db := s.db.copy (.call i) }
    | some (.buffering created) =>
      -- A buffer that was found and is gone would fail the `COPY`.
      if created ∨ s.db.pending.isSome then
        some { s.setCall i (if answered then .ok .buffered else .unanswered) with
               db := s.db.buffer (.call i) }
      else none
    | _ => none
  | .abort i =>
    match s.calls[i]? with
    | some w => some (s.setCall i w.abort)
    | none => none
  | .drain => if s.db.pending.isSome then some { s with drains := s.drains ++ [.waiting] } else none
  | .drainLock j =>
    if s.drains[j]? = some .waiting ∧ .locked ∉ s.drains ∧ s.calls.all (fun w => !w.holds) then
      some (s.setDrain j .locked)
    else none
  | .drainCommit j =>
    if s.drains[j]? = some .locked then
      if s.db.pending.isSome then
        some { s.setDrain j .finished with db := s.db.drain, wasBehind := !s.db.current }
      else some (s.setDrain j .finished)
    else none
  | .drainAbort j =>
    if j < s.drains.length then some (s.setDrain j .finished) else none
  | .migrate version =>
    some { s with db.version := version,
                  wasBehind := s.wasBehind || version ≠ some schemaVersion }
  | .crash =>
    some { s with calls := s.calls.map Writing.abort, drains := s.drains.map fun _ => .finished }

end Buffer

end WireTap.Gateway
