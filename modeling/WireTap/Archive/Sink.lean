import Mathlib.Data.List.Basic

/-!
# Sinks

`BatchSink`, what the batcher writes to: a connection that stores a batch, or says how much of it
it stored before it failed.  An operation is a function of the sink's own state, so a sink's state
holds whatever decides its next answer and every sequence of answers is the behaviour of some sink.
-/

namespace WireTap

/-- Why a sink operation failed. -/
inductive SinkError where
  | failed (why : String)
  /-- The far end ended the session on purpose and expects a reconnect at once: not an outage. -/
  | closed (why : String)
  deriving DecidableEq, Repr

namespace SinkError

/-- `matches!(e, SinkError::Closed(_))`. -/
def isClosed : SinkError → Bool
  | .failed _ => false
  | .closed _ => true

end SinkError

abbrev SinkResult := Except SinkError Unit

/-- A write that failed after the sink had stored the batch's first `delivered` frames. -/
structure WriteError where
  delivered : Nat
  cause : SinkError
  deriving DecidableEq, Repr

abbrev WriteResult := Except WriteError Unit

/-- How many of a batch of `len` frames a write stored. -/
def WriteResult.delivered (len : Nat) : WriteResult → Nat
  | .ok () => len
  | .error e => e.delivered

/-- Somewhere batches of frames go to be stored. -/
class BatchSink (S : Type) (α : outParam Type) where
  connect : StateM S SinkResult
  writeBatch (batch : List α) : StateM S WriteResult
  keepAlive : StateM S SinkResult
  close : StateM S Unit

/-- A sink never reports more of a batch stored than there was. -/
class LawfulBatchSink (S : Type) (α : outParam Type) [BatchSink S α] : Prop where
  delivered_le (batch : List α) (s : S) :
    ((BatchSink.writeBatch batch).run s).1.delivered batch.length ≤ batch.length

/-- A sink that gives the answers it was given, in order, and is well once they run out. -/
structure ScriptedSink (α : Type) where
  connects : List SinkResult := []
  writes : List WriteResult := []
  keepAlives : List SinkResult := []

namespace ScriptedSink

variable {α : Type}

/-- A write reports no more stored than it was handed. -/
def clip (len : Nat) : WriteResult → WriteResult
  | .ok () => .ok ()
  | .error e => .error { e with delivered := min e.delivered len }

instance : BatchSink (ScriptedSink α) α where
  connect s := (s.connects.headD (.ok ()), { s with connects := s.connects.tail })
  writeBatch batch s :=
    (clip batch.length (s.writes.headD (.ok ())), { s with writes := s.writes.tail })
  keepAlive s := (s.keepAlives.headD (.ok ()), { s with keepAlives := s.keepAlives.tail })
  close s := ((), s)

theorem delivered_clip_le (len : Nat) (r : WriteResult) : (clip len r).delivered len ≤ len := by
  cases r with
  | ok u => exact Nat.le_refl len
  | error e => exact Nat.min_le_right e.delivered len

instance : LawfulBatchSink (ScriptedSink α) α where
  delivered_le batch s := delivered_clip_le batch.length (s.writes.headD (.ok ()))

end ScriptedSink

end WireTap
