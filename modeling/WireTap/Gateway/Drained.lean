import Mathlib.Data.List.Basic

/-!
# The spans a drain leaves to be refreshed

`drain_pending` moves the ingest buffer into `capture_frame` and records the span it covered in
`capture_frame_drained`, in one transaction.  `refresh_drained` reads the least and the greatest
moment recorded, refreshes the rollup between them, and drops the table.  A migration, a recheck and
an abandoned import each run the two one after the other, on a connection of their own.

`Spans.step` is one statement of one of these pairs, or the commit of the transaction a drain is.
`BUFFER_LOCK` keeps two drains, and a drain and a write, apart; nothing keeps a drain and a refresh
apart, or two refreshes.  `DROP TABLE` waits for a transaction that has inserted into the table, so
what a drain records can be taken to come with its commit.
-/

namespace WireTap.Gateway

/-- A row of `capture_frame_drained`. -/
structure Span where
  first : Int
  last : Int
  /-- A refresh that covers the span has completed since it was recorded: for the
  specifications. -/
  refreshed : Bool := false
  deriving DecidableEq

namespace Span

/-- What is refreshed from `first` to `last` has the whole span in it. -/
def within (span : Span) (first last : Int) : Bool := first ≤ span.first ∧ span.last ≤ last

/-- The rollup has been refreshed from `first` to `last`. -/
def refresh (span : Span) (first last : Int) : Span :=
  { span with refreshed := span.refreshed || span.within first last }

/-- The span of rows with these timestamps: `SELECT min(ts), max(ts) … HAVING count(*) > 0`. -/
def ofRows (rows : List Int) : Option Span :=
  match rows.min?, rows.max? with
  | some first, some last => some ⟨first, last, false⟩
  | _, _ => none

end Span

/-- How far a `drain_pending` and the `refresh_drained` behind it have come. -/
inductive Settling where
  /-- `has_pending` is next. -/
  | looking
  /-- It found a buffer, and waits for `BUFFER_LOCK`. -/
  | locking
  /-- It holds the lock. -/
  | draining
  /-- The drain is over: whether there is a `capture_frame_drained` is asked next. -/
  | checking
  /-- There is one: the least and the greatest moment in it are read next. -/
  | reading
  /-- They have been read. -/
  | refreshing (first last : Int)
  /-- The refresh has returned, or there was no span to refresh. -/
  | dropping
  | finished
  deriving DecidableEq

/-- One database: the timestamps in `capture_frame_pending` and the rows of
`capture_frame_drained`, where these tables are there, and the pairs that run on it. -/
structure Spans where
  pending : Option (List Int)
  drained : Option (List Span)
  pairs : List Settling
  /-- The rows of every `capture_frame_drained` dropped so far: for the specifications. -/
  forgotten : List Span
  deriving DecidableEq

inductive SpansEvent where
  /-- A `buffer_rows` commits these rows to the buffer. -/
  | write (rows : List Int)
  | start
  /-- `has_pending`. -/
  | look (i : Nat)
  | lock (i : Nat)
  /-- `has_pending` again and, with a buffer there, all of the drain's transaction; the caller
  learns of it or does not. -/
  | commit (i : Nat) (answered : Bool)
  /-- `to_regclass` of `capture_frame_drained`. -/
  | check (i : Nat)
  /-- `SELECT min(first), max(last)`. -/
  | read (i : Nat)
  /-- `refresh_rollup_span` completes. -/
  | refresh (i : Nat)
  /-- `DROP TABLE IF EXISTS`. -/
  | drop (i : Nat)
  /-- The statement a pair is at fails. -/
  | fail (i : Nat)
  | crash
  deriving DecidableEq

namespace Spans

/-- A database with what an earlier process left in it. -/
def init (pending : Option (List Int)) (drained : Option (List Span)) : Spans :=
  ⟨pending, drained, [], []⟩

/-- The rows of `capture_frame_drained`. -/
def recorded (s : Spans) : List Span := s.drained.getD []

def setPair (s : Spans) (i : Nat) (p : Settling) : Spans := { s with pairs := s.pairs.set i p }

/-- The drain's transaction: the buffer goes, and its span is recorded. -/
def drainPending (s : Spans) : Spans :=
  match s.pending with
  | none => s
  | some rows => { s with pending := none, drained := some (s.recorded ++ (Span.ofRows rows).toList) }

/-- `refresh_rollup_span` has completed. -/
def refreshRollupSpan (s : Spans) (first last : Int) : Spans :=
  { s with drained := s.drained.map fun spans => spans.map fun span => span.refresh first last }

/-- `DROP TABLE IF EXISTS public.capture_frame_drained`. -/
def dropDrained (s : Spans) : Spans :=
  { s with drained := none, forgotten := s.forgotten ++ s.recorded }

/-- What a pair does that has read the table. -/
def afterRead (spans : List Span) : Settling :=
  match (spans.map Span.first).min?, (spans.map Span.last).max? with
  | some first, some last => .refreshing first last
  | _, _ => .dropping

/-- One step; `none` where it cannot happen. -/
def step (s : Spans) : SpansEvent → Option Spans
  | .write rows =>
    if .draining ∈ s.pairs then none
    else some { s with pending := some (s.pending.getD [] ++ rows) }
  | .start => some { s with pairs := s.pairs ++ [.looking] }
  | .look i =>
    if s.pairs[i]? = some .looking then
      some (s.setPair i (if s.pending.isSome then .locking else .checking))
    else none
  | .lock i =>
    if s.pairs[i]? = some .locking ∧ .draining ∉ s.pairs then some (s.setPair i .draining) else none
  | .commit i answered =>
    if s.pairs[i]? = some .draining then
      some (s.drainPending.setPair i (if answered then .checking else .finished))
    else none
  | .check i =>
    if s.pairs[i]? = some .checking then
      some (s.setPair i (if s.drained.isSome then .reading else .finished))
    else none
  | .read i =>
    if s.pairs[i]? = some .reading then
      -- Without the table the query fails.
      some (s.setPair i ((s.drained.map afterRead).getD .finished))
    else none
  | .refresh i =>
    match s.pairs[i]? with
    | some (.refreshing first last) => some ((s.refreshRollupSpan first last).setPair i .dropping)
    | _ => none
  | .drop i =>
    if s.pairs[i]? = some .dropping then some (s.dropDrained.setPair i .finished) else none
  | .fail i => if i < s.pairs.length then some (s.setPair i .finished) else none
  | .crash => some { s with pairs := s.pairs.map fun _ => .finished }

end Spans

end WireTap.Gateway
