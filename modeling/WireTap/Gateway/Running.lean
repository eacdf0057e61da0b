import Mathlib.Data.List.Basic

/-!
# The registry of running queries

`running.rs`: a query registers its cancel token under its id, and its guard, when it is dropped,
spawns a task that unregisters the id.  `cancel` takes the token out, and then signals the query.
The lock on the registry is held for one insertion or one removal, so `QueryRegistry.step` is one of
those, the end of a query, or the outcome of a signal; a run is any interleaving of them.  The query
that ends may have finished or failed, or its client may have gone.

A token is the query it cancels, by its place among the queries there have been; the ids are the
clients' own.
-/

namespace WireTap.Gateway

/-- How far an analytical query has come. -/
inductive QueryPhase where
  /-- `QueryGuard::new` has still to register it. -/
  | starting
  | running
  /-- Its guard has been dropped, and has spawned the task that unregisters it. -/
  | ended
  /-- That task has run; or the query ended before it had a guard. -/
  | gone
  deriving DecidableEq

structure RunningQuery where
  id : String
  phase : QueryPhase
  /-- A `cancel` has taken its token, and its signal has not failed. -/
  cancelled : Bool
  deriving DecidableEq

/-- A call of `cancel`. -/
inductive CancelCall where
  /-- `Ok(false)`. -/
  | unknown
  /-- It has the token, and signals. -/
  | signalling (token : Nat)
  /-- `Ok(true)`, or the signal's error. -/
  | signalled (token : Nat) (ok : Bool)
  deriving DecidableEq

structure QueryRegistry where
  /-- `RUNNING`. -/
  tokens : List (String × Nat)
  queries : List RunningQuery
  cancels : List CancelCall
  deriving DecidableEq

inductive QueryEvent where
  | start (id : String)
  | register (q : Nat)
  | finish (q : Nat)
  | unregister (q : Nat)
  | cancel (id : String)
  /-- `cancel_query` returns. -/
  | signal (k : Nat) (ok : Bool)
  deriving DecidableEq

namespace QueryRegistry

def init : QueryRegistry := ⟨[], [], []⟩

/-- `remove` of a key. -/
def without (tokens : List (String × Nat)) (id : String) : List (String × Nat) :=
  tokens.filter (·.1 ≠ id)

/-- What `cancel` would find. -/
def token (s : QueryRegistry) (id : String) : Option Nat := s.tokens.lookup id

def setQuery (s : QueryRegistry) (q : Nat) (query : RunningQuery) : QueryRegistry :=
  { s with queries := s.queries.set q query }

/-- The query is marked, or its mark taken off. -/
def mark (s : QueryRegistry) (q : Nat) (cancelled : Bool) : QueryRegistry :=
  match s.queries[q]? with
  | some query => s.setQuery q { query with cancelled }
  | none => s

/-- One step; `none` where it cannot happen. -/
def step (s : QueryRegistry) : QueryEvent → Option QueryRegistry
  | .start id => some { s with queries := s.queries ++ [⟨id, .starting, false⟩] }
  | .register q =>
    match s.queries[q]? with
    | some query =>
      if query.phase = .starting then
        some { s.setQuery q { query with phase := .running } with
               tokens := (query.id, q) :: without s.tokens query.id }
      else none
    | none => none
  | .finish q =>
    match s.queries[q]? with
    | some query =>
      match query.phase with
      | .starting => some (s.setQuery q { query with phase := .gone })
      | .running => some (s.setQuery q { query with phase := .ended })
      | _ => none
    | none => none
  | .unregister q =>
    match s.queries[q]? with
    | some query =>
      if query.phase = .ended then
        some { s.setQuery q { query with phase := .gone } with
               tokens := without s.tokens query.id }
      else none
    | none => none
  | .cancel id =>
    match s.token id with
    | some q =>
      some { s.mark q true with
             tokens := without s.tokens id
             cancels := s.cancels ++ [.signalling q] }
    | none => some { s with cancels := s.cancels ++ [.unknown] }
  | .signal k ok =>
    match s.cancels[k]? with
    | some (.signalling q) =>
      let told := if ok then s else s.mark q false
      some { told with cancels := s.cancels.set k (.signalled q ok) }
    | _ => none

end QueryRegistry

end WireTap.Gateway
