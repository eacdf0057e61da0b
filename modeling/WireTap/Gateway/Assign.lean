import WireTap.Gateway.Reassign

/-!
# `Catalogs::assign` and `Catalogs::clear`

A call is one transaction: an advisory lock on the daemon and the interface, the row assigned there,
the guard on what the caller expected, the blob, the row, its line of history, and the commit.
`CatalogStore.step` is one statement of one call, so a run is any interleaving of calls, and any
statement may fail.  What a transaction has written is seen by the others when it commits, and is
rolled back when it fails; its lock is held until then.  A statement reads what has committed when it
begins.

The lock's key is a hash of the two names joined by a slash: `hash` is any function.  Two calls on
one row wait for each other there, so neither waits on the row itself.

Left out: the blobs and their provenance, who made an assignment and when, and what `assign` answers
with, which no later call reads.
-/

namespace WireTap.Gateway

/-- A row of `catalog_assignment_history`; a cleared assignment has no SHA. -/
structure HistoryRow where
  daemonId : String
  interface : String
  blobSha : Option Sha
  deriving DecidableEq

/-- `AssignError`. -/
inductive AssignError where
  /-- `check_key` or `checked_blob`. -/
  | rejected
  /-- `guard`: what is assigned now. -/
  | conflict (current : Option String)
  | database (why : String)
  deriving DecidableEq

/-- How far a call has come. -/
inductive AssignStage where
  | begun
  /-- `pg_advisory_xact_lock` has returned. -/
  | locked
  /-- The row has been read, and `guard` let the call through. -/
  | guarded
  /-- The blob is stored: `assign` only. -/
  | stored
  /-- The upsert, or the `DELETE`, and whether it changed the row. -/
  | written (changed : Bool)
  /-- `record_history`, if it did. -/
  | noted (changed : Bool)
  /-- The answer has been read: `assign` only. -/
  | answered (changed : Bool)
  | committed (changed : Bool)
  | returned
  | failed (error : AssignError)
  deriving DecidableEq

/-- The transaction holds its lock. -/
def AssignStage.holds : AssignStage → Bool
  | locked | guarded | stored | written _ | noted _ | answered _ => true
  | begun | committed _ | returned | failed _ => false

/-- The call has returned an error. -/
def AssignStage.isError : AssignStage → Bool
  | failed _ => true
  | _ => false

/-- A call of `assign`, with the catalogue's SHA-1, or of `clear`. -/
structure AssignCall where
  daemonId : String
  interface : String
  sha : Option Sha
  expected : Option String
  stage : AssignStage
  deriving DecidableEq

/-- The two tables, and the calls there have been. -/
structure CatalogStore where
  table : AssignmentTable
  history : List HistoryRow
  calls : List AssignCall
  deriving DecidableEq

inductive AssignEvent where
  | call (daemonId interface : String) (sha : Option Sha) (expected : Option String)
  /-- `assign` rejects its request before it asks for a connection. -/
  | reject (j : Nat)
  /-- The call's next statement succeeds. -/
  | next (j : Nat)
  /-- It fails, and the transaction, if there is one, is rolled back. -/
  | fail (j : Nat) (why : String)
  deriving DecidableEq

/-- The call whose step it is. -/
def AssignEvent.caller : AssignEvent → Option Nat
  | call _ _ _ _ => none
  | reject j | next j | fail j _ => some j

/-- `lock_assignment`'s key. -/
def lockKey (hash : String → Int) (daemonId interface : String) : Int :=
  hash (daemonId ++ "/" ++ interface)

namespace AssignCall

def key (hash : String → Int) (c : AssignCall) : Int := lockKey hash c.daemonId c.interface

/-- Where a statement leaves the call, given the row there is: `guard` and `changed` read it. -/
def after (c : AssignCall) (current : Option Sha) : AssignStage :=
  match c.stage, c.sha with
  | .begun, _ => .locked
  | .locked, _ =>
    if expectedMatches c.expected current then .guarded
    else .failed (.conflict (current.map blobSha1Hex))
  | .guarded, some _ => .stored
  | .guarded, none => .written (current ≠ none)
  | .stored, sha => .written (current ≠ sha)
  | .written changed, _ => .noted changed
  | .noted changed, some _ => .answered changed
  | .noted changed, none => .committed changed
  | .answered changed, _ => .committed changed
  | .committed _, _ | .returned, _ => .returned
  | .failed e, _ => .failed e

/-- It has still to return. -/
def running (c : AssignCall) : Bool :=
  match c.stage with
  | .returned | .failed _ => false
  | _ => true

/-- Its next statement commits a change. -/
def publishes (c : AssignCall) : Bool :=
  match c.stage, c.sha with
  | .noted true, none | .answered true, _ => true
  | _, _ => false

/-- Its transaction is still open, or has still to begin. -/
def uncommitted (c : AssignCall) : Bool := c.stage = .begun || c.stage.holds

end AssignCall

namespace CatalogStore

def init : CatalogStore := ⟨[], [], []⟩

/-- The lines of a daemon's interface, in the order they committed. -/
def historyOf (s : CatalogStore) (daemonId interface : String) : List (Option Sha) :=
  (s.history.filter fun r => r.daemonId = daemonId && r.interface = interface).map (·.blobSha)

def setStage (s : CatalogStore) (j : Nat) (c : AssignCall) (stage : AssignStage) : CatalogStore :=
  { s with calls := s.calls.set j { c with stage } }

/-- The row the call is about. -/
def row (s : CatalogStore) (c : AssignCall) : Option Sha := s.table.current c.daemonId c.interface

/-- No other call holds the key. -/
def free (hash : String → Int) (s : CatalogStore) (c : AssignCall) : Bool :=
  s.calls.all fun c' => !(c'.stage.holds && c'.key hash = c.key hash)

/-- What a commit makes visible. -/
def publish (s : CatalogStore) (c : AssignCall) : CatalogStore :=
  { s with
    table := s.table.set c.daemonId c.interface c.sha
    history := s.history ++ [⟨c.daemonId, c.interface, c.sha⟩] }

/-- The call's next statement: that of the lock waits until it is free. -/
def advance (hash : String → Int) (s : CatalogStore) (j : Nat) (c : AssignCall) :
    Option CatalogStore :=
  let stage := c.after (s.row c)
  if c.stage = .begun && !s.free hash c then none
  else if c.publishes then some ((s.publish c).setStage j c stage)
  else if c.running then some (s.setStage j c stage)
  else none

/-- One step; `none` where it cannot happen. -/
def step (hash : String → Int) (s : CatalogStore) : AssignEvent → Option CatalogStore
  | .call daemonId interface sha expected =>
    some { s with calls := s.calls ++ [⟨daemonId, interface, sha, expected, .begun⟩] }
  | .reject j =>
    match s.calls[j]? with
    | some c =>
      if c.stage = .begun && c.sha.isSome then some (s.setStage j c (.failed .rejected)) else none
    | none => none
  | .next j =>
    match s.calls[j]? with
    | some c => s.advance hash j c
    | none => none
  | .fail j why =>
    match s.calls[j]? with
    | some c =>
      if c.uncommitted then some (s.setStage j c (.failed (.database why))) else none
    | none => none

end CatalogStore

end WireTap.Gateway
