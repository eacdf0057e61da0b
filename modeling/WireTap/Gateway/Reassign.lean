import WireTap.Gateway.Hello

/-!
# Catalogue assignments and the sessions they concern

A HELLO is answered in two steps: `daemon_hello` reads the catalogues assigned to the daemon's
devices, and `Sessions::open` then puts the session in the map of live ones.  `Catalogs::assign` and
`clear` also have two: the change commits, and `Sessions::reassign` then tells each live session of
the daemon that names the interface, so that it closes and its reconnect reads the new assignment.

`Assigning.step` is one of these steps, and a run is any interleaving of them.  The transaction of a
change is one step: it holds a lock on the daemon and the interface from before it reads the current
row until it commits.  A request that `check_key` or `checked_blob` rejects touches nothing and is no
event; neither is what `handle_hello` does before `daemon_hello`, or a HELLO it refuses there.

Left out: the blobs' content, their provenance, the history of assignments and the devices recorded,
which neither side reads.
-/

namespace WireTap.Gateway

/-- A row of `catalog_assignments`, whose primary key is the daemon and the interface. -/
structure AssignmentRow where
  daemonId : String
  interface : String
  blobSha : Sha
  deriving DecidableEq

/-- `catalog_assignments`. -/
abbrev AssignmentTable := List AssignmentRow

namespace AssignmentTable

/-- The row of a daemon's interface. -/
def current (t : AssignmentTable) (daemonId interface : String) : Option Sha :=
  (t.find? fun r => r.daemonId = daemonId && r.interface = interface).map (·.blobSha)

/-- The upsert of `assign` and the `DELETE` of `clear`. -/
def set (t : AssignmentTable) (daemonId interface : String) (sha : Option Sha) : AssignmentTable :=
  (t.filter fun r => !(r.daemonId = daemonId && r.interface = interface)) ++
    (sha.map fun blobSha => ⟨daemonId, interface, blobSha⟩).toList

end AssignmentTable

/-- `through_device_map`: an assignment for each assigned interface the HELLO named, on the bus it
named it on. -/
def throughDeviceMap (assigned : List (String × Sha)) (devices : List Device) : List Assignment :=
  devices.filterMap fun d => (assigned.find? fun a => a.1 = d.name).map fun a => ⟨d.bus, a.2⟩

/-- `assignments_for`. -/
def assignmentsFor (t : AssignmentTable) (daemonId : String) (devices : List Device) :
    List Assignment :=
  let rows := t.filter fun r => r.daemonId = daemonId && r.interface ∈ devices.map Device.name
  throughDeviceMap (rows.map fun r => (r.interface, r.blobSha)) devices

/-- `guard`: `""` expects no assignment, and absent expects nothing. -/
def expectedMatches (expected : Option String) (current : Option Sha) : Bool :=
  match expected with
  | none => true
  | some e => e.toLower = ((current.map blobSha1Hex).getD "").toLower

/-- How far a HELLO has come.  `version` says which table was read: how many changes had committed. -/
inductive Greeting where
  /-- `daemon_hello` is next. -/
  | asked
  /-- `Sessions::open` is next. -/
  | ready (version : Nat) (answer : List Assignment)
  /-- It is answered and in the map; `reassigned` once it has been notified. -/
  | opened (version : Nat) (answer : List Assignment) (reassigned : Bool)
  | closed
  deriving DecidableEq

structure HelloCall where
  daemonId : String
  devices : List Device
  stage : Greeting
  deriving DecidableEq

/-- How far a call of `assign` or `clear` has come. -/
inductive Changing where
  | begun
  /-- It committed the change that made the table after `version` others. -/
  | committed (version : Nat)
  /-- It has told the sessions, and returned `Ok`. -/
  | returned (version : Nat)
  /-- It committed, and its reply was lost: it returned an error. -/
  | unanswered (version : Nat)
  /-- It is over, and changed nothing. -/
  | unchanged
  deriving DecidableEq

/-- The change of a call that is over. -/
def Changing.over : Changing → Option Nat
  | returned version | unanswered version => some version
  | _ => none

/-- A call of `assign`, with the catalogue's SHA-1, or of `clear`. -/
structure ChangeCall where
  daemonId : String
  interface : String
  sha : Option Sha
  expected : Option String
  stage : Changing
  deriving DecidableEq

/-- The gateway: the table and those before it, the HELLOs and the changes. -/
structure Assigning where
  table : AssignmentTable
  past : List AssignmentTable
  hellos : List HelloCall
  changes : List ChangeCall
  deriving DecidableEq

inductive AssigningEvent where
  /-- A HELLO comes as far as `daemon_hello`. -/
  | hello (daemonId : String) (devices : List Device)
  /-- `daemon_hello`, whose queries succeed or fail. -/
  | read (i : Nat) (recorded : Except String Unit) (failed : Option String)
  | opens (i : Nat)
  | close (i : Nat)
  /-- A call of `assign` or `clear` begins. -/
  | change (daemonId interface : String) (sha : Option Sha) (expected : Option String)
  /-- Its transaction, whose commit is answered or not. -/
  | commit (j : Nat) (answered : Bool)
  /-- It fails before it commits. -/
  | fail (j : Nat)
  /-- `Sessions::reassign`, and its return. -/
  | reassign (j : Nat)
  deriving DecidableEq

/-- The call changes the assignment of an interface the daemon's HELLO names. -/
def Concerns (h : HelloCall) (c : ChangeCall) : Bool :=
  h.daemonId ≠ "" && h.daemonId = c.daemonId && c.interface ∈ h.devices.map Device.name

namespace Assigning

def init (table : AssignmentTable) : Assigning := ⟨table, [], [], []⟩

/-- The table after `k` changes. -/
def version (s : Assigning) (k : Nat) : Option AssignmentTable := (s.past ++ [s.table])[k]?

/-- What `daemon_hello` answers, whose queries succeed or fail. -/
def answer (s : Assigning) (h : HelloCall) (recorded : Except String Unit)
    (failed : Option String) : List Assignment :=
  daemonHello recorded
    (match failed with
      | none => .ok (assignmentsFor s.table h.daemonId h.devices)
      | some e => .error e)

/-- The transaction of a call changes a row: it is let through by its guard, and the row is not
already as asked. -/
def affects (s : Assigning) (c : ChangeCall) : Bool :=
  expectedMatches c.expected (s.table.current c.daemonId c.interface) &&
    s.table.current c.daemonId c.interface ≠ c.sha

def setHello (s : Assigning) (i : Nat) (h : HelloCall) : Assigning :=
  { s with hellos := s.hellos.set i h }

def setChange (s : Assigning) (j : Nat) (c : ChangeCall) : Assigning :=
  { s with changes := s.changes.set j c }

/-- What `Sessions::reassign` makes of a session. -/
def tell (daemonId interface : String) (h : HelloCall) : HelloCall :=
  match h.stage with
  | .opened version answer _ =>
    if h.daemonId = daemonId && interface ∈ h.devices.map Device.name then
      { h with stage := .opened version answer true }
    else h
  | _ => h

/-- One step; `none` where it cannot happen. -/
def step (s : Assigning) : AssigningEvent → Option Assigning
  | .hello daemonId devices =>
    let stage := if daemonId = "" then .ready s.past.length [] else .asked
    some { s with hellos := s.hellos ++ [⟨daemonId, devices, stage⟩] }
  | .read i recorded failed =>
    match s.hellos[i]? with
    | some h =>
      if h.stage = .asked then
        some (s.setHello i { h with stage := .ready s.past.length (s.answer h recorded failed) })
      else none
    | none => none
  | .opens i =>
    match s.hellos[i]? with
    | some ⟨daemonId, devices, .ready version answer⟩ =>
      some (s.setHello i ⟨daemonId, devices, .opened version answer false⟩)
    | _ => none
  | .close i =>
    match s.hellos[i]? with
    | some ⟨daemonId, devices, .opened _ _ _⟩ => some (s.setHello i ⟨daemonId, devices, .closed⟩)
    | _ => none
  | .change daemonId interface sha expected =>
    some { s with changes := s.changes ++ [⟨daemonId, interface, sha, expected, .begun⟩] }
  | .commit j answered =>
    match s.changes[j]? with
    | some c =>
      if c.stage = .begun then
        if s.affects c then
          let stage := if answered then .committed s.past.length else .unanswered s.past.length
          some { s.setChange j { c with stage } with
                 past := s.past ++ [s.table], table := s.table.set c.daemonId c.interface c.sha }
        else some (s.setChange j { c with stage := .unchanged })
      else none
    | none => none
  | .fail j =>
    match s.changes[j]? with
    | some c =>
      if c.stage = .begun then some (s.setChange j { c with stage := .unchanged }) else none
    | none => none
  | .reassign j =>
    match s.changes[j]? with
    | some c =>
      match c.stage with
      | .committed version =>
        some { s.setChange j { c with stage := .returned version } with
               hellos := s.hellos.map (tell c.daemonId c.interface) }
      | _ => none
    | none => none

end Assigning

end WireTap.Gateway
