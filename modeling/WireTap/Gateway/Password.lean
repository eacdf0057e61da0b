import Mathlib.Data.Option.Basic

/-!
# The database password

`rotate_pg_password` with a password file, and `reach_postgres`, which every start calls until it
succeeds.  A rotation stages the new password in `.next` beside the file, sets it with `ALTER ROLE`,
takes it up in memory and renames `.next` over the file: three places and three steps, each of
which can fail or be the last before a crash.

`step` is one step of that.  Rotations are serialised by the mutex `rotate_db_password` holds, so
one is under way at most.  `reach_postgres` is one event: it changes one durable thing at most, with
its last action, so a crash inside it is a crash before or after it.  A connection is let in exactly
if the password in memory is the role's, and an `ALTER ROLE` takes effect while its call waits or
not at all.
-/

namespace WireTap.Gateway

abbrev Password := String

/-- What `wslib_file_atomic::promote` came to: the rename was made, was made and its directory not
synced, or was not made. -/
inductive Promoted where
  | moved
  | unsynced
  | unmoved
  deriving DecidableEq

/-- Where the gateway is. -/
inductive Phase where
  /-- `reach_postgres` has not succeeded yet. -/
  | starting
  /-- No rotation is under way. -/
  | serving
  /-- `rotate_pg_password` is connected. -/
  | connected
  /-- The new password is in `.next`. -/
  | staged (password : Password)
  /-- The `ALTER ROLE` took effect, and its reply has not come. -/
  | applied (password : Password)
  /-- The new password is in memory, and `promote` is next. -/
  | saving (password : Password)
  deriving DecidableEq

/-- The role's password in the cluster, the password file and the `.next` beside it, and the
gateway. -/
structure PgPassword where
  role : Password
  file : Password
  next : Option Password
  memory : Password
  phase : Phase
  deriving DecidableEq

/-- What one call of `reach_postgres` meets. -/
structure Attempt where
  /-- The first connection gets as far as its password. -/
  reached : Bool := true
  /-- `.next` can be read. -/
  readable : Bool := true
  /-- The second connection gets as far as its password. -/
  reachedAgain : Bool := true
  promoted : Promoted := .moved
  discarded : Bool := true
  deriving DecidableEq

inductive ReachError where
  | unreached
  | unreadable
  | unpromoted
  | undiscarded
  deriving DecidableEq

namespace PgPassword

/-- The rename of `.next` over the file, as `promote` makes it. -/
def rename (s : PgPassword) : PgPassword :=
  match s.next with
  | none => s
  | some staged => { s with file := staged, next := none }

/-- `reach_postgres`. -/
def reachPostgres (s : PgPassword) (a : Attempt) : Except ReachError Unit × PgPassword :=
  match s.next with
  | none => (if a.reached && s.memory = s.role then .ok () else .error .unreached, s)
  | some staged =>
    if !a.reached then (.error .unreached, s)
    else if s.memory = s.role then
      if a.discarded then (.ok (), { s with next := none }) else (.error .undiscarded, s)
    -- `INVALID_PASSWORD`: the staged one is tried, and kept in memory if it is let in.
    else if !a.readable then (.error .unreadable, s)
    else if !(a.reachedAgain && staged = s.role) then (.error .unreached, s)
    else
      let s := { s with memory := staged }
      match a.promoted with
      | .moved => (.ok (), s.rename)
      | .unsynced => (.error .unpromoted, s.rename)
      | .unmoved => (.error .unpromoted, s)

/-- A crash, and the process that comes after it: it has the password the file holds. -/
def restart (s : PgPassword) : PgPassword := { s with memory := s.file, phase := .starting }

/-- A gateway about to start for the first time, with what an earlier one left in `.next`. -/
def init (password : Password) (left : Option Password) : PgPassword where
  role := password
  file := password
  next := left
  memory := password
  phase := .starting

end PgPassword

/-- A step of the gateway. -/
inductive PasswordEvent where
  /-- A call of `reach_postgres`. -/
  | reach (a : Attempt)
  /-- A rotation begins: it connects and sets its statement timeout. -/
  | connect
  /-- `secrets::stage`. -/
  | stage (password : Password)
  /-- `secrets::stage` fails, whatever it makes of `.next`. -/
  | stageFails (left : Option Password)
  /-- The `ALTER ROLE` takes effect. -/
  | alter
  /-- Its reply comes, and the password is taken up. -/
  | reply
  | promote (p : Promoted)
  /-- The rotation ends early: a refused `ALTER ROLE`, a lost reply, a dropped request. -/
  | fail
  | crash
  deriving DecidableEq

namespace PgPassword

/-- One step; `none` where it cannot happen. -/
def step (s : PgPassword) : PasswordEvent → Option PgPassword
  | .reach a =>
    if s.phase = .starting then
      match s.reachPostgres a with
      | (.ok (), s) => some { s with phase := .serving }
      | (.error _, s) => some s
    else none
  | .connect =>
    if s.phase = .serving ∧ s.memory = s.role then some { s with phase := .connected } else none
  | .stage password =>
    if s.phase = .connected then some { s with next := some password, phase := .staged password }
    else none
  | .stageFails left =>
    if s.phase = .connected then some { s with next := left, phase := .serving } else none
  | .alter =>
    match s.phase with
    | .staged password => some { s with role := password, phase := .applied password }
    | _ => none
  | .reply =>
    match s.phase with
    | .applied password => some { s with memory := password, phase := .saving password }
    | _ => none
  | .promote p =>
    match s.phase, p with
    | .saving _, .unmoved => some { s with phase := .serving }
    | .saving _, _ => some { s.rename with phase := .serving }
    | _, _ => none
  | .fail =>
    match s.phase with
    | .connected | .staged _ | .applied _ => some { s with phase := .serving }
    | _ => none
  | .crash => some s.restart

end PgPassword

end WireTap.Gateway
