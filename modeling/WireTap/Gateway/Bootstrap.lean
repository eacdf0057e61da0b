import WireTap.Gateway.Keys
import WireTap.Gateway.Password

/-!
# The bootstrap admin key

`wiretap_meta.bootstrap_keys` has a row for each admin key there has been, and at most one that is
not retired.  A start settles what becomes of the key it is configured with (`bootstrap`), and a
rotation replaces the one in use (`rotate_bootstrap_key`).  A rotation writes in three places, in
this order: the rows, in a transaction, the key file if the key came from one, and memory once the
transaction has committed.

A call is one event here: rotations are serialised by the mutex `rotate_admin_key` holds, and
nothing is served before a start is over.  What a call meets at each of its steps is a parameter of
the event.  A crash inside a rotation leaves what the same rotation leaves that fails at the same
place, so it is that rotation and a `crash`; a start that fails ends the process.

The hash function is a parameter.  Left out: the times in the rows, which only a log line shows, and
the other keys, which `WireTap.Gateway.Keys` models.
-/

namespace WireTap.Gateway

/-- A row of `bootstrap_keys`; `retired` if its `retired_at` is not null. -/
structure BootstrapRow where
  keyHash : Hash
  retired : Bool
  deriving DecidableEq

/-- What `bootstrap_keys` makes of the configured admin key. -/
inductive Standing where
  | current
  | retired (current : Option Hash)
  | unknown
  deriving DecidableEq

/-- The query of `bootstrap`: `WHERE key_hash = $1 OR retired_at IS NULL`. -/
def asked (configured : Hash) (rows : List BootstrapRow) : List BootstrapRow :=
  rows.filter fun r => r.keyHash = configured || !r.retired

/-- `rows` holds the configured key's row, if any, and the current one. -/
def standing (configured : Hash) (rows : List BootstrapRow) : Standing :=
  match rows.find? fun r => r.keyHash = configured with
  | none => .unknown
  | some ⟨_, false⟩ => .current
  | some ⟨_, true⟩ => .retired ((rows.find? fun r => !r.retired).map (·.keyHash))

/-- `UPDATE … SET retired_at = now() WHERE retired_at IS NULL`. -/
def retireAll (rows : List BootstrapRow) : List BootstrapRow :=
  rows.map fun r => { r with retired := true }

/-- The first statements of `make_current`: the current row is retired, and `outgoing` is recorded as
retired if it has no row yet. -/
def retireCurrent (rows : List BootstrapRow) : Option Hash → List BootstrapRow
  | none => retireAll rows
  | some outgoing =>
    if outgoing ∈ (retireAll rows).map (·.keyHash) then retireAll rows
    else retireAll rows ++ [⟨outgoing, true⟩]

/-- `make_current`: `hash` becomes the current row; `none` where it has a row already, which the
primary key refuses.  The unique index over the rows not retired is never what refuses it: they have
all been retired. -/
def makeCurrent (rows : List BootstrapRow) (outgoing : Option Hash) (hash : Hash) :
    Option (List BootstrapRow) :=
  if hash ∈ (retireCurrent rows outgoing).map (·.keyHash) then none
  else some (retireCurrent rows outgoing ++ [⟨hash, false⟩])

/-- `Bootstrap`: hashes of the admin key the gateway was started with, and the one it honours. -/
structure Bootstrap where
  configured : Option Hash
  current : Option Hash
  deriving DecidableEq

/-- Where `secret_var` finds the admin key: nowhere, in `WIRETAP_ADMIN_KEY`, or in the file
`WIRETAP_ADMIN_KEY_FILE` names. -/
inductive KeySource where
  | unset
  | env (key : String)
  | file
  deriving DecidableEq

/-- A process that serves. -/
structure KeyProcess where
  source : KeySource
  bootstrap : Bootstrap
  deriving DecidableEq

/-- `secret_files.admin_key` names a file. -/
def KeyProcess.saves (p : KeyProcess) : Bool := p.source = .file

/-- A new key is taken up in memory. -/
def KeyProcess.takeUp (p : KeyProcess) (hash : Hash) : KeyProcess :=
  { p with bootstrap := ⟨if p.saves then some hash else p.bootstrap.configured, some hash⟩ }

/-- The rows, the key file and the process, if one is up. -/
structure AdminKey where
  rows : List BootstrapRow
  file : Option String
  process : Option KeyProcess
  deriving DecidableEq

/-- What a commit comes to: `unanswered` took effect, and the reply was lost. -/
inductive Committed where
  | ok
  | refused
  | unanswered
  deriving DecidableEq

/-- What a start meets: which of its statements succeed. -/
structure Start where
  connect : Bool := true
  transaction : Bool := true
  schema : Bool := true
  query : Bool := true
  makeCurrent : Bool := true
  commit : Committed := .ok
  reload : Bool := true
  deriving DecidableEq

/-- What a rotation meets. -/
structure Rotation where
  connect : Bool := true
  transaction : Bool := true
  makeCurrent : Bool := true
  persist : Promoted := .moved
  commit : Committed := .ok
  deriving DecidableEq

/-- The step a rotation failed at. -/
inductive RotationError where
  | connect
  | transaction
  | makeCurrent
  | persist
  | commit
  deriving DecidableEq

namespace AdminKey

variable (hashKey : String → Hash)

/-! ### A start -/

/-- `secret_var`: the key configured, if any; `none` where the file cannot be read, which ends the
start. -/
def configured (s : AdminKey) : KeySource → Option (Option String)
  | .unset => some none
  | .env key => some (some key)
  | .file => s.file.map some

/-- What `bootstrap` decides under its lock: the rows to commit and the hash to honour; `none` where
a statement of it fails. -/
def settle (rows : List BootstrapRow) (configured : Option Hash) (m : Start) :
    Option (List BootstrapRow × Option Hash) :=
  match configured with
  | none => some (rows, none)
  | some configured =>
    if !m.query then none
    else
      match standing configured (asked configured rows) with
      | .current => some (rows, some configured)
      | .retired current => some (rows, current)
      | .unknown =>
        if !m.makeCurrent then none
        else (makeCurrent rows none configured).map fun rows => (rows, some configured)

/-- `KeyStore::new` and `bootstrap`.  The process is up after it exactly if it returns `Ok`. -/
def start (s : AdminKey) (source : KeySource) (m : Start) : AdminKey :=
  let s := { s with process := none }
  match s.configured source with
  | none => s
  | some key =>
    let configured := key.map hashKey
    if !(m.connect && m.transaction && m.schema) then s
    else
      match settle s.rows configured m with
      | none => s
      | some (rows, honoured) =>
        match m.commit with
        | .refused => s
        -- The rows are written, and the process ends with the error all the same.
        | .unanswered => { s with rows }
        | .ok =>
          if m.reload then { s with rows, process := some ⟨source, ⟨configured, honoured⟩⟩ }
          else { s with rows }

/-! ### A rotation -/

/-- The end of a rotation: the commit, and the new key taken up in memory. -/
def commitRotation (s : AdminKey) (p : KeyProcess) (rows : List BootstrapRow) (key : String)
    (m : Rotation) : Except RotationError (Option String) × AdminKey :=
  match m.commit with
  | .refused => (.error .commit, s)
  | .unanswered => (.error .commit, { s with rows })
  | .ok => (.ok (some key), { s with rows, process := some (p.takeUp (hashKey key)) })

/-- The rotation from the file on: the key file, if there is one, and the commit. -/
def persistRotation (s : AdminKey) (p : KeyProcess) (rows : List BootstrapRow) (key : String)
    (m : Rotation) : Except RotationError (Option String) × AdminKey :=
  if p.saves then
    match m.persist with
    | .unmoved => (.error .persist, s)
    | .unsynced => (.error .persist, { s with file := some key })
    | .moved => commitRotation hashKey { s with file := some key } p rows key m
  else commitRotation hashKey s p rows key m

/-- `rotate_bootstrap_key` of the process `p`, where `new_key` makes `key`. -/
def rotateBootstrapKey (s : AdminKey) (p : KeyProcess) (key : String) (m : Rotation) :
    Except RotationError (Option String) × AdminKey :=
  if p.bootstrap.configured = none then (.ok none, s)
  else if !m.connect then (.error .connect, s)
  else if !m.transaction then (.error .transaction, s)
  else if !m.makeCurrent then (.error .makeCurrent, s)
  else
    match makeCurrent s.rows p.bootstrap.current (hashKey key) with
    | none => (.error .makeCurrent, s)
    | some rows => persistRotation hashKey s p rows key m

/-! ### Runs -/

/-- Nothing recorded yet. -/
def init (file : Option String) : AdminKey := ⟨[], file, none⟩

end AdminKey

inductive AdminKeyEvent where
  | start (source : KeySource) (m : Start)
  | rotate (key : String) (m : Rotation)
  | crash
  /-- The key file is changed by hand. -/
  | edit (file : Option String)
  deriving DecidableEq

namespace AdminKey

variable (hashKey : String → Hash)

/-- One step; `none` where it cannot happen. -/
def step (s : AdminKey) : AdminKeyEvent → Option AdminKey
  | .start source m => some (s.start hashKey source m)
  | .rotate key m => s.process.map fun p => (s.rotateBootstrapKey hashKey p key m).2
  | .crash => some { s with process := none }
  | .edit file => some { s with file }

/-- `validate` lets this key in as the bootstrap admin. -/
def honours (s : AdminKey) (key : String) : Prop :=
  s.process.bind (·.bootstrap.current) = some (hashKey key)

instance (s : AdminKey) (key : String) : Decidable (s.honours hashKey key) :=
  inferInstanceAs (Decidable (_ = _))

end AdminKey

end WireTap.Gateway
