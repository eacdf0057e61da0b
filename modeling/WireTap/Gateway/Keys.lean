import Mathlib.Data.List.Nodup

/-!
# The key store

`KeyStore`: the table `wiretap_meta.api_keys`, and the map of enabled keys `validate` looks in.
Every change is one SQL statement followed by a `reload`, which reads the table and then puts what
it read in the map's place.  Calls run beside each other: `KeyStore.step` is one call's statement,
its read or its overwrite, and a run is any interleaving of them.

A statement is atomic.  `new_key` makes a key out of 32 random bytes, so a key it makes is taken to
have a hash no key has had before.  Left out: `last_used_at` and `created_at`, which decide nothing,
the wrong-key counts, and the bootstrap key's rotation; the role is a `Role`, as the column's `CHECK`
allows no other text.
-/

namespace WireTap.Gateway

/-- A key's SHA-256, in hex. -/
abbrev Hash := String

inductive Role where
  | read
  | ingest
  | admin
  deriving DecidableEq

/-- A row of `api_keys`. -/
structure KeyRow where
  id : Nat
  name : String
  keyHash : Hash
  role : Role
  databasePin : Option String
  disabled : Bool
  deriving DecidableEq

/-- What `validate` answers. -/
structure KeyInfo where
  id : Nat
  name : String
  role : Role
  databasePin : Option String
  deriving DecidableEq

/-- `api_keys`: `id` is its primary key, taken from a sequence, and `key_hash` is unique. -/
structure KeyTable where
  rows : List KeyRow
  nextId : Nat
  ids : (rows.map (·.id)).Nodup
  hashes : (rows.map (·.keyHash)).Nodup
  below : ∀ r ∈ rows, r.id < nextId
  deriving DecidableEq

/-! ### The statements -/

inductive Statement where
  | create (name : String) (keyHash : Hash) (role : Role) (databasePin : Option String)
  | setDisabled (id : Nat) (disabled : Bool)
  | rotate (id : Nat) (keyHash : Hash)
  /-- `pin` is `some none` to clear the pin, and `none` to leave it. -/
  | edit (id : Nat) (name : Option String) (pin : Option (Option String))
  | delete (id : Nat)
  deriving DecidableEq

namespace Statement

/-- The hash of the key the call made. -/
def newHash : Statement → Option Hash
  | create _ keyHash _ _ => some keyHash
  | rotate _ keyHash => some keyHash
  | _ => none

/-- What an `UPDATE` makes of a row. -/
def update (st : Statement) (r : KeyRow) : KeyRow :=
  match st with
  | setDisabled id disabled => if r.id = id ∧ r.disabled = !disabled then { r with disabled } else r
  | rotate id keyHash => if r.id = id ∧ r.disabled = false then { r with keyHash } else r
  | edit id name pin =>
    if r.id = id then
      { r with name := name.getD r.name, databasePin := pin.getD r.databasePin }
    else r
  | create .. | delete _ => r

/-- The rows the statement leaves. -/
def rows (st : Statement) (t : KeyTable) : List KeyRow :=
  match st with
  | create name keyHash role databasePin =>
    t.rows ++ [{ id := t.nextId, name, keyHash, role, databasePin, disabled := false }]
  | delete id => t.rows.filter fun r => r.id ≠ id
  | st => t.rows.map st.update

/-- The sequence the statement leaves. -/
def nextId (st : Statement) (t : KeyTable) : Nat :=
  match st with
  | create .. => t.nextId + 1
  | _ => t.nextId

theorem update_id (st : Statement) (r : KeyRow) : (st.update r).id = r.id := by
  unfold update
  split <;> try split
  all_goals rfl

theorem rows_below (st : Statement) (t : KeyTable) : ∀ r ∈ st.rows t, r.id < st.nextId t := by
  intro r hr
  have hupdated : ∀ r ∈ t.rows.map st.update, r.id < t.nextId := by
    intro r hr
    obtain ⟨r₀, hr₀, rfl⟩ := List.mem_map.mp hr
    rw [update_id]
    exact t.below r₀ hr₀
  cases st with
  | create name keyHash role databasePin =>
    rcases List.mem_append.mp hr with h | h
    · exact Nat.lt_succ_of_lt (t.below r h)
    · rw [List.mem_singleton.mp h]
      exact Nat.lt_succ_self _
  | delete id => exact t.below r (List.mem_filter.mp hr).1
  | setDisabled id disabled => exact hupdated r hr
  | rotate id keyHash => exact hupdated r hr
  | edit id name pin => exact hupdated r hr

end Statement

/-- A statement fails, and changes nothing, where it would break a constraint. -/
def KeyTable.exec (t : KeyTable) (st : Statement) : Option KeyTable :=
  if h : ((st.rows t).map (·.id)).Nodup ∧ ((st.rows t).map (·.keyHash)).Nodup then
    some ⟨st.rows t, st.nextId t, h.1, h.2, st.rows_below t⟩
  else none

/-! ### The store -/

/-- `key_hash → KeyInfo`, the entry inserted last first. -/
abbrev KeyMap := List (Hash × KeyInfo)

def KeyRow.info (r : KeyRow) : KeyInfo := ⟨r.id, r.name, r.role, r.databasePin⟩

/-- What `reload` reads and makes of it: `WHERE disabled_at IS NULL`, each row inserted. -/
def KeyTable.load (t : KeyTable) : KeyMap :=
  (t.rows.filter fun r => !r.disabled).foldl (fun map r => (r.keyHash, r.info) :: map) []

/-- How far a call has come after its statement. -/
inductive Stage where
  /-- `reload` has not read yet. -/
  | waiting
  /-- `reload` has read the table, as the first `version` statements left it. -/
  | read (version : Nat) (map : KeyMap)
  /-- The map is overwritten and the call returns `Ok`; nothing is awaited in between. -/
  | returned
  /-- `reload` failed, or the call was dropped. -/
  | failed
  deriving DecidableEq

/-- A call whose statement took effect; `statement` is its place in the log.  A bare `reload` has
none. -/
structure Call where
  statement : Option Nat
  stage : Stage
  deriving DecidableEq

structure KeyStore where
  table : KeyTable
  cache : KeyMap
  /-- The admin key's hash, `bootstrap.current`. -/
  bootstrap : Option Hash
  calls : List Call
  /-- The table at the start and the statements since, for the specifications. -/
  start : KeyTable
  log : List Statement
  /-- The statements whose calls have returned `Ok`, in the order they did. -/
  returns : List Nat
  deriving DecidableEq

/-- A store whose `bootstrap` has loaded the table. -/
def KeyStore.init (t : KeyTable) (bootstrap : Option Hash) : KeyStore where
  table := t
  cache := t.load
  bootstrap
  calls := []
  start := t
  log := []
  returns := []

/-- `validate`, over the hash function. -/
def KeyStore.validate (s : KeyStore) (hashKey : String → Hash) (key : String) : Option KeyInfo :=
  if s.bootstrap = some (hashKey key) then some ⟨0, "bootstrap-admin", .admin, none⟩
  else s.cache.lookup (hashKey key)

/-- Every hash a key has had. -/
def usedHashes (start : KeyTable) (log : List Statement) : List Hash :=
  start.rows.map (·.keyHash) ++ log.filterMap Statement.newHash

inductive KeyEvent where
  /-- A call of `create`, `set_disabled`, `rotate`, `edit` or `delete` runs its statement. -/
  | call (st : Statement)
  /-- A bare `reload` is called. -/
  | reload
  /-- The `reload` of call `i` reads the table. -/
  | read (i : Nat)
  /-- The `reload` of call `i` overwrites the map. -/
  | overwrite (i : Nat)
  | fail (i : Nat)
  deriving DecidableEq

/-- A key just made. -/
def KeyStore.Fresh (s : KeyStore) (st : Statement) : Prop :=
  ∀ h ∈ st.newHash, h ∉ usedHashes s.start s.log

instance (s : KeyStore) (st : Statement) : Decidable (s.Fresh st) :=
  inferInstanceAs (Decidable (∀ h ∈ st.newHash, _))

def KeyStore.step (s : KeyStore) : KeyEvent → Option KeyStore
  | .call st =>
    if s.Fresh st then
      (s.table.exec st).map fun table =>
        { s with table, log := s.log ++ [st], calls := s.calls ++ [⟨some s.log.length, .waiting⟩] }
    else none
  | .reload => some { s with calls := s.calls ++ [⟨none, .waiting⟩] }
  | .read i =>
    match s.calls[i]? with
    | some ⟨statement, .waiting⟩ =>
      some { s with calls := s.calls.set i ⟨statement, .read s.log.length s.table.load⟩ }
    | _ => none
  | .overwrite i =>
    match s.calls[i]? with
    | some ⟨statement, .read _ map⟩ =>
      -- The map is replaced whole, by what this call read when it read.
      some { s with
             cache := map, calls := s.calls.set i ⟨statement, .returned⟩
             returns := s.returns ++ statement.toList }
    | _ => none
  | .fail i =>
    match s.calls[i]? with
    | some ⟨statement, .waiting⟩ | some ⟨statement, .read _ _⟩ =>
      some { s with calls := s.calls.set i ⟨statement, .failed⟩ }
    | _ => none

end WireTap.Gateway
