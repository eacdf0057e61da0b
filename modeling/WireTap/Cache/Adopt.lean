import Mathlib.Algebra.Group.Nat.Defs
import WireTap.Cache.Sqlite

/-!
# Adopting a legacy cache

`SqliteCache::adopt`, with `take_over` and `delete`: everything in the cache an older install left
behind is moved to the end of this one, and the old file deleted.

`adopt` is written over a `Storage`, what it asks of SQLite and the file system for its own cache and
for the legacy one.  A step ends the call if it fails, and any step may be the last before the
process dies.  The copy loop is given fuel: a call that runs out of it has not returned.

`Site` is the storage of two caches in two files, each step of which may fail or be cut short by a
crash as the `Answers` to the call say.  A crash is of the process, so what SQLite committed stays
committed.
-/

namespace WireTap

/-- Why a call has not returned `Ok`. -/
inductive Halt where
  | failed (e : CacheError)
  | crashed
  /-- Still in the copy loop. -/
  | looping
  deriving DecidableEq

/-- A step of a call: its result, or why there is none, and what it leaves. -/
abbrev Step (σ : Type) := EStateM Halt σ

/-- What `adopt` asks for.  `Own` is the cache that adopts, `Legacy` the one adopted. -/
class Storage (σ : Type) (α : outParam Type) where
  /-- `legacy.exists()`, and `legacy` is not the cache's own path as spelled. -/
  legacyThere : Step σ Bool
  /-- `Self::open(legacy, u64::MAX)`: its row count. -/
  openLegacy : Step σ Nat
  /-- `self.rows`. -/
  ownRows : Step σ Nat
  /-- `drop` of the legacy connection, which checkpoints its log. -/
  closeLegacy : Step σ Unit
  /-- `self.conn = Connection::open_in_memory()?`, which closes the cache's own. -/
  placeholder : Step σ Unit
  /-- The cache's own sidecars go; one that does not is left. -/
  removeSidecars : Step σ Unit
  /-- `rename(legacy, self.path).is_ok()`. -/
  rename : Step σ Bool
  /-- `self.conn = Self::open_conn(&self.path)?`, and the row count set. -/
  reopen (rows : Nat) : Step σ Unit
  /-- `unlink(legacy)`. -/
  unlinkLegacy : Step σ Unit
  oldestLegacy (limit : Nat) : Step σ (List (Cached α))
  append (frames : List α) : Step σ Unit
  removeLegacy (batch : List (Cached α)) : Step σ Unit

/-- `ADOPT_BATCH`. -/
def adoptBatch : Nat := 1000

section Adopt

open Storage

variable {σ α : Type} [Storage σ α]

/-- `delete`: close the legacy cache and remove its files. -/
def deleteLegacy : Step σ Unit := do
  closeLegacy
  unlinkLegacy

/-- `take_over`: move the legacy file over this cache's.  Says whether the rename happened. -/
def takeOver (rows : Nat) : Step σ Bool := do
  closeLegacy
  placeholder
  removeSidecars
  let renamed ← rename
  reopen (if renamed then rows else 0)
  return renamed

/-- The copy loop: a batch at a time, appended here and then removed there. -/
def copyAcross : Nat → Step σ Unit
  | 0 => throw .looping
  | fuel + 1 => do
    let batch ← oldestLegacy adoptBatch
    if batch.isEmpty then return ()
    else
      append (batch.map Cached.sample)
      removeLegacy batch
      copyAcross fuel

/-- `adopt`, from the copy on. -/
def adoptByCopy (fuel moved : Nat) : Step σ Nat := do
  copyAcross fuel
  deleteLegacy
  return moved

/-- `adopt`, of `moved` rows: by a rename into an empty cache, and else by a copy. -/
def adoptRows (fuel moved : Nat) : Step σ Nat := do
  if (← ownRows) = 0 then
    if ← takeOver moved then return moved
    else
      let _ ← openLegacy
      adoptByCopy fuel moved
  else adoptByCopy fuel moved

/-- `adopt`: how many frames moved. -/
def adopt (fuel : Nat) : Step σ Nat := do
  if ← legacyThere then
    let moved ← openLegacy
    if moved = 0 then
      deleteLegacy
      return 0
    else adoptRows fuel moved
  else return 0

end Adopt

/-! ### Two files -/

/-- How a step ended: done, refused, or the process died before it took effect or just after. -/
inductive Fate where
  | ok
  | fails
  | diesBefore
  | diesAfter
  deriving DecidableEq

/-- The step takes effect. -/
def Fate.takesEffect : Fate → Bool
  | .ok | .diesAfter => true
  | .fails | .diesBefore => false

/-- The fates of one turn of the copy loop. -/
structure Turn where
  read : Fate := .ok
  append : Fate := .ok
  remove : Fate := .ok
  deriving DecidableEq

/-- What SQLite and the file system answer in one call of `adopt`.  A close that does not
checkpoint leaves a database file that holds less than the cache does, the rest in its log. -/
structure Answers (α : Type) where
  openLegacy : Fate := .ok
  /-- What the legacy database file alone holds, if its close did not checkpoint. -/
  legacyLags : Option (Table α) := none
  placeholder : Fate := .ok
  /-- As `legacyLags`, for the cache's own file. -/
  ownLags : Option (Table α) := none
  removeSidecars : Fate := .ok
  rename : Fate := .ok
  /-- What a database reads as with another's log beside it. -/
  muddled : Table α := .empty
  reopen : Fate := .ok
  openAgain : Fate := .ok
  turns : List Turn := []
  unlinkFile : Fate := .ok
  unlinkSidecars : Fate := .ok

/-- The two caches, each with its file. -/
structure Site (α : Type) where
  own : SqliteCache α
  legacy : SqliteCache α
  answers : Answers α := {}

variable {α : Type}

namespace Site

/-- A step with this fate and this effect. -/
def act {β : Type} (fate : Fate) (effect : Site α → Except CacheError β × Site α) :
    Step (Site α) β := fun s =>
  match fate with
  | .ok =>
    match effect s with
    | (.ok b, s') => .ok b s'
    | (.error e, s') => .error (.failed e) s'
  | .fails => .error (.failed SqliteCache.ioError) s
  | .diesBefore => .error .crashed s
  | .diesAfter => .error .crashed (effect s).2

/-- Open the legacy file, which exists. -/
def opened (s : Site α) : Except CacheError Nat × Site α :=
  let t := s.legacy.file.getD .empty
  (.ok t.rows.length, { s with legacy := .opened t (2 ^ 64 - 1) {} })

/-- The sidecars are gone: of a log that was not checkpointed, so is what it held. -/
def withoutSidecars (s : Site α) : Site α :=
  match s.answers.ownLags with
  | none => s
  | some main => { s with own.file := some main }

/-- The legacy database file is at the cache's path. -/
def renamed (s : Site α) : Site α :=
  let moved := s.answers.legacyLags.getD (s.legacy.file.getD .empty)
  let log := s.answers.ownLags.isSome && !s.answers.removeSidecars.takesEffect
  { s with
    own.file := some (if log then s.answers.muddled else moved)
    legacy.file := none }

/-- The turn of the copy loop under way. -/
def turn (s : Site α) : Turn := s.answers.turns.headD {}

instance : Storage (Site α) α where
  legacyThere s := .ok s.legacy.file.isSome s
  openLegacy s :=
    act s.answers.openLegacy opened
      { s with answers := { s.answers with openLegacy := s.answers.openAgain } }
  ownRows s := .ok s.own.rows s
  closeLegacy s := .ok () s
  placeholder s := act s.answers.placeholder (fun s => (.ok (), { s with own.conn := .memory })) s
  removeSidecars s :=
    match s.answers.removeSidecars with
    | .ok => .ok () s.withoutSidecars
    | .fails => .ok () s
    | .diesBefore => .error .crashed s
    | .diesAfter => .error .crashed s.withoutSidecars
  rename s :=
    match s.answers.rename with
    | .ok => .ok true s.renamed
    | .fails => .ok false s
    | .diesBefore => .error .crashed s
    | .diesAfter => .error .crashed s.renamed
  reopen rows s :=
    act s.answers.reopen (fun s =>
      (.ok (), { s with
        own.conn := .file
        own.file := some (s.own.file.getD .empty)
        own.rows := rows })) s
  unlinkLegacy := do
    let s ← get
    act s.answers.unlinkFile fun s => (.ok (), { s with legacy.file := none })
    act s.answers.unlinkSidecars fun s => (.ok (), s)
  oldestLegacy limit s :=
    act s.turn.read (fun s =>
      let (r, legacy) := s.legacy.oldest limit
      (r, { s with legacy })) s
  append frames s :=
    act s.turn.append (fun s =>
      let (r, own) := s.own.append frames
      (r.map fun _ => (), { s with own })) s
  removeLegacy batch s :=
    act s.turn.remove (fun s =>
      let (r, legacy) := s.legacy.remove batch
      (r, { s with legacy, answers.turns := s.answers.turns.tail })) s

end Site

/-- The frames in a file, oldest first. -/
def framesIn : Option (Table α) → List α
  | none => []
  | some t => t.rows.map Cached.sample

namespace Site

/-- A call of `adopt`, with fuel for every turn of the copy loop. -/
def adoptWhole (s : Site α) : EStateM.Result Halt (Site α) Nat :=
  adopt ((framesIn s.legacy.file).length + 1) s

/-- The next start: the cache opened on its file, and what its call of `adopt` will be answered. -/
def restart (s : Site α) (answers : Answers α) : Site α where
  own := .opened (s.own.file.getD .empty) s.own.maxBytes {}
  legacy := s.legacy
  answers

/-- `adopt` on one start after another, until it returns `Ok`. -/
def adoptUntilOk : Site α → List (Answers α) → Option (Site α)
  | _, [] => none
  | s, answers :: rest =>
    match (s.restart answers).adoptWhole with
    | .ok _ s' => some s'
    | .error _ s' => adoptUntilOk s' rest

/-- The two caches before anything is adopted. -/
def ofTables (own legacy : Table α) : Site α where
  own := .opened own (2 ^ 64 - 1) {}
  legacy := .opened legacy (2 ^ 64 - 1) {}

end Site

/-! ### A cache in use -/

/-- An operation on a cache; `adopt` with what is at the legacy path, another file or none, and what
the call is answered. -/
inductive CacheCall (α : Type) where
  | append (frames : List α)
  | oldest (limit : Nat)
  | remove (frames : List (Cached α))
  | reset
  | adopt (legacy : Option (Table α)) (answers : Answers α)

/-- The call of `adopt` on this cache. -/
def SqliteCache.adopting (c : SqliteCache α) (legacy : Option (Table α)) (answers : Answers α) :
    EStateM.Result Halt (Site α) Nat :=
  Site.adoptWhole
    { own := c
      legacy := { conn := .memory, file := legacy, maxBytes := 0, rows := 0, host := {} }
      answers }

/-- What a call of `adopt` leaves, whether or not it returned. -/
def adoptLeaves : EStateM.Result Halt (Site α) Nat → Site α
  | .ok _ s => s
  | .error _ s => s

/-- The cache after an operation, whether or not it succeeded; none once the process is dead. -/
def SqliteCache.op (c : SqliteCache α) : CacheCall α → Option (SqliteCache α)
  | .append frames => some (c.append frames).2
  | .oldest limit => some (c.oldest limit).2
  | .remove frames => some (c.remove frames).2
  | .reset => some c.reset.2
  | .adopt legacy answers =>
    match c.adopting legacy answers with
    | .ok _ s => some s.own
    | .error .crashed _ => none
    | .error _ s => some s.own

end WireTap
