import WireTap.Cache.FrameCache

/-!
# The SQLite cache

`SqliteCache`, the one implementation of `FrameCache`: a `frames` table with `AUTOINCREMENT` ids, a
connection to it and a row count kept beside it.

What SQLite and the file system answer is the cache's `host`: for each kind of operation the
answers still to come, all well once they run out.  A row holds whatever was appended: the columns
of a sample are in `WireTap.Cache.Rows`, and `RowCache` is the cache with a reader between its rows
and the samples, which a row another build wrote need not get past.  A file that another program
writes to meanwhile is not modelled.
-/

namespace WireTap

variable {α : Type}

/-- The `frames` table: rows in id order, and the last id `AUTOINCREMENT` gave out. -/
structure Table (α : Type) where
  rows : List (Cached α)
  seq : Nat
  sorted : rows.Pairwise fun a b => a.id < b.id
  below : ∀ row ∈ rows, row.id ≤ seq

/-- Consecutive ids after `seq`. -/
def number (seq : Nat) : List α → List (Cached α)
  | [] => []
  | x :: xs => ⟨seq + 1, x⟩ :: number (seq + 1) xs

theorem id_of_mem_number {seq : Nat} {xs : List α} {row : Cached α} (h : row ∈ number seq xs) :
    seq < row.id ∧ row.id ≤ seq + xs.length := by
  induction xs generalizing seq with
  | nil => cases h
  | cons x xs ih =>
    rw [List.length_cons]
    rcases List.mem_cons.mp h with rfl | hmem
    · exact ⟨Nat.lt_succ_self seq, by dsimp only; omega⟩
    · have hid := ih hmem
      omega

theorem number_sorted (seq : Nat) (xs : List α) :
    (number seq xs).Pairwise fun a b => a.id < b.id := by
  induction xs generalizing seq with
  | nil => exact List.Pairwise.nil
  | cons x xs ih => exact List.Pairwise.cons (fun _ h => (id_of_mem_number h).1) (ih _)

namespace Table

/-- A table just created. -/
def empty : Table α where
  rows := []
  seq := 0
  sorted := List.Pairwise.nil
  below := by simp

/-- `INSERT INTO frames`, once for each of `xs`. -/
def insert (t : Table α) (xs : List α) : Table α where
  rows := t.rows ++ number t.seq xs
  seq := t.seq + xs.length
  sorted := by
    refine List.pairwise_append.mpr ⟨t.sorted, number_sorted t.seq xs, ?_⟩
    intro a ha b hb
    have hid := (id_of_mem_number hb).1
    have hbelow := t.below a ha
    omega
  below := by
    intro row hrow
    rcases List.mem_append.mp hrow with hold | hnew
    · have hbelow := t.below row hold
      omega
    · exact (id_of_mem_number hnew).2

/-- `DELETE FROM frames WHERE id IN (…)`. -/
def delete (t : Table α) (ids : List Nat) : Table α where
  rows := t.rows.filter fun row => !ids.contains row.id
  seq := t.seq
  sorted := t.sorted.filter _
  below := fun row hrow => t.below row (List.mem_filter.mp hrow).1

end Table

/-- What the cache's connection is to: the file at its path, or the in-memory placeholder, which
has no table. -/
inductive Conn where
  | file
  | memory
  deriving DecidableEq

/-- A step of `reset` that can fail. -/
inductive ResetStep where
  | openInMemory
  | unlinkFile
  | unlinkSidecar
  | openConn
  deriving DecidableEq

/-- The answers SQLite and the file system have still to give: whether the next append, read or
delete fails, where the next reset does, and the size of the cache's files when next asked. -/
structure Host where
  append : List Bool := []
  oldest : List Bool := []
  remove : List Bool := []
  reset : List (Option ResetStep) := []
  sizes : List Nat := []

structure SqliteCache (α : Type) where
  conn : Conn
  /-- The table in the file at `path`; none if there is no file, or one without the table. -/
  file : Option (Table α)
  maxBytes : Nat
  rows : Nat
  host : Host

/-- More bound variables than SQLite takes in one statement are refused. -/
def maxVariables : Nat := 32766

namespace SqliteCache

/-- A cache opened on a file that holds `t`. -/
def opened (t : Table α) (maxBytes : Nat) (host : Host) : SqliteCache α where
  conn := .file
  file := some t
  maxBytes
  rows := t.rows.length
  host

/-- The table the connection reaches. -/
def table (c : SqliteCache α) : Option (Table α) :=
  match c.conn with
  | .file => c.file
  | .memory => none

def noTable : CacheError := ⟨"no such table: frames"⟩

def ioError : CacheError := ⟨"disk I/O error"⟩

/-- `append`: one transaction for the whole batch. -/
def append (c : SqliteCache α) (frames : List α) : Except CacheError Nat × SqliteCache α :=
  if frames.isEmpty then (.ok 0, c)
  else
    let c' := { c with host.append := c.host.append.tail }
    match c.table with
    | none => (.error noTable, c')
    | some t =>
      if c.host.append.headD false then (.error ioError, c')
      else
        (.ok frames.length,
          { c' with file := some (t.insert frames), rows := c.rows + frames.length })

/-- The query of `oldest`: `ORDER BY id LIMIT limit`. -/
def oldest (c : SqliteCache α) (limit : Nat) :
    Except CacheError (List (Cached α)) × SqliteCache α :=
  let c' := { c with host.oldest := c.host.oldest.tail }
  match c.table with
  | none => (.error noTable, c')
  | some t =>
    if c.host.oldest.headD false then (.error ioError, c')
    else (.ok (t.rows.take limit), c')

/-- `remove`: one bound variable for each frame, and the count less whatever was deleted. -/
def remove (c : SqliteCache α) (frames : List (Cached α)) :
    Except CacheError Unit × SqliteCache α :=
  if frames.isEmpty then (.ok (), c)
  else if maxVariables < frames.length then (.error ⟨"too many SQL variables"⟩, c)
  else
    let c' := { c with host.remove := c.host.remove.tail }
    match c.table with
    | none => (.error noTable, c')
    | some t =>
      if c.host.remove.headD false then (.error ioError, c')
      else
        let t' := t.delete (frames.map Cached.id)
        let removed := t.rows.length - t'.rows.length
        (.ok (), { c' with file := some t', rows := c.rows - removed })

/-- `count`: tracked rather than counted. -/
def count (c : SqliteCache α) : Except CacheError Nat × SqliteCache α := (.ok c.rows, c)

/-- `is_full`: the files' size now, against the limit. -/
def isFull (c : SqliteCache α) : Bool × SqliteCache α :=
  (decide (c.maxBytes ≤ c.host.sizes.headD 0), { c with host.sizes := c.host.sizes.tail })

/-- `reset`: to a placeholder, unlink the files, open a fresh one.  A step that fails leaves what
the steps before it did. -/
def reset (c : SqliteCache α) : Except CacheError Unit × SqliteCache α :=
  let c' := { c with host.reset := c.host.reset.tail }
  match c.host.reset.headD none with
  | some .openInMemory => (.error ioError, c')
  | some .unlinkFile => (.error ⟨"cannot remove the cache"⟩, { c' with conn := .memory })
  | some .unlinkSidecar =>
    (.error ⟨"cannot remove the cache"⟩, { c' with conn := .memory, file := none })
  | some .openConn => (.error ioError, { c' with conn := .memory, file := none })
  | none => (.ok (), { c' with conn := .file, file := some .empty, rows := 0 })

instance : FrameCache (SqliteCache α) α where
  append frames c := c.append frames
  oldest limit c := c.oldest limit
  remove frames c := c.remove frames
  count c := c.count
  isFull c := c.isFull
  reset c := c.reset

end SqliteCache

/-! ### Samples in rows -/

/-- How a sample is stored in a row, and read back. -/
structure RowFormat (β α : Type) where
  write : α → β
  /-- Nothing for a row that this build cannot read. -/
  read : β → Option α

/-- The disk cache over what is in its file. -/
structure RowCache {β α : Type} (format : RowFormat β α) where
  file : SqliteCache β

namespace RowCache

variable {β : Type} {format : RowFormat β α}

def unreadable : CacheError := ⟨"a row that is no sample"⟩

/-- A row as `oldest` returns it. -/
def readRow (format : RowFormat β α) (row : Cached β) : Option (Cached α) :=
  (format.read row.sample).map fun sample => ⟨row.id, sample⟩

/-- `append`, a row for each sample. -/
def append (c : RowCache format) (frames : List α) : Except CacheError Nat × RowCache format :=
  let (r, file) := c.file.append (frames.map format.write)
  (r, ⟨file⟩)

/-- `oldest`: one row that cannot be read fails it. -/
def oldest (c : RowCache format) (limit : Nat) :
    Except CacheError (List (Cached α)) × RowCache format :=
  match c.file.oldest limit with
  | (.error e, file) => (.error e, ⟨file⟩)
  | (.ok rows, file) =>
    match rows.mapM (readRow format) with
    | none => (.error unreadable, ⟨file⟩)
    | some frames => (.ok frames, ⟨file⟩)

/-- `remove`, which looks at the ids alone. -/
def remove (c : RowCache format) (frames : List (Cached α)) :
    Except CacheError Unit × RowCache format :=
  let (r, file) := c.file.remove (frames.map fun f => ⟨f.id, format.write f.sample⟩)
  (r, ⟨file⟩)

instance : FrameCache (RowCache format) α where
  append frames c := c.append frames
  oldest limit c := c.oldest limit
  remove frames c := c.remove frames
  count c := (c.file.count.1, ⟨c.file.count.2⟩)
  isFull c := (c.file.isFull.1, ⟨c.file.isFull.2⟩)
  reset c := (c.file.reset.1, ⟨c.file.reset.2⟩)

end RowCache

end WireTap
