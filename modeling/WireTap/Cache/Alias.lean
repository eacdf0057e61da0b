import WireTap.Lib.Links
import WireTap.Cache.Adopt

/-!
# Adopting on a disk where two paths may name one file

`Disk` is the storage `adopt` runs on when nothing fails, with the names spelled out: a path names a
directory entry once its directories are resolved, an entry is a file or a link, and the two paths of
a call may be spelled differently and still name one entry, or two entries that lead to one file.

Opening, reading and writing follow links.  `rename` and `unlink` act on the entry itself, and an open
connection keeps its file whatever becomes of the names.  `adopt` compares the two paths as `Path`
does, by their components, so a path here is its components.  A link names the same entry wherever it
is moved to.
-/

namespace WireTap

/-- The names and files of a disk, and a call of `adopt` on it: `P` are paths, `E` directory
entries, `F` files. -/
structure Disk (P E F α : Type) where
  /-- The entry a path names, its directories resolved. -/
  entry : P → E
  nodes : E → Option (Node E F)
  tables : F → Table α
  path : P
  legacy : P
  /-- The file the cache is connected to; none for the placeholder. -/
  conn : Option F
  rows : Nat
  /-- The file the legacy cache, while open, is connected to. -/
  old : Option F := none
  /-- The two entries are on one mount, so that one can be renamed to the other. -/
  sameMount : Bool

/-- More links than this in a row are refused. -/
def maxLinks : Nat := 40

variable {P E F α : Type}

namespace Disk

/-- The file a path leads to. -/
def fileAt (d : Disk P E F α) (p : P) : Option F :=
  (trail d.nodes (maxLinks + 1) (d.entry p)).map Prod.snd

/-- The entries a path leads through. -/
def passes (d : Disk P E F α) (p : P) : List E :=
  ((trail d.nodes (maxLinks + 1) (d.entry p)).map Prod.fst).getD []

variable [DecidableEq E] [DecidableEq F]

/-- A file with another table in it. -/
def write (d : Disk P E F α) (f : F) (t : Table α) : Disk P E F α :=
  { d with tables := fun g => if g = f then t else d.tables g }

/-- `unlink(legacy)`. -/
def unlink (d : Disk P E F α) : Disk P E F α :=
  { d with nodes := fun e => if e = d.entry d.legacy then none else d.nodes e }

/-- `rename(legacy, path)`; of an entry to itself, it does nothing. -/
def move (d : Disk P E F α) : Disk P E F α :=
  if d.entry d.legacy = d.entry d.path then d
  else
    { d with
      nodes := fun e =>
        if e = d.entry d.path then d.nodes (d.entry d.legacy)
        else if e = d.entry d.legacy then none
        else d.nodes e }

/-- A connection that is needed and is not to a file. -/
def withFile {β : Type} (conn : Option F) (op : F → Step (Disk P E F α) β) :
    Step (Disk P E F α) β :=
  match conn with
  | none => throw (.failed SqliteCache.noTable)
  | some f => op f

variable [DecidableEq P]

instance : Storage (Disk P E F α) α where
  legacyThere d := .ok ((d.fileAt d.legacy).isSome && d.legacy != d.path) d
  openLegacy d :=
    withFile (d.fileAt d.legacy) (fun f d =>
      .ok (d.tables f).rows.length { d with old := some f }) d
  ownRows d := .ok d.rows d
  closeLegacy d := .ok () { d with old := none }
  placeholder d := .ok () { d with conn := none }
  removeSidecars d := .ok () d
  rename d := if d.sameMount then .ok true d.move else .ok false d
  -- The path always leads to a file here: the cache's own, or the one just moved there.
  reopen rows d :=
    withFile (d.fileAt d.path) (fun f d => .ok () { d with conn := some f, rows }) d
  unlinkLegacy d := .ok () d.unlink
  oldestLegacy limit d :=
    withFile d.old (fun f d => .ok ((d.tables f).rows.take limit) d) d
  append frames d :=
    withFile d.conn (fun f d =>
      .ok () { d.write f ((d.tables f).insert frames) with rows := d.rows + frames.length }) d
  removeLegacy batch d :=
    withFile d.old (fun f d =>
      .ok () (d.write f ((d.tables f).delete (batch.map Cached.id)))) d

end Disk

end WireTap
