import Mathlib.Data.List.Sort
import WireTap.Lib.Run
import WireTap.Forward.Sink

/-!
# Catalogues over a restart

`remembered` and `Catalogues::new`: what a line frames with when the daemon starts, from
`assignments.json` and the cached blobs of the state directory.  `serde_json::from_slice` of a map
of strings is the function `fromSlice`.

`Filed` follows every session's steps on the catalogues from there, with whether the last write of
`assignments.json` that was tried has failed, for the specifications: no function reads that.
-/

namespace WireTap

/-- `remembered`: what `assignments.json` says, or nothing if it cannot be read. -/
def remembered (fromSlice : String → Except String Assignments) (disk : StateDir) : Assignments :=
  match disk.assignments with
  | none => ∅
  | some json =>
    match fromSlice json with
    | .ok assigned => assigned
    | .error _ => ∅

namespace Catalogues

/-- `lines.insert`: in interface order, in place of any line already on the interface. -/
def insertLine (lines : List Line) (line : Line) : List Line :=
  (lines.filter fun l => l.interface ≠ line.interface).orderedInsert
    (fun a b => a.interface ≤ b.interface) line

theorem insertLine_perm (lines : List Line) (line : Line) :
    (insertLine lines line).Perm (line :: lines.filter fun l => l.interface ≠ line.interface) :=
  List.perm_orderedInsert _ _ _

theorem insertLine_distinct {lines : List Line} (line : Line)
    (h : (lines.map Line.interface).Nodup) :
    ((insertLine lines line).map Line.interface).Nodup := by
  rw [((insertLine_perm lines line).map Line.interface).nodup_iff, List.map_cons, List.nodup_cons]
  refine ⟨?_, (List.filter_sublist.map Line.interface).nodup h⟩
  rintro hmem
  obtain ⟨l, hl, heq⟩ := List.mem_map.mp hmem
  have hne := (List.mem_filter.mp hl).2
  simp [heq] at hne

/-- What the state directory remembers, before any line is there. -/
def opened (fromSlice : String → Except String Assignments) (dir : Option String)
    (disk : StateDir) : Catalogues where
  dir
  lines := []
  distinct := List.nodup_nil
  assigned := if dir.isSome then remembered fromSlice disk else ∅
  refused := ∅
  changes := 0
  disk

section Format

variable [CatalogueFormat]

/-- A framed line, framing with what is remembered for it. -/
def addLine (c : Catalogues) (interface database : String) (etc : Option LineCatalogue) :
    Catalogues where
  dir := c.dir
  lines := insertLine c.lines ⟨interface, database, etc, c.rememberedRules interface etc⟩
  distinct := insertLine_distinct _ c.distinct
  assigned := c.assigned
  refused := c.refused
  changes := c.changes
  disk := c.disk

/-- `new`: `lines` as (interface, framed database, `/etc` catalogue). -/
def new (fromSlice : String → Except String Assignments) (dir : Option String) (disk : StateDir)
    (lines : List (String × String × Option LineCatalogue)) : Catalogues :=
  lines.foldl (fun c (interface, database, etc) => c.addLine interface database etc)
    (opened fromSlice dir disk)

/-- The daemon again, with the same settings and the state directory as it was left. -/
def restarted (fromSlice : String → Except String Assignments) (c : Catalogues) : Catalogues :=
  new fromSlice c.dir c.disk (c.lines.map fun l => (l.interface, l.database, l.etc))

end Format

/-- A write of `assignments.json` would succeed. -/
def canWrite (c : Catalogues) : Prop := c.dir.isSome ∧ c.disk.failures.headD none = none

instance (c : Catalogues) : Decidable c.canWrite :=
  inferInstanceAs (Decidable (c.dir.isSome ∧ c.disk.failures.headD none = none))

end Catalogues

/-! ### Runs -/

/-- The catalogues, and whether the last write of `assignments.json` that was tried has failed. -/
structure Filed where
  catalogues : Catalogues
  lost : Bool := false

namespace Filed

variable [CatalogueFormat]

/-- A step of any session. -/
def step (f : Filed) (e : Elsewhere) : Option Filed :=
  some
    { catalogues := f.catalogues.elsewhere e
      lost :=
        match e with
        | .store _ _ => f.lost
        | .apply updates =>
          if (f.catalogues.applyAll updates).1.assigned = f.catalogues.assigned ∨
            f.catalogues.dir = none then f.lost
          else (f.catalogues.disk.failures.headD none).isSome }

end Filed

end WireTap
