import Mathlib.Data.List.Basic
import Mathlib.Tactic.Common
import WireTap.Lib.Halting
import WireTap.Lib.Links
import WireTap.Cache.Alias
import WireTap.Cache.Equiv.Adopt

/-!
# When adoption ends and deletes nothing in use

`adopt` tells its own cache from a legacy one by the spelling of the path.  Where the two paths lead
to one file that holds frames, each turn of the copy loop puts back what it takes, and the loop does
not end (`copyAcross_loops`); where that file is empty, deleting the legacy entry takes it from the
cache's path if the path leads through that entry.  In every other case the call ends with the frames
of both in the file at the cache's path (`adopts_all_iff`).
-/

namespace WireTap

variable {P E F α : Type}

namespace Disk

/-- The cache is connected to the file at its path, and its row count is that file's. -/
structure InUse (d : Disk P E F α) (f : F) : Prop where
  file : d.fileAt d.path = some f
  conn : d.conn = some f
  counted : d.rows = (d.tables f).rows.length

/-- The frames in the file a path leads to. -/
def heldAt (d : Disk P E F α) (p : P) : List α := framesIn ((d.fileAt p).map d.tables)

/-! ### Names -/

variable {d : Disk P E F α} {f g : F}

theorem heldAt_of_file {p : P} (h : d.fileAt p = some f) :
    d.heldAt p = framesIn (some (d.tables f)) := by
  rw [heldAt, h]
  rfl

/-- The trail behind a path that leads to a file. -/
theorem trail_of_fileAt {p : P} (h : d.fileAt p = some f) :
    trail d.nodes (maxLinks + 1) (d.entry p) = some (d.passes p, f) := by
  obtain ⟨⟨es, f'⟩, htrail, rfl⟩ := Option.map_eq_some_iff.mp h
  rw [passes, htrail]
  rfl

/-- A path that leads through the entry of another leads to the same file. -/
theorem fileAt_of_passes {p q : P} (hp : d.fileAt p = some f) (hq : d.fileAt q = some g)
    (hpass : d.entry q ∈ d.passes p) : f = g := by
  obtain ⟨m, rest, htrail, -⟩ := trail_of_mem (trail_of_fileAt hp) hpass
  exact (trail_unique htrail (trail_of_fileAt hq)).2

variable [DecidableEq E]

/-- Unlinking an entry the path does not lead through leaves its file. -/
theorem fileAt_unlink (h : d.fileAt d.path = some f) (hpass : d.entry d.legacy ∉ d.passes d.path) :
    d.unlink.fileAt d.path = some f := by
  have htrail : trail d.unlink.nodes (maxLinks + 1) (d.entry d.path) =
      some (d.passes d.path, f) := by
    refine trail_congr (trail_of_fileAt h) fun x hx => if_neg ?_
    rintro rfl
    exact hpass hx
  change (trail d.unlink.nodes (maxLinks + 1) (d.entry d.path)).map Prod.snd = some f
  rw [htrail]
  rfl

/-- Unlinking an entry the path leads through takes its file away. -/
theorem fileAt_unlink_of_passes (h : d.fileAt d.path = some f)
    (hpass : d.entry d.legacy ∈ d.passes d.path) : d.unlink.fileAt d.path = none := by
  have htrail : trail d.unlink.nodes (maxLinks + 1) (d.entry d.path) = none := by
    refine trail_cut (trail_of_fileAt h) hpass (if_pos rfl) (fun y hy => if_neg hy) _
  change (trail d.unlink.nodes (maxLinks + 1) (d.entry d.path)).map Prod.snd = none
  rw [htrail]
  rfl

/-- Moving an entry changes names only. -/
theorem move_with (d : Disk P E F α) (old conn : Option F) :
    ({ d with old, conn } : Disk P E F α).move = { d.move with old, conn } := by
  unfold move
  split
  · rfl
  · rfl

theorem move_path (d : Disk P E F α) : d.move.path = d.path := by
  unfold move
  split
  · rfl
  · rfl

theorem move_tables (d : Disk P E F α) : d.move.tables = d.tables := by
  unfold move
  split
  · rfl
  · rfl

/-- After the rename the path leads where the legacy one did. -/
theorem fileAt_move (h : d.fileAt d.path = some f) (hlegacy : d.fileAt d.legacy = some g)
    (hne : f ≠ g) : d.move.fileAt d.path = some g := by
  have hentries : d.entry d.legacy ≠ d.entry d.path := by
    intro heq
    refine hne (Option.some.inj ?_)
    rw [← h, ← hlegacy, fileAt, fileAt, heq]
  have hnodes : d.move.nodes = fun e =>
      if e = d.entry d.path then d.nodes (d.entry d.legacy)
      else if e = d.entry d.legacy then none
      else d.nodes e := by
    rw [move, if_neg hentries]
  have hfirst : d.move.nodes (d.entry d.path) = d.nodes (d.entry d.legacy) := by
    rw [hnodes]
    exact if_pos rfl
  have hentry : d.move.entry d.path = d.entry d.path := by
    rw [move, if_neg hentries]
  rw [fileAt, hentry]
  obtain ⟨m, hm, ⟨hfile, -⟩ | ⟨target, rest, hlink, hrest, hpasses⟩⟩ :=
    trail_cases (trail_of_fileAt hlegacy)
  · rw [hfile] at hfirst
    rw [trail_of_file hfirst]
    rfl
  · -- What the link leads through is neither of the two entries, so nothing on it has changed.
    obtain rfl : maxLinks = m := Nat.succ.inj hm
    rw [hlink] at hfirst
    have hagree : ∀ x ∈ rest, d.move.nodes x = d.nodes x := by
      intro x hx
      rw [hnodes]
      dsimp only
      rw [if_neg, if_neg]
      · rintro rfl
        exact not_mem_trail_of_link hlink hrest hx
      · rintro rfl
        refine hne (fileAt_of_passes hlegacy h ?_).symm
        rw [hpasses]
        exact List.mem_cons_of_mem _ hx
    rw [trail_of_link hfirst, trail_congr hrest hagree]
    rfl

/-! ### One file -/

variable [DecidableEq F] [DecidableEq P]

/-- What is copied from a file to itself is behind what is then removed. -/
theorem copied_stays (t : Table α) (hne : t.rows ≠ []) :
    ((t.insert ((t.rows.take adoptBatch).map Cached.sample)).delete
      ((t.rows.take adoptBatch).map Cached.id)).rows ≠ [] := by
  intro hnone
  have hnew : number t.seq ((t.rows.take adoptBatch).map Cached.sample) ≠ [] := by
    intro hempty
    have hlen := number_length t.seq ((t.rows.take adoptBatch).map Cached.sample)
    have hpos : 0 < t.rows.length := List.length_pos_iff.mpr hne
    rw [hempty, List.length_nil, List.length_map, List.length_take, adoptBatch] at hlen
    omega
  obtain ⟨row, hrow⟩ := List.exists_mem_of_ne_nil _ hnew
  have hgone := List.filter_eq_nil_iff.mp hnone row (List.mem_append_right _ hrow)
  rw [Bool.not_eq_true', Bool.not_eq_false, List.contains_iff_mem, List.mem_map] at hgone
  obtain ⟨old, hold, hid⟩ := hgone
  -- Ids given out now are above every id in the table.
  have habove := (id_of_mem_number hrow).1
  have hbelow := t.below old (List.mem_of_mem_take hold)
  omega

/-- One turn of the copy loop, from the file `g` to the file `f`. -/
def turned (d : Disk P E F α) (f g : F) : Disk P E F α :=
  let batch := (d.tables g).rows.take adoptBatch
  let copied := { d.write f ((d.tables f).insert (batch.map Cached.sample)) with
    rows := d.rows + (batch.map Cached.sample).length }
  copied.write g ((copied.tables g).delete (batch.map Cached.id))

theorem copyAcross_turn (hconn : d.conn = some f) (hold : d.old = some g)
    (hne : (d.tables g).rows ≠ []) (fuel : Nat) :
    copyAcross (fuel + 1) d = copyAcross fuel (d.turned f g) := by
  have hbatch : ((d.tables g).rows.take adoptBatch).isEmpty = false := by
    rw [List.isEmpty_eq_false_iff, Ne, List.take_eq_nil_iff]
    exact fun h => h.elim (by decide) hne
  have hread : (Storage.oldestLegacy adoptBatch : Step (Disk P E F α) _) d =
      .ok ((d.tables g).rows.take adoptBatch) d := by
    change withFile d.old _ d = _
    rw [hold]
    rfl
  rw [copyAcross, bind_of_ok hread, hbatch, if_neg Bool.false_ne_true]
  have happend : (Storage.append (((d.tables g).rows.take adoptBatch).map Cached.sample) :
      Step (Disk P E F α) Unit) d = .ok () { d.write f ((d.tables f).insert
        (((d.tables g).rows.take adoptBatch).map Cached.sample)) with
        rows := d.rows + (((d.tables g).rows.take adoptBatch).map Cached.sample).length } := by
    change withFile d.conn _ d = _
    rw [hconn]
    rfl
  rw [bind_of_ok happend]
  refine bind_of_ok (b := ()) ?_
  change withFile d.old _ _ = _
  rw [hold]
  rfl

theorem copyAcross_emptied (hold : d.old = some g) (hrows : (d.tables g).rows = []) (fuel : Nat) :
    copyAcross (fuel + 1) d = .ok () d := by
  have hread : (Storage.oldestLegacy adoptBatch : Step (Disk P E F α) _) d = .ok [] d := by
    change withFile d.old _ d = _
    rw [hold]
    change EStateM.Result.ok ((d.tables g).rows.take adoptBatch) d = _
    rw [hrows, List.take_nil]
  rw [copyAcross, bind_of_ok hread]
  rfl

/-- A file copied to itself is never emptied. -/
theorem copyAcross_loops (fuel : Nat) {d : Disk P E F α} (hconn : d.conn = some f)
    (hold : d.old = some f) (hne : (d.tables f).rows ≠ []) :
    ∃ d', copyAcross fuel d = .error .looping d' := by
  induction fuel generalizing d with
  | zero => exact ⟨d, rfl⟩
  | succ fuel ih =>
    rw [copyAcross_turn hconn hold hne]
    refine ih hconn hold ?_
    simp only [turned, write, if_true]
    exact copied_stays (d.tables f) hne

/-! ### Two files -/

/-- Both files' frames, as far as they have been copied. -/
theorem copyAcross_moves (fuel : Nat) {d : Disk P E F α} (hconn : d.conn = some f)
    (hold : d.old = some g) (hne : f ≠ g) (hfuel : (d.tables g).rows.length < fuel) :
    ∃ tables rows, copyAcross fuel d = .ok () { d with tables, rows } ∧
      framesIn (some (tables f)) =
        framesIn (some (d.tables f)) ++ framesIn (some (d.tables g)) := by
  induction fuel generalizing d with
  | zero => omega
  | succ fuel ih =>
    by_cases hrows : (d.tables g).rows = []
    · refine ⟨d.tables, d.rows, copyAcross_emptied hold hrows fuel, ?_⟩
      rw [framesIn_of_no_rows hrows, List.append_nil]
    · rw [copyAcross_turn hconn hold hrows]
      have hown : (d.turned f g).tables f =
          (d.tables f).insert (((d.tables g).rows.take adoptBatch).map Cached.sample) := by
        simp only [turned, write, if_neg hne, if_true]
      have hother : ((d.turned f g).tables g).rows = (d.tables g).rows.drop adoptBatch := by
        simp only [turned, write, if_true, if_neg (Ne.symm hne)]
        exact Table.delete_take (d.tables g) adoptBatch
      have hpos : 0 < (d.tables g).rows.length := List.length_pos_iff.mpr hrows
      have hless : ((d.turned f g).tables g).rows.length < fuel := by
        rw [hother, List.length_drop, adoptBatch]
        omega
      obtain ⟨tables, rows, hrun, hframes⟩ :=
        ih (d := d.turned f g) hconn hold hless
      refine ⟨tables, rows, hrun, ?_⟩
      rw [hframes, hown, framesIn_insert, List.append_assoc]
      congr 1
      rw [framesIn, hother, ← List.map_append, List.take_append_drop]
      rfl

/-! ### The call -/

/-- The call ends, the cache is still the file at its path, and that holds the frames of both. -/
def AdoptsAll (d : Disk P E F α) : Prop :=
  ∃ fuel moved d' f', adopt fuel d = .ok moved d' ∧ d'.fileAt d.path = some f' ∧
    d'.conn = some f' ∧ framesIn (some (d'.tables f')) =
      d.heldAt d.path ++ if d.fileAt d.legacy = d.fileAt d.path then [] else d.heldAt d.legacy

/-- The paths are spelled alike or lead to different files; or else to one empty file, and not the
cache's path through the legacy entry. -/
def TellsApart (d : Disk P E F α) : Prop :=
  d.legacy = d.path ∨ d.fileAt d.legacy ≠ d.fileAt d.path ∨
    d.heldAt d.path = [] ∧ d.entry d.legacy ∉ d.passes d.path

theorem adopt_of_not_there (h : ((d.fileAt d.legacy).isSome && d.legacy != d.path) = false)
    (fuel : Nat) : adopt fuel d = .ok 0 d := by
  have hthere : (Storage.legacyThere : Step (Disk P E F α) Bool) d = .ok false d := by
    change EStateM.Result.ok ((d.fileAt d.legacy).isSome && d.legacy != d.path) d = _
    rw [h]
  rw [adopt, bind_of_ok hthere]
  rfl

theorem openLegacy_run (h : d.fileAt d.legacy = some g) :
    (Storage.openLegacy : Step (Disk P E F α) Nat) d =
      .ok (d.tables g).rows.length { d with old := some g } := by
  change withFile (d.fileAt d.legacy) _ d = _
  rw [h]
  rfl

/-- A legacy path that leads to a file and is spelled differently is opened. -/
theorem adopt_of_there (h : d.fileAt d.legacy = some g) (hspelled : d.legacy ≠ d.path)
    (fuel : Nat) :
    adopt fuel d =
      if (d.tables g).rows.length = 0 then .ok 0 { d.unlink with old := none }
      else adoptRows fuel (d.tables g).rows.length { d with old := some g } := by
  have hthere : (Storage.legacyThere : Step (Disk P E F α) Bool) d = .ok true d := by
    change EStateM.Result.ok ((d.fileAt d.legacy).isSome && d.legacy != d.path) d = _
    rw [h, bne_iff_ne.mpr hspelled]
    rfl
  rw [adopt, bind_of_ok hthere]
  change (Storage.openLegacy >>= _ : Step (Disk P E F α) Nat) d = _
  rw [bind_of_ok (openLegacy_run h)]
  split
  · rfl
  · rfl

/-- From the copy on, between two files. -/
theorem adoptByCopy_run (hconn : d.conn = some f) (hold : d.old = some g) (hne : f ≠ g)
    (moved : Nat) :
    ∃ tables rows, adoptByCopy ((d.tables g).rows.length + 1) moved d =
        .ok moved { d.unlink with tables, rows, old := none } ∧
      framesIn (some (tables f)) =
        framesIn (some (d.tables f)) ++ framesIn (some (d.tables g)) := by
  obtain ⟨tables, rows, hrun, hframes⟩ :=
    copyAcross_moves ((d.tables g).rows.length + 1) hconn hold hne (Nat.lt_succ_self _)
  refine ⟨tables, rows, ?_, hframes⟩
  rw [adoptByCopy, bind_of_ok hrun]
  rfl

theorem adoptRows_of_rows (h : d.rows ≠ 0) (fuel moved : Nat) :
    adoptRows fuel moved d = adoptByCopy fuel moved d := by
  have hrows : (Storage.ownRows : Step (Disk P E F α) Nat) d = .ok d.rows d := rfl
  rw [adoptRows, bind_of_ok hrows, if_neg h]

/-- `take_over` from the rename on, both connections closed. -/
theorem takeOver_run (moved : Nat) : takeOver moved d =
    (do
      let renamed ← Storage.rename
      Storage.reopen (if renamed then moved else 0)
      return renamed : Step (Disk P E F α) Bool) { d with old := none, conn := none } :=
  rfl

/-- The rename can be done, and the cache is then the legacy file. -/
theorem adoptRows_of_move (hfile : d.move.fileAt d.path = some g) (hmount : d.sameMount = true)
    (hrows : d.rows = 0) (fuel moved : Nat) :
    adoptRows fuel moved d =
      .ok moved { d.move with old := none, conn := some g, rows := moved } := by
  have hown : (Storage.ownRows : Step (Disk P E F α) Nat) d = .ok d.rows d := rfl
  have hrename : (Storage.rename : Step (Disk P E F α) Bool) { d with old := none, conn := none } =
      .ok true { d.move with old := none, conn := none } := by
    rw [← move_with]
    exact if_pos hmount
  have hreopen : (Storage.reopen moved : Step (Disk P E F α) Unit)
      { d.move with old := none, conn := none } =
        .ok () { d.move with old := none, conn := some g, rows := moved } := by
    change withFile (d.move.fileAt d.move.path) _ _ = _
    rw [move_path, hfile]
    rfl
  have htake : takeOver moved d =
      .ok true { d.move with old := none, conn := some g, rows := moved } := by
    rw [takeOver_run, bind_of_ok hrename]
    exact bind_of_ok hreopen
  rw [adoptRows, bind_of_ok hown, if_pos hrows]
  exact bind_of_ok htake

/-- The rename cannot be done, and the cache, opened again, takes the frames one by one. -/
theorem adoptRows_of_mounts (hfile : d.fileAt d.path = some f)
    (hlegacy : d.fileAt d.legacy = some g) (hmount : d.sameMount = false) (hrows : d.rows = 0)
    (fuel moved : Nat) :
    adoptRows fuel moved d =
      adoptByCopy fuel moved { d with conn := some f, rows := 0, old := some g } := by
  have hown : (Storage.ownRows : Step (Disk P E F α) Nat) d = .ok d.rows d := rfl
  have hrename : (Storage.rename : Step (Disk P E F α) Bool) { d with old := none, conn := none } =
      .ok false { d with old := none, conn := none } := by
    refine if_neg ?_
    rw [hmount]
    exact Bool.false_ne_true
  have hreopen : (Storage.reopen 0 : Step (Disk P E F α) Unit) { d with old := none, conn := none } =
      .ok () { d with old := none, conn := some f, rows := 0 } := by
    change withFile (d.fileAt d.path) _ _ = _
    rw [hfile]
    rfl
  have htake : takeOver moved d = .ok false { d with old := none, conn := some f, rows := 0 } := by
    rw [takeOver_run, bind_of_ok hrename]
    exact bind_of_ok hreopen
  have hopen : (Storage.openLegacy : Step (Disk P E F α) Nat)
      { d with old := none, conn := some f, rows := 0 } =
        .ok (d.tables g).rows.length { d with conn := some f, rows := 0, old := some g } :=
    openLegacy_run hlegacy
  rw [adoptRows, bind_of_ok hown, if_pos hrows]
  change (takeOver moved >>= _ : Step (Disk P E F α) Nat) d = _
  rw [bind_of_ok htake]
  exact bind_of_ok hopen

/-! ### Which calls go well -/

/-- Between two files, everything ends up in the one at the cache's path. -/
theorem adoptsAll_of_files (h : d.InUse f) (hlegacy : d.fileAt d.legacy = some g) (hne : f ≠ g)
    (hspelled : d.legacy ≠ d.path) : d.AdoptsAll := by
  have hpass : d.entry d.legacy ∉ d.passes d.path :=
    fun hpass => hne (fileAt_of_passes h.file hlegacy hpass)
  have hfile := fileAt_unlink h.file hpass
  have hdiffer : ¬ d.fileAt d.legacy = d.fileAt d.path := by
    rw [hlegacy, h.file, Option.some.injEq]
    exact Ne.symm hne
  have hheld : d.heldAt d.path ++
      (if d.fileAt d.legacy = d.fileAt d.path then [] else d.heldAt d.legacy) =
        framesIn (some (d.tables f)) ++ framesIn (some (d.tables g)) := by
    rw [if_neg hdiffer, heldAt_of_file h.file, heldAt_of_file hlegacy]
  unfold AdoptsAll
  rw [hheld]
  have hcall := adopt_of_there hlegacy hspelled ((d.tables g).rows.length + 1)
  by_cases hempty : (d.tables g).rows.length = 0
  · rw [if_pos hempty] at hcall
    refine ⟨_, _, _, f, hcall, hfile, h.conn, ?_⟩
    rw [framesIn_of_no_rows (List.length_eq_zero_iff.mp hempty), List.append_nil]
    rfl
  · rw [if_neg hempty] at hcall
    by_cases hrows : d.rows = 0
    -- With nothing in its own file the cache takes the legacy one over, where they are on one mount.
    · have hnone : framesIn (some (d.tables f)) = [] :=
        framesIn_of_no_rows (List.length_eq_zero_iff.mp (h.counted ▸ hrows))
      cases hmount : d.sameMount with
      | true =>
        have hmove := fileAt_move (d := { d with old := some g }) h.file hlegacy hne
        have hrun := adoptRows_of_move hmove hmount hrows ((d.tables g).rows.length + 1)
          (d.tables g).rows.length
        refine ⟨_, _, _, g, hcall.trans hrun, hmove, rfl, ?_⟩
        rw [hnone, List.nil_append]
        change framesIn (some (({ d with old := some g } : Disk P E F α).move.tables g)) = _
        rw [move_tables]
      | false =>
        have hrun := adoptRows_of_mounts (d := { d with old := some g }) h.file hlegacy hmount hrows
          ((d.tables g).rows.length + 1) (d.tables g).rows.length
        obtain ⟨tables, rows, hcopy, hframes⟩ := adoptByCopy_run
          (d := { d with conn := some f, rows := 0, old := some g }) rfl rfl hne
          (d.tables g).rows.length
        exact ⟨_, _, _, f, hcall.trans (hrun.trans hcopy), hfile, rfl, hframes⟩
    · have hrun := adoptRows_of_rows (d := { d with old := some g }) hrows
        ((d.tables g).rows.length + 1) (d.tables g).rows.length
      obtain ⟨tables, rows, hcopy, hframes⟩ := adoptByCopy_run (d := { d with old := some g })
        h.conn rfl hne (d.tables g).rows.length
      exact ⟨_, _, _, f, hcall.trans (hrun.trans hcopy), hfile, h.conn, hframes⟩

/-- An empty file under two names is left by its other one. -/
theorem adoptsAll_of_empty (h : d.InUse f) (hlegacy : d.fileAt d.legacy = some f)
    (hspelled : d.legacy ≠ d.path) (hnone : (d.tables f).rows = [])
    (hpass : d.entry d.legacy ∉ d.passes d.path) : d.AdoptsAll := by
  have hcall := adopt_of_there hlegacy hspelled 0
  rw [if_pos (List.length_eq_zero_iff.mpr hnone)] at hcall
  refine ⟨_, _, _, f, hcall, fileAt_unlink h.file hpass, h.conn, ?_⟩
  rw [if_pos (hlegacy.trans h.file.symm), heldAt_of_file h.file, List.append_nil]
  rfl

/-- A file with frames in it under two spellings: the call does not end. -/
theorem adopt_loops (h : d.InUse f) (hlegacy : d.fileAt d.legacy = some f)
    (hspelled : d.legacy ≠ d.path) (hsome : (d.tables f).rows ≠ []) (fuel : Nat) :
    ∃ d', adopt fuel d = .error .looping d' := by
  have hcount : (d.tables f).rows.length ≠ 0 :=
    fun hzero => hsome (List.length_eq_zero_iff.mp hzero)
  have hcall := adopt_of_there hlegacy hspelled fuel
  rw [if_neg hcount] at hcall
  have hrun := adoptRows_of_rows (d := { d with old := some f }) (h.counted ▸ hcount) fuel
    (d.tables f).rows.length
  obtain ⟨d', hloop⟩ := copyAcross_loops fuel (d := { d with old := some f }) h.conn rfl hsome
  refine ⟨d', hcall.trans (hrun.trans ?_)⟩
  rw [adoptByCopy]
  change EStateM.bind (copyAcross fuel) _ _ = _
  rw [EStateM.bind, hloop]

/-- An empty file the cache's path leads to through the legacy entry: the cache's name is gone. -/
theorem adopt_deletes (hfile : d.fileAt d.path = some f) (hlegacy : d.fileAt d.legacy = some f)
    (hspelled : d.legacy ≠ d.path) (hnone : (d.tables f).rows = [])
    (hpass : d.entry d.legacy ∈ d.passes d.path) (fuel : Nat) :
    adopt fuel d = .ok 0 { d.unlink with old := none } ∧ d.unlink.fileAt d.path = none := by
  refine ⟨?_, fileAt_unlink_of_passes hfile hpass⟩
  rw [adopt_of_there hlegacy hspelled, if_pos (List.length_eq_zero_iff.mpr hnone)]

end Disk

/-- `adopt` ends with the frames of both caches in the file at the cache's path exactly if the two
paths are spelled alike, or lead to different files, or to one empty file that the cache's path does
not lead to through the legacy entry. -/
theorem adopts_all_iff [DecidableEq P] [DecidableEq E] [DecidableEq F] (d : Disk P E F α) (f : F)
    (h : d.InUse f) : d.AdoptsAll ↔ d.TellsApart := by
  by_cases hspelled : d.legacy = d.path
  · -- The spelling gives it away, and nothing is done.
    refine ⟨fun _ => .inl hspelled, fun _ => ?_⟩
    have hcall := Disk.adopt_of_not_there (d := d)
      (by rw [hspelled, bne_self_eq_false, Bool.and_false]) 0
    refine ⟨0, 0, d, f, hcall, h.file, h.conn, ?_⟩
    rw [hspelled, if_pos rfl, List.append_nil, Disk.heldAt_of_file h.file]
  · cases hlegacy : d.fileAt d.legacy with
    | none =>
      have hdiffer : d.fileAt d.legacy ≠ d.fileAt d.path := by
        rw [hlegacy, h.file]
        exact Option.some_ne_none f ∘ Eq.symm
      refine ⟨fun _ => .inr (.inl hdiffer), fun _ => ?_⟩
      have hcall := Disk.adopt_of_not_there (d := d) (by rw [hlegacy]; rfl) 0
      refine ⟨0, 0, d, f, hcall, h.file, h.conn, ?_⟩
      rw [if_neg hdiffer, Disk.heldAt_of_file h.file, Disk.heldAt, hlegacy]
      exact (List.append_nil _).symm
    | some g =>
      by_cases hne : f = g
      · subst hne
        have hsame : d.fileAt d.legacy = d.fileAt d.path := hlegacy.trans h.file.symm
        -- Two spellings of one file: a copy to itself does not end, and an empty one is deleted.
        constructor
        · rintro ⟨fuel, moved, d', f', hcall, hfile, -, -⟩
          by_cases hnone : (d.tables f).rows = []
          · refine .inr (.inr ⟨?_, fun hpass => ?_⟩)
            · rw [Disk.heldAt_of_file h.file, framesIn_of_no_rows hnone]
            · obtain ⟨hrun, hgone⟩ := Disk.adopt_deletes h.file hlegacy hspelled hnone hpass fuel
              rw [hrun, EStateM.Result.ok.injEq] at hcall
              rw [← hcall.2] at hfile
              cases hgone.symm.trans hfile
          · obtain ⟨d'', hloop⟩ := Disk.adopt_loops h hlegacy hspelled hnone fuel
            rw [hloop] at hcall
            cases hcall
        · rintro (hspelled' | hdiffer | ⟨hnone, hpass⟩)
          · exact absurd hspelled' hspelled
          · exact absurd hsame hdiffer
          · rw [Disk.heldAt_of_file h.file] at hnone
            exact Disk.adoptsAll_of_empty h hlegacy hspelled (List.map_eq_nil_iff.mp hnone) hpass
      · refine ⟨fun _ => .inr (.inl ?_), fun _ => Disk.adoptsAll_of_files h hlegacy hne hspelled⟩
        rw [hlegacy, h.file, Ne, Option.some.injEq]
        exact Ne.symm hne

/-- A cache that holds `own`, and a legacy path whose entry is `node`; the file of a legacy cache, if
it has one, holds two frames. -/
def benchDisk (own : List Nat) (node : Node String Nat) : Disk String String Nat Nat where
  entry p := if p = "/var/lib/wiretap/x/../cache.db" then "/var/lib/wiretap/cache.db" else p
  nodes e :=
    if e = "/var/lib/wiretap/cache.db" then some (.file 0)
    else if e = "/home/pi/.wiretap-server-cache.db" then some node
    else none
  tables f := if f = 0 then Table.empty.insert own else Table.empty.insert [2, 3]
  path := "/var/lib/wiretap/cache.db"
  legacy := "/home/pi/.wiretap-server-cache.db"
  conn := some 0
  rows := own.length
  sameMount := false

theorem benchDisk_inUse (own : List Nat) (node : Node String Nat) :
    (benchDisk own node).InUse 0 :=
  ⟨rfl, rfl, (number_length 0 own).symm⟩

theorem adopts_all_bench : (benchDisk [1] (.file 1)).InUse 0 ∧ (benchDisk [1] (.file 1)).AdoptsAll := by
  have hfiles : (benchDisk [1] (.file 1)).TellsApart := by
    refine .inr (.inl ?_)
    decide +kernel
  exact ⟨benchDisk_inUse _ _, (adopts_all_iff _ 0 (benchDisk_inUse _ _)).mpr hfiles⟩

/-- A legacy path that is a link to a cache with a frame in it keeps `adopt` copying for ever; one
that is another spelling of the path of an empty cache gets the cache deleted. -/
theorem adopts_itself :
    ¬ (benchDisk [1] (.link "/var/lib/wiretap/cache.db")).AdoptsAll ∧
      ¬ ({ benchDisk [] (.file 1) with legacy := "/var/lib/wiretap/x/../cache.db" } :
        Disk String String Nat Nat).AdoptsAll := by
  constructor
  · rintro ⟨fuel, moved, d', f', hcall, -⟩
    obtain ⟨d'', hloop⟩ := Disk.adopt_loops (benchDisk_inUse [1] (.link "/var/lib/wiretap/cache.db"))
      (by decide +kernel) (by decide +kernel) (by decide) fuel
    rw [hloop] at hcall
    cases hcall
  · rintro ⟨fuel, moved, d', f', hcall, hfile, -⟩
    obtain ⟨hrun, hgone⟩ := Disk.adopt_deletes
      (d := { benchDisk [] (.file 1) with legacy := "/var/lib/wiretap/x/../cache.db" }) (f := 0)
      (by decide +kernel) (by decide +kernel) (by decide +kernel) rfl (by decide +kernel) fuel
    rw [hrun, EStateM.Result.ok.injEq] at hcall
    rw [← hcall.2] at hfile
    cases hgone.symm.trans hfile

end WireTap
