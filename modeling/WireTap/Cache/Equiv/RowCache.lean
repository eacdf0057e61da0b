import Mathlib.Data.List.Basic
import WireTap.Lib.Fallible
import WireTap.Cache.Sqlite
import WireTap.Cache.Equiv.Sqlite

/-!
# The disk cache, whatever is in its file

`RowCache` keeps the laws of a frame cache whatever SQLite answers and whatever rows it finds: a
statement that fails changes nothing, and a row that cannot be read is no frame, so it stays.  What
it does not promise is `ReliableFrameCache`: one unreadable row fails every read that meets it.
-/

namespace WireTap

variable {α β : Type}

namespace SqliteCache

/-! ### What one statement does to the rows -/

variable (c : SqliteCache β)

/-- The ids ascend. -/
theorem held_sorted : c.held.Pairwise fun a b => a.id < b.id := by
  unfold held
  cases c.table with
  | none => exact List.Pairwise.nil
  | some t => exact t.sorted

theorem append_held (xs : List β) :
    match (c.append xs).1 with
    | .ok n => n = xs.length ∧
        ∃ new, new.map Cached.sample = xs ∧ (c.append xs).2.held = c.held ++ new
    | .error _ => (c.append xs).2.held = c.held := by
  by_cases hne : xs = []
  · subst hne
    exact ⟨rfl, [], rfl, by rw [List.append_nil]; rfl⟩
  · rcases c.append_cases hne with ⟨t, ht, happend⟩ | ⟨e, -, happend⟩
    · rw [happend]
      refine ⟨rfl, number t.seq xs, number_samples _ _, ?_⟩
      rw [held_of_table ht]
      simp only [held, table, conn_of_table ht, Table.insert]
    · rw [happend]
      rfl

theorem oldest_held (limit : Nat) :
    (c.oldest limit).2.held = c.held ∧
      ∀ rows, (c.oldest limit).1 = .ok rows → rows = c.held.take limit := by
  unfold oldest
  cases ht : c.table with
  | none => exact ⟨rfl, by simp⟩
  | some t =>
    dsimp only
    split
    · exact ⟨rfl, by simp⟩
    · refine ⟨rfl, ?_⟩
      rintro _ ⟨⟩
      rw [held_of_table ht]

/-- A removal deletes the rows of those ids, or fails and deletes none. -/
theorem remove_held (frames : List (Cached β)) :
    ((c.remove frames).1 = .ok () ∧ (c.remove frames).2.held =
        c.held.filter fun row => !(frames.map Cached.id).contains row.id) ∨
      (∃ e, (c.remove frames).1 = .error e) ∧ (c.remove frames).2.held = c.held := by
  unfold remove
  by_cases hempty : frames.isEmpty = true
  · rw [if_pos hempty, List.isEmpty_iff.mp hempty]
    exact .inl ⟨rfl, (List.filter_eq_self.mpr (by simp)).symm⟩
  · rw [if_neg hempty]
    split
    · exact .inr ⟨⟨_, rfl⟩, rfl⟩
    · cases ht : c.table with
      | none => exact .inr ⟨⟨_, rfl⟩, rfl⟩
      | some t =>
        dsimp only
        split
        · exact .inr ⟨⟨_, rfl⟩, rfl⟩
        · refine .inl ⟨rfl, ?_⟩
          rw [held_of_table ht]
          simp only [held, table, conn_of_table ht, Table.delete]

/-- A reset that fails may leave the rows, and otherwise leaves none. -/
theorem reset_held : c.reset.2.held = c.held ∨ c.reset.2.held = [] := by
  unfold reset
  dsimp only
  split
  · exact .inl rfl
  all_goals exact .inr rfl

end SqliteCache

/-- What is written is read back. -/
class RowFormat.Lawful (format : RowFormat β α) : Prop where
  read_write (x : α) : format.read (format.write x) = some x

/-- Rows that hold a sample, or what only another build can read. -/
def RowFormat.option (α : Type) : RowFormat (Option α) α := ⟨some, id⟩

instance : (RowFormat.option α).Lawful := ⟨fun _ => rfl⟩

namespace RowCache

variable {format : RowFormat β α}

/-- The frames among the rows. -/
def frames (c : RowCache format) : List (Cached α) := c.file.held.filterMap (readRow format)

theorem id_of_readRow {row : Cached β} {f : Cached α} (h : readRow format row = some f) :
    f.id = row.id := by
  obtain ⟨sample, -, rfl⟩ := Option.map_eq_some_iff.mp h
  rfl

theorem frames_sorted (c : RowCache format) : c.frames.Pairwise fun a b => a.id < b.id := by
  refine List.Pairwise.filterMap _ ?_ c.file.held_sorted
  intro a b hab f hf g hg
  rw [id_of_readRow hf, id_of_readRow hg]
  exact hab

/-- The frames read have the ids of their rows. -/
theorem ids_of_mapM {rows : List (Cached β)} {out : List (Cached α)}
    (h : rows.mapM (readRow format) = some out) : out.map Cached.id = rows.map Cached.id := by
  induction rows generalizing out with
  | nil =>
    rw [List.mapM_nil] at h
    rw [← Option.some.inj h, List.map_nil, List.map_nil]
  | cons row rows ih =>
    rw [List.mapM_cons, Option.bind_eq_bind, Option.bind_eq_some_iff] at h
    obtain ⟨f, hf, h⟩ := h
    rw [Option.bind_eq_bind, Option.bind_eq_some_iff] at h
    obtain ⟨fs, hfs, h⟩ := h
    obtain rfl : f :: fs = out := Option.some.inj h
    rw [List.map_cons, List.map_cons, id_of_readRow hf, ih hfs]

/-- As many frames as rows. -/
theorem length_of_mapM {rows : List (Cached β)} {out : List (Cached α)}
    (h : rows.mapM (readRow format) = some out) : out.length = rows.length := by
  rw [← @List.length_map _ _ out Cached.id, ids_of_mapM h, List.length_map]

/-- Rows that can all be read are the first frames. -/
theorem frames_of_mapM {rows : List (Cached β)} {limit : Nat} {out : List (Cached α)}
    (h : (rows.take limit).mapM (readRow format) = some out) :
    out = (rows.filterMap (readRow format)).take limit := by
  have hlen := length_of_mapM h
  rw [List.length_take] at hlen
  rw [← List.take_append_drop limit rows, List.filterMap_append, filterMap_eq_of_mapM_eq_some h]
  rcases Nat.le_total limit rows.length with hle | hle
  · rw [List.take_append_of_le_length (by omega), List.take_of_length_le (by omega)]
  · rw [List.drop_of_length_le hle, List.filterMap_nil, List.append_nil,
      List.take_of_length_le (by omega)]

/-- Deleting rows by id leaves the frames of other ids. -/
theorem filterMap_filter (rows : List (Cached β)) (ids : List Nat) :
    (rows.filter fun row => !ids.contains row.id).filterMap (readRow format) =
      (rows.filterMap (readRow format)).filter fun f => !ids.contains f.id := by
  rw [List.filterMap_filter, List.filter_filterMap]
  refine List.filterMap_congr fun row _ => ?_
  cases hf : readRow format row with
  | none => simp
  | some f => simp [Option.filter, id_of_readRow hf]

theorem map_readRow_number [format.Lawful] {new : List (Cached β)} {xs : List α}
    (hnew : new.map Cached.sample = xs.map format.write) :
    (new.filterMap (readRow format)).map Cached.sample = xs := by
  induction xs generalizing new with
  | nil =>
    rw [List.map_nil, List.map_eq_nil_iff] at hnew
    rw [hnew]
    rfl
  | cons x xs ih =>
    obtain ⟨row, rest, rfl, hrow, hrest⟩ := List.map_eq_cons_iff.mp hnew
    have hread : readRow format row = some ⟨row.id, x⟩ := by
      rw [readRow, hrow, RowFormat.Lawful.read_write]
      rfl
    rw [List.filterMap_cons_some hread, List.map_cons, ih hrest]

/-! ### The laws -/

theorem append_spec [format.Lawful] (c : RowCache format) (xs : List α) :
    match (c.append xs).1 with
    | .ok n => n = xs.length ∧
        ∃ new, new.map Cached.sample = xs ∧ (c.append xs).2.frames = c.frames ++ new
    | .error _ => (c.append xs).2.frames = c.frames := by
  have hheld := c.file.append_held (xs.map format.write)
  change match (c.file.append (xs.map format.write)).1 with
    | .ok n => n = xs.length ∧ ∃ new, new.map Cached.sample = xs ∧
        (c.file.append (xs.map format.write)).2.held.filterMap (readRow format) = c.frames ++ new
    | .error _ =>
      (c.file.append (xs.map format.write)).2.held.filterMap (readRow format) = c.frames
  split at hheld
  · obtain ⟨rfl, new, hnew, hheld⟩ := hheld
    rw [hheld, List.filterMap_append]
    exact ⟨List.length_map _, new.filterMap (readRow format), map_readRow_number hnew, rfl⟩
  · rw [hheld]
    rfl

theorem oldest_spec (c : RowCache format) (limit : Nat) :
    (c.oldest limit).2.frames = c.frames ∧
      ∀ cached, (c.oldest limit).1 = .ok cached → cached = c.frames.take limit := by
  obtain ⟨hheld, hrows⟩ := c.file.oldest_held limit
  unfold oldest
  split
  · rename_i e file hrun
    rw [hrun] at hheld
    exact ⟨by rw [frames, hheld, frames], by simp⟩
  · rename_i rows file hrun
    rw [hrun] at hheld hrows
    obtain rfl := hrows rows rfl
    cases hread : (c.file.held.take limit).mapM (readRow format) with
    | none => exact ⟨by rw [frames, hheld, frames], by simp⟩
    | some out =>
      refine ⟨by rw [frames, hheld, frames], ?_⟩
      rintro _ ⟨⟩
      exact frames_of_mapM hread

/-- A removal of the oldest frames, and one that fails. -/
theorem remove_take_spec (c : RowCache format) (k : Nat) :
    match (c.remove (c.frames.take k)).1 with
    | .ok () => (c.remove (c.frames.take k)).2.frames = c.frames.drop k
    | .error _ => (c.remove (c.frames.take k)).2.frames = c.frames := by
  have hids : ((c.frames.take k).map fun f => (⟨f.id, format.write f.sample⟩ : Cached β)).map
      Cached.id = (c.frames.take k).map Cached.id := by
    rw [List.map_map]
    rfl
  have hremoved := c.file.remove_held
    ((c.frames.take k).map fun f => ⟨f.id, format.write f.sample⟩)
  rw [hids] at hremoved
  change match (c.file.remove _).1 with
    | .ok () => (c.file.remove _).2.held.filterMap (readRow format) = c.frames.drop k
    | .error _ => (c.file.remove _).2.held.filterMap (readRow format) = c.frames
  rcases hremoved with ⟨hr, hheld⟩ | ⟨⟨e, hr⟩, hheld⟩
  · rw [hr, hheld, filterMap_filter]
    exact filter_not_taken c.frames_sorted k
  · rw [hr, hheld]
    rfl

instance [format.Lawful] : LawfulFrameCache (RowCache format) where
  Valid _ := True
  frames := frames
  append_ok xs c c' n _ hrun := by
    have hspec := append_spec c xs
    rw [show c.append xs = (.ok n, c') from hrun] at hspec
    exact ⟨trivial, hspec⟩
  append_error xs c c' e _ hrun := by
    have hspec := append_spec c xs
    rw [show c.append xs = (.error e, c') from hrun] at hspec
    exact ⟨trivial, hspec⟩
  oldest_ok limit c c' cached _ hrun := by
    have hspec := oldest_spec c limit
    rw [show c.oldest limit = (.ok cached, c') from hrun] at hspec
    exact ⟨trivial, hspec.2 cached rfl, hspec.1⟩
  oldest_error limit c c' e _ hrun := by
    have hspec := oldest_spec c limit
    rw [show c.oldest limit = (.error e, c') from hrun] at hspec
    exact ⟨trivial, hspec.1⟩
  remove_ok k c c' _ hrun := by
    have hspec := remove_take_spec c k
    rw [show c.remove (c.frames.take k) = (.ok (), c') from hrun] at hspec
    exact ⟨trivial, hspec⟩
  count_frames c _ := ⟨trivial, rfl⟩
  isFull_frames c _ := ⟨trivial, rfl⟩
  reset_empty c _ hempty := by
    refine ⟨trivial, ?_⟩
    change c.file.reset.2.held.filterMap (readRow format) = []
    rcases c.file.reset_held with hheld | hheld
    · rw [hheld]
      exact hempty
    · rw [hheld]
      rfl

instance [format.Lawful] : AtomicFrameCache (RowCache format) where
  remove_error k c c' e _ hrun := by
    have hspec := remove_take_spec c k
    rw [show c.remove (c.frames.take k) = (.error e, c') from hrun] at hspec
    exact ⟨trivial, hspec⟩

end RowCache

end WireTap
