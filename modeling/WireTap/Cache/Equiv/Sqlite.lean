import Mathlib.Data.List.Basic
import WireTap.Cache.Sqlite

/-!
# The SQLite cache is a FIFO

`SqliteCache` keeps the laws the batcher relies on: what is appended goes behind what is held
(`AUTOINCREMENT` ids grow), removing the frames `oldest` returned drops exactly those
(`Table.delete_take`), and the count kept beside the table stays right.  While reads and deletes do
not fail it is also reliable, for batches SQLite can bind.
-/

namespace WireTap

variable {α : Type}

theorem number_samples (seq : Nat) (xs : List α) : (number seq xs).map Cached.sample = xs := by
  induction xs generalizing seq with
  | nil => rfl
  | cons x xs ih => rw [number, List.map_cons, ih]

theorem number_length (seq : Nat) (xs : List α) : (number seq xs).length = xs.length := by
  calc
    (number seq xs).length = ((number seq xs).map Cached.sample).length := by rw [List.length_map]
    _ = xs.length := by rw [number_samples]

/-- Of rows in id order, those without the ids of the first `k` are the rest. -/
theorem filter_not_taken {rows : List (Cached α)} (hrows : rows.Pairwise fun a b => a.id < b.id)
    (k : Nat) :
    rows.filter (fun row => !((rows.take k).map Cached.id).contains row.id) = rows.drop k := by
  have hsorted : (rows.take k ++ rows.drop k).Pairwise fun a b => a.id < b.id := by
    rw [List.take_append_drop]
    exact hrows
  obtain ⟨-, -, hlt⟩ := List.pairwise_append.mp hsorted
  -- Ids ascend, so those of the first `k` rows are none of the others'.
  have hgone : (rows.take k).filter
      (fun row => !((rows.take k).map Cached.id).contains row.id) = [] := by
    refine List.filter_eq_nil_iff.mpr ?_
    intro row hrow
    have hmem : row.id ∈ (rows.take k).map Cached.id := List.mem_map_of_mem hrow
    simpa only [Bool.not_eq_true', Bool.not_eq_false, List.contains_eq_mem, decide_eq_true_eq]
      using hmem
  have hkept : (rows.drop k).filter
      (fun row => !((rows.take k).map Cached.id).contains row.id) = rows.drop k := by
    refine List.filter_eq_self.mpr ?_
    intro row hrow
    simp only [Bool.not_eq_true', List.contains_eq_mem, decide_eq_false_iff_not, List.mem_map,
      not_exists, not_and]
    intro old hold hid
    have hlt := hlt old hold row hrow
    omega
  calc
    rows.filter (fun row => !((rows.take k).map Cached.id).contains row.id)
        = (rows.take k ++ rows.drop k).filter
            (fun row => !((rows.take k).map Cached.id).contains row.id) := by
          rw [List.take_append_drop]
    _ = rows.drop k := by rw [List.filter_append, hgone, hkept, List.nil_append]

/-- Deleting the first `k` rows by id leaves the rest. -/
theorem Table.delete_take (t : Table α) (k : Nat) :
    (t.delete ((t.rows.take k).map Cached.id)).rows = t.rows.drop k :=
  filter_not_taken t.sorted k

namespace SqliteCache

/-- The rows the connection reaches. -/
def held (c : SqliteCache α) : List (Cached α) :=
  match c.table with
  | none => []
  | some t => t.rows

/-- The count is right, and neither reads nor deletes fail. -/
structure Sound (c : SqliteCache α) : Prop where
  counted : c.rows = c.held.length
  reads : c.host.oldest = []
  deletes : c.host.remove = []

theorem held_of_table {c : SqliteCache α} {t : Table α} (h : c.table = some t) :
    c.held = t.rows := by
  unfold held
  rw [h]

theorem held_of_no_table {c : SqliteCache α} (h : c.table = none) : c.held = [] := by
  unfold held
  rw [h]

/-- Only a connection to the file reaches a table, and then it is the file's. -/
theorem conn_of_table {c : SqliteCache α} {t : Table α} (h : c.table = some t) :
    c.conn = .file := by
  unfold table at h
  split at h
  · assumption
  · cases h

/-- A connection that reaches a table is to the file that holds it. -/
theorem file_of_table {c : SqliteCache α} {t : Table α} (h : c.table = some t) :
    c.file = some t := by
  have hconn := conn_of_table h
  rw [table, hconn] at h
  exact h

/-- An append that is not empty stores the whole batch, or nothing, and that only if the connection
reaches no table or the next append is to fail. -/
theorem append_cases (c : SqliteCache α) {xs : List α} (hne : xs ≠ []) :
    (∃ t, c.table = some t ∧ c.append xs = (.ok xs.length,
        { c with
          host.append := c.host.append.tail
          file := some (t.insert xs)
          rows := c.rows + xs.length })) ∨
      ∃ e, ((∃ t, c.table = some t) → ¬ c.host.append.headD false = false) ∧
        c.append xs = (.error e, { c with host.append := c.host.append.tail }) := by
  unfold append
  rw [if_neg (by rw [List.isEmpty_iff]; exact hne)]
  cases ht : c.table with
  | none => exact .inr ⟨noTable, by simp, rfl⟩
  | some t =>
    dsimp only
    split
    · rename_i hfails
      exact .inr ⟨ioError, fun _ hok => absurd (hfails.symm.trans hok) (by simp), rfl⟩
    · exact .inl ⟨t, rfl, rfl⟩

/-- With no failure to come, a read finds the oldest rows and changes nothing. -/
theorem oldest_of_table {c : SqliteCache α} {t : Table α} (ht : c.table = some t)
    (hreads : c.host.oldest = []) (limit : Nat) :
    c.oldest limit = (.ok (t.rows.take limit), c) := by
  have hhost : ({ c with host.oldest := [] } : SqliteCache α) = c := by
    rw [← hreads]
  unfold oldest
  rw [ht, hreads]
  simpa using hhost

/-- More rows than one statement can name all stay. -/
theorem remove_refused (c : SqliteCache α) {frames : List (Cached α)}
    (hmany : maxVariables < frames.length) :
    c.remove frames = (.error ⟨"too many SQL variables"⟩, c) := by
  have hne : frames.isEmpty = false := by
    cases frames with
    | nil => exact absurd hmany (Nat.not_lt_zero _)
    | cons f fs => rfl
  unfold remove
  rw [hne, if_neg Bool.false_ne_true, if_pos hmany]

/-- With no failure to come, the oldest rows are forgotten if one statement can name them. -/
theorem remove_of_table {c : SqliteCache α} {t : Table α} (ht : c.table = some t)
    (hdeletes : c.host.remove = []) {k : Nat} (hk : min k t.rows.length ≤ maxVariables) :
    ∃ t' : Table α, t'.rows = t.rows.drop k ∧ c.remove (t.rows.take k) =
      (.ok (), { c with file := some t', rows := c.rows - min k t.rows.length }) := by
  have hfile := file_of_table ht
  unfold remove
  rw [ht, hdeletes]
  split
  · rename_i hempty
    have hnone : min k t.rows.length = 0 := by
      rw [← List.length_take, List.isEmpty_iff.mp hempty, List.length_nil]
    refine ⟨t, ?_, ?_⟩
    · rcases List.take_eq_nil_iff.mp (List.isEmpty_iff.mp hempty) with rfl | hnil
      · rw [List.drop_zero]
      · rw [hnil, List.drop_nil]
    · rw [hnone, ← hfile]
      rfl
  · rw [if_neg (by rw [List.length_take]; omega)]
    have hdel := Table.delete_take t k
    refine ⟨t.delete ((t.rows.take k).map Cached.id), hdel, ?_⟩
    have hless : t.rows.length - (t.delete ((t.rows.take k).map Cached.id)).rows.length =
        min k t.rows.length := by
      rw [hdel, List.length_drop]
      omega
    have hhost : ({ c.host with remove := [] } : Host) = c.host := by
      rw [← hdeletes]
    simp only [List.headD_nil, Bool.false_eq_true, if_false, List.tail_nil, hless]
    rw [← hhost]

theorem opened_sound (t : Table α) (maxBytes : Nat) {host : Host} (ho : host.oldest = [])
    (hr : host.remove = []) : (opened t maxBytes host).Sound :=
  ⟨rfl, ho, hr⟩

theorem append_spec (c : SqliteCache α) (xs : List α) (hs : c.Sound) :
    (c.append xs).2.Sound ∧
      match (c.append xs).1 with
      | .ok n => n = xs.length ∧
          ∃ new, new.map Cached.sample = xs ∧ (c.append xs).2.held = c.held ++ new
      | .error _ => (c.append xs).2.held = c.held := by
  unfold append
  split
  · rename_i hempty
    rw [List.isEmpty_iff.mp hempty]
    exact ⟨hs, rfl, [], rfl, by rw [List.append_nil]⟩
  · cases ht : c.table with
    | none => exact ⟨⟨hs.counted, hs.reads, hs.deletes⟩, rfl⟩
    | some t =>
      dsimp only
      split
      · exact ⟨⟨hs.counted, hs.reads, hs.deletes⟩, rfl⟩
      · have hheld : ({ c with
            host.append := c.host.append.tail
            file := some (t.insert xs)
            rows := c.rows + xs.length } : SqliteCache α).held = c.held ++ number t.seq xs := by
          rw [held_of_table ht]
          simp only [held, table, conn_of_table ht, Table.insert]
        refine ⟨⟨?_, hs.reads, hs.deletes⟩, rfl, number t.seq xs, number_samples _ _, hheld⟩
        rw [hheld, List.length_append, number_length, ← hs.counted]

theorem oldest_spec (c : SqliteCache α) (limit : Nat) (hs : c.Sound) :
    (c.oldest limit).2.Sound ∧ (c.oldest limit).2.held = c.held ∧
      match c.table with
      | none => (c.oldest limit).1 = .error noTable
      | some _ => (c.oldest limit).1 = .ok (c.held.take limit) := by
  unfold oldest
  rw [hs.reads]
  cases ht : c.table with
  | none => exact ⟨⟨hs.counted, rfl, hs.deletes⟩, rfl, rfl⟩
  | some t =>
    rw [held_of_table ht]
    exact ⟨⟨hs.counted, rfl, hs.deletes⟩, held_of_table ht, rfl⟩

theorem remove_take_spec (c : SqliteCache α) (k : Nat) (hs : c.Sound) :
    ((c.remove (c.held.take k)).1 = .ok () →
      (c.remove (c.held.take k)).2.Sound ∧
        (c.remove (c.held.take k)).2.held = c.held.drop k) ∧
      (k ≤ maxVariables → (c.remove (c.held.take k)).1 = .ok ()) := by
  cases ht : c.table with
  | none =>
    rw [held_of_no_table ht, List.take_nil, List.drop_nil]
    exact ⟨fun _ => ⟨hs, held_of_no_table ht⟩, fun _ => rfl⟩
  | some t =>
    rw [held_of_table ht]
    by_cases hk : min k t.rows.length ≤ maxVariables
    · obtain ⟨t', hrows, hremove⟩ := remove_of_table ht hs.deletes hk
      have hheld : ({ c with file := some t', rows := c.rows - min k t.rows.length } :
          SqliteCache α).held = t.rows.drop k := by
        rw [← hrows]
        simp only [held, table, conn_of_table ht]
      rw [hremove]
      refine ⟨fun _ => ⟨⟨?_, hs.reads, hs.deletes⟩, hheld⟩, fun _ => rfl⟩
      -- The counter goes down by what the table lost.
      rw [hheld, List.length_drop]
      have hcounted := hs.counted
      rw [held_of_table ht] at hcounted
      dsimp only
      omega
    · -- More ids than one statement takes.
      have hmany : maxVariables < (t.rows.take k).length := by
        rw [List.length_take]
        omega
      rw [remove_refused c hmany]
      refine ⟨by simp, fun hle => ?_⟩
      omega

theorem reset_spec (c : SqliteCache α) (hs : c.Sound) (hempty : c.held = []) :
    c.reset.2.Sound ∧ c.reset.2.held = [] := by
  have hrows : c.rows = 0 := by rw [hs.counted, hempty, List.length_nil]
  unfold reset
  dsimp only
  split
  · exact ⟨⟨hs.counted, hs.reads, hs.deletes⟩, hempty⟩
  · exact ⟨⟨hrows, hs.reads, hs.deletes⟩, rfl⟩
  · exact ⟨⟨hrows, hs.reads, hs.deletes⟩, rfl⟩
  · exact ⟨⟨hrows, hs.reads, hs.deletes⟩, rfl⟩
  · exact ⟨⟨rfl, hs.reads, hs.deletes⟩, rfl⟩

instance : LawfulFrameCache (SqliteCache α) where
  Valid := Sound
  frames := held
  append_ok xs c c' n hs hrun := by
    have hspec := append_spec c xs hs
    rw [show c.append xs = (.ok n, c') from hrun] at hspec
    exact hspec
  append_error xs c c' e hs hrun := by
    have hspec := append_spec c xs hs
    rw [show c.append xs = (.error e, c') from hrun] at hspec
    exact hspec
  oldest_ok limit c c' cached hs hrun := by
    obtain ⟨hs', hheld, hres⟩ := oldest_spec c limit hs
    rw [show c.oldest limit = (.ok cached, c') from hrun] at hs' hheld hres
    refine ⟨hs', ?_, hheld⟩
    split at hres
    · cases hres
    · exact Except.ok.inj hres
  oldest_error limit c c' e hs hrun := by
    obtain ⟨hs', hheld, -⟩ := oldest_spec c limit hs
    rw [show c.oldest limit = (.error e, c') from hrun] at hs' hheld
    exact ⟨hs', hheld⟩
  remove_ok k c c' hs hrun := by
    have hspec := (remove_take_spec c k hs).1
    rw [show c.remove (c.held.take k) = (.ok (), c') from hrun] at hspec
    exact hspec rfl
  count_frames c hs := ⟨hs, rfl⟩
  isFull_frames c hs := ⟨⟨hs.counted, hs.reads, hs.deletes⟩, rfl⟩
  reset_empty c hs hempty := reset_spec c hs hempty

theorem reliable {limit : Nat} (hlimit : limit ≤ maxVariables) :
    ReliableFrameCache (SqliteCache α) limit where
  count_ok c hs := by
    change (Except.ok c.rows : Except CacheError Nat) = .ok c.held.length
    rw [hs.counted]
  oldest_reads n c hs hne := by
    obtain ⟨-, -, hres⟩ := oldest_spec c n hs
    split at hres
    · rename_i ht
      exact absurd (held_of_no_table ht) hne
    · exact ⟨_, hres⟩
  remove_removes k c hs hk := (remove_take_spec c k hs).2 (Nat.le_trans hk hlimit)

end SqliteCache

end WireTap
