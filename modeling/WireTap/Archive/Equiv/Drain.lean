import Mathlib
import WireTap.Lib.Fallible
import WireTap.Archive.Drain
import WireTap.Archive.Equiv.Worker
import WireTap.Cache.Equiv.RowCache

/-!
# When a drain ends

`drainCache_passed` says what one pass does to a disk cache in working order.  Two things keep frames
in it: a row that cannot be read, which fails the read of its whole batch (`Passed.unreadable_stays`),
and a batch that is too large, since `remove` binds one variable for each frame and the pass forgets
what it delivered exactly if one statement can name it.  Such a batch is delivered again by every
later pass (`drain_never_ends`); otherwise each pass takes a batch off the front and the drain ends
(`drain_ends`).
-/

namespace WireTap

open Std.Do

set_option mvcgen.warning false

variable {S α β : Type}

/-- The disk cache in working order: connected to its file, which holds `t`, the count right, and
no I/O error to come. -/
structure SqliteCache.Working (c : SqliteCache β) (t : Table β) : Prop where
  table : c.table = some t
  counted : c.rows = t.rows.length
  reads : c.host.oldest = []
  deletes : c.host.remove = []
  resets : c.host.reset = []

namespace SqliteCache

/-- A removal looks at the ids alone. -/
theorem remove_congr (c : SqliteCache β) {xs ys : List (Cached β)}
    (h : xs.map Cached.id = ys.map Cached.id) : c.remove xs = c.remove ys := by
  have hlen : xs.length = ys.length := by
    rw [← @List.length_map _ _ xs Cached.id, h, List.length_map]
  have hempty : xs.isEmpty = ys.isEmpty := by
    cases xs <;> cases ys <;> simp_all
  unfold remove
  rw [hempty, hlen, h]

namespace Working

variable {c : SqliteCache β} {t : Table β}

theorem held (h : c.Working t) : c.held = t.rows := held_of_table h.table

/-- The first rows are forgotten if one statement can name them. -/
theorem remove_take (h : c.Working t) {k : Nat} (hk : min k t.rows.length ≤ maxVariables) :
    ∃ t', (c.remove (t.rows.take k)).2.Working t' ∧ t'.rows = t.rows.drop k := by
  obtain ⟨t', hrows, hremove⟩ := remove_of_table h.table h.deletes hk
  rw [hremove]
  refine ⟨t', ⟨?_, ?_, h.reads, h.deletes, h.resets⟩, hrows⟩
  · rw [SqliteCache.table, conn_of_table h.table]
  · dsimp only
    rw [hrows, h.counted, List.length_drop]
    omega

theorem reset (h : c.Working t) : c.reset.2.Working .empty := by
  unfold SqliteCache.reset
  rw [h.resets]
  exact ⟨rfl, rfl, h.reads, h.deletes, rfl⟩

end Working

end SqliteCache

variable {format : RowFormat β α}

namespace RowCache

variable {c : RowCache format} {t : Table β}

/-- What a read of the first `limit` rows of `t` gives. -/
def readRows (format : RowFormat β α) (t : Table β) (limit : Nat) : Option (List (Cached α)) :=
  (t.rows.take limit).mapM (readRow format)

theorem oldest_of_working (h : c.file.Working t) (limit : Nat) :
    c.oldest limit = (match readRows format t limit with
      | none => .error unreadable
      | some frames => .ok frames, c) := by
  unfold oldest readRows
  rw [SqliteCache.oldest_of_table h.table h.reads limit]
  dsimp only
  cases (t.rows.take limit).mapM (readRow format) with
  | none => rfl
  | some frames => rfl

/-- Removing the first frames read is removing their rows. -/
theorem remove_of_readRows {limit : Nat} {cached : List (Cached α)}
    (h : readRows format t limit = some cached) (k : Nat) :
    (c.remove (cached.take k)).2.file = (c.file.remove (t.rows.take (min k limit))).2 := by
  have hids : ((cached.take k).map fun f => (⟨f.id, format.write f.sample⟩ : Cached β)).map
      Cached.id = (t.rows.take (min k limit)).map Cached.id := by
    rw [List.map_map, ← List.take_take, List.map_take, List.map_take, ← ids_of_mapM h]
    rfl
  change (c.file.remove _).2 = _
  rw [c.file.remove_congr hids]

/-- As many frames as rows. -/
theorem length_of_readRows {limit : Nat} {cached : List (Cached α)}
    (h : readRows format t limit = some cached) : cached.length = min limit t.rows.length := by
  rw [length_of_mapM h, List.length_take]

end RowCache

/-! ### One pass -/

/-- Asking for the count changes nothing. -/
theorem World.of_counted {w w₁ : World S (RowCache format) α} {r : Except CacheError Nat}
    (hrun : ∃ c, FrameCache.count.run w.cache = (r, c) ∧ w₁ = w.setCache c) :
    w₁ = w ∧ r = .ok w.cache.file.rows := by
  obtain ⟨c, hcount, rfl⟩ := hrun
  have heq : (Except.ok w.cache.file.rows, w.cache) = (r, c) := hcount
  rw [Prod.mk.injEq] at heq
  obtain ⟨rfl, rfl⟩ := heq
  exact ⟨rfl, rfl⟩

/-- A removal, whether or not it succeeds, touches only the cache and the record of it. -/
theorem removeCached_cache (cached : List (Cached α)) (w : World S (RowCache format) α) :
    ⦃fun s => ⌜s = w⌝⦄ removeCached cached
    ⦃⇓ _ w' => ⌜w'.batchSize = w.batchSize ∧ w'.sink = w.sink ∧
      w'.history.delivered = w.history.delivered ∧ w'.cache = (w.cache.remove cached).2⌝⦄ := by
  mvcgen [removeCached, onCache_spec]
  · rename_i hw r _ _ w₁ h₁ _
    subst hw
    obtain ⟨c, hrun, rfl⟩ := h₁
    exact ⟨rfl, rfl, rfl, congrArg Prod.snd hrun.symm⟩
  · rename_i hw _ _ _ _ _ w₁ h₁
    subst hw
    obtain ⟨c, hrun, rfl⟩ := h₁
    exact ⟨rfl, rfl, rfl, congrArg Prod.snd hrun.symm⟩

/-- A cache that is not read has nothing in it. -/
theorem World.rows_of_not_read {w : World S (RowCache format) α} {t : Table β}
    (h : w.cache.file.Working t) (hidle : ¬ w.readsCache = true) : t.rows = [] := by
  unfold World.readsCache at hidle
  rw [Bool.or_eq_true, not_or, bne_iff_ne, not_not, h.counted] at hidle
  exact List.length_eq_zero_iff.mp hidle.2

variable {w : World S (RowCache format) α} {t : Table β}

/-- What a pass reads: the oldest rows, if every one of them can be read. -/
def World.readBatch (w : World S (RowCache format) α) : Option (List (Cached α)) :=
  (w.cache.file.held.take w.batchSize).mapM (RowCache.readRow format)

theorem World.readBatch_eq (h : w.cache.file.Working t) :
    w.readBatch = RowCache.readRows format t w.batchSize := by
  rw [World.readBatch, h.held, RowCache.readRows]

/-- Reading a working cache changes nothing, and gives what `readBatch` says. -/
theorem World.of_read {w₁ : World S (RowCache format) α} (h : w.cache.file.Working t)
    {r : Except CacheError (List (Cached α))}
    (hrun : ∃ c, (FrameCache.oldest w.batchSize).run w.cache = (r, c) ∧ w₁ = w.setCache c) :
    w₁ = w ∧ ∀ cached, r = .ok cached ↔ w.readBatch = some cached := by
  obtain ⟨c, hread, rfl⟩ := hrun
  have heq := (RowCache.oldest_of_working h w.batchSize).symm.trans hread
  rw [Prod.mk.injEq] at heq
  obtain ⟨rfl, rfl⟩ := heq
  refine ⟨rfl, fun cached => ?_⟩
  rw [World.readBatch_eq h]
  cases RowCache.readRows format t w.batchSize with
  | none => simp
  | some frames => simp

/-- A read of nothing found an empty table. -/
theorem World.rows_of_nothing_read (h : w.cache.file.Working t) (hread : w.readBatch = some []) :
    t.rows = [] := by
  rw [World.readBatch_eq h] at hread
  have hlen := RowCache.length_of_readRows hread
  have hpos := w.batchSize_pos
  rw [List.length_nil] at hlen
  exact List.length_eq_zero_iff.mp (by omega)

theorem World.readBatch_of_rows (h : w.cache.file.Working t) (hrows : t.rows = []) :
    w.readBatch = some [] := by
  rw [World.readBatch, h.held, hrows, List.take_nil]
  rfl

/-- Every row of the cache can be read. -/
def World.AllReadable (w : World S (RowCache format) α) : Prop :=
  ∀ row ∈ w.cache.file.held, (format.read row.sample).isSome

/-- A row is readable where its sample is. -/
theorem RowCache.isSome_readRow (row : Cached β) :
    (readRow format row).isSome = (format.read row.sample).isSome := by
  rw [readRow, Option.isSome_map]

/-- If all rows can be read, so can the first ones. -/
theorem World.AllReadable.readBatch (hall : w.AllReadable) :
    ∃ cached, w.readBatch = some cached := by
  refine exists_mapM_eq_some fun row hrow => ?_
  have hread := hall row (List.mem_of_mem_take hrow)
  rw [← RowCache.isSome_readRow] at hread
  exact Option.isSome_iff_exists.mp hread

variable [BatchSink S α]

/-- How much of a batch the sink would report delivered. -/
def World.wouldDeliver (w : World S (RowCache format) α) (cached : List (Cached α)) : Nat :=
  ((BatchSink.writeBatch (cached.map Cached.sample)).run w.sink).1.delivered
    (cached.map Cached.sample).length

/-- What a pass returns, from what the write did. -/
def drained : WriteResult → Except SinkError Bool
  | .ok () => .ok true
  | .error e => .error e.cause

/-- What one pass over a cache that holds `t` returns and leaves. -/
structure Passed (w : World S (RowCache format) α) (t : Table β) (r : Except SinkError Bool)
    (w' : World S (RowCache format) α) : Prop where
  batchSize : w'.batchSize = w.batchSize
  /-- A row cannot be read. -/
  unread : w.readBatch = none → r = .ok false ∧ w'.cache = w.cache
  empty : t.rows = [] → r = .ok false ∧ w'.history.delivered = w.history.delivered ∧
    ∃ t', w'.cache.file.Working t' ∧ t'.rows = []
  wrote (cached : List (Cached α)) : w.readBatch = some cached → cached ≠ [] → ∃ res s,
    (BatchSink.writeBatch (cached.map Cached.sample)).run w.sink = (res, s) ∧ r = drained res ∧
      w'.sink = s ∧
      w'.history.delivered =
        w.history.delivered ++ (cached.map Cached.sample).take (w.wouldDeliver cached) ∧
      w'.cache = (w.cache.remove (cached.take (w.wouldDeliver cached))).2

/-- A pass that found nothing to read. -/
theorem Passed.of_empty (hread : w.readBatch = some []) {w' : World S (RowCache format) α}
    (hsize : w'.batchSize = w.batchSize) (hdelivered : w'.history.delivered = w.history.delivered)
    (hempty : ∃ t', w'.cache.file.Working t' ∧ t'.rows = []) : Passed w t (.ok false) w' where
  batchSize := hsize
  unread hnone := by
    rw [hread] at hnone
    cases hnone
  empty _ := ⟨rfl, hdelivered, hempty⟩
  wrote cached hcached hne := by
    rw [hread] at hcached
    exact absurd (Option.some.inj hcached).symm hne

/-- A pass that wrote `res` of the oldest frames and forgot what was delivered. -/
theorem Passed.of_write (h : w.cache.file.Working t) {cached : List (Cached α)}
    (hread : w.readBatch = some cached) (hne : cached ≠ []) {res : WriteResult} {s : S}
    {w' : World S (RowCache format) α}
    (hwrite : (BatchSink.writeBatch (cached.map Cached.sample)).run w.sink = (res, s))
    (hsize : w'.batchSize = w.batchSize) (hsink : w'.sink = s)
    (hdelivered : w'.history.delivered = w.history.delivered ++
      (cached.map Cached.sample).take (res.delivered (cached.map Cached.sample).length))
    (hcache : w'.cache = (w.cache.remove
      (cached.take (res.delivered (cached.map Cached.sample).length))).2) :
    Passed w t (drained res) w' := by
  have hwould : w.wouldDeliver cached = res.delivered (cached.map Cached.sample).length := by
    rw [World.wouldDeliver, hwrite]
  refine ⟨hsize, fun hnone => ?_, fun hrows => ?_, ?_⟩
  · rw [hread] at hnone
    cases hnone
  · rw [World.readBatch_of_rows h hrows] at hread
    exact absurd (Option.some.inj hread).symm hne
  · intro cached' hread' _
    obtain rfl := Option.some.inj (hread.symm.trans hread')
    rw [hwould]
    exact ⟨res, s, hwrite, rfl, hsink, hdelivered, hcache⟩

theorem drainCache_passed (h : w.cache.file.Working t) :
    ⦃fun s => ⌜s = w⌝⦄ drainCache ⦃⇓ r w' => ⌜Passed w t r w'⌝⦄ := by
  mvcgen [drainCache, onCache_spec, writeBatch_spec, removeCached_cache, resetCache_spec, written]
  · -- Nothing is draining and the count is zero.
    rename_i hw r pending w₁ h₁ hidle
    subst hw
    obtain ⟨rfl, rfl⟩ := World.of_counted h₁
    have hrows : t.rows = [] := by
      simp only [pending, Bool.and_eq_true, beq_iff_eq] at hidle
      rw [← List.length_eq_zero_iff, ← h.counted]
      exact hidle.2
    exact Passed.of_empty (World.readBatch_of_rows h hrows) rfl rfl ⟨t, h, hrows⟩
  · -- A row that cannot be read.
    rename_i hw _ _ w₁ h₁ _ r e hr w₂ h₂
    subst hw
    obtain ⟨rfl, rfl⟩ := World.of_counted h₁
    obtain ⟨rfl, hread⟩ := World.of_read h h₂
    refine ⟨rfl, fun _ => ⟨rfl, rfl⟩, fun hrows => ?_, fun cached hcached => ?_⟩
    · cases (hread []).mpr (World.readBatch_of_rows h hrows)
    · cases (hread cached).mpr hcached
  · -- The drain is over, and the emptied cache is reset here, but not below.
    rename_i hw _ _ w₁ h₁ _ r cached hr hempty w₂ h₂ _ _ _ _ w₃ h₃
    subst hw
    obtain ⟨rfl, rfl⟩ := World.of_counted h₁
    obtain ⟨rfl, hread⟩ := World.of_read h h₂
    obtain rfl := List.isEmpty_iff.mp hempty
    subst h₃
    exact Passed.of_empty ((hread []).mp rfl) rfl rfl ⟨.empty, h.reset, rfl⟩
  · rename_i hw _ _ w₁ h₁ _ r cached hr hempty w₂ h₂ _ _
    subst hw
    obtain ⟨rfl, rfl⟩ := World.of_counted h₁
    obtain ⟨rfl, hread⟩ := World.of_read h h₂
    obtain rfl := List.isEmpty_iff.mp hempty
    have hnone := (hread []).mp rfl
    exact Passed.of_empty hnone rfl rfl ⟨t, h, World.rows_of_nothing_read h hnone⟩
  · -- A batch was written, whole here and in part below.
    rename_i hw _ _ w₁ h₁ _ r cached hr hne w₂ h₂ _ _ res _ w₃ h₃ _ w₄ h₄ _ _ hres
    subst hw hres
    obtain ⟨rfl, rfl⟩ := World.of_counted h₁
    obtain ⟨rfl, hread⟩ := World.of_read h h₂
    obtain ⟨s, hwrite, rfl⟩ := h₃
    exact Passed.of_write h ((hread cached).mp rfl) (fun hnil => hne (by rw [hnil]; rfl)) hwrite
      h₄.1 h₄.2.1 h₄.2.2.1 h₄.2.2.2
  · rename_i hw _ _ w₁ h₁ _ r cached hr hne w₂ h₂ _ _ res _ w₃ h₃ _ w₄ h₄ _ _ e hres
    subst hw hres
    obtain ⟨rfl, rfl⟩ := World.of_counted h₁
    obtain ⟨rfl, hread⟩ := World.of_read h h₂
    obtain ⟨s, hwrite, rfl⟩ := h₃
    exact Passed.of_write h ((hread cached).mp rfl) (fun hnil => hne (by rw [hnil]; rfl)) hwrite
      h₄.1 h₄.2.1 h₄.2.2.1 h₄.2.2.2

/-- What one pass does, read off the run. -/
theorem Passed.of_run (h : w.cache.file.Working t) :
    Passed w t (drainCache.run w).1 (drainCache.run w).2 :=
  run_of_triple (drainCache_passed h) rfl rfl

/-! ### Small enough batches -/

/-- The sink reports everything delivered that this pass hands it. -/
def World.AllDelivered (w : World S (RowCache format) α) : Prop :=
  ∀ cached, w.readBatch = some cached → cached ≠ [] → w.wouldDeliver cached = cached.length

/-- From a state that is `Good` the sink acknowledges whatever it is handed, from then on. -/
def Acknowledges (Good : S → Prop) : Prop :=
  ∀ (batch : List α) (s : S), Good s →
    ((BatchSink.writeBatch batch).run s).1 = .ok () ∧
      Good ((BatchSink.writeBatch batch).run s).2

/-- The pass returns, and none of the frames it read is in the cache any more. -/
def World.PassForgets (w : World S (RowCache format) α) : Prop :=
  ∃ r w', w.drainPass = some (r, w') ∧
    ∀ cached, w.readBatch = some cached →
      ∀ f ∈ cached, ∀ row ∈ w'.cache.file.held, row.id ≠ f.id

/-- The drain ends with the cache empty, and each frame it held delivered once, oldest first. -/
def World.DrainEnds (w : World S (RowCache format) α) : Prop :=
  ∃ fuel w', w.drain fuel = some w' ∧ w'.cache.file.held = [] ∧
    w'.history.delivered = w.history.delivered ++ w.cache.frames.map Cached.sample

/-- If the cache is read at all, a batch can be allocated, and, if it can be read, named in one
statement. -/
def World.BatchFits (w : World S (RowCache format) α) : Prop :=
  w.readsCache = true → capacityOverflow w.batchSize = false ∧
    (w.readBatch.isSome → min w.batchSize w.cache.file.held.length ≤ maxVariables)

variable {Good : S → Prop}

theorem Acknowledges.allDelivered (hack : Acknowledges Good) (hsink : Good w.sink) :
    w.AllDelivered := by
  intro cached _ _
  rw [World.wouldDeliver, (hack (cached.map Cached.sample) w.sink hsink).1]
  exact List.length_map _

/-- A pass that can allocate its batch returns. -/
theorem World.drainPass_of_fits (h : ¬ (w.readsCache && capacityOverflow w.batchSize) = true) :
    w.drainPass = some ((drainCache.run w).1, (drainCache.run w).2) :=
  if_neg h

/-- A pass that returns leaves what `drain_cache` does. -/
theorem World.of_drainPass {r : Except SinkError Bool} {w' : World S (RowCache format) α}
    (h : w.drainPass = some (r, w')) : w' = (drainCache.run w).2 := by
  unfold World.drainPass at h
  split at h
  · cases h
  · exact (congrArg Prod.snd (Option.some.inj h)).symm

theorem World.drainPass_of_capacity (h : capacityOverflow w.batchSize = false) :
    w.drainPass = some ((drainCache.run w).1, (drainCache.run w).2) :=
  World.drainPass_of_fits (by rw [h, Bool.and_false]; exact Bool.false_ne_true)

/-- A batch delivered whole that one statement can name is taken off the front of the cache. -/
theorem Passed.forgets (h : w.cache.file.Working t) {cached : List (Cached α)}
    (hread : w.readBatch = some cached) (hne : cached ≠ []) (hall : w.AllDelivered)
    (hfits : min w.batchSize t.rows.length ≤ maxVariables) {r : Except SinkError Bool}
    {w' : World S (RowCache format) α} (hpass : Passed w t r w') :
    (∃ t', w'.cache.file.Working t' ∧ t'.rows = t.rows.drop w.batchSize) ∧
      w'.history.delivered = w.history.delivered ++ cached.map Cached.sample := by
  obtain ⟨res, s, -, -, -, hdelivered, hcache⟩ := hpass.wrote cached hread hne
  rw [World.readBatch_eq h] at hread
  have hlen := RowCache.length_of_readRows hread
  have hfile := RowCache.remove_of_readRows (c := w.cache) hread cached.length
  have htake : t.rows.take (min cached.length w.batchSize) = t.rows.take w.batchSize :=
    List.take_eq_take_iff.mpr (by omega)
  rw [hall cached (World.readBatch_eq h ▸ hread) hne] at hdelivered hcache
  rw [List.take_of_length_le (by rw [List.length_map])] at hdelivered
  rw [← hcache, htake] at hfile
  rw [hfile]
  exact ⟨h.remove_take hfits, hdelivered⟩

/-- A batch too large to name in one statement stays where it was. -/
theorem Passed.keeps (h : w.cache.file.Working t) {cached : List (Cached α)}
    (hread : w.readBatch = some cached) (hall : w.AllDelivered)
    (hmany : maxVariables < min w.batchSize t.rows.length) {r : Except SinkError Bool}
    {w' : World S (RowCache format) α} (hpass : Passed w t r w') :
    w'.cache.file = w.cache.file := by
  have hlen := RowCache.length_of_readRows (World.readBatch_eq h ▸ hread)
  have hne : cached ≠ [] := by
    intro hnil
    rw [hnil, List.length_nil] at hlen
    omega
  obtain ⟨res, s, -, -, -, -, hcache⟩ := hpass.wrote cached hread hne
  rw [hall cached hread hne] at hcache
  have hfile := RowCache.remove_of_readRows (c := w.cache) (World.readBatch_eq h ▸ hread)
    cached.length
  rw [← hcache, SqliteCache.remove_refused] at hfile
  · exact hfile
  · rw [List.length_take]
    omega

/-- A row that cannot be read is still there after any pass. -/
theorem Passed.unreadable_stays (h : w.cache.file.Working t) {row : Cached β} (hrow : row ∈ t.rows)
    (hunread : RowCache.readRow format row = none) {r : Except SinkError Bool}
    {w' : World S (RowCache format) α} (hpass : Passed w t r w') :
    ∃ t', w'.cache.file.Working t' ∧ row ∈ t'.rows := by
  cases hread : w.readBatch with
  | none =>
    rw [(hpass.unread hread).2]
    exact ⟨t, h, hrow⟩
  | some cached =>
    have hne : cached ≠ [] := by
      rintro rfl
      rw [World.rows_of_nothing_read h hread] at hrow
      cases hrow
    obtain ⟨res, s, -, -, -, -, hcache⟩ := hpass.wrote cached hread hne
    rw [World.readBatch_eq h] at hread
    have hfile := RowCache.remove_of_readRows (c := w.cache) hread (w.wouldDeliver cached)
    rw [← hcache] at hfile
    -- It is behind the batch, since all of that was read.
    have hbehind : row ∈ t.rows.drop (min (w.wouldDeliver cached) w.batchSize) := by
      rw [← List.take_append_drop (min (w.wouldDeliver cached) w.batchSize) t.rows] at hrow
      rcases List.mem_append.mp hrow with hfirst | hrest
      · have htaken : row ∈ t.rows.take w.batchSize := by
          rw [← List.take_take] at hfirst
          exact List.mem_of_mem_take hfirst
        have hnone := mapM_eq_none_iff.mpr ⟨row, htaken, hunread⟩
        rw [RowCache.readRows, hnone] at hread
        cases hread
      · exact hrest
    by_cases hfits : min (min (w.wouldDeliver cached) w.batchSize) t.rows.length ≤ maxVariables
    · obtain ⟨t', h', hrows'⟩ := h.remove_take hfits
      rw [← hfile] at h'
      exact ⟨t', h', hrows' ▸ hbehind⟩
    · rw [SqliteCache.remove_refused _ (by rw [List.length_take]; omega)] at hfile
      rw [hfile]
      exact ⟨t, h, List.mem_of_mem_drop hbehind⟩

/-- Against a sink that acknowledges everything, a pass over frames says there may be more. -/
theorem Passed.more {cached : List (Cached α)} (hread : w.readBatch = some cached)
    (hne : cached ≠ []) (hack : Acknowledges Good) (hsink : Good w.sink)
    {r : Except SinkError Bool} {w' : World S (RowCache format) α} (hpass : Passed w t r w') :
    r = .ok true ∧ Good w'.sink := by
  obtain ⟨res, s, hwrite, rfl, rfl, -⟩ := hpass.wrote cached hread hne
  have hsent := hack (cached.map Cached.sample) w.sink hsink
  rw [hwrite] at hsent
  obtain ⟨rfl, hgood⟩ := hsent
  exact ⟨rfl, hgood⟩

/-! ### The drain -/

/-- The oldest rows are none of the others. -/
theorem Table.id_of_mem_drop (t : Table β) {k : Nat} {row row' : Cached β}
    (hrow : row ∈ t.rows.take k) (hrow' : row' ∈ t.rows.drop k) : row.id < row'.id := by
  have hsorted : (t.rows.take k ++ t.rows.drop k).Pairwise fun a b => a.id < b.id := by
    rw [List.take_append_drop]
    exact t.sorted
  exact (List.pairwise_append.mp hsorted).2.2 row hrow row' hrow'

omit [BatchSink S α] in
/-- What is left of a cache that can be read whole can be. -/
theorem World.AllReadable.of_drop {t' : Table β} {w' : World S (RowCache format) α}
    (h : w.cache.file.Working t) (h' : w'.cache.file.Working t') {k : Nat}
    (hrows : t'.rows = t.rows.drop k) (hall : w.AllReadable) : w'.AllReadable := by
  intro row hrow
  rw [h'.held, hrows] at hrow
  exact hall row (h.held ▸ List.mem_of_mem_drop hrow)

/-- Each pass takes a batch off the front, so there is a last one. -/
theorem World.drain_ends (h : w.cache.file.Working t) (hack : Acknowledges Good)
    (hsink : Good w.sink) (hcapacity : capacityOverflow w.batchSize = false)
    (hall : w.AllReadable) (hfits : min w.batchSize t.rows.length ≤ maxVariables) :
    w.DrainEnds := by
  induction hn : t.rows.length using Nat.strong_induction_on generalizing w t with
  | _ n ih =>
    have hpass := Passed.of_run h
    have hret := World.drainPass_of_capacity hcapacity
    obtain ⟨cached, hread⟩ := hall.readBatch
    have hframes : w.cache.frames = t.rows.filterMap (RowCache.readRow format) := by
      rw [RowCache.frames, h.held]
    by_cases hrows : t.rows = []
    · obtain ⟨hr, hdelivered, t', h', hrows'⟩ := hpass.empty hrows
      refine ⟨1, (drainCache.run w).2, ?_, h'.held.trans hrows', ?_⟩
      · rw [World.drain, hret, hr]
      · rw [hdelivered, hframes, hrows, List.filterMap_nil, List.map_nil, List.append_nil]
    · have hne : cached ≠ [] := by
        rintro rfl
        exact hrows (World.rows_of_nothing_read h hread)
      obtain ⟨⟨t', h', hrows'⟩, hdelivered⟩ :=
        hpass.forgets h hread hne (hack.allDelivered hsink) hfits
      obtain ⟨hr, hsink'⟩ := hpass.more hread hne hack hsink
      have hpos : 0 < t.rows.length := List.length_pos_iff.mpr hrows
      have hsize := w.batchSize_pos
      have hless : t'.rows.length < n := by
        rw [hrows', List.length_drop]
        omega
      have hfits' : min (drainCache.run w).2.batchSize t'.rows.length ≤ maxVariables := by
        rw [hpass.batchSize]
        omega
      obtain ⟨fuel, w', hdrain, hheld, hrest⟩ := ih t'.rows.length hless h' hsink'
        (hpass.batchSize ▸ hcapacity) (hall.of_drop h h' hrows') hfits' rfl
      refine ⟨fuel + 1, w', ?_, hheld, ?_⟩
      · rw [World.drain, hret, hr]
        exact hdrain
      · -- The frames of the batch, and then those of the rest.
        have hbatch : (t.rows.take w.batchSize).filterMap (RowCache.readRow format) = cached :=
          filterMap_eq_of_mapM_eq_some (by rw [← RowCache.readRows, ← World.readBatch_eq h, hread])
        rw [hrest, hdelivered, hframes, RowCache.frames, h'.held, hrows', List.append_assoc,
          ← List.map_append, ← hbatch, ← List.filterMap_append, List.take_append_drop]

/-- A batch too large to forget is delivered again by every pass. -/
theorem World.drain_never_ends (h : w.cache.file.Working t) (hack : Acknowledges Good)
    (hsink : Good w.sink) (hall : w.AllReadable)
    (hmany : maxVariables < min w.batchSize t.rows.length) (fuel : Nat) : w.drain fuel = none := by
  induction fuel generalizing w with
  | zero => rfl
  | succ fuel ih =>
    have hpass := Passed.of_run h
    obtain ⟨cached, hread⟩ := hall.readBatch
    have hne : cached ≠ [] := by
      rintro rfl
      rw [World.rows_of_nothing_read h hread, List.length_nil] at hmany
      omega
    have hfile := hpass.keeps h hread (hack.allDelivered hsink) hmany
    obtain ⟨hr, hsink'⟩ := hpass.more hread hne hack hsink
    by_cases hpanics : (w.readsCache && capacityOverflow w.batchSize) = true
    · rw [World.drain, World.drainPass, if_pos hpanics]
    · rw [World.drain, World.drainPass_of_fits hpanics, hr]
      refine ih (hfile ▸ h) hsink' ?_ ?_
      · unfold World.AllReadable
        rw [hfile]
        exact hall
      · rw [hpass.batchSize]
        exact hmany

/-- A row that cannot be read is still there when the drain has ended. -/
theorem World.unreadable_stays (h : w.cache.file.Working t) {row : Cached β} (hrow : row ∈ t.rows)
    (hunread : RowCache.readRow format row = none) {fuel : Nat}
    {w' : World S (RowCache format) α} (hdrain : w.drain fuel = some w') :
    row ∈ w'.cache.file.held := by
  induction fuel generalizing w t with
  | zero => cases hdrain
  | succ fuel ih =>
    obtain ⟨t', h', hrow'⟩ := (Passed.of_run h).unreadable_stays h hrow hunread
    rw [World.drain] at hdrain
    split at hdrain
    · cases hdrain
    · rename_i w₁ hret
      rw [World.of_drainPass hret] at hdrain
      exact ih h' hrow' hdrain
    · rename_i r w₁ _ hret
      rw [← Option.some.inj hdrain, World.of_drainPass hret, h'.held]
      exact hrow'

/-- A pass that panics ends the worker, not the drain. -/
theorem World.drain_of_panic (hpanics : (w.readsCache && capacityOverflow w.batchSize) = true)
    (fuel : Nat) : w.drain fuel = none := by
  cases fuel with
  | zero => rfl
  | succ fuel => rw [World.drain, World.drainPass, if_pos hpanics]

theorem World.passForgets_iff (h : w.cache.file.Working t) (hall : w.AllDelivered) :
    w.PassForgets ↔ w.BatchFits := by
  have hpass := Passed.of_run h
  constructor
  · rintro ⟨r, w', hret, hgone⟩ hreads
    have hcapacity : capacityOverflow w.batchSize = false := by
      by_contra hover
      rw [World.drainPass, hreads, Bool.eq_true_of_not_eq_false hover] at hret
      cases hret
    refine ⟨hcapacity, fun hsome => Nat.le_of_not_lt fun hmany => ?_⟩
    obtain ⟨cached, hread⟩ := Option.isSome_iff_exists.mp hsome
    rw [h.held] at hmany
    -- Nothing was removed, so the oldest row is still there.
    have hfile := hpass.keeps h hread hall hmany
    rw [World.drainPass_of_capacity hcapacity, Option.some.injEq, Prod.mk.injEq] at hret
    have hids := RowCache.ids_of_mapM hread
    rw [h.held] at hids
    rw [← hret.2] at hgone
    have hsize := w.batchSize_pos
    cases hrows : t.rows with
    | nil =>
      rw [hrows, List.length_nil] at hmany
      omega
    | cons row rows =>
      have hmem : row.id ∈ cached.map Cached.id := by
        rw [hids, hrows]
        obtain ⟨k, hk⟩ := Nat.exists_eq_add_of_lt hsize
        rw [hk, Nat.zero_add]
        exact List.mem_cons_self
      obtain ⟨f, hf, hid⟩ := List.mem_map.mp hmem
      refine hgone cached hread f hf row ?_ hid.symm
      rw [hfile, h.held, hrows]
      exact List.mem_cons_self
  · intro hfits
    have hret : w.drainPass = some ((drainCache.run w).1, (drainCache.run w).2) := by
      refine World.drainPass_of_fits fun hpanics => ?_
      rw [Bool.and_eq_true] at hpanics
      rw [(hfits hpanics.1).1] at hpanics
      cases hpanics.2
    refine ⟨_, _, hret, fun cached hread f hf row hrow hid => ?_⟩
    have hne : cached ≠ [] := List.ne_nil_of_mem hf
    have hmin : min w.batchSize t.rows.length ≤ maxVariables := by
      by_cases hreads : w.readsCache = true
      · rw [← h.held]
        exact (hfits hreads).2 (hread ▸ rfl)
      · rw [World.rows_of_not_read h hreads, List.length_nil]
        omega
    obtain ⟨⟨t', h', hrows'⟩, -⟩ := hpass.forgets h hread hne hall hmin
    -- A frame read has the id of a row of the batch, and those are gone.
    have hids := RowCache.ids_of_mapM hread
    obtain ⟨old, hold, hold'⟩ := List.mem_map.mp (hids ▸ List.mem_map_of_mem hf)
    rw [h.held] at hold
    rw [h'.held, hrows'] at hrow
    have hlt := Table.id_of_mem_drop t hold hrow
    omega

theorem World.drainEnds_iff (h : w.cache.file.Working t) (hack : Acknowledges Good)
    (hsink : Good w.sink) : w.DrainEnds ↔ w.BatchFits ∧ w.AllReadable := by
  constructor
  · rintro ⟨fuel, w', hdrain, hempty, -⟩
    have hall : w.AllReadable := by
      intro row hrow
      rw [← RowCache.isSome_readRow]
      by_contra hnot
      have hunread := Option.not_isSome_iff_eq_none.mp hnot
      have hstays := World.unreadable_stays h (h.held ▸ hrow) hunread hdrain
      rw [hempty] at hstays
      cases hstays
    refine ⟨fun hreads => ?_, hall⟩
    have hcapacity : capacityOverflow w.batchSize = false := by
      by_contra hover
      rw [World.drain_of_panic (by rw [hreads, Bool.eq_true_of_not_eq_false hover]; rfl)] at hdrain
      cases hdrain
    refine ⟨hcapacity, fun _ => Nat.le_of_not_lt fun hmany => ?_⟩
    rw [h.held] at hmany
    rw [World.drain_never_ends h hack hsink hall hmany] at hdrain
    cases hdrain
  · rintro ⟨hfits, hall⟩
    by_cases hreads : w.readsCache = true
    · obtain ⟨hcapacity, hmin⟩ := hfits hreads
      obtain ⟨cached, hread⟩ := hall.readBatch
      have hmin := hmin (hread ▸ rfl)
      rw [h.held] at hmin
      exact World.drain_ends h hack hsink hcapacity hall hmin
    · -- Nothing is read, whatever the batch size: the first pass is the last.
      have hrows := World.rows_of_not_read h hreads
      obtain ⟨hr, hdelivered, t', h', hrows'⟩ := (Passed.of_run h).empty hrows
      refine ⟨1, (drainCache.run w).2, ?_, h'.held.trans hrows', ?_⟩
      · rw [World.drain, World.drainPass_of_fits fun hpanics => hreads (Bool.and_elim_left hpanics),
          hr]
      · rw [hdelivered, RowCache.frames, h.held, hrows, List.filterMap_nil, List.map_nil,
          List.append_nil]

/-- A pass whose batch was delivered forgets it exactly if the batch can be allocated and named in
one statement; and a drain against a sink that acknowledges everything sends each frame once and
ends exactly if, besides, every row of the cache can be read. -/
theorem drained_batch_leaves_iff (w : World S (RowCache format) α) (t : Table β)
    (h : w.cache.file.Working t) :
    (w.AllDelivered → (w.PassForgets ↔ w.BatchFits)) ∧
      ∀ Good : S → Prop, Acknowledges Good → Good w.sink →
        (w.DrainEnds ↔ w.BatchFits ∧ w.AllReadable) :=
  ⟨World.passForgets_iff h, fun _ => World.drainEnds_iff h⟩

/-- A sink with no failure to come acknowledges everything. -/
theorem ScriptedSink.acknowledges : Acknowledges fun s : ScriptedSink α => s.writes = [] := by
  intro batch s hs
  change ScriptedSink.clip batch.length (s.writes.headD (.ok ())) = .ok () ∧ s.writes.tail = []
  rw [hs]
  exact ⟨rfl, rfl⟩

/-- A worker whose cache's file holds `rows`, in front of a sink that is well. -/
def backlog (size : Nat) (rows : List (Option Nat)) :
    World (ScriptedSink Nat) (RowCache (RowFormat.option Nat)) Nat where
  toBatcher := channel {} ⟨.opened (Table.empty.insert rows) 1000000 {}⟩
    ⟨size, 10, fun _ _ => false⟩
  turns := []

theorem backlog_working (size : Nat) (rows : List (Option Nat)) :
    (backlog size rows).cache.file.Working (Table.empty.insert rows) :=
  ⟨rfl, rfl, rfl, rfl, rfl⟩

/-- Three frames, in batches of two. -/
theorem drained_batch_leaves_backlog :
    ((backlog 2 [some 7, some 8, some 9]).PassForgets ↔
        (backlog 2 [some 7, some 8, some 9]).BatchFits) ∧
      ((backlog 2 [some 7, some 8, some 9]).DrainEnds ↔
        (backlog 2 [some 7, some 8, some 9]).BatchFits ∧
          (backlog 2 [some 7, some 8, some 9]).AllReadable) ∧
      (backlog 2 [some 7, some 8, some 9]).BatchFits ∧
      (backlog 2 [some 7, some 8, some 9]).AllReadable := by
  have h := drained_batch_leaves_iff _ _ (backlog_working 2 [some 7, some 8, some 9])
  refine ⟨h.1 (ScriptedSink.acknowledges.allDelivered rfl),
    h.2 _ ScriptedSink.acknowledges rfl, fun _ => by decide, ?_⟩
  unfold World.AllReadable
  decide

/-- With one more frame to a batch than one statement takes, every pass sends the same batch; and a
row that cannot be read keeps all behind it in the cache. -/
theorem drained_batch_stays :
    (¬ (backlog 32767 (List.replicate 32767 (some 7))).PassForgets ∧
      ¬ (backlog 32767 (List.replicate 32767 (some 7))).DrainEnds) ∧
      (backlog 2 [some 7, some 8, none, some 9]).PassForgets ∧
      ¬ (backlog 2 [some 7, some 8, none, some 9]).DrainEnds := by
  have hwork := backlog_working 32767 (List.replicate 32767 (some 7))
  have hrows : (Table.empty.insert (List.replicate 32767 (some 7))).rows.length = 32767 := by
    change (number 0 (List.replicate 32767 (some 7))).length = 32767
    rw [number_length, List.length_replicate]
  have hall : (backlog 32767 (List.replicate 32767 (some 7))).AllReadable := by
    intro row hrow
    rw [hwork.held] at hrow
    have hsample : row.sample ∈ List.replicate 32767 (some 7) := by
      rw [← number_samples 0 (List.replicate 32767 (some 7))]
      exact List.mem_map_of_mem hrow
    rw [List.eq_of_mem_replicate hsample]
    rfl
  have hstuck : ¬ (backlog 32767 (List.replicate 32767 (some 7))).BatchFits := by
    intro hfits
    have hreads : (backlog 32767 (List.replicate 32767 (some 7))).readsCache = true := by
      by_contra hidle
      rw [World.rows_of_not_read hwork hidle, List.length_nil] at hrows
      omega
    obtain ⟨cached, hread⟩ := hall.readBatch
    have hmin := (hfits hreads).2 (hread ▸ rfl)
    rw [hwork.held, hrows] at hmin
    exact absurd hmin (by decide)
  have hforeign := backlog_working 2 [some 7, some 8, none, some 9]
  refine ⟨⟨?_, ?_⟩, ?_, ?_⟩
  · rw [World.passForgets_iff hwork (ScriptedSink.acknowledges.allDelivered rfl)]
    exact hstuck
  · rw [World.drainEnds_iff hwork ScriptedSink.acknowledges rfl]
    exact fun h => hstuck h.1
  · rw [World.passForgets_iff hforeign (ScriptedSink.acknowledges.allDelivered rfl)]
    exact fun _ => by decide
  · rw [World.drainEnds_iff hforeign ScriptedSink.acknowledges rfl]
    refine fun h => absurd h.2 ?_
    unfold World.AllReadable
    decide

end WireTap
