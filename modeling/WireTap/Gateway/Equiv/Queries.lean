import WireTap.Gateway.Equiv.Inventory
import WireTap.Gateway.Queries

/-!
# What the analytical queries can read

Which of the nine queries can come to a row they panic on, over every content of the table, every
request and every answer PostgreSQL may give (`never_panics_iff`).  Eight never do: a column that
can be NULL is kept out by a clause of the statement (`byte_changes`, `frame_changes`, `frequency`,
`gap_analysis`), by `src` and the `HAVING` of `mux_statistics`, or comes from columns that are never
NULL; and every index is guarded.  `distribution` reads the byte of every frame it selects, and
`get_byte_safe` is NULL for a frame that ends before it.
-/

namespace WireTap.Gateway

open Wire Lib

/-! ### A query that panics -/

section Panicked

variable {α β ρ : Type} {what : String} {x : Except PgError ρ}

/-- A query whose statement was answered does not panic on what it got. -/
theorem panicked_bind {k : ρ → Except QueryError (Option α)}
    (h : ∀ rows, x = .ok rows → panicked (k rows) = false) :
    panicked (x.mapError (failed what) >>= k) = false := by
  cases x with
  | error e => rfl
  | ok rows => exact h rows rfl

theorem panicked_ok {result : Option α} (h : ∃ r, result = some r) :
    panicked (.ok result) = false := by
  obtain ⟨r, rfl⟩ := h
  rfl

theorem panicked_rows {xs : List ρ} {f : ρ → Option β} {g : List β → α}
    (h : ∀ row ∈ xs, ∃ r, f row = some r) : panicked (.ok ((xs.mapM f).map g)) = false := by
  obtain ⟨ys, hys⟩ := exists_mapM_eq_some h
  rw [hys]
  rfl

end Panicked

/-! ### Bytes and aggregates -/

theorem getByteSafe_isSome {p : Bytes} {n : Int32} {v : Option Int32}
    (h : getByteSafe p n = .ok v) : v.isSome ↔ n.toInt < p.length := by
  unfold getByteSafe at h
  split at h
  · rename_i hlt
    cases hb : getByte p n with
    | error e => simp [hb, bind, Except.bind] at h
    | ok b =>
      obtain rfl : some b = v := by simpa [hb, bind, Except.bind, pure, Except.pure] using h
      simpa using hlt
  · rename_i hlt
    obtain rfl : none = v := by simpa [pure, Except.pure] using h
    simpa using hlt

theorem getByteSafe_eq_none_iff {p : Bytes} {n : Int32} :
    getByteSafe p n = .ok none ↔ (p.length : Int) ≤ n.toInt := by
  constructor
  · intro h
    have hnone := mt (getByteSafe_isSome h).mpr (by simp)
    omega
  · intro h
    rw [getByteSafe, if_neg (by omega)]
    rfl

/-- `get_byte_safe` fails on negative indices only. -/
theorem exists_getByteSafe {p : Bytes} {n : Int32} (h : 0 ≤ n.toInt) :
    ∃ v, getByteSafe p n = .ok v := by
  unfold getByteSafe
  split
  · rename_i hlt
    have hn : n.toInt.toNat < p.length := by omega
    have hle : (0 : Int32) ≤ n := by
      rw [Int32.le_iff_toInt_le]
      exact h
    have hbyte : getByte p n = .ok (p[n.toInt.toNat].toUInt32.toInt32) := by
      rw [getByte, if_pos hle, List.getElem?_eq_getElem hn]
    rw [hbyte]
    exact ⟨_, rfl⟩
  · exact ⟨none, rfl⟩

/-- A column with a value has a least one, a greatest one and an average. -/
theorem exists_aggregates (num : Numerics) {column : List (Option Int)}
    (h : ∃ v, some v ∈ column) :
    (∃ m, sqlMin column = some m) ∧ (∃ m, sqlMax column = some m) ∧
      ∃ a, sqlAvg num column = some a := by
  obtain ⟨v, hv⟩ := h
  have hne : column.filterMap id ≠ [] :=
    List.ne_nil_of_mem (List.mem_filterMap.mpr ⟨some v, hv, rfl⟩)
  refine ⟨?_, ?_, ?_⟩
  · apply Option.ne_none_iff_exists'.mp
    rwa [sqlMin, ne_eq, List.min?_eq_none_iff]
  · apply Option.ne_none_iff_exists'.mp
    rwa [sqlMax, ne_eq, List.max?_eq_none_iff]
  · unfold sqlAvg
    split
    · exact absurd ‹_› hne
    · exact ⟨_, rfl⟩

theorem sqlCount_pos {α : Type} {column : List (Option α)} :
    0 < sqlCount column ↔ ∃ v, some v ∈ column := by
  simp [sqlCount, List.length_pos_iff_exists_mem]

theorem exists_int_of_sqlCount {column : List (Option Int32)} (h : 0 < sqlCount column) :
    ∃ v, some v ∈ ints column := by
  obtain ⟨v, hv⟩ := sqlCount_pos.mp h
  exact ⟨v.toInt, List.mem_map.mpr ⟨some v, hv, rfl⟩⟩

/-! ### The statements of one `SELECT` -/

section Statements

variable {conv : Conversions} {num : Numerics} {frames : List CaptureFrame}

theorem byteChangeRow_result {ordered : List (Int × Option Int32 × Option Int32)} {k : Int}
    {row : ByteChangeRow} (h : (k, row) ∈ byteChangeRows conv ordered) :
    ∃ r, row.result = some r := by
  obtain ⟨⟨ts, prev, curr⟩, hr, heq⟩ := List.mem_map.mp h
  obtain ⟨-, rfl⟩ := Prod.mk.inj heq
  have hsome := (List.mem_filter.mp hr).2
  simp only [Bool.and_eq_true, Option.isSome_iff_exists] at hsome
  obtain ⟨⟨⟨old, rfl⟩, new, rfl⟩, -⟩ := hsome
  exact ⟨_, rfl⟩

theorem frameChangeRow_result {sorted : List CaptureFrame} {k : Int} {row : FrameChangeRow}
    (h : (k, row) ∈ frameChangeRows conv sorted) : ∃ r, row.result = some r := by
  obtain ⟨⟨ts, prev, curr⟩, hr, heq⟩ := List.mem_map.mp h
  obtain ⟨-, rfl⟩ := Prod.mk.inj heq
  have hsome := (List.mem_filter.mp hr).2
  simp only [Bool.and_eq_true, Option.isSome_iff_exists] at hsome
  obtain ⟨⟨old, rfl⟩, -⟩ := hsome
  exact ⟨_, rfl⟩

theorem mirrorRow_result {mirrors sources : List CaptureFrame} {tolerance : Int32} {k : Int}
    {row : MirrorRow} (h : (k, row) ∈ mirrorRows conv mirrors sources tolerance) :
    ∃ r, row.result = some r := by
  obtain ⟨r, -, heq⟩ := List.mem_map.mp h
  obtain ⟨-, rfl⟩ := Prod.mk.inj heq
  exact ⟨_, rfl⟩

theorem gapRow_result {threshold : Float} {times : List Int} {k : Option Float} {row : GapRow}
    (h : (k, row) ∈ gapRows conv num threshold times) : ∃ r, row.result = some r := by
  obtain ⟨⟨prev, ts⟩, hr, heq⟩ := List.mem_map.mp h
  obtain ⟨-, rfl⟩ := Prod.mk.inj heq
  have hsome := (List.mem_filter.mp hr).2
  simp only [Bool.and_eq_true, Option.isSome_iff_exists] at hsome
  obtain ⟨⟨start, rfl⟩, -⟩ := hsome
  exact ⟨_, rfl⟩

theorem frequencyRow_bucket {bucketUs : Int64} {times : List Int} {rows : List FrequencyRow}
    (h : frequencyRows num bucketUs times = .ok rows) {row : FrequencyRow} (hrow : row ∈ rows) :
    ∃ b, row.bucket = some b := by
  obtain ⟨bucketed, hbucketed, h⟩ := bind_ok h
  obtain rfl := Except.ok.inj h
  obtain ⟨k, hk, rfl⟩ := List.mem_map.mp hrow
  rw [orderedKeys, List.mem_mergeSort, List.mem_dedup] at hk
  obtain ⟨⟨start, dt⟩, hmem, rfl⟩ := List.mem_map.mp hk
  -- an interval of the bucket, which the `WHERE` clause let through
  have hdt : ∃ v, dt = some v := by
    obtain ⟨⟨ts, dt'⟩, hinterval, hstart⟩ := (mem_iff_of_mapM_eq_ok hbucketed).mp hmem
    obtain ⟨start', -, hpair⟩ := bind_ok hstart
    obtain ⟨-, rfl⟩ := Prod.mk.inj (Except.ok.inj hpair)
    exact Option.isSome_iff_exists.mp (List.mem_filter.mp hinterval).2
  obtain ⟨v, rfl⟩ := hdt
  have hv : some v ∈ (group (·.1) bucketed start).map (·.2) :=
    List.mem_map.mpr ⟨(start, some v), mem_group.mpr ⟨hmem, rfl⟩, rfl⟩
  obtain ⟨⟨least, hmin⟩, ⟨greatest, hmax⟩, average, havg⟩ := exists_aggregates num ⟨v, hv⟩
  simp [FrequencyRow.bucket, hmin, hmax, havg]

/-! ### `mux_statistics` -/

/-- What `src` gives is long enough for its selector. -/
theorem muxSrc_long {mux : Int32} {f : FrameFilter} {limit : Nat} {src : List Bytes}
    (h : Limited (· ≤ ·) limit (muxSrc conv frames mux f) src) {data : Bytes} (hdata : data ∈ src) :
    mux.toInt < data.length := by
  obtain ⟨k, hk⟩ := h.mem hdata
  obtain ⟨row, hrow, heq⟩ := List.mem_map.mp hk
  obtain ⟨-, rfl⟩ := Prod.mk.inj heq
  simpa using (List.mem_filter.mp hrow).2

theorem exists_readBytes {row : MuxByteRow} {cases : MuxCases} (hmux : ∃ v, row.muxValue = some v)
    (hstats : ∃ stats, row.stats = some stats) : ∃ cases', readBytes cases row = some cases' := by
  obtain ⟨v, hv⟩ := hmux
  obtain ⟨stats, hstats⟩ := hstats
  simp only [readBytes, hv, hstats, Option.bind_eq_bind, Option.bind_some]
  split
  · exact ⟨_, rfl⟩
  · exact ⟨_, rfl⟩

theorem exists_readWords {row : MuxWordRow} {cases : MuxCases} (hmux : ∃ v, row.muxValue = some v)
    (hstart : ∃ b, row.startByte = some b)
    (hle : ∀ startByte endianness, ∃ stats, row.le.stats startByte endianness = some stats)
    (hbe : ∀ startByte endianness, ∃ stats, row.be.stats startByte endianness = some stats) :
    ∃ cases', readWords cases row = some cases' := by
  obtain ⟨v, hv⟩ := hmux
  obtain ⟨b, hb⟩ := hstart
  obtain ⟨le, hle⟩ := hle b.toUInt32.toUInt8 "le"
  obtain ⟨be, hbe⟩ := hbe b.toUInt32.toUInt8 "be"
  simp only [readWords, hv, hb, Option.bind_eq_bind, Option.bind_some]
  split
  · exact ⟨_, rfl⟩
  · simp [hle, hbe]

/-- The two byte orders of a word are NULL together. -/
theorem muxWord_orders {mux : Int32} {r : Bytes × Int32}
    {g : (Option Int32 × Int32) × Option Int32 × Option Int32}
    (h : muxWord mux r = .ok g) :
    getByteSafe r.1 mux = .ok g.1.1 ∧ (g.2.1.isSome → g.2.2.isSome) := by
  obtain ⟨muxValue, hmux, h⟩ := bind_ok h
  obtain ⟨byte, -, h⟩ := bind_ok h
  obtain ⟨next, -, h⟩ := bind_ok h
  obtain rfl := Except.ok.inj h
  refine ⟨hmux, ?_⟩
  cases byte <;> cases next <;> simp

theorem wordColumns_stats {column : List (Option Int32)} (h : 0 < sqlCount column)
    (startByte : UInt8) (endianness : String) :
    ∃ stats, (wordColumns num column).stats startByte endianness = some stats := by
  obtain ⟨⟨least, hmin⟩, ⟨greatest, hmax⟩, average, havg⟩ :=
    exists_aggregates num (exists_int_of_sqlCount h)
  simp [wordColumns, WordColumns.stats, hmin, hmax, havg]

section Mux

variable {mux startB endB : Int32} {src : List Bytes}
  (hsrc : ∀ data ∈ src, mux.toInt < data.length)
include hsrc

theorem muxCountRow_readable {rows : List MuxCountRow} (h : muxCountRows mux src = .ok rows)
    {row : MuxCountRow} (hrow : row ∈ rows) (acc : MuxCases × Nat) :
    ∃ acc', readCount acc row = some acc' := by
  obtain ⟨values, hvalues, h⟩ := bind_ok h
  obtain rfl := Except.ok.inj h
  obtain ⟨v, hv, rfl⟩ := List.mem_map.mp hrow
  rw [orderedKeys, List.mem_mergeSort, List.mem_dedup] at hv
  obtain ⟨data, hdata, hbyte⟩ := (mem_iff_of_mapM_eq_ok hvalues).mp hv
  obtain ⟨b, rfl⟩ := Option.isSome_iff_exists.mp
    ((getByteSafe_isSome hbyte).mpr (hsrc data hdata))
  exact ⟨_, rfl⟩

/-- The groups of `byte_query` and `word_query` have a selector. -/
theorem exists_muxValue {α : Type} {step : Nat}
    {compute : Bytes × Int32 → Except String ((Option Int32 × Int32) × α)}
    (hcompute : ∀ r g, compute r = .ok g → getByteSafe r.1 mux = .ok g.1.1)
    {joined : List ((Option Int32 × Int32) × α)}
    (h : (src.product (generateSeries startB endB step)).mapM compute = .ok joined)
    {k : Option Int32 × Int32} (hk : k ∈ orderedKeys muxKeyLe (joined.map (·.1))) :
    ∃ v, k.1 = some v := by
  rw [orderedKeys, List.mem_mergeSort, List.mem_dedup] at hk
  obtain ⟨g, hg, rfl⟩ := List.mem_map.mp hk
  obtain ⟨r, hr, hcomputed⟩ := (mem_iff_of_mapM_eq_ok h).mp hg
  have hdata : r.1 ∈ src := (List.mem_product.mp hr).1
  have hsome := (getByteSafe_isSome (hcompute r g hcomputed)).mpr (hsrc r.1 hdata)
  exact Option.isSome_iff_exists.mp hsome

theorem muxByteRow_readable {rows : List MuxByteRow}
    (h : muxByteRows num mux startB endB src = .ok rows) {row : MuxByteRow} (hrow : row ∈ rows)
    (cases : MuxCases) : ∃ cases', readBytes cases row = some cases' := by
  obtain ⟨joined, hjoined, h⟩ := bind_ok h
  obtain rfl := Except.ok.inj h
  obtain ⟨g, hg, rfl⟩ := List.mem_map.mp hrow
  obtain ⟨hg, hhaving⟩ := List.mem_filter.mp hg
  obtain ⟨k, hk, rfl⟩ := List.mem_map.mp hg
  have hcompute : ∀ r g, muxByte mux r = .ok g → getByteSafe r.1 mux = .ok g.1.1 := by
    intro r g hg
    obtain ⟨muxValue, hmux, hg⟩ := bind_ok hg
    obtain ⟨byte, -, hg⟩ := bind_ok hg
    obtain rfl := Except.ok.inj hg
    exact hmux
  obtain ⟨v, hv⟩ := exists_muxValue hsrc hcompute hjoined hk
  obtain ⟨⟨least, hmin⟩, ⟨greatest, hmax⟩, average, havg⟩ :=
    exists_aggregates num (exists_int_of_sqlCount (of_decide_eq_true hhaving))
  apply exists_readBytes ⟨v, hv⟩
  simp [MuxByteRow.stats, hmin, hmax, havg]

theorem muxWordRow_readable {rows : List MuxWordRow}
    (h : muxWordRows num mux startB endB src = .ok rows) {row : MuxWordRow} (hrow : row ∈ rows)
    (cases : MuxCases) : ∃ cases', readWords cases row = some cases' := by
  obtain ⟨joined, hjoined, h⟩ := bind_ok h
  obtain rfl := Except.ok.inj h
  obtain ⟨g, hg, rfl⟩ := List.mem_map.mp hrow
  obtain ⟨hg, hhaving⟩ := List.mem_filter.mp hg
  obtain ⟨k, hk, rfl⟩ := List.mem_map.mp hg
  obtain ⟨v, hv⟩ := exists_muxValue hsrc (fun r g hg => (muxWord_orders hg).1) hjoined hk
  have hle : 0 < sqlCount (((group (·.1) joined k).map (·.2)).map (·.1)) :=
    of_decide_eq_true hhaving
  have hbe : 0 < sqlCount (((group (·.1) joined k).map (·.2)).map (·.2)) := by
    rw [sqlCount_pos, List.map_map] at hle ⊢
    obtain ⟨word, hword⟩ := hle
    obtain ⟨g, hg, hsome⟩ := List.mem_map.mp hword
    obtain ⟨r, -, hr⟩ := (mem_iff_of_mapM_eq_ok hjoined).mp (mem_group.mp hg).1
    have hle' : g.2.1.isSome := Option.isSome_iff_exists.mpr ⟨word, hsome⟩
    obtain ⟨word', hword'⟩ := Option.isSome_iff_exists.mp ((muxWord_orders hr).2 hle')
    exact ⟨word', List.mem_map.mpr ⟨g, hg, hword'⟩⟩
  exact exists_readWords ⟨v, hv⟩ ⟨k.2, rfl⟩ (wordColumns_stats hle) (wordColumns_stats hbe)

end Mux

/-! ### `first_last` -/

theorem payloadRow_full {f : FrameFilter} {le : Int → Int → Prop} {rows : List PayloadRow}
    (h : Limited le 1 ((f.selected conv frames).map (payloadRow conv)) rows)
    (hne : f.selected conv frames ≠ []) :
    ∃ frame : CaptureFrame, rows[0]? = some (payloadRow conv frame).2 := by
  have hrows : rows ≠ [] := by
    rwa [ne_eq, h.eq_nil_iff Nat.one_pos, List.map_eq_nil_iff]
  obtain ⟨row, rest, rfl⟩ := List.exists_cons_of_ne_nil hrows
  obtain ⟨k, hk⟩ := h.mem List.mem_cons_self
  obtain ⟨frame, -, heq⟩ := List.mem_map.mp hk
  exact ⟨frame, by rw [heq]; rfl⟩

/-- The three statements of `first_last` may each see another content of the table.  It does not
panic unless the frames that the first one found are gone by the second. -/
theorem panicked_firstLast {client : QueryClient} {p : FirstLastParams}
    {before after later : List CaptureFrame}
    (hfirst : ∀ rows, client.query (.first p.filter) = .ok rows →
      (QueryStatement.first p.filter).Answers conv num before rows)
    (hlast : ∀ rows, client.query (.last p.filter) = .ok rows →
      (QueryStatement.last p.filter).Answers conv num after rows)
    (hcount : ∀ rows, client.query (.count p.filter) = .ok rows →
      (QueryStatement.count p.filter).Answers conv num later rows)
    (h : p.filter.selected conv before ≠ [] → p.filter.selected conv after ≠ []) :
    panicked (firstLast client p) = false := by
  apply panicked_bind
  intro firstRows hfirstRows
  have hfound : firstRows = [] ↔ p.filter.selected conv before = [] := by
    rw [Limited.eq_nil_iff (hfirst firstRows hfirstRows) Nat.one_pos, List.map_eq_nil_iff]
  by_cases hempty : firstRows = []
  · rw [hempty]
    rfl
  · have hbefore := mt hfound.mpr hempty
    rw [if_neg (by simpa using hempty)]
    apply panicked_bind
    intro lastRows hlastRows
    apply panicked_bind
    intro countRows hcountRows
    obtain ⟨first, hfirst⟩ := payloadRow_full (hfirst firstRows hfirstRows) hbefore
    obtain ⟨last, hlast⟩ := payloadRow_full (hlast lastRows hlastRows) (h hbefore)
    obtain rfl := hcount countRows hcountRows
    apply panicked_ok
    rw [hfirst, hlast]
    exact ⟨_, rfl⟩

/-! ### `pattern_search` -/

section Patterns

variable {p : PatternSearchParams} (hmask : p.pattern.length = p.patternMask.length)
include hmask

theorem exists_matchPositions {data : Bytes} (hdata : p.pattern.length ≤ data.length) :
    ∃ positions, p.matchPositions data = some positions := by
  apply exists_filterM_eq_some
  intro start hstart
  apply exists_allM_eq_some
  intro j hj
  rw [List.mem_range] at hstart hj
  have hpattern : p.pattern[j]? = some p.pattern[j] := List.getElem?_eq_getElem hj
  have hmaskByte : j < p.patternMask.length := by omega
  have hbyte : start + j < data.length := by omega
  simp [PatternSearchParams.byteMatches, hpattern, List.getElem?_eq_getElem hmaskByte,
    List.getElem?_eq_getElem hbyte]

/-- The loop gets through whatever rows the stream gives. -/
theorem exists_patternLoop (limit : Nat) {rows : List PatternRow}
    (hrows : ∀ row ∈ rows, ∃ frame, row = (patternRow conv frame).2) :
    ∀ rowsScanned results, ∃ out, patternLoop p limit rows rowsScanned results = some out := by
  induction rows with
  | nil => exact fun _ _ => ⟨_, rfl⟩
  | cons row rows ih =>
    intro rowsScanned results
    have ih := ih fun row hrow => hrows row (List.mem_cons_of_mem _ hrow)
    obtain ⟨frame, rfl⟩ := hrows row List.mem_cons_self
    by_cases hshort : frame.dataBytes.length < p.pattern.length
    · simpa [patternLoop, patternRow, hshort] using ih _ _
    obtain ⟨positions, hpositions⟩ := exists_matchPositions hmask (Nat.le_of_not_lt hshort)
    by_cases hempty : positions = []
    · simpa [patternLoop, patternRow, hshort, hpositions, hempty] using ih _ _
    by_cases hlimit : results.length + 1 ≥ limit
    · simp [patternLoop, patternRow, hshort, hpositions, hempty, hlimit]
    · simpa [patternLoop, patternRow, hshort, hpositions, hempty, hlimit] using ih _ _

end Patterns

/-! ### `distribution` -/

/-- A row of `distribution` cannot be read where a frame it selects ends before the byte. -/
theorem distribution_unreadable_iff {byteIndex : Int32} {f : FrameFilter}
    {rows : List DistributionRow}
    (h : (QueryStatement.distribution byteIndex f).Answers conv num frames rows) :
    rows.mapM DistributionRow.result = none ↔
      ∃ frame ∈ f.selected conv frames, (frame.dataBytes.length : Int) ≤ byteIndex.toInt := by
  obtain ⟨groups, hgroups, harranged⟩ := h
  obtain ⟨values, hvalues, hgroups⟩ := bind_ok hgroups
  obtain rfl := Except.ok.inj hgroups
  have hmem : ∀ row, row ∈ rows ↔ ∃ v ∈ values,
      row = { value := v, count := some (group id values v).length } := by
    intro row
    rw [harranged.perm.mem_iff]
    simp [groupBy, eq_comm]
  have hnull : (∃ row ∈ rows, row.result = none) ↔ none ∈ values := by
    constructor
    · rintro ⟨row, hrow, hnone⟩
      obtain ⟨v, hv, rfl⟩ := (hmem row).mp hrow
      cases v with
      | none => exact hv
      | some v => simp [DistributionRow.result] at hnone
    · intro hv
      exact ⟨_, (hmem _).mpr ⟨none, hv, rfl⟩, rfl⟩
  rw [mapM_eq_none_iff, hnull, mem_iff_of_mapM_eq_ok hvalues]
  simp only [getByteSafe_eq_none_iff]

end Statements

/-! ### All nine -/

section Never

variable (conv : Conversions) (num : Numerics) (frames : List CaptureFrame)

/-- No client of a database with this content makes a request panic. -/
def Query.NeverPanics (q : Query) : Prop :=
  ∀ client, Follows conv num frames client → q.panics client = false

variable {conv num frames}

section Follows

variable {client : QueryClient} (h : Follows conv num frames client)
include h

theorem byteChanges_never (p : ByteChangesParams) : panicked (byteChanges client p) = false := by
  apply panicked_bind
  intro rows hrows
  apply panicked_rows
  intro row hrow
  rcases h.query _ _ hrows with ⟨-, rfl⟩ | ⟨sorted, ordered, -, -, hlimited⟩
  · cases hrow
  · obtain ⟨k, hk⟩ := hlimited.mem hrow
    exact byteChangeRow_result hk

theorem frameChanges_never (p : FrameChangesParams) :
    panicked (frameChanges client p) = false := by
  apply panicked_bind
  intro rows hrows
  apply panicked_rows
  intro row hrow
  obtain ⟨sorted, -, hlimited⟩ := h.query _ _ hrows
  obtain ⟨k, hk⟩ := hlimited.mem hrow
  exact frameChangeRow_result hk

theorem mirrorValidation_never (p : MirrorValidationParams) :
    panicked (mirrorValidation client p) = false := by
  apply panicked_bind
  intro rows hrows
  apply panicked_rows
  intro row hrow
  obtain ⟨k, hk⟩ := Limited.mem (h.query _ _ hrows) hrow
  exact mirrorRow_result hk

theorem muxStatistics_never (p : MuxStatisticsParams) :
    panicked (muxStatistics client p) = false := by
  apply panicked_bind
  intro countRows hcounts
  apply panicked_bind
  intro byteRows hbytes
  obtain ⟨src, hsrc, hcountRows⟩ := h.query _ _ hcounts
  obtain ⟨src', hsrc', hbyteRows⟩ := h.query _ _ hbytes
  obtain ⟨⟨cases, total⟩, hcounted⟩ := exists_foldlM_eq_some (fun row hrow acc =>
    muxCountRow_readable (fun _ => muxSrc_long hsrc) hcountRows hrow acc) (∅, 0)
  obtain ⟨cases', hcases'⟩ := exists_foldlM_eq_some (fun row hrow acc =>
    muxByteRow_readable (fun _ => muxSrc_long hsrc') hbyteRows hrow acc) cases
  simp only [hcounted, hcases', Option.bind_eq_bind, Option.bind_some, Option.pure_def]
  split
  · apply panicked_bind
    intro wordRows hwords
    obtain ⟨src, hsrc, hwordRows⟩ := h.query _ _ hwords
    obtain ⟨cases'', hcases''⟩ := exists_foldlM_eq_some (fun row hrow acc =>
      muxWordRow_readable (fun _ => muxSrc_long hsrc) hwordRows hrow acc) cases'
    apply panicked_ok
    simp [hcases'']
  · exact panicked_ok ⟨_, rfl⟩

theorem frequency_never (p : FrequencyParams) : panicked (frequency client p) = false := by
  apply panicked_bind
  intro rows hrows
  obtain ⟨times, -, htimes⟩ := h.query _ _ hrows
  obtain ⟨buckets, hbuckets⟩ := exists_mapM_eq_some fun row hrow => frequencyRow_bucket htimes hrow
  apply panicked_ok
  simp [hbuckets]

theorem gapAnalysis_never (p : GapAnalysisParams) : panicked (gapAnalysis client p) = false := by
  apply panicked_bind
  intro rows hrows
  apply panicked_rows
  intro row hrow
  obtain ⟨times, -, hlimited⟩ := h.query _ _ hrows
  obtain ⟨k, hk⟩ := hlimited.mem hrow
  exact gapRow_result hk

theorem patternSearch_never (p : PatternSearchParams) :
    panicked (patternSearch client p) = false := by
  by_cases hmask : p.pattern.length = p.patternMask.length
  swap
  · rw [patternSearch, if_pos hmask]
    rfl
  by_cases hempty : p.pattern.isEmpty = true
  · rw [patternSearch, if_neg (not_not.mpr hmask), if_pos hempty]
    rfl
  rw [patternSearch, if_neg (not_not.mpr hmask), if_neg hempty]
  apply panicked_bind
  rintro ⟨rows, fail⟩ hquery
  obtain ⟨rest, hrest⟩ := h.queryRaw _ _ _ hquery
  have hrows : ∀ row ∈ rows, ∃ frame, row = (patternRow conv frame).2 := by
    intro row hrow
    have hmem := hrest.perm.mem_iff.mp (List.mem_append_left rest hrow)
    rw [List.map_map] at hmem
    obtain ⟨frame, -, rfl⟩ := List.mem_map.mp hmem
    exact ⟨frame, rfl⟩
  obtain ⟨⟨scanned, results, stopped⟩, hloop⟩ :=
    exists_patternLoop hmask (p.limit.getD 10000).toNat hrows 0 []
  simp only [hloop]
  split
  · rfl
  · rfl

/-- A `distribution` that was answered panics where a frame it selects ends before its byte. -/
theorem distribution_panics_iff {p : DistributionParams} {rows : List DistributionRow}
    (hrows : client.query (.distribution p.byteIndex.toInt32 p.filter) = .ok rows) :
    panicked (distribution client p) = true ↔ ∃ frame ∈ p.filter.selected conv frames,
      (frame.dataBytes.length : Int) ≤ p.byteIndex.toInt32.toInt := by
  rw [← distribution_unreadable_iff (h.query _ _ hrows), distribution, hrows]
  cases hread : rows.mapM DistributionRow.result with
  | none => simp [Except.mapError, hread, panicked]
  | some results => simp [Except.mapError, hread, panicked]

end Follows

/-- What a database with this content answers a `distribution` with. -/
def distributionClient (conv : Conversions) (frames : List CaptureFrame) : QueryClient where
  query
    | .distribution byteIndex f => match distributionRows conv frames byteIndex f with
      | .ok groups => .ok ((groups.mergeSort fun a b => decide (a.1 ≥ b.1)).map (·.2))
      | .error code =>
        .error { server := some { code, severity := "ERROR", message := "" }, text := "db error" }
    | _ => .error { server := none, text := "connection closed" }
  queryRaw _ := .error { server := none, text := "connection closed" }

theorem follows_distributionClient : Follows conv num frames (distributionClient conv frames) where
  query s rows h := by
    cases s with
    | distribution byteIndex f =>
      simp only [distributionClient] at h
      split at h
      · rename_i groups hgroups
        obtain rfl := Except.ok.inj h
        refine ⟨groups, hgroups, ?_⟩
        have harranged : Arranged (fun a b : Nat => decide (a ≥ b) = true) groups _ :=
          arranged_mergeSort (by simp; omega) (by simp; omega) groups
        simpa using harranged
      · cases h
    | _ => cases h
  queryRaw q rows fail h := by cases h

/-- A frame that ends before the byte makes the client above panic. -/
theorem distribution_panics {p : DistributionParams}
    (hshort : ∃ frame ∈ p.filter.selected conv frames,
      (frame.dataBytes.length : Int) ≤ p.byteIndex.toInt32.toInt) :
    ¬ (Query.distribution p).NeverPanics conv num frames := by
  intro hnever
  have hindex : 0 ≤ p.byteIndex.toInt32.toInt := by
    obtain ⟨frame, -, hle⟩ := hshort
    omega
  have hfollows : Follows conv num frames (distributionClient conv frames) :=
    follows_distributionClient
  obtain ⟨rows, hrows⟩ : ∃ rows, (distributionClient conv frames).query
      (.distribution p.byteIndex.toInt32 p.filter) = .ok rows := by
    have hbytes : ∀ row ∈ p.filter.selected conv frames,
        ∃ v, getByteSafe row.dataBytes p.byteIndex.toInt32 = .ok v :=
      fun row _ => exists_getByteSafe hindex
    obtain ⟨values, hvalues⟩ := exists_mapM_eq_ok hbytes
    simp only [distributionClient, distributionRows, hvalues]
    exact ⟨_, rfl⟩
  have hpanics := (distribution_panics_iff hfollows hrows).mpr hshort
  have hanswer := hnever _ hfollows
  rw [Query.panics, hpanics] at hanswer
  cases hanswer

/-- A request panics at nothing but a `distribution` that selects a frame which ends before its
byte. -/
theorem never_panics_iff (conv : Conversions) (num : Numerics) (frames : List CaptureFrame)
    (q : Query) :
    q.NeverPanics conv num frames ↔
      ∀ p, q = .distribution p → ∀ frame ∈ frames, p.filter.whereClause conv frame →
        p.byteIndex.toInt32.toInt < frame.dataBytes.length := by
  constructor
  · rintro hnever p rfl frame hframe hselected
    by_contra hshort
    have hfound : ∃ frame ∈ p.filter.selected conv frames,
        (frame.dataBytes.length : Int) ≤ p.byteIndex.toInt32.toInt :=
      ⟨frame, List.mem_filter.mpr ⟨hframe, hselected⟩, by omega⟩
    exact distribution_panics hfound hnever
  · intro h client hclient
    cases q with
    | byteChanges p => exact byteChanges_never hclient p
    | frameChanges p => exact frameChanges_never hclient p
    | mirrorValidation p => exact mirrorValidation_never hclient p
    | muxStatistics p => exact muxStatistics_never hclient p
    | firstLast p =>
      exact panicked_firstLast (hclient.query _) (hclient.query _) (hclient.query _) id
    | frequency p => exact frequency_never hclient p
    | distribution p =>
      cases hrows : client.query (.distribution p.byteIndex.toInt32 p.filter) with
      | error e =>
        rw [Query.panics, distribution, hrows]
        rfl
      | ok rows =>
        rw [Query.panics, ← Bool.not_eq_true, distribution_panics_iff hclient hrows]
        rintro ⟨frame, hframe, hshort⟩
        obtain ⟨hframe, hselected⟩ := List.mem_filter.mp hframe
        have hlong := h p rfl frame hframe hselected
        omega
    | gapAnalysis p => exact gapAnalysis_never hclient p
    | patternSearch p => exact patternSearch_never hclient p

end Never

/-- Numbers without PostgreSQL's rounding of a quotient. -/
def exactNumerics : Numerics where
  float8 q := Float.ofInt q.num / Float.ofNat q.den
  div := (· / ·)

/-- A frame of two bytes. -/
theorem shortFrame_dlc : (0 : Int16) ≤ 2 ∧ (2 : Int16) ≤ 256 := by decide

theorem shortFrame_columns : protocolColumnsCheck .can 0 none none none = true := rfl

def shortFrame : CaptureFrame :=
  { ts := 1700000000000000, protocol := .can, id := 0x100, dlc := 2, dataBytes := [0x11, 0x22]
    bus := 0, flags := 0, unit := none, func := none, crcValid := none
    dlc_check := shortFrame_dlc, columns_check := shortFrame_columns }

/-- The fifth byte of an archive that holds one short frame. -/
theorem short_frame_panics :
    ¬ (Query.distribution
        { filter := { frameId := 0x100, isExtended := none, startTime := none, endTime := none
                      protocol := none }
          byteIndex := 4 }).NeverPanics exactConversions exactNumerics [shortFrame] :=
  distribution_panics ⟨shortFrame, by decide, by decide⟩

end WireTap.Gateway
