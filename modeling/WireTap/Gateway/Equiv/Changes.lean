import WireTap.Gateway.Equiv.Queries

/-!
# What `byte_changes` and `frame_changes` say of a timeline

Where no two of the frames a filter selects have one time, there is one order to read them in.
`frame_changes` walks it from the payload `first_last` calls the first to the one it calls the last,
a change at a time and none left out (`frameChanges_chained`), and `byte_changes` gives what the same
changes do to one byte (`byteChanges_of_frameChanges`).
-/

namespace WireTap.Gateway

open Wire Lib

variable {conv : Conversions} {num : Numerics} {frames : List CaptureFrame} {client : QueryClient}

/-! ### One change -/

/-- What `frame_changes` gives for a frame and the one before it. -/
def CaptureFrame.change (conv : Conversions) (prev row : CaptureFrame) : Option FrameChangeResult :=
  if prev.dataBytes = row.dataBytes then none
  else some {
    timestampUs := conv.epochUs row.ts
    oldPayload := prev.dataBytes
    newPayload := row.dataBytes
    changedIndices := diffIndices prev.dataBytes row.dataBytes }

/-- What `byte_changes` gives for a frame and the one before it. -/
def CaptureFrame.byteChange (conv : Conversions) (i : Nat) (prev row : CaptureFrame) :
    Option ByteChangeResult := do
  let old ← prev.dataBytes[i]?
  let new ← row.dataBytes[i]?
  if old = new then none
  else some { timestampUs := conv.epochUs row.ts, oldValue := old, newValue := new }

/-- What is left of a change for one byte: both payloads have it, and it changed. -/
def FrameChangeResult.byteChange (i : Nat) (r : FrameChangeResult) : Option ByteChangeResult := do
  let oldValue ← r.oldPayload[i]?
  let newValue ← r.newPayload[i]?
  if i ∈ r.changedIndices then some { timestampUs := r.timestampUs, oldValue, newValue } else none

/-- A byte that a payload does not have counts as zero. -/
theorem mem_diffIndices {a b : Bytes} {i : Nat} :
    i ∈ diffIndices a b ↔ (a[i]?).getD 0 ≠ (b[i]?).getD 0 := by
  rw [diffIndices, List.mem_filter, List.mem_range, decide_eq_true_iff]
  constructor
  · intro h
    exact h.2
  · intro h
    refine ⟨?_, h⟩
    by_contra hi
    have ha : a[i]? = none := List.getElem?_eq_none (by omega)
    have hb : b[i]? = none := List.getElem?_eq_none (by omega)
    rw [ha, hb] at h
    exact h rfl

theorem byteChange_change (i : Nat) (prev row : CaptureFrame) :
    (prev.change conv row).bind (FrameChangeResult.byteChange i) = prev.byteChange conv i row := by
  have hbyte : ∀ (old new : UInt8), prev.dataBytes[i]? = some old → row.dataBytes[i]? = some new →
      (i ∈ diffIndices prev.dataBytes row.dataBytes ↔ old ≠ new) := by
    intro old new hold hnew
    rw [mem_diffIndices, hold, hnew]
    rfl
  unfold CaptureFrame.change CaptureFrame.byteChange
  by_cases hsame : prev.dataBytes = row.dataBytes
  · rw [if_pos hsame, hsame]
    cases row.dataBytes[i]? with
    | none => rfl
    | some b => exact (if_pos rfl).symm
  · rw [if_neg hsame]
    cases hold : prev.dataBytes[i]? with
    | none => simp [FrameChangeResult.byteChange, hold]
    | some old =>
      cases hnew : row.dataBytes[i]? with
      | none => simp [FrameChangeResult.byteChange, hold, hnew]
      | some new =>
        have hiff := hbyte old new hold hnew
        by_cases h : old = new <;> simp [FrameChangeResult.byteChange, hold, hnew, hiff, h]

/-! ### All of them -/

/-- The changes of a timeline. -/
def changesIn (conv : Conversions) (sorted : List CaptureFrame) : List FrameChangeResult :=
  (sorted.zip sorted.tail).filterMap fun r => r.1.change conv r.2

theorem byteChanges_changesIn (i : Nat) (sorted : List CaptureFrame) :
    (changesIn conv sorted).filterMap (FrameChangeResult.byteChange i) =
      (sorted.zip sorted.tail).filterMap fun r => r.1.byteChange conv i r.2 := by
  rw [changesIn, List.filterMap_filterMap]
  apply List.filterMap_congr
  intro r _
  exact byteChange_change i r.1 r.2

theorem map_frameChangeRows (sorted : List CaptureFrame) :
    (frameChangeRows conv sorted).map (fun r => r.2.result) = (changesIn conv sorted).map some := by
  rw [frameChangeRows, ← List.filterMap_eq_map', List.filterMap_map, List.filterMap_filter,
    List.filterMap_map, filterMap_lag, changesIn, List.map_filterMap]
  · apply List.filterMap_congr
    intro r _
    by_cases h : r.1.dataBytes = r.2.dataBytes <;>
      simp [CaptureFrame.change, FrameChangeRow.result, h]
  · intro row
    rfl

/-- From one payload to another, each change from the payload that the one before it came to. -/
def Chained : Bytes → List FrameChangeResult → Bytes → Prop
  | first, [], last => first = last
  | first, r :: rs, last =>
    r.oldPayload = first ∧ r.newPayload ≠ first ∧ Chained r.newPayload rs last

theorem chained_changesIn (rows : List CaptureFrame) : ∀ (first last : CaptureFrame),
    (first :: rows).getLast? = some last →
    Chained first.dataBytes (changesIn conv (first :: rows)) last.dataBytes := by
  induction rows with
  | nil =>
    intro first last hlast
    have heq : first = last := Option.some.inj hlast
    rw [heq]
    rfl
  | cons row rows ih =>
    intro first last hlast
    rw [List.getLast?_cons_cons] at hlast
    have hrest := ih row last hlast
    have hcons : changesIn conv (first :: row :: rows) =
        (first.change conv row).toList ++ changesIn conv (row :: rows) := by
      show List.filterMap _ ((first, row) :: ((row :: rows).zip rows)) = _
      rw [List.filterMap_cons]
      cases first.change conv row <;> rfl
    rw [hcons, CaptureFrame.change]
    by_cases hsame : first.dataBytes = row.dataBytes
    · rw [if_pos hsame, hsame]
      exact hrest
    · rw [if_neg hsame]
      exact ⟨rfl, fun h => hsame h.symm, hrest⟩

theorem length_changesIn (conv : Conversions) (sorted : List CaptureFrame) :
    (changesIn conv sorted).length ≤ sorted.length - 1 := by
  have hzip : (sorted.zip sorted.tail).length ≤ sorted.length - 1 := by
    rw [List.length_zip, List.length_tail]
    omega
  exact (List.length_filterMap_le _ _).trans hzip

theorem changedIndices_of_mem {sorted : List CaptureFrame} {r : FrameChangeResult}
    (h : r ∈ changesIn conv sorted) : r.changedIndices = diffIndices r.oldPayload r.newPayload := by
  obtain ⟨pair, -, hpair⟩ := List.mem_filterMap.mp h
  unfold CaptureFrame.change at hpair
  split at hpair
  · cases hpair
  · rw [← Option.some.inj hpair]

/-! ### Their times -/

theorem sorted_of_arranged {rows sorted : List CaptureFrame}
    (h : Arranged (· ≤ ·) (rows.map fun row => (row.ts, row)) sorted) :
    sorted.Perm rows ∧ sorted.Pairwise fun a b => a.ts ≤ b.ts := by
  have hmap : (rows.map fun row => (row.ts, row)).map (·.2) = rows := by
    rw [List.map_map]
    exact List.map_id rows
  have hperm := h.perm
  rw [hmap] at hperm
  obtain ⟨keyed, hkeyed, hpairwise, rfl⟩ := h
  refine ⟨hperm, ?_⟩
  rw [List.pairwise_map]
  refine hpairwise.imp_of_mem fun {a b} ha hb hab => ?_
  have hts : ∀ r ∈ keyed, r.1 = r.2.ts := by
    intro r hr
    obtain ⟨row, -, hrow⟩ := List.mem_map.mp (hkeyed.subset hr)
    rw [← hrow]
  rw [← hts a ha, ← hts b hb]
  exact hab

/-- The frames the filter selects, if no two of them have one time. -/
def FrameFilter.Distinct (conv : Conversions) (frames : List CaptureFrame) (f : FrameFilter) :
    Prop :=
  ((f.selected conv frames).map (·.ts)).Nodup

theorem FrameFilter.Distinct.keys {f : FrameFilter} (h : f.Distinct conv frames) :
    (((f.selected conv frames).map fun row => (row.ts, row)).map (·.1)).Nodup := by
  rw [List.map_map]
  exact h

instance (f : FrameFilter) : Decidable (f.Distinct conv frames) :=
  inferInstanceAs (Decidable (List.Nodup _))

theorem FrameFilter.exists_arranged (conv : Conversions) (frames : List CaptureFrame)
    (f : FrameFilter) : ∃ sorted,
      Arranged (· ≤ ·) ((f.selected conv frames).map fun row => (row.ts, row)) sorted := by
  have hsorted : Arranged (fun a b : Int => decide (a ≤ b) = true)
      ((f.selected conv frames).map fun row => (row.ts, row)) _ :=
    arranged_mergeSort (by simp; omega) (by simp; omega) _
  simp only [decide_eq_true_iff] at hsorted
  exact ⟨_, hsorted⟩

/-- What a statement shows of a timeline is in order where it is shown frame by frame. -/
theorem take_of_limited {f : FrameFilter} {ρ : Type} {keyed : List (Int × ρ)} {rows : List ρ}
    {n : Nat} {sorted : List CaptureFrame} (hdistinct : f.Distinct conv frames)
    (hsorted : Arranged (· ≤ ·) ((f.selected conv frames).map fun row => (row.ts, row)) sorted)
    (hkeys : (keyed.map (·.1)).Sublist (sorted.map (·.ts)))
    (h : Limited (· ≤ ·) n keyed rows) : rows = (keyed.map (·.2)).take n := by
  obtain ⟨hperm, hpairwise⟩ := sorted_of_arranged hsorted
  have hnodup : (sorted.map (·.ts)).Nodup := (hperm.map _).nodup_iff.mpr hdistinct
  refine h.eq_take (fun a b => le_antisymm) (hnodup.sublist hkeys) ?_
  have htimes : (sorted.map (·.ts)).Pairwise (· ≤ ·) := by
    rw [List.pairwise_map]
    exact hpairwise
  have hpairs := htimes.sublist hkeys
  rw [List.pairwise_map] at hpairs
  exact hpairs

theorem keys_frameChangeRows (sorted : List CaptureFrame) :
    ((frameChangeRows conv sorted).map (·.1)).Sublist (sorted.map (·.ts)) := by
  have hall : ((lag sorted).map fun r => (r.2.ts, r.1.map (·.dataBytes), r.2.dataBytes)).map (·.1) =
      sorted.map (·.ts) := by
    rw [List.map_map]
    show (lag sorted).map ((·.ts) ∘ (·.2)) = _
    rw [← List.map_map, map_snd_lag]
  rw [frameChangeRows, List.map_map, ← hall]
  exact List.filter_sublist.map _

/-! ### Bytes -/

/-- A byte as `get_byte_safe` gives it. -/
def sqlByte (b : UInt8) : Int32 := b.toUInt32.toInt32

theorem sqlByte_toUInt8 (b : UInt8) : (sqlByte b).toUInt32.toUInt8 = b := by
  rw [sqlByte, UInt32.toUInt32_toInt32, UInt8.toUInt8_toUInt32]

theorem sqlByte_injective {a b : UInt8} : sqlByte a = sqlByte b ↔ a = b := by
  constructor
  · intro h
    rw [← sqlByte_toUInt8 a, h, sqlByte_toUInt8]
  · intro h
    rw [h]

/-- Where `get_byte_safe` does not fail, its index is no negative one. -/
theorem getByteSafe_eq {p : Bytes} {i : UInt32} {v : Option Int32}
    (h : getByteSafe p i.toInt32 = .ok v) : v = (p[i.toNat]?).map sqlByte := by
  have htoInt : i.toInt32.toInt =
      if 2 * i.toNat < 2 ^ 32 then (i.toNat : Int) else i.toNat - 2 ^ 32 :=
    BitVec.toInt_eq_toNat_cond i.toBitVec
  have hbound : i.toNat < 2 ^ 32 := i.toNat_lt
  unfold getByteSafe at h
  by_cases hlength : (p.length : Int) > i.toInt32.toInt
  · rw [if_pos hlength] at h
    obtain ⟨b, hb, h⟩ := bind_ok h
    have hv : some b = v := Except.ok.inj h
    unfold getByte at hb
    by_cases hindex : 0 ≤ i.toInt32
    · have hnat : i.toInt32.toInt = i.toNat := by
        rw [Int32.le_iff_toInt_le] at hindex
        have hzero : (0 : Int32).toInt = 0 := rfl
        split at htoInt <;> omega
      have hi : i.toNat < p.length := by omega
      rw [if_pos hindex, hnat, Int.toNat_natCast, List.getElem?_eq_getElem hi] at hb
      rw [← hv, List.getElem?_eq_getElem hi, ← Except.ok.inj hb]
      rfl
    · rw [if_neg hindex] at hb
      cases hb
  · rw [if_neg hlength] at h
    have hv : none = v := Except.ok.inj h
    have hi : p.length ≤ i.toNat := by
      split at htoInt <;> omega
    rw [← hv, List.getElem?_eq_none hi]
    rfl

/-- A frame's byte, as `ordered_frames` has it. -/
def CaptureFrame.sqlByte (i : UInt32) (row : CaptureFrame) : Option Int32 :=
  (row.dataBytes[i.toNat]?).map Gateway.sqlByte

theorem orderedBytes_eq {i : UInt32} {sorted : List CaptureFrame}
    {ordered : List (Int × Option Int32 × Option Int32)}
    (h : orderedBytes i.toInt32 sorted = .ok ordered) :
    ordered = (lag sorted).map fun r => (r.2.ts, r.1.bind (·.sqlByte i), r.2.sqlByte i) := by
  obtain ⟨bytes, hbytes, h⟩ := bind_ok h
  have hbytes : bytes = sorted.map (·.sqlByte i) :=
    eq_map_of_mapM_eq_ok (fun row v hv => getByteSafe_eq hv) hbytes
  have hzip : sorted.zip (lag bytes) =
      (lag sorted).map fun r => (r.2, r.1.map (·.sqlByte i), r.2.sqlByte i) := by
    calc sorted.zip (lag bytes)
        = ((lag sorted).map (·.2)).zip
            ((lag sorted).map fun r => (r.1.map (·.sqlByte i), r.2.sqlByte i)) := by
          rw [map_snd_lag, hbytes, lag_map]
      _ = _ := List.zip_map'
  rw [← Except.ok.inj h, hzip, List.map_map]
  apply List.map_congr_left
  intro r _
  show (r.2.ts, (r.1.map (·.sqlByte i)).join, r.2.sqlByte i) = _
  cases r.1 <;> rfl

/-- The rows `byte_changes` reads of a timeline. -/
def byteRowsIn (conv : Conversions) (i : UInt32) (sorted : List CaptureFrame) :
    List (Int × ByteChangeRow) :=
  byteChangeRows conv
    ((lag sorted).map fun r => (r.2.ts, r.1.bind (·.sqlByte i), r.2.sqlByte i))

theorem map_byteChangeRows (conv : Conversions) (i : UInt32) (sorted : List CaptureFrame) :
    (byteRowsIn conv i sorted).map (fun r => r.2.result) =
      ((changesIn conv sorted).filterMap (FrameChangeResult.byteChange i.toNat)).map some := by
  rw [byteRowsIn, byteChangeRows, ← List.filterMap_eq_map', List.filterMap_map,
    List.filterMap_filter, List.filterMap_map, filterMap_lag, byteChanges_changesIn,
    List.map_filterMap]
  · apply List.filterMap_congr
    intro r _
    cases hold : r.1.dataBytes[i.toNat]? with
    | none => simp [CaptureFrame.byteChange, CaptureFrame.sqlByte, hold]
    | some old =>
      cases hnew : r.2.dataBytes[i.toNat]? with
      | none => simp [CaptureFrame.byteChange, CaptureFrame.sqlByte, hold, hnew]
      | some new =>
        by_cases h : old = new
        · simp [CaptureFrame.byteChange, CaptureFrame.sqlByte, hold, hnew, h]
        · simp [CaptureFrame.byteChange, CaptureFrame.sqlByte, hold, hnew, h, sqlByte_injective,
            ByteChangeRow.result, sqlByte_toUInt8]
  · intro row
    rfl

theorem keys_byteRowsIn (i : UInt32) (sorted : List CaptureFrame) :
    ((byteRowsIn conv i sorted).map (·.1)).Sublist (sorted.map (·.ts)) := by
  have hall : ((lag sorted).map fun r =>
      (r.2.ts, r.1.bind (·.sqlByte i), r.2.sqlByte i)).map (·.1) = sorted.map (·.ts) := by
    rw [List.map_map]
    show (lag sorted).map ((·.ts) ∘ (·.2)) = _
    rw [← List.map_map, map_snd_lag]
  rw [byteRowsIn, byteChangeRows, List.map_map, ← hall]
  exact List.filter_sublist.map _

/-! ### The queries -/

/-- A query that reads its results off its rows one by one. -/
theorem rows_of_ok {ρ β : Type} {x : Except PgError (List ρ)} {what : String} {f : ρ → Option β}
    {answer : QueryResult (List β)}
    (h : (do
      let rows ← x.mapError (failed what)
      return (rows.mapM f).map QueryResult.ofList) = Except.ok (some answer)) :
    ∃ rows, x = .ok rows ∧ rows.map f = answer.results.map some := by
  obtain ⟨rows, hrows, h⟩ := bind_ok h
  obtain ⟨results, hresults, hanswer⟩ := Option.map_eq_some_iff.mp (Except.ok.inj h)
  refine ⟨rows, eq_ok_of_mapError hrows, ?_⟩
  rw [map_eq_of_mapM_eq_some hresults, ← hanswer]
  rfl

/-- A stream that ends without an error has given every row. -/
def QueryClient.StreamsWhole (conv : Conversions) (frames : List CaptureFrame)
    (client : QueryClient) : Prop :=
  ∀ q rows, client.queryRaw q = .ok (rows, none) → q.Answers conv frames rows

section Queries

variable (hfollows : Follows conv num frames client) {f : FrameFilter}
  (hdistinct : f.Distinct conv frames) {sorted : List CaptureFrame}
  (hsorted : Arranged (· ≤ ·) ((f.selected conv frames).map fun row => (row.ts, row)) sorted)
include hfollows hdistinct hsorted

theorem frameChanges_ok {limit : Option UInt32} {answer : QueryResult (List FrameChangeResult)}
    (h : frameChanges client ⟨f, limit⟩ = .ok (some answer)) :
    answer.results = (changesIn conv sorted).take (limit.getD 10000).toNat := by
  obtain ⟨rows, hrows, hresults⟩ := rows_of_ok h
  obtain ⟨sorted', hsorted', hlimited⟩ := hfollows.query _ _ hrows
  have hsame : sorted' = sorted :=
    Arranged.unique (fun a b => le_antisymm) hdistinct.keys hsorted' hsorted
  rw [hsame] at hlimited
  have htake := take_of_limited hdistinct hsorted (keys_frameChangeRows sorted) hlimited
  have hmap : (changesIn conv sorted).map some =
      ((frameChangeRows conv sorted).map (·.2)).map FrameChangeRow.result := by
    rw [List.map_map]
    exact (map_frameChangeRows sorted).symm
  apply List.map_injective_iff.mpr (Option.some_injective _)
  rw [← hresults, List.map_take, hmap, htake, List.map_take]

theorem byteChanges_ok {i : UInt32} {limit : Option UInt32}
    {answer : QueryResult (List ByteChangeResult)}
    (h : byteChanges client ⟨f, i, limit⟩ = .ok (some answer)) :
    answer.results = ((changesIn conv sorted).filterMap
      (FrameChangeResult.byteChange i.toNat)).take (limit.getD 10000).toNat := by
  obtain ⟨rows, hrows, hresults⟩ := rows_of_ok h
  apply List.map_injective_iff.mpr (Option.some_injective _)
  rw [← hresults, List.map_take]
  have hanswers := hfollows.query _ _ hrows
  rcases hanswers with ⟨hlimit, hnone⟩ | ⟨sorted', ordered, hsorted', hordered, hlimited⟩
  · rw [hnone, hlimit, List.take_zero]
    rfl
  · have hsame : sorted' = sorted :=
      Arranged.unique (fun a b => le_antisymm) hdistinct.keys hsorted' hsorted
    rw [hsame] at hordered
    rw [orderedBytes_eq hordered] at hlimited
    have htake := take_of_limited hdistinct hsorted (keys_byteRowsIn i sorted) hlimited
    have hmap := map_byteChangeRows conv i sorted
    rw [← hmap, htake, List.map_take, List.map_map]
    rfl

theorem firstLast_ok {answer : QueryResult FirstLastResult}
    (h : firstLast client ⟨f⟩ = .ok (some answer)) :
    ∃ first last : CaptureFrame, sorted.head? = some first ∧ sorted.getLast? = some last ∧
      answer.results.firstPayload = first.dataBytes ∧
      answer.results.lastPayload = last.dataBytes ∧ answer.results.totalCount = sorted.length := by
  have hpayloads : Arranged (· ≤ ·) ((f.selected conv frames).map (payloadRow conv))
      (sorted.map fun row => (payloadRow conv row).2) := by
    have hmap := hsorted.map fun row => (payloadRow conv row).2
    rw [List.map_map] at hmap
    exact hmap
  have hkeys : (((f.selected conv frames).map (payloadRow conv)).map (·.1)).Nodup := by
    rw [List.map_map]
    exact hdistinct
  have hlength : (f.selected conv frames).length = sorted.length :=
    (sorted_of_arranged hsorted).1.length_eq.symm
  obtain ⟨firstRows, hfirst, h⟩ := bind_ok h
  have hfirstRows : firstRows = (sorted.map fun row => (payloadRow conv row).2).take 1 := by
    obtain ⟨all, hall, hrows⟩ := hfollows.query _ _ (eq_ok_of_mapError hfirst)
    rw [hrows, Arranged.unique (fun a b => le_antisymm) hkeys hall hpayloads]
  rw [hfirstRows] at h
  obtain _ | ⟨first, rest⟩ := sorted
  · cases h
  · obtain ⟨lastRows, hlast, h⟩ := bind_ok h
    obtain ⟨countRows, hcount, h⟩ := bind_ok h
    have hlastRows : lastRows =
        ((first :: rest).map fun row => (payloadRow conv row).2).reverse.take 1 := by
      obtain ⟨all, hall, hrows⟩ := hfollows.query _ _ (eq_ok_of_mapError hlast)
      rw [hrows,
        Arranged.unique (fun a b hab hba => le_antisymm hba hab) hkeys hall hpayloads.reverse]
    have hcountRows : countRows = [{ count := some (f.selected conv frames).length }] :=
      hfollows.query _ _ (eq_ok_of_mapError hcount)
    have hlastRow : lastRows[0]? =
        some (payloadRow conv ((first :: rest).getLast (List.cons_ne_nil first rest))).2 := by
      rw [hlastRows, List.getElem?_take_of_lt Nat.one_pos, ← List.head?_eq_getElem?,
        List.head?_reverse, List.getLast?_map, List.getLast?_eq_some_getLast (List.cons_ne_nil _ _)]
      rfl
    rw [hlastRow, hcountRows, hlength] at h
    have hanswer := Option.some.inj (Except.ok.inj h)
    rw [← hanswer]
    exact ⟨first, _, rfl, List.getLast?_eq_some_getLast _, rfl, rfl, rfl⟩

end Queries

/-! ### A database read in order -/

/-- What a database answers whose frames are stored in order. -/
def storedClient (conv : Conversions) (frames : List CaptureFrame) : QueryClient where
  query
    | .byteChanges byteIndex f limit => match orderedBytes byteIndex (f.selected conv frames) with
      | .ok ordered => .ok (((byteChangeRows conv ordered).map (·.2)).take limit)
      | .error code =>
        .error { server := some { code, severity := "ERROR", message := "" }, text := "db error" }
    | .frameChanges f limit =>
      .ok (((frameChangeRows conv (f.selected conv frames)).map (·.2)).take limit)
    | .first f => .ok ((((f.selected conv frames).map (payloadRow conv)).map (·.2)).take 1)
    | .last f => .ok ((((f.selected conv frames).map (payloadRow conv)).map (·.2)).reverse.take 1)
    | .count f => .ok [{ count := some (f.selected conv frames).length }]
    | _ => .error { server := none, text := "connection closed" }
  queryRaw q := .ok ((frames.filter fun row => row.protocol == q.protocol &&
    timeClause conv q.startTime q.endTime row.ts).map fun row => (patternRow conv row).2, none)

section Stored

variable (hstored : frames.Pairwise fun a b => a.ts ≤ b.ts)
include hstored

theorem arranged_filter {ρ : Type} (q : CaptureFrame → Bool) (f : CaptureFrame → ρ) :
    Arranged (· ≤ ·) ((frames.filter q).map fun row => (row.ts, f row))
      ((frames.filter q).map f) := by
  have hkeyed : ((frames.filter q).map fun row => (row.ts, f row)).Pairwise
      fun a b => a.1 ≤ b.1 := by
    rw [List.pairwise_map]
    exact hstored.filter q
  have harranged : Arranged (· ≤ ·) _ _ := Arranged.of_pairwise hkeyed
  rw [List.map_map] at harranged
  exact harranged

theorem streamsWhole_storedClient : (storedClient conv frames).StreamsWhole conv frames := by
  intro q rows h
  have hrows : _ = rows := congrArg (·.1) (Except.ok.inj h)
  rw [← hrows]
  exact arranged_filter hstored _ _

theorem follows_storedClient : Follows conv num frames (storedClient conv frames) where
  query s rows h := by
    have hsorted : ∀ f : FrameFilter, Arranged (· ≤ ·)
        ((f.selected conv frames).map fun row => (row.ts, row)) (f.selected conv frames) := by
      intro f
      have harranged := arranged_filter hstored (f.whereClause conv) id
      rw [List.map_id] at harranged
      exact harranged
    have hkeyed : ∀ (f : FrameFilter) {ρ : Type} {keyed : List (Int × ρ)},
        (keyed.map (·.1)).Sublist ((f.selected conv frames).map (·.ts)) →
        Arranged (· ≤ ·) keyed (keyed.map (·.2)) := by
      intro f ρ keyed hkeys
      have htimes : ((f.selected conv frames).map (·.ts)).Pairwise (· ≤ ·) := by
        rw [List.pairwise_map]
        exact hstored.filter _
      have hpairs := htimes.sublist hkeys
      rw [List.pairwise_map] at hpairs
      exact Arranged.of_pairwise hpairs
    have hpayloads : ∀ f : FrameFilter, Arranged (· ≤ ·)
        ((f.selected conv frames).map (payloadRow conv))
        (((f.selected conv frames).map (payloadRow conv)).map (·.2)) := by
      intro f
      apply hkeyed f
      rw [List.map_map]
      exact List.Sublist.refl _
    cases s with
    | byteChanges byteIndex f limit =>
      have hindex : byteIndex.toUInt32.toInt32 = byteIndex := Int32.toInt32_toUInt32 byteIndex
      simp only [storedClient] at h
      split at h
      · rename_i ordered hordered
        have hrows : _ = rows := Except.ok.inj h
        refine .inr ⟨_, ordered, hsorted f, hordered, _, ?_, hrows.symm⟩
        rw [← hindex] at hordered
        rw [orderedBytes_eq hordered]
        exact hkeyed f (keys_byteRowsIn byteIndex.toUInt32 _)
      · cases h
    | frameChanges f limit =>
      have hrows : _ = rows := Except.ok.inj h
      exact ⟨_, hsorted f, _, hkeyed f (keys_frameChangeRows _), hrows.symm⟩
    | first f =>
      have hrows : _ = rows := Except.ok.inj h
      exact ⟨_, hpayloads f, hrows.symm⟩
    | last f =>
      have hrows : _ = rows := Except.ok.inj h
      exact ⟨_, (hpayloads f).reverse, hrows.symm⟩
    | count f => exact (Except.ok.inj h).symm
    | _ => cases h
  queryRaw q rows fail h := by
    have hrows : _ = rows := congrArg (·.1) (Except.ok.inj h)
    refine ⟨[], ?_⟩
    rw [← hrows, List.append_nil]
    exact arranged_filter hstored _ _

end Stored

/-- Three frames of one id, each with another payload than the one before it. -/
def growingFrames : List CaptureFrame :=
  [(1700000000000000, [0x11, 0x22]), (1700000000250000, [0x11, 0x33]),
    (1700000000500000, [0x51, 0x33, 0x07])].map fun r =>
      { ts := r.1, protocol := .can, id := 0x100, dlc := 3, dataBytes := r.2, bus := 0, flags := 0
        unit := none, func := none, crcValid := none
        dlc_check := by decide, columns_check := by decide }

def growingFilter : FrameFilter := ⟨0x100, none, none, none, none⟩

theorem follows_growing : Follows exactConversions exactNumerics growingFrames
    (storedClient exactConversions growingFrames) := follows_storedClient (by decide)

def growingChanges : QueryResult (List FrameChangeResult) :=
  .ofList [⟨1700000000250000, [0x11, 0x22], [0x11, 0x33], [1]⟩,
    ⟨1700000000500000, [0x11, 0x33], [0x51, 0x33, 0x07], [0, 2]⟩]

theorem frameChanges_growing :
    frameChanges (storedClient exactConversions growingFrames) ⟨growingFilter, none⟩ =
      .ok (some growingChanges) := rfl

/-! ### One query against another -/

/-- `frame_changes` gives the changes of the selected frames in the order of their times, up to its
limit.  They lead from the first payload to the last one, change by change: in full if there are fewer
than there may be. -/
theorem frameChanges_chained (hfollows : Follows conv num frames client) {f : FrameFilter}
    (hdistinct : f.Distinct conv frames) {limit : Option UInt32}
    {changes : QueryResult (List FrameChangeResult)} {ends : QueryResult FirstLastResult}
    (hchanges : frameChanges client ⟨f, limit⟩ = .ok (some changes))
    (hends : firstLast client ⟨f⟩ = .ok (some ends)) :
    (∃ sorted : List CaptureFrame, sorted.Perm (f.selected conv frames) ∧
      sorted.Pairwise (fun a b => a.ts < b.ts) ∧
      changes.results = (changesIn conv sorted).take (limit.getD 10000).toNat) ∧
    (∃ rest,
      Chained ends.results.firstPayload (changes.results ++ rest) ends.results.lastPayload ∧
      (changes.results ++ rest).length < ends.results.totalCount ∧
      (changes.results.length < (limit.getD 10000).toNat → rest = [])) ∧
    ∀ r ∈ changes.results, ∀ i,
      i ∈ r.changedIndices ↔ (r.oldPayload[i]?).getD 0 ≠ (r.newPayload[i]?).getD 0 := by
  obtain ⟨sorted, hsorted⟩ := f.exists_arranged conv frames
  have hresults := frameChanges_ok hfollows hdistinct hsorted hchanges
  obtain ⟨hperm, hpairwise⟩ := sorted_of_arranged hsorted
  obtain ⟨first, last, hfirst, hlast, hfirstPayload, hlastPayload, hcount⟩ :=
    firstLast_ok hfollows hdistinct hsorted hends
  obtain ⟨rows, hrows⟩ : ∃ rows, sorted = first :: rows := List.head?_eq_some_iff.mp hfirst
  refine ⟨⟨sorted, hperm, ?_, hresults⟩, ?_, ?_⟩
  · have hnodup : (sorted.map (·.ts)).Nodup := (hperm.map _).nodup_iff.mpr hdistinct
    rw [List.Nodup, List.pairwise_map] at hnodup
    exact (hpairwise.and hnodup).imp fun h => lt_of_le_of_ne h.1 h.2
  · refine ⟨(changesIn conv sorted).drop (limit.getD 10000).toNat, ?_, ?_, ?_⟩
    · rw [hresults, List.take_append_drop, hfirstPayload, hlastPayload, hrows]
      rw [hrows] at hlast
      exact chained_changesIn rows first last hlast
    · rw [hresults, List.take_append_drop, hcount]
      have hlength := length_changesIn conv sorted
      have hpos : 0 < sorted.length := by
        rw [hrows]
        exact Nat.succ_pos _
      omega
    · intro hroom
      rw [hresults, List.length_take] at hroom
      exact List.drop_eq_nil_of_le (by omega)
  · intro r hr i
    rw [hresults] at hr
    rw [changedIndices_of_mem (List.mem_of_mem_take hr), mem_diffIndices]

theorem frameChanges_chained_growing :
    (∃ sorted : List CaptureFrame,
      sorted.Perm (growingFilter.selected exactConversions growingFrames) ∧
      growingChanges.results = (changesIn exactConversions sorted).take 10000) ∧
    ∃ rest, Chained [0x11, 0x22] (growingChanges.results ++ rest) [0x51, 0x33, 0x07] := by
  have hdistinct : growingFilter.Distinct exactConversions growingFrames := by decide
  have hends : firstLast (storedClient exactConversions growingFrames) ⟨growingFilter⟩ = .ok (some
      ⟨⟨1700000000000000, [0x11, 0x22], 1700000000500000, [0x51, 0x33, 0x07], 3⟩, ⟨3, 1⟩⟩) := rfl
  obtain ⟨⟨sorted, hperm, -, hresults⟩, ⟨rest, hchained, -, -⟩, -⟩ :=
    frameChanges_chained follows_growing hdistinct frameChanges_growing hends
  exact ⟨⟨sorted, hperm, hresults⟩, rest, hchained⟩

/-- `byte_changes` is what is left of `frame_changes` for one byte. -/
theorem byteChanges_of_frameChanges (hfollows : Follows conv num frames client) {f : FrameFilter}
    (hdistinct : f.Distinct conv frames) {i : UInt32} {limit limit' : Option UInt32}
    {changes : QueryResult (List FrameChangeResult)} {bytes : QueryResult (List ByteChangeResult)}
    (hchanges : frameChanges client ⟨f, limit⟩ = .ok (some changes))
    (hroom : changes.results.length < (limit.getD 10000).toNat)
    (hbytes : byteChanges client ⟨f, i, limit'⟩ = .ok (some bytes)) :
    bytes.results = (changes.results.filterMap
      (FrameChangeResult.byteChange i.toNat)).take (limit'.getD 10000).toNat := by
  obtain ⟨sorted, hsorted⟩ := f.exists_arranged conv frames
  have hresults := frameChanges_ok hfollows hdistinct hsorted hchanges
  rw [hresults, List.length_take] at hroom
  have hall : changes.results = changesIn conv sorted := by
    rw [hresults, List.take_of_length_le (by omega)]
  rw [byteChanges_ok hfollows hdistinct hsorted hbytes, hall]

theorem byteChanges_of_frameChanges_growing :
    [ByteChangeResult.mk 1700000000500000 0x11 0x51] =
      (growingChanges.results.filterMap (FrameChangeResult.byteChange 0)).take 10000 := by
  have hdistinct : growingFilter.Distinct exactConversions growingFrames := by decide
  have hbytes : byteChanges (storedClient exactConversions growingFrames) ⟨growingFilter, 0, none⟩ =
      .ok (some (.ofList [⟨1700000000500000, 0x11, 0x51⟩])) := rfl
  exact byteChanges_of_frameChanges follows_growing hdistinct frameChanges_growing (by decide)
    hbytes

end WireTap.Gateway
