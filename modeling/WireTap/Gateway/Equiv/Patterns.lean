import WireTap.Gateway.Equiv.Changes

/-!
# What `pattern_search` finds

The query reads its stream row by row and stops at its limit.  `patternSearch_finds`: what it gives
is the beginning of what looking at every frame gives, a frame being found at each place where the
pattern agrees with it under the mask; and the rows it counts are those it looked at.
-/

namespace WireTap.Gateway

open Wire Lib

variable {conv : Conversions} {num : Numerics} {frames : List CaptureFrame} {client : QueryClient}

/-! ### One frame -/

/-- What a mask leaves of a payload. -/
def masked (mask data : Bytes) : Bytes := List.zipWith (· &&& ·) data mask

/-- The pattern agrees under its mask with what a payload has from `start` on. -/
def PatternSearchParams.Agrees (p : PatternSearchParams) (data : Bytes) (start : Nat) : Prop :=
  start + p.pattern.length ≤ data.length ∧
    masked p.patternMask ((data.drop start).take p.pattern.length) = masked p.patternMask p.pattern

instance (p : PatternSearchParams) (data : Bytes) (start : Nat) : Decidable (p.Agrees data start) :=
  inferInstanceAs (Decidable (_ ∧ _))

/-- The places where the pattern agrees. -/
def PatternSearchParams.positionsIn (p : PatternSearchParams) (data : Bytes) : List Nat :=
  (List.range data.length).filter fun start => p.Agrees data start

/-- What is found in a frame. -/
def PatternSearchParams.found (conv : Conversions) (p : PatternSearchParams) (row : CaptureFrame) :
    Option PatternSearchResult :=
  if p.positionsIn row.dataBytes = [] then none
  else some {
    timestampUs := conv.epochUs row.ts
    frameId := row.id.toUInt32
    isExtended := row.extended
    payload := row.dataBytes
    matchPositions := p.positionsIn row.dataBytes }

section Positions

variable {p : PatternSearchParams} (hmask : p.pattern.length = p.patternMask.length)
include hmask

theorem allM_byteMatches {data : Bytes} {start : Nat} (h : start + p.pattern.length ≤ data.length) :
    (List.range p.pattern.length).allM (p.byteMatches data start) =
      some (decide (p.Agrees data start)) := by
  have hbyte : ∀ j ∈ List.range p.pattern.length, p.byteMatches data start j =
      some ((data.getD (start + j) 0) &&& (p.patternMask.getD j 0) ==
        (p.pattern.getD j 0) &&& (p.patternMask.getD j 0)) := by
    intro j hj
    rw [List.mem_range] at hj
    have hmaskByte : j < p.patternMask.length := by omega
    have hdata : start + j < data.length := by omega
    simp [PatternSearchParams.byteMatches, List.getElem?_eq_getElem hj,
      List.getElem?_eq_getElem hmaskByte, List.getElem?_eq_getElem hdata]
  rw [allM_eq_some hbyte, Option.some_inj, Bool.eq_iff_iff, List.all_eq_true, decide_eq_true_iff,
    PatternSearchParams.Agrees, and_iff_right h]
  have hlength : (masked p.patternMask ((data.drop start).take p.pattern.length)).length =
      (masked p.patternMask p.pattern).length := by
    rw [masked, masked, List.length_zipWith, List.length_zipWith, List.length_take,
      List.length_drop]
    omega
  constructor
  · intro hall
    refine List.ext_getElem hlength fun j hj hj' => ?_
    have hj'' : j < p.pattern.length := by
      rw [masked, List.length_zipWith] at hj'
      omega
    have hbytes := hall j (List.mem_range.mpr hj'')
    have hmaskByte : j < p.patternMask.length := by omega
    have hdata : start + j < data.length := by omega
    simpa [masked, List.getElem?_eq_getElem hj'', List.getElem?_eq_getElem hmaskByte,
      List.getElem?_eq_getElem hdata] using hbytes
  · intro hmasked j hj
    rw [List.mem_range] at hj
    have hmaskByte : j < p.patternMask.length := by omega
    have hdata : start + j < data.length := by omega
    have hbytes := congrArg (·[j]?) hmasked
    simpa [masked, List.getElem?_zipWith, hj, List.getElem?_eq_getElem hj,
      List.getElem?_eq_getElem hmaskByte, List.getElem?_eq_getElem hdata] using hbytes

theorem matchPositions_eq {data : Bytes} (hpattern : p.pattern ≠ [])
    (hdata : p.pattern.length ≤ data.length) :
    p.matchPositions data = some (p.positionsIn data) := by
  have hpos : 0 < p.pattern.length := List.length_pos_of_ne_nil hpattern
  have hagrees : ∀ start ∈ List.range (data.length - p.pattern.length + 1),
      (List.range p.pattern.length).allM (p.byteMatches data start) =
        some (decide (p.Agrees data start)) := by
    intro start hstart
    rw [List.mem_range] at hstart
    exact allM_byteMatches hmask (by omega)
  rw [PatternSearchParams.matchPositions, filterM_eq_some hagrees]
  -- no place after these has room for the pattern
  have hrange : List.range data.length = List.range (data.length - p.pattern.length + 1) ++
      (List.range (p.pattern.length - 1)).map (data.length - p.pattern.length + 1 + ·) := by
    rw [← List.range_add]
    congr 1
    omega
  have hrest : (((List.range (p.pattern.length - 1)).map
      (data.length - p.pattern.length + 1 + ·)).filter fun start => p.Agrees data start) = [] := by
    rw [List.filter_eq_nil_iff]
    intro start hstart
    obtain ⟨k, -, hk⟩ := List.mem_map.mp hstart
    rw [decide_eq_true_iff]
    rintro ⟨hroom, -⟩
    omega
  rw [PatternSearchParams.positionsIn, hrange, List.filter_append, hrest, List.append_nil]

/-! ### The loop -/

/-- One turn of the loop: a frame in which nothing is found is passed over. -/
theorem patternLoop_cons (conv : Conversions) (hpattern : p.pattern ≠ []) (limit : Nat)
    (row : CaptureFrame) (rows : List PatternRow) (scanned : Nat) (results : List PatternSearchResult) :
    patternLoop p limit ((patternRow conv row).2 :: rows) scanned results =
      match p.found conv row with
      | none => patternLoop p limit rows (scanned + 1) results
      | some r =>
        if limit ≤ results.length + 1 then some (scanned + 1, results ++ [r], true)
        else patternLoop p limit rows (scanned + 1) (results ++ [r]) := by
  by_cases hshort : row.dataBytes.length < p.pattern.length
  · have hnone : p.positionsIn row.dataBytes = [] := by
      rw [PatternSearchParams.positionsIn, List.filter_eq_nil_iff]
      intro start _
      rw [decide_eq_true_iff]
      rintro ⟨hroom, -⟩
      omega
    rw [PatternSearchParams.found, if_pos hnone]
    simp [patternLoop, patternRow, hshort]
  · have hpositions := matchPositions_eq hmask hpattern (Nat.le_of_not_lt hshort)
    by_cases hnone : p.positionsIn row.dataBytes = []
    · rw [PatternSearchParams.found, if_pos hnone]
      rw [hnone] at hpositions
      simp [patternLoop, patternRow, hshort, hpositions]
    · rw [PatternSearchParams.found, if_neg hnone]
      by_cases hlimit : limit ≤ results.length + 1
      · simp [patternLoop, patternRow, hshort, hpositions, hnone, hlimit]
      · simp [patternLoop, patternRow, hshort, hpositions, hnone, hlimit]

/-- The loop takes rows until it has as many results as it may have; it always has room for one. -/
theorem patternLoop_spec (conv : Conversions) (hpattern : p.pattern ≠ []) (limit : Nat)
    (rows : List CaptureFrame) : ∀ scanned results, results.length < max 1 limit →
    ∃ k stopped, patternLoop p limit (rows.map fun row => (patternRow conv row).2) scanned results =
        some (scanned + k, results ++ (rows.take k).filterMap (p.found conv), stopped) ∧
      k ≤ rows.length ∧
      (stopped = true →
        (results ++ (rows.take k).filterMap (p.found conv)).length = max 1 limit) ∧
      (stopped = false → k = rows.length ∧
        (results ++ (rows.take k).filterMap (p.found conv)).length < max 1 limit) := by
  induction rows with
  | nil =>
    intro scanned results hroom
    refine ⟨0, false, ?_, le_refl 0, nofun, fun _ => ⟨rfl, ?_⟩⟩
    · show some (scanned, results, false) = some (scanned + 0, results ++ [], false)
      rw [List.append_nil, Nat.add_zero]
    · show (results ++ []).length < max 1 limit
      rw [List.append_nil]
      exact hroom
  | cons row rows ih =>
    intro scanned results hroom
    have hcons := patternLoop_cons hmask conv hpattern limit row
      (rows.map fun row => (patternRow conv row).2) scanned results
    cases hfound : p.found conv row with
    | none =>
      obtain ⟨k, stopped, hloop, hk, hstop, hrest⟩ := ih (scanned + 1) results hroom
      have htake : ((row :: rows).take (k + 1)).filterMap (p.found conv) =
          (rows.take k).filterMap (p.found conv) := by
        rw [List.take_succ_cons, List.filterMap_cons_none hfound]
      refine ⟨k + 1, stopped, ?_, Nat.succ_le_succ hk, ?_, ?_⟩
      · rw [List.map_cons, hcons, hfound, htake]
        show patternLoop p limit _ (scanned + 1) results = _
        rw [hloop]
        congr 2
        omega
      · rw [htake]
        exact hstop
      · rw [htake]
        intro hstopped
        obtain ⟨hall, hlength⟩ := hrest hstopped
        exact ⟨congrArg Nat.succ hall, hlength⟩
    | some r =>
      have htake : ∀ k, results ++ ((row :: rows).take (k + 1)).filterMap (p.found conv) =
          (results ++ [r]) ++ (rows.take k).filterMap (p.found conv) := by
        intro k
        rw [List.take_succ_cons, List.filterMap_cons_some hfound, List.append_assoc]
        rfl
      by_cases hlimit : limit ≤ results.length + 1
      · have hlength : (results ++ [r]).length = max 1 limit := by
          rw [List.length_append, List.length_singleton]
          omega
        refine ⟨1, true, ?_, Nat.succ_le_succ (Nat.zero_le _), fun _ => ?_, nofun⟩
        · rw [List.map_cons, hcons, hfound, htake 0]
          show (if limit ≤ results.length + 1 then _ else _) = _
          rw [if_pos hlimit, List.take_zero, List.filterMap_nil, List.append_nil]
        · rw [htake 0, List.take_zero, List.filterMap_nil, List.append_nil]
          exact hlength
      · have hroom' : (results ++ [r]).length < max 1 limit := by
          rw [List.length_append, List.length_singleton]
          omega
        obtain ⟨k, stopped, hloop, hk, hstop, hrest⟩ := ih (scanned + 1) (results ++ [r]) hroom'
        refine ⟨k + 1, stopped, ?_, Nat.succ_le_succ hk, ?_, ?_⟩
        · rw [List.map_cons, hcons, hfound, htake k]
          show (if limit ≤ results.length + 1 then _ else _) = _
          rw [if_neg hlimit, hloop]
          congr 2
          omega
        · rw [htake k]
          exact hstop
        · rw [htake k]
          intro hstopped
          obtain ⟨hall, hlength⟩ := hrest hstopped
          exact ⟨congrArg Nat.succ hall, hlength⟩

end Positions

/-! ### The query -/

/-- The frames that the statement of `pattern_search` selects. -/
def PatternSearchParams.selected (conv : Conversions) (p : PatternSearchParams)
    (frames : List CaptureFrame) : List CaptureFrame :=
  frames.filter fun row =>
    row.protocol == p.protocol.getD defaultProtocol && timeClause conv p.startTime p.endTime row.ts

theorem patternSearch_ok {p : PatternSearchParams} {answer : QueryResult (List PatternSearchResult)}
    (h : patternSearch client p = .ok (some answer)) :
    p.pattern.length = p.patternMask.length ∧ p.pattern ≠ [] ∧
    ∃ rows fail stopped, client.queryRaw {
        protocol := p.protocol.getD defaultProtocol
        startTime := p.startTime
        endTime := p.endTime } = .ok (rows, fail) ∧
      patternLoop p (p.limit.getD 10000).toNat rows 0 [] =
        some (answer.stats.rowsScanned, answer.results, stopped) ∧
      (fail = none ∨ stopped = true) := by
  unfold patternSearch at h
  by_cases hmask : p.pattern.length = p.patternMask.length
  · by_cases hempty : p.pattern.isEmpty = true
    · rw [if_neg (not_not_intro hmask), if_pos hempty] at h
      cases h
    · rw [if_neg (not_not_intro hmask), if_neg hempty] at h
      have hpattern : p.pattern ≠ [] := by
        intro hnil
        rw [hnil] at hempty
        exact hempty rfl
      obtain ⟨⟨rows, fail⟩, hraw, h⟩ := bind_ok h
      refine ⟨hmask, hpattern, rows, fail, ?_⟩
      have hraw := eq_ok_of_mapError hraw
      cases hloop : patternLoop p (p.limit.getD 10000).toNat rows 0 [] with
      | none =>
        simp only [hloop] at h
        cases h
      | some out =>
        obtain ⟨scanned, results, stopped⟩ := out
        simp only [hloop] at h
        split at h
        · cases h
        · rename_i hends
          have hanswer := Option.some.inj (Except.ok.inj h)
          refine ⟨stopped, hraw, ?_, ?_⟩
          · rw [← hanswer]
          · cases fail with
            | none => exact .inl rfl
            | some e =>
              cases stopped with
              | true => exact .inr rfl
              | false => exact absurd rfl (hends e rfl)
  · rw [if_pos hmask] at h
    cases h

/-- `pattern_search` gives what the first of the frames it selects have of the pattern, one of them
at least if there is one, and counts the frames it looked at. -/
theorem patternSearch_finds (hfollows : Follows conv num frames client)
    (hwhole : client.StreamsWhole conv frames) {p : PatternSearchParams}
    {answer : QueryResult (List PatternSearchResult)}
    (h : patternSearch client p = .ok (some answer)) :
    ∃ sorted, Arranged (· ≤ ·) ((p.selected conv frames).map fun row => (row.ts, row)) sorted ∧
      answer.results =
        (sorted.filterMap (p.found conv)).take (max 1 (p.limit.getD 10000).toNat) ∧
      answer.results = (sorted.take answer.stats.rowsScanned).filterMap (p.found conv) ∧
      (answer.results.length < max 1 (p.limit.getD 10000).toNat →
        answer.stats.rowsScanned = sorted.length) := by
  obtain ⟨hmask, hpattern, rows, fail, stopped, hraw, hloop, hends⟩ := patternSearch_ok h
  have hstream : ∃ sorted,
      Arranged (· ≤ ·) ((p.selected conv frames).map fun row => (row.ts, row)) sorted ∧
        ∃ m ≤ sorted.length, rows = (sorted.take m).map (fun row => (patternRow conv row).2) ∧
          (fail = none → m = sorted.length) := by
    have hof : ∀ all, (PatternSelect.mk (p.protocol.getD defaultProtocol) p.startTime
          p.endTime).Answers conv frames all →
        ∃ sorted, Arranged (· ≤ ·) ((p.selected conv frames).map fun row => (row.ts, row)) sorted ∧
          all = sorted.map fun row => (patternRow conv row).2 := by
      intro all hall
      apply Arranged.of_map
      rw [List.map_map]
      exact hall
    cases fail with
    | none =>
      obtain ⟨sorted, hsorted, hrows⟩ := hof rows (hwhole _ _ hraw)
      refine ⟨sorted, hsorted, sorted.length, le_refl _, ?_, fun _ => rfl⟩
      rw [List.take_length, hrows]
    | some e =>
      obtain ⟨rest, hrest⟩ := hfollows.queryRaw _ _ _ hraw
      obtain ⟨sorted, hsorted, hrows⟩ := hof (rows ++ rest) hrest
      have hlength := congrArg List.length hrows
      rw [List.length_append, List.length_map] at hlength
      refine ⟨sorted, hsorted, rows.length, by omega, ?_, nofun⟩
      rw [List.map_take, ← hrows, List.take_left]
  obtain ⟨sorted, hsorted, m, hm, hrows, hall⟩ := hstream
  obtain ⟨k, stopped', hspec, hk, hstop, hrest⟩ := patternLoop_spec hmask conv hpattern
    (p.limit.getD 10000).toNat (sorted.take m) 0 [] (by rw [List.length_nil]; omega)
  rw [hrows, hspec, Nat.zero_add, List.nil_append] at hloop
  rw [List.nil_append] at hstop hrest
  rw [List.length_take] at hk
  have hscanned : k = answer.stats.rowsScanned := congrArg (·.1) (Option.some.inj hloop)
  have hresults : ((sorted.take m).take k).filterMap (p.found conv) = answer.results :=
    congrArg (·.2.1) (Option.some.inj hloop)
  have hstopped : stopped' = stopped := congrArg (·.2.2) (Option.some.inj hloop)
  have htake : (sorted.take m).take k = sorted.take k := by
    rw [List.take_take]
    congr 1
    omega
  rw [hresults] at hstop hrest
  rw [htake] at hresults
  have hout : answer.results.length = max 1 (p.limit.getD 10000).toNat ∨
      k = sorted.length ∧ answer.results.length < max 1 (p.limit.getD 10000).toNat := by
    cases hcase : stopped' with
    | true => exact .inl (hstop hcase)
    | false =>
      obtain ⟨hlast, hfew⟩ := hrest hcase
      have hfail : fail = none := by
        rcases hends with hnone | htrue
        · exact hnone
        · rw [← hstopped, hcase] at htrue
          cases htrue
      rw [hall hfail, List.take_length] at hlast
      exact .inr ⟨hlast, hfew⟩
  refine ⟨sorted, hsorted, ?_, ?_, ?_⟩
  · have hsplit : sorted.filterMap (p.found conv) =
        answer.results ++ (sorted.drop k).filterMap (p.found conv) := by
      rw [← hresults, ← List.filterMap_append, List.take_append_drop]
    rw [hsplit]
    rcases hout with hlength | ⟨hlast, hfew⟩
    · exact (List.take_left' hlength).symm
    · rw [hlast, List.drop_length, List.filterMap_nil, List.append_nil]
      exact (List.take_of_length_le (Nat.le_of_lt hfew)).symm
  · rw [← hscanned, hresults]
  · intro hfew
    rcases hout with hlength | ⟨hlast, -⟩
    · omega
    · rw [← hscanned, hlast]

/-- A byte whose low nibble is three, which two of the three frames have. -/
def nibblePattern : PatternSearchParams := ⟨[0x03], [0x0F], none, none, none, some 1⟩

theorem patternSearch_finds_nibble : ∃ sorted,
    Arranged (· ≤ ·) ((nibblePattern.selected exactConversions growingFrames).map
      fun row => (row.ts, row)) sorted ∧
    [PatternSearchResult.mk 1700000000250000 0x100 false [0x11, 0x33] [1]] =
      (sorted.filterMap (nibblePattern.found exactConversions)).take 1 := by
  have hsearch : patternSearch (storedClient exactConversions growingFrames) nibblePattern =
      .ok (some ⟨[⟨1700000000250000, 0x100, false, [0x11, 0x33], [1]⟩], ⟨2, 1⟩⟩) := rfl
  have hwhole : (storedClient exactConversions growingFrames).StreamsWhole exactConversions
      growingFrames := streamsWhole_storedClient (by decide)
  obtain ⟨sorted, hsorted, hresults, -, -⟩ := patternSearch_finds follows_growing hwhole hsearch
  exact ⟨sorted, hsorted, hresults⟩

end WireTap.Gateway
