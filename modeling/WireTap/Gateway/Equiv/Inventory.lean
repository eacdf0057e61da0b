import WireTap.Gateway.Equiv.Frames
import WireTap.Gateway.Inventory
import WireTap.Lib.Fallible

/-!
# The rollup against the frames

What `inventory` and `time_bounds` read from the hourly rollup, against what they read from the
frames.  A column of the rollup aggregated over the rows some keys select is the same aggregate over
the frames behind those rows (`count_hourly`, `extremum_hourly`), remote frames left out.  Both of
`inventory`'s statements leave them out, so they agree on every content.  `time_bounds` leaves them
out only through the rollup, so its two relations agree, and bracket what can be read, exactly where
no remote frame of the protocol comes before or after all of its other frames.
-/

namespace WireTap.Gateway

open Wire Lib

/-! ### Columns of the rollup -/

/-- The frames the rollup is made of. -/
def dataFrames (frames : List CaptureFrame) : List CaptureFrame := frames.filter (·.notRemote)

section Rollup

variable {frames : List CaptureFrame} {hourly : List HourlyRow}

/-- The rows of the rollup that some keys select are the rows of the groups with those keys. -/
theorem hourly_filter (h : hourly.Perm (captureFrameHourly frames)) (q : HourlyKey → Bool) :
    (hourly.filter fun r => q r.toHourlyKey).Perm
      (((groupBy hourlyKey (dataFrames frames)).filter fun g => q g.1).map
        fun g => hourlyRow g.1 g.2) := by
  have hfilter := h.filter fun r => q r.toHourlyKey
  rwa [captureFrameHourly, List.filter_map] at hfilter

theorem count_hourly (h : hourly.Perm (captureFrameHourly frames)) (q : HourlyKey → Bool) :
    ((hourly.filter fun r => q r.toHourlyKey).map (·.frameCount)).sum =
      ((dataFrames frames).filter fun r => q (hourlyKey r)).length := by
  rw [((hourly_filter h q).map _).sum_eq, List.map_map, ← sum_length_regroup]
  rfl

/-- A column whose every value is the extremum of its group. -/
theorem extremum_hourly {r : Int → Int → Prop} {best : List Int → Option Int}
    (hbest : Extremum r best) (h : hourly.Perm (captureFrameHourly frames))
    (q : HourlyKey → Bool) (column : HourlyRow → Option Int) (f : CaptureFrame → Int)
    (hcolumn : ∀ key group, column (hourlyRow key group) = best (group.map f)) :
    best (((hourly.filter fun r => q r.toHourlyKey).map column).filterMap id) =
      best (((dataFrames frames).filter fun r => q (hourlyKey r)).map f) := by
  rw [← hbest.regroup f hourlyKey (dataFrames frames) q]
  apply hbest.congr
  intro x
  have hmem := (((hourly_filter h q).map column).filterMap id).mem_iff (a := x)
  rw [hmem, List.map_map, List.filterMap_map]
  have hcongr : (id ∘ column ∘ fun g : HourlyKey × List CaptureFrame => hourlyRow g.1 g.2) =
      fun g => best (g.2.map f) := by
    funext g
    exact hcolumn g.1 g.2
  rw [← Function.comp_assoc, Function.comp_assoc, hcongr]

/-- The aggregates of a column without NULLs. -/
theorem filterMap_some (f : CaptureFrame → Int) (rows : List CaptureFrame) :
    (rows.map fun row => some (f row)).filterMap id = rows.map f := by
  rw [List.filterMap_map]
  exact congrFun (List.filterMap_eq_map (f := f)) rows

theorem firstTs_hourly (h : hourly.Perm (captureFrameHourly frames)) (q : HourlyKey → Bool) :
    sqlMin ((hourly.filter fun r => q r.toHourlyKey).map (·.firstTs)) =
      (((dataFrames frames).filter fun r => q (hourlyKey r)).map (·.ts)).min? := by
  refine extremum_hourly extremum_min? h q (·.firstTs) (·.ts) ?_
  intro key group
  show sqlMin _ = _
  rw [sqlMin, filterMap_some]

theorem lastTs_hourly (h : hourly.Perm (captureFrameHourly frames)) (q : HourlyKey → Bool) :
    sqlMax ((hourly.filter fun r => q r.toHourlyKey).map (·.lastTs)) =
      (((dataFrames frames).filter fun r => q (hourlyKey r)).map (·.ts)).max? := by
  refine extremum_hourly extremum_max? h q (·.lastTs) (·.ts) ?_
  intro key group
  show sqlMax _ = _
  rw [sqlMax, filterMap_some]

theorem maxDlc_hourly (h : hourly.Perm (captureFrameHourly frames)) (q : HourlyKey → Bool) :
    sqlMax ((hourly.filter fun r => q r.toHourlyKey).map (·.maxDlc)) =
      (((dataFrames frames).filter fun r => q (hourlyKey r)).map (·.dlc.toInt)).max? := by
  refine extremum_hourly extremum_max? h q (·.maxDlc) (·.dlc.toInt) ?_
  intro key group
  show sqlMax _ = _
  rw [sqlMax, filterMap_some]

/-! ### `inventory` -/

theorem idExtendedLe_iff {a b : Int32 × Bool} :
    idExtendedLe a b ↔ a.1.toInt < b.1.toInt ∨ a.1.toInt = b.1.toInt ∧ (a.2 → b.2) := by
  simp only [idExtendedLe, Bool.or_eq_true, Bool.and_eq_true, decide_eq_true_eq, beq_iff_eq,
    Bool.not_eq_true', Int32.toInt_inj]
  cases a.2 <;> simp

theorem idExtendedLe_trans (a b c : Int32 × Bool) (hab : idExtendedLe a b)
    (hbc : idExtendedLe b c) : idExtendedLe a c := by
  rw [idExtendedLe_iff] at *
  rcases hab with hab | ⟨hab, hab'⟩ <;> rcases hbc with hbc | ⟨hbc, hbc'⟩
  · exact .inl (by omega)
  · exact .inl (by omega)
  · exact .inl (by omega)
  · exact .inr ⟨by omega, fun h => hbc' (hab' h)⟩

theorem idExtendedLe_total (a b : Int32 × Bool) : idExtendedLe a b || idExtendedLe b a := by
  rw [Bool.or_eq_true, idExtendedLe_iff, idExtendedLe_iff]
  rcases lt_trichotomy a.1.toInt b.1.toInt with h | h | h
  · exact .inl (.inl h)
  · cases ha : a.2
    · exact .inl (.inr ⟨h, fun hf => absurd hf (by simp)⟩)
    · exact .inr (.inr ⟨h.symm, fun _ => rfl⟩)
  · exact .inr (.inl h)

theorem idExtendedLe_antisymm (a b : Int32 × Bool) (hab : idExtendedLe a b)
    (hba : idExtendedLe b a) : a = b := by
  rw [idExtendedLe_iff] at *
  rcases hab with hab | ⟨hab, hab'⟩ <;> rcases hba with hba | ⟨hba, hba'⟩
  · omega
  · omega
  · omega
  · exact Prod.ext (Int32.toInt_inj.mp hab) (Bool.eq_iff_iff.mpr ⟨hab', hba'⟩)

/-- The schema's `extended` and the query's are the same bit. -/
theorem hourlyKey_extended (row : CaptureFrame) : (hourlyKey row).extended = row.extended := by
  simp [hourlyKey, CaptureFrame.extended]

/-- The keys of one protocol's entries. -/
def selects (protocol : Wire.Protocol) (k : Int32 × Bool) (key : HourlyKey) : Bool :=
  decide ((key.id, key.extended) = k) && key.protocol == protocol

/-- The frames behind one entry, by way of the rollup or directly. -/
theorem dataFrames_selects (conv : Conversions) (protocol : Wire.Protocol) (k : Int32 × Bool) :
    (dataFrames frames).filter (fun r => selects protocol k (hourlyKey r)) =
      group (fun r : CaptureFrame => (r.id, r.extended))
        (frames.filter fun r => r.protocol == protocol && timeClause conv none none r.ts &&
          r.notRemote) k := by
  rw [group, dataFrames, List.filter_filter, List.filter_filter]
  apply List.filter_congr
  intro r _
  simp only [selects, hourlyKey_extended, timeClause, Option.all_none, Bool.and_true,
    Bool.and_assoc]
  rfl

/-- The rollup has an entry for exactly the ids the frames have. -/
theorem mem_keys_iff (conv : Conversions) (h : hourly.Perm (captureFrameHourly frames))
    (protocol : Wire.Protocol) (k : Int32 × Bool) :
    k ∈ (hourly.filter fun r => r.protocol == protocol).map (fun r => (r.id, r.extended)) ↔
      k ∈ (frames.filter fun r => r.protocol == protocol && timeClause conv none none r.ts &&
        r.notRemote).map fun r => (r.id, r.extended) := by
  have hraw : k ∈ (frames.filter fun r => r.protocol == protocol &&
      timeClause conv none none r.ts && r.notRemote).map (fun r => (r.id, r.extended)) ↔
        ∃ r ∈ dataFrames frames, selects protocol k (hourlyKey r) := by
    rw [List.mem_map]
    apply exists_congr
    intro r
    have hgroup := @mem_group CaptureFrame (Int32 × Bool) _ fun r => (r.id, r.extended)
    rw [← hgroup, ← dataFrames_selects, List.mem_filter]
  have hrollup : k ∈ (hourly.filter fun r => r.protocol == protocol).map
      (fun r => (r.id, r.extended)) ↔ ∃ g ∈ groupBy hourlyKey (dataFrames frames),
        selects protocol k g.1 := by
    simp only [List.mem_map, List.mem_filter, h.mem_iff, captureFrameHourly, selects,
      Bool.and_eq_true, decide_eq_true_eq]
    constructor
    · rintro ⟨_, ⟨⟨g, hg, rfl⟩, hproto⟩, hk⟩
      exact ⟨g, hg, hk, hproto⟩
    · rintro ⟨g, hg, hk, hproto⟩
      exact ⟨_, ⟨⟨g, hg, rfl⟩, hproto⟩, hk⟩
  rw [hrollup, hraw]
  constructor
  · rintro ⟨g, hg, hsel⟩
    obtain ⟨⟨r, hr, hkey⟩, -⟩ := mem_groupBy.mp hg
    exact ⟨r, hr, hkey ▸ hsel⟩
  · rintro ⟨r, hr, hsel⟩
    exact ⟨(hourlyKey r, group hourlyKey (dataFrames frames) (hourlyKey r)),
      mem_groupBy.mpr ⟨⟨r, hr, rfl⟩, rfl⟩, hsel⟩

/-- Both statements of `inventory` give the same rows. -/
theorem rows_rollup_eq_raw (conv : Conversions) (h : hourly.Perm (captureFrameHourly frames))
    (protocol : Wire.Protocol) :
    (InventoryStatement.rollup protocol).rows conv frames hourly =
      (InventoryStatement.raw protocol none none).rows conv frames hourly := by
  simp only [InventoryStatement.rows]
  rw [orderedKeys_congr idExtendedLe_trans idExtendedLe_total idExtendedLe_antisymm
    (mem_keys_iff conv h protocol)]
  apply List.map_congr_left
  intro k _
  have hgroup : group (fun r : HourlyRow => (r.id, r.extended))
      (hourly.filter fun r => r.protocol == protocol) k =
        hourly.filter fun r => selects protocol k r.toHourlyKey := by
    rw [group, List.filter_filter]
    rfl
  rw [hgroup, count_hourly h, firstTs_hourly h, lastTs_hourly h, maxDlc_hourly h,
    dataFrames_selects conv, sqlMin, sqlMax, sqlMax, filterMap_some, filterMap_some]

/-- The group of a key that was found has an extremum. -/
theorem exists_extremum {r : Int → Int → Prop} {best : List Int → Option Int}
    (hbest : Extremum r best) {key : CaptureFrame → Int32 × Bool} {rows : List CaptureFrame}
    {k : Int32 × Bool} (hk : k ∈ rows.map key) (f : CaptureFrame → Int) :
    ∃ m, best ((group key rows k).map f) = some m := by
  apply Option.ne_none_iff_exists'.mp
  rw [ne_eq, hbest.none_iff, List.map_eq_nil_iff]
  obtain ⟨r, hr, hkey⟩ := List.mem_map.mp hk
  exact List.ne_nil_of_mem (mem_group.mpr ⟨hr, hkey⟩)

/-- A row of a statement has no NULL, so that no entry is missing. -/
theorem entries_ne_none (conv : Conversions) (frames : List CaptureFrame) (hourly : List HourlyRow)
    (dlcToLen : UInt8 → Bool → Nat) (protocol : Wire.Protocol) :
    ∃ entries, ((InventoryStatement.raw protocol none none).rows conv frames hourly).mapM
      (InventoryRow.entry dlcToLen protocol) = some entries := by
  apply exists_mapM_eq_some
  intro row hrow
  obtain ⟨k, hk, rfl⟩ := List.mem_map.mp hrow
  rw [orderedKeys, List.mem_mergeSort, List.mem_dedup] at hk
  obtain ⟨first, hfirst⟩ := exists_extremum extremum_min? hk (·.ts)
  obtain ⟨last, hlast⟩ := exists_extremum extremum_max? hk (·.ts)
  obtain ⟨dlc, hdlc⟩ := exists_extremum extremum_max? hk (·.dlc.toInt)
  simp only [InventoryRow.entry, sqlMin, sqlMax, filterMap_some, hfirst, hlast, hdlc,
    Option.map_some, Option.bind_eq_bind, Option.bind_some, Option.pure_def]
  exact ⟨_, rfl⟩

/-- The relations of a database, answering the statements of `inventory`. -/
def inventoryClient (conv : Conversions) (frames : List CaptureFrame) (hourly : List HourlyRow) :
    InventoryStatement → Except PgError (List InventoryRow) :=
  fun s => .ok (s.rows conv frames hourly)

/-- The inventory of a whole archive is the same through the rollup and from the frames, and has all
its entries either way. -/
theorem inventory_rollup_eq_raw (conv : Conversions) (dlcToLen : UInt8 → Bool → Nat)
    (h : hourly.Perm (captureFrameHourly frames)) (protocol : Option Wire.Protocol) :
    ∃ entries,
      inventory dlcToLen true (inventoryClient conv frames hourly) none none protocol =
        .ok (some entries) ∧
      inventory dlcToLen false (inventoryClient conv frames hourly) none none protocol =
        .ok (some entries) := by
  obtain ⟨entries, hentries⟩ := entries_ne_none conv frames hourly dlcToLen
    (protocol.getD defaultProtocol)
  refine ⟨entries, ?_, ?_⟩
  · show Except.ok ((InventoryStatement.rows conv frames hourly (.rollup _)).mapM _) = _
    rw [rows_rollup_eq_raw conv h, hentries]
  · show Except.ok ((InventoryStatement.rows conv frames hourly (.raw _ none none)).mapM _) = _
    rw [hentries]

/-- `wslib_can::dlc_to_len`: the payload lengths of CAN FD, eight at most for classic CAN. -/
def canDlcToLen (dlc : UInt8) (fd : Bool) : Nat :=
  if fd then [0, 1, 2, 3, 4, 5, 6, 7, 8, 12, 16, 20, 24, 32, 48].getD dlc.toNat 64
  else min dlc.toNat 8

theorem inventory_rollup_tiedFrames :
    ∃ entries,
      inventory canDlcToLen true (inventoryClient exactConversions tiedFrames
        (captureFrameHourly tiedFrames)) none none none = .ok (some entries) ∧
      inventory canDlcToLen false (inventoryClient exactConversions tiedFrames
        (captureFrameHourly tiedFrames)) none none none = .ok (some entries) :=
  inventory_rollup_eq_raw exactConversions canDlcToLen (List.Perm.refl _) none

/-! ### `time_bounds` -/

/-- The relations of a database, answering the statement of `time_bounds`. -/
def boundsClient (conv : Conversions) (frames : List CaptureFrame) (hourly : List HourlyRow) :
    BoundsStatement → Except PgError (Option Int64 × Option Int64) :=
  fun s => .ok (s.bounds conv frames hourly)

/-- The bounds are the least and the greatest timestamp that was shown, and missing only where
nothing was. -/
structure Brackets (shown : List FrameBatchRow) (bounds : TimeBounds) : Prop where
  min : bounds.minTsUs.map (·.toInt) = (shown.map (·.tsUs.toInt)).min?
  max : bounds.maxTsUs.map (·.toInt) = (shown.map (·.tsUs.toInt)).max?
  none : bounds.minTsUs = none ∨ bounds.maxTsUs = none → shown = []

/-- Every remote frame of the protocol lies between two of its data frames. -/
def RemoteWithin (protocol : Wire.Protocol) (frames : List CaptureFrame) : Prop :=
  ∀ r ∈ frames, r.protocol = protocol → r.notRemote = false →
    (∃ a ∈ frames, a.protocol = protocol ∧ a.notRemote = true ∧ a.ts ≤ r.ts) ∧
    ∃ b ∈ frames, b.protocol = protocol ∧ b.notRemote = true ∧ r.ts ≤ b.ts

/-- The times of one protocol's frames. -/
def timesOf (protocol : Wire.Protocol) (frames : List CaptureFrame) : List Int :=
  (frames.filter fun r => r.protocol == protocol).map (·.ts)

theorem mem_timesOf {protocol : Wire.Protocol} {t : Int} :
    t ∈ timesOf protocol frames ↔ ∃ r ∈ frames, r.protocol = protocol ∧ r.ts = t := by
  simp [timesOf, and_assoc]

/-- Through the rollup, the bounds are those of the data frames. -/
theorem timeBounds_rollup (conv : Conversions) (h : hourly.Perm (captureFrameHourly frames))
    (protocol : Option Wire.Protocol) :
    timeBounds true (boundsClient conv frames hourly) protocol =
      .ok { minTsUs :=
              (timesOf (protocol.getD defaultProtocol) (dataFrames frames)).min?.map conv.epochUs
            maxTsUs :=
              (timesOf (protocol.getD defaultProtocol) (dataFrames frames)).max?.map
                conv.epochUs } := by
  have hmin := firstTs_hourly h fun k => k.protocol == protocol.getD defaultProtocol
  have hmax := lastTs_hourly h fun k => k.protocol == protocol.getD defaultProtocol
  show Except.ok (TimeBounds.mk (Option.map _ (sqlMin _)) (Option.map _ (sqlMax _))) = _
  rw [hmin, hmax]
  rfl

/-- From the frames, they are those of all of them. -/
theorem timeBounds_raw (conv : Conversions) (protocol : Option Wire.Protocol) :
    timeBounds false (boundsClient conv frames hourly) protocol =
      .ok { minTsUs := (timesOf (protocol.getD defaultProtocol) frames).min?.map conv.epochUs
            maxTsUs := (timesOf (protocol.getD defaultProtocol) frames).max?.map conv.epochUs } := by
  show Except.ok (TimeBounds.mk (Option.map _ (sqlMin _)) (Option.map _ (sqlMax _))) = _
  rw [sqlMin, sqlMax, filterMap_some]
  rfl

theorem timesOf_dataFrames_subset {protocol : Wire.Protocol} :
    ∀ t ∈ timesOf protocol (dataFrames frames), t ∈ timesOf protocol frames := by
  intro t ht
  obtain ⟨r, hr, hproto, hts⟩ := mem_timesOf.mp ht
  exact mem_timesOf.mpr ⟨r, List.mem_of_mem_filter hr, hproto, hts⟩

/-- Leaving the remote frames out changes neither bound exactly where each of them lies within the
others. -/
theorem remoteWithin_iff {protocol : Wire.Protocol} :
    RemoteWithin protocol frames ↔
      (timesOf protocol (dataFrames frames)).min? = (timesOf protocol frames).min? ∧
      (timesOf protocol (dataFrames frames)).max? = (timesOf protocol frames).max? := by
  rw [extremum_min?.eq_iff_of_subset timesOf_dataFrames_subset,
    extremum_max?.eq_iff_of_subset timesOf_dataFrames_subset]
  have hdata : ∀ {r}, r ∈ dataFrames frames ↔ r ∈ frames ∧ r.notRemote = true := by
    intro r
    simp [dataFrames]
  constructor
  · intro hwithin
    constructor <;> intro t ht <;> obtain ⟨r, hr, hproto, rfl⟩ := mem_timesOf.mp ht
    · cases hremote : r.notRemote with
      | true => exact ⟨r.ts, mem_timesOf.mpr ⟨r, hdata.mpr ⟨hr, hremote⟩, hproto, rfl⟩, le_refl _⟩
      | false =>
        obtain ⟨⟨a, ha, hap, haremote, hle⟩, -⟩ := hwithin r hr hproto hremote
        exact ⟨a.ts, mem_timesOf.mpr ⟨a, hdata.mpr ⟨ha, haremote⟩, hap, rfl⟩, hle⟩
    · cases hremote : r.notRemote with
      | true => exact ⟨r.ts, mem_timesOf.mpr ⟨r, hdata.mpr ⟨hr, hremote⟩, hproto, rfl⟩, le_refl _⟩
      | false =>
        obtain ⟨-, b, hb, hbp, hbremote, hle⟩ := hwithin r hr hproto hremote
        exact ⟨b.ts, mem_timesOf.mpr ⟨b, hdata.mpr ⟨hb, hbremote⟩, hbp, rfl⟩, hle⟩
  · rintro ⟨hmin, hmax⟩ r hr hproto -
    have hts := mem_timesOf.mpr ⟨r, hr, hproto, rfl⟩
    obtain ⟨_, hat, hle⟩ := hmin r.ts hts
    obtain ⟨_, hbt, hge⟩ := hmax r.ts hts
    obtain ⟨a, ha, hap, rfl⟩ := mem_timesOf.mp hat
    obtain ⟨b, hb, hbp, rfl⟩ := mem_timesOf.mp hbt
    exact ⟨⟨a, (hdata.mp ha).1, hap, (hdata.mp ha).2, hle⟩,
      b, (hdata.mp hb).1, hbp, (hdata.mp hb).2, hge⟩

/-- Without a window, what matches is the protocol's frames. -/
theorem map_matching (conv : Conversions) (protocol : Option Wire.Protocol) :
    (matching conv none none protocol frames).map (·.ts) =
      timesOf (protocol.getD defaultProtocol) frames := by
  rw [matching, timesOf]
  congr 1
  apply List.filter_congr
  intro r _
  simp [timeClause]

/-- A bound that survives the conversions reads as itself. -/
theorem map_epochUs {conv : Conversions} {protocol : Option Wire.Protocol}
    (hsurvive : Survives conv (matching conv none none protocol frames)) (bound : Option Int)
    (hmem : ∀ t ∈ bound, t ∈ timesOf (protocol.getD defaultProtocol) frames) :
    (bound.map conv.epochUs).map (·.toInt) = bound := by
  match bound with
  | .none => rfl
  | .some t =>
    have ht := hmem t rfl
    rw [← map_matching conv, List.mem_map] at ht
    obtain ⟨r, hr, rfl⟩ := ht
    exact congrArg some (hsurvive.out r hr)

/-- `time_bounds` brackets exactly what paging shows, and the same through the rollup as from the
frames, if and only if every remote frame of the protocol lies within its data frames. -/
theorem timeBounds_brackets_iff {conv : Conversions} {clients : Nat → Client}
    {protocol : Option Wire.Protocol} {limits : Nat → UInt32}
    (h : hourly.Perm (captureFrameHourly frames))
    (hsurvive : Survives conv (matching conv none none protocol frames))
    (hties : TiesFit (matching conv none none protocol frames))
    (hserves : Serves conv clients none none protocol frames)
    (hlimits : ∀ k, 1 ≤ (limits k).toNat) :
    ∃ shown, walk conv clients none none protocol limits (frames.length + 1) 0 none = some shown ∧
      ((∃ bounds, timeBounds true (boundsClient conv frames hourly) protocol = .ok bounds ∧
          timeBounds false (boundsClient conv frames hourly) protocol = .ok bounds ∧
          Brackets shown bounds) ↔
        RemoteWithin (protocol.getD defaultProtocol) frames) := by
  obtain ⟨shown, hwalk, hshown⟩ := walk_times hsurvive hties hserves hlimits
  refine ⟨shown, hwalk, ?_⟩
  set p := protocol.getD defaultProtocol with hp
  have hperm : (shown.map (·.tsUs.toInt)).Perm (timesOf p frames) := by
    rw [hshown, hp, ← map_matching conv]
    exact sortedTimes_perm _
  have hmin : (shown.map (·.tsUs.toInt)).min? = (timesOf p frames).min? :=
    extremum_min?.congr fun _ => hperm.mem_iff
  have hmax : (shown.map (·.tsUs.toInt)).max? = (timesOf p frames).max? :=
    extremum_max?.congr fun _ => hperm.mem_iff
  have hleast := map_epochUs hsurvive (timesOf p (dataFrames frames)).min? fun t ht =>
    timesOf_dataFrames_subset t (extremum_min?.some_iff.mp ht).1
  have hgreatest := map_epochUs hsurvive (timesOf p (dataFrames frames)).max? fun t ht =>
    timesOf_dataFrames_subset t (extremum_max?.some_iff.mp ht).1
  -- The rollup has the data frames only, so the two agree as their extremes do.
  rw [timeBounds_rollup conv h, timeBounds_raw, remoteWithin_iff]
  constructor
  · rintro ⟨bounds, hrollup, -, hbrackets⟩
    obtain rfl := Except.ok.inj hrollup
    exact ⟨hleast.symm.trans (hbrackets.min.trans hmin),
      hgreatest.symm.trans (hbrackets.max.trans hmax)⟩
  · rintro ⟨hminEq, hmaxEq⟩
    refine ⟨_, rfl, by rw [hminEq, hmaxEq], ?_, ?_, ?_⟩
    · rw [hleast, hmin, hminEq]
    · rw [hgreatest, hmax, hmaxEq]
    · -- A bound is missing only where there is no time at all.
      intro hnone
      have hnil : timesOf p frames = [] := by
        rcases hnone with hnone | hnone
        · rw [hminEq, Option.map_eq_none_iff] at hnone
          exact extremum_min?.none_iff.mp hnone
        · rw [hmaxEq, Option.map_eq_none_iff] at hnone
          exact extremum_max?.none_iff.mp hnone
      rw [hnil] at hperm
      exact List.map_eq_nil_iff.mp hperm.eq_nil

end Rollup

/-- Two data frames, and remote frames at the time of the first one and between them. -/
def remoteBetween : List CaptureFrame :=
  [(1700000000000000, 0), (1700000000000000, 1), (1700000000100000, 1), (1700000000250000, 0)].map
    fun r =>
      { ts := r.1, protocol := .can, id := 0x100, dlc := 8, dataBytes := [], bus := 0, flags := r.2
        unit := none, func := none, crcValid := none
        dlc_check := by decide, columns_check := rfl }

theorem timeBounds_brackets_remoteBetween :
    ∃ shown, walk exactConversions (fun _ => storedOrder exactConversions remoteBetween) none none
        none (fun _ => 2) 5 0 none = some shown ∧
      ∃ bounds, timeBounds true (boundsClient exactConversions remoteBetween
          (captureFrameHourly remoteBetween)) none = .ok bounds ∧
        timeBounds false (boundsClient exactConversions remoteBetween
          (captureFrameHourly remoteBetween)) none = .ok bounds ∧
        Brackets shown bounds := by
  have hmatching : matching exactConversions none none none remoteBetween = remoteBetween := by
    decide
  have hsurvive : Survives exactConversions
      (matching exactConversions none none none remoteBetween) := by
    rw [hmatching]
    constructor <;> decide
  have hties : TiesFit (matching exactConversions none none none remoteBetween) := by
    rw [hmatching]
    intro t
    have hle := List.count_le_length (a := t) (l := remoteBetween.map (·.ts))
    have hlength : (remoteBetween.map (·.ts)).length = 4 := rfl
    have hsize : (4 : Nat) < UInt32.size := by decide
    omega
  have hwithin : RemoteWithin .can remoteBetween := by
    unfold RemoteWithin
    decide
  have hlimits (k : Nat) : 1 ≤ ((fun _ => 2 : Nat → UInt32) k).toNat := by
    show 1 ≤ (2 : UInt32).toNat
    decide
  obtain ⟨shown, hwalk, hbrackets⟩ := timeBounds_brackets_iff
    (List.Perm.refl (captureFrameHourly remoteBetween)) hsurvive hties
    (serves_storedOrder (by decide)) hlimits
  exact ⟨shown, hwalk, hbrackets.mpr hwithin⟩

/-- A remote frame, and a data frame a quarter of a second later. -/
def remoteFirst : List CaptureFrame :=
  [(1700000000000000, 1), (1700000000250000, 0)].map fun r =>
    { ts := r.1, protocol := .can, id := 0x100, dlc := 8, dataBytes := [], bus := 0, flags := r.2
      unit := none, func := none, crcValid := none
      dlc_check := by decide, columns_check := rfl }

/-- The bounds start after the first frame that paging shows, and differ between the relations. -/
theorem not_brackets_remoteFirst :
    walk exactConversions (fun _ => storedOrder exactConversions remoteFirst) none none none
      (fun _ => 1000) 3 0 none = some (remoteFirst.map (FrameBatchRow.ofRow exactConversions)) ∧
    timeBounds true
      (boundsClient exactConversions remoteFirst (captureFrameHourly remoteFirst)) none =
        .ok ⟨some 1700000000250000, some 1700000000250000⟩ ∧
    timeBounds false
      (boundsClient exactConversions remoteFirst (captureFrameHourly remoteFirst)) none =
        .ok ⟨some 1700000000000000, some 1700000000250000⟩ ∧
    ¬ Brackets (remoteFirst.map (FrameBatchRow.ofRow exactConversions))
      ⟨some 1700000000250000, some 1700000000250000⟩ := by
  refine ⟨rfl, rfl, rfl, ?_⟩
  intro h
  exact absurd h.min (by decide)

end WireTap.Gateway
