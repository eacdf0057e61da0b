import WireTap.Gateway.Frames
import WireTap.Lib.Paging

/-!
# Paging equals the unpaged read

A walk along the cursors of `frames_batch` gives out every matching row once, whatever the limits of
its pages.  The argument is about the matching rows' timestamps in order, `keys`: a page asked for
with a cursor that marks place `p` holds the keys from `p` on (`page_keys`), and the cursor it
returns marks the place after them (`page_next`).  So the pages are neighbouring slices of `keys`,
and of the rows themselves where every query breaks ties the same way (`walk_from`).
-/

namespace WireTap.Gateway

open Wire Lib

/-! ### The cursor's text -/

theorem parseI64_ofInt (ts : Int64) : parseI64 (ofInt ts.toInt) = some ts := by
  rw [parseI64, int?_ofInt]
  show (if _ then _ else _) = _
  rw [if_pos ⟨ts.minValue_le_toInt, ts.toInt_le⟩, Int64.ofInt_toInt]

theorem parseU32_toDigits (skip : UInt32) : parseU32 (Nat.toDigits 10 skip.toNat) = some skip := by
  rw [parseU32, unsigned?_toDigits]
  show (if _ then _ else _) = _
  rw [if_pos skip.toNat_lt_size, UInt32.ofNat_toNat]

/-- A cursor is read back as what it was made of. -/
theorem decodeCursor_encodeCursor (ts : Int64) (skip : UInt32) :
    decodeCursor (encodeCursor ts skip) = .ok (ts, skip) := by
  simp only [decodeCursor, encodeCursor, String.toList_ofList, Base64.decode_encode,
    fromUtf8_toUtf8, cursorText, splitOnce_append (colon_notMem_ofInt _), parseI64_ofInt,
    parseU32_toDigits, Option.bind_eq_bind, Option.bind_some, Option.pure_def]

/-! ### What a walk is to give out -/

/-- The rows the filter of a walk admits. -/
def matching (conv : Conversions) (startTime endTime : Option String)
    (protocol : Option Wire.Protocol) (archive : List CaptureFrame) : List CaptureFrame :=
  archive.filter fun row =>
    row.protocol == protocol.getD defaultProtocol && timeClause conv startTime endTime row.ts

/-- The times of the rows come through the conversions unchanged, out and back. -/
structure Survives (conv : Conversions) (rows : List CaptureFrame) : Prop where
  out : ∀ row ∈ rows, (conv.epochUs row.ts).toInt = row.ts
  back : ∀ row ∈ rows, conv.toTimestamp (conv.epochUs row.ts) = row.ts

/-- The ties at each time can be counted in 32 bits. -/
def TiesFit (rows : List CaptureFrame) : Prop := ∀ t, (rows.map (·.ts)).count t < UInt32.size

/-- Every query of a walk with this filter is answered, as SQL promises. -/
def Serves (conv : Conversions) (clients : Nat → Client) (startTime endTime : Option String)
    (protocol : Option Wire.Protocol) (archive : List CaptureFrame) : Prop :=
  ∀ k cursor limit, ∃ rows,
    clients k (framesSelect startTime endTime cursor limit protocol) = .ok rows ∧
      Answers conv archive (framesSelect startTime endTime cursor limit protocol) rows

/-- `unpaged` is an order of the matching rows by time, and every query of the walk answers in it:
tied rows come in the same order each time. -/
structure SameTies (conv : Conversions) (clients : Nat → Client) (startTime endTime : Option String)
    (protocol : Option Wire.Protocol) (archive unpaged : List CaptureFrame) : Prop where
  perm : unpaged.Perm (matching conv startTime endTime protocol archive)
  sorted : unpaged.Pairwise fun a b => a.ts ≤ b.ts
  answers : ∀ k cursor limit,
    clients k (framesSelect startTime endTime cursor limit protocol) =
      .ok ((unpaged.filter
        ((framesSelect startTime endTime cursor limit protocol).admits conv)).take
        (framesSelect startTime endTime cursor limit protocol).limit)

section Walk

variable {conv : Conversions} {clients : Nat → Client} {startTime endTime : Option String}
  {protocol : Option Wire.Protocol} {limits : Nat → UInt32} {archive unpaged : List CaptureFrame}
  {keys : List Int} {p : Nat}

/-! ### One page -/

/-- The text of a cursor, where there is one. -/
def afterOf (cursor : Option (Int64 × UInt32)) : Option String :=
  cursor.map fun c => encodeCursor c.1 c.2

/-- The cursor stands at place `p` of the keys. -/
def Place (conv : Conversions) (keys : List Int) (p : Nat) : Option (Int64 × UInt32) → Prop
  | none => p = 0
  | some (us, skip) => Mark keys p us.toInt skip.toNat ∧ conv.toTimestamp us = us.toInt

/-- A time the cursor's clause lets through. -/
def fromClause (conv : Conversions) (cursor : Option (Int64 × UInt32)) (ts : Int) : Bool :=
  (cursor.map (·.1)).all fun us => conv.toTimestamp us ≤ ts

/-- The matching rows of a page's statement. -/
theorem filter_admits (cursor : Option (Int64 × UInt32)) (limit : UInt32)
    (archive : List CaptureFrame) :
    archive.filter ((framesSelect startTime endTime cursor limit protocol).admits conv) =
      (matching conv startTime endTime protocol archive).filter
        fun row => fromClause conv cursor row.ts := by
  rw [matching, List.filter_filter]
  apply List.filter_congr
  intro row _
  simp only [FramesSelect.admits, framesSelect, fromClause]
  cases row.protocol == protocol.getD defaultProtocol <;> simp [Bool.and_comm]

/-- The keys a page's statement starts at: the cursor's place, less what it skips again. -/
theorem filter_fromClause {cursor : Option (Int64 × UInt32)} (hkeys : keys.Pairwise (· ≤ ·))
    (hplace : Place conv keys p cursor) :
    ∃ a, a + skipOf cursor = p ∧ ∀ {ρ : Type} (key : ρ → Int) (rows : List ρ),
      rows.map key = keys → rows.filter (fun r => fromClause conv cursor (key r)) = rows.drop a := by
  match cursor, hplace with
  | none, hp =>
    refine ⟨0, by rw [hp]; rfl, ?_⟩
    intro ρ key rows _
    simp [fromClause]
  | some (us, skip), ⟨hm, hus⟩ =>
    refine ⟨keys.countP (· < us.toInt), hm.position hkeys, ?_⟩
    intro ρ key rows hrows
    have hsorted : rows.Pairwise fun a b => key a ≤ key b := by
      rwa [← hrows, List.pairwise_map] at hkeys
    have hcount : keys.countP (· < us.toInt) = rows.countP fun r => key r < us.toInt := by
      rw [← hrows, List.countP_map]
      rfl
    rw [hcount, ← filter_le_eq_drop key us.toInt hsorted]
    apply List.filter_congr
    intro r _
    simp [fromClause, hus]

/-- A page's answer, by its keys. -/
theorem page_keys {cursor : Option (Int64 × UInt32)} {limit : UInt32} {rows : List CaptureFrame}
    (hkeys : keys.Pairwise (· ≤ ·))
    (hperm : keys.Perm ((matching conv startTime endTime protocol archive).map (·.ts)))
    (hplace : Place conv keys p cursor)
    (hanswer : Answers conv archive (framesSelect startTime endTime cursor limit protocol) rows) :
    ∃ a, a + skipOf cursor = p ∧
      rows.map (·.ts) = (keys.drop a).take (limit.toNat + skipOf cursor) := by
  obtain ⟨a, ha, hfilter⟩ := filter_fromClause hkeys hplace
  obtain ⟨sorted, hsorted, hle, rfl⟩ := hanswer
  refine ⟨a, ha, ?_⟩
  have hdrop : keys.filter (fromClause conv cursor) = keys.drop a :=
    hfilter id keys (List.map_id keys)
  -- Both are sorted, and both are the keys the cursor's clause lets through.
  have heq : sorted.map (·.ts) = keys.filter (fromClause conv cursor) := by
    apply List.Perm.eq_of_pairwise' (r := (· ≤ ·))
    · exact List.pairwise_map.mpr hle
    · exact hkeys.filter _
    · rw [filter_admits] at hsorted
      refine (hsorted.map _).trans ?_
      have hmap := (hperm.filter (fromClause conv cursor)).symm
      rwa [List.filter_map] at hmap
  rw [List.map_take, heq, hdrop]
  rfl

/-- A query of a walk answers with matching rows. -/
theorem mem_matching {cursor : Option (Int64 × UInt32)} {limit : UInt32} {rows : List CaptureFrame}
    (hanswer : Answers conv archive (framesSelect startTime endTime cursor limit protocol) rows) :
    ∀ row ∈ rows, row ∈ matching conv startTime endTime protocol archive := by
  intro row hrow
  obtain ⟨sorted, hsorted, -, rfl⟩ := hanswer
  rw [filter_admits] at hsorted
  exact List.mem_of_mem_filter (hsorted.mem_iff.mp (List.mem_of_mem_take hrow))

/-- The frames of a page are the rows after the skipped ones. -/
theorem drop_take_skip {β : Type} {xs : List β} {a skip n : Nat} (h : a + skip = p) :
    ((xs.drop a).take (n + skip)).drop skip = (xs.drop p).take n := by
  rw [List.drop_take, List.drop_drop, h, Nat.add_sub_cancel]

/-- The page asked for with a cursor, once its rows are there. -/
theorem framesBatch_ok {client : Client} {cursor : Option (Int64 × UInt32)} {limit : UInt32}
    {rows : List CaptureFrame}
    (h : client (framesSelect startTime endTime cursor limit protocol) = .ok rows) :
    framesBatch conv client startTime endTime (afterOf cursor) limit protocol =
      .ok { frames := (rows.drop (skipOf cursor)).map (FrameBatchRow.ofRow conv)
            nextCursor :=
              if rows.length < limit.toNat + skipOf cursor then none
              else nextCursor cursor ((rows.drop (skipOf cursor)).map (FrameBatchRow.ofRow conv)) } := by
  cases cursor with
  | none =>
    simp only [framesBatch, afterOf, Option.map_none, pure_bind, h]
    rfl
  | some c =>
    simp only [framesBatch, afterOf, Option.map_some, decodeCursor_encodeCursor, Prod.mk.eta,
      pure_bind, h]
    rfl

/-- The trailing ties of a page, counted on its frames or on its keys. -/
theorem ties_eq {frames : List FrameBatchRow} {last : FrameBatchRow} {slice : List Int}
    (hslice : frames.map (·.tsUs.toInt) = slice) (hsorted : slice.Pairwise (· ≤ ·))
    (hlast : slice.getLast? = some last.tsUs.toInt) :
    (frames.reverse.takeWhile fun f => f.tsUs == last.tsUs).length =
      slice.count last.tsUs.toInt := by
  have htest : (fun f : FrameBatchRow => f.tsUs == last.tsUs) =
      (fun t => decide (t = last.tsUs.toInt)) ∘ (·.tsUs.toInt) := by
    funext f
    simp [Int64.toInt_inj, beq_eq_decide]
  rw [← length_takeWhile_reverse hsorted hlast, ← hslice, ← List.map_reverse, List.takeWhile_map,
    List.length_map, htest]

/-- The skip carried over from a page's cursor. -/
theorem carried_eq {cursor : Option (Int64 × UInt32)} {last : Int64}
    (hkeys : keys.Pairwise (· ≤ ·)) (hplace : Place conv keys p cursor)
    (hlast : last.toInt ∈ keys.drop p) :
    (carried cursor last).toNat = (keys.take p).count last.toInt := by
  match cursor, hplace with
  | none, hp =>
    rw [show p = 0 from hp, List.take_zero, List.count_nil]
    rfl
  | some (ts, s), ⟨hm, _⟩ =>
    rw [hm.count_take hkeys hlast]
    by_cases h : ts = last
    · simp [carried, h]
    · have hne : ts.toInt ≠ last.toInt := fun heq => h (Int64.toInt_inj.mp heq)
      simp [carried, h, hne]

/-- The cursor a page returns stands at the place after its frames. -/
theorem page_next {cursor : Option (Int64 × UInt32)} {frames : List FrameBatchRow} {n : Nat}
    (hkeys : keys.Pairwise (· ≤ ·)) (hties : ∀ t, keys.count t < UInt32.size)
    (hp : p ≤ keys.length) (hplace : Place conv keys p cursor)
    (hframes : frames.map (·.tsUs.toInt) = (keys.drop p).take n)
    (hback : ∀ f ∈ frames, conv.toTimestamp f.tsUs = f.tsUs.toInt) (hne : frames ≠ []) :
    ∃ c, nextCursor cursor frames = afterOf (some c) ∧
      Place conv keys (p + frames.length) (some c) := by
  obtain ⟨last, hlast⟩ := Option.ne_none_iff_exists'.mp fun h => hne (List.getLast?_eq_none_iff.mp h)
  have hkey : ((keys.drop p).take n).getLast? = some last.tsUs.toInt := by
    rw [← hframes, List.getLast?_map, hlast, Option.map_some]
  have hmem : last.tsUs.toInt ∈ keys.drop p :=
    List.mem_of_mem_take (List.mem_of_getLast? hkey)
  have hsorted : ((keys.drop p).take n).Pairwise (· ≤ ·) :=
    hkeys.sublist ((List.take_sublist _ _).trans (List.drop_sublist _ _))
  have hnext := Mark.next hp hkey
  rw [← ties_eq hframes hsorted hkey, ← carried_eq hkeys hplace hmem] at hnext
  have hlen : frames.length = ((keys.drop p).take n).length := by
    rw [← hframes, List.length_map]
  -- All copies of the last key are too few to leave 32 bits, so these are.
  have hfit := hties last.tsUs.toInt
  have hle : (keys.take (p + ((keys.drop p).take n).length)).count last.tsUs.toInt ≤
      keys.count last.tsUs.toInt := (List.take_sublist _ _).count_le _
  rw [← hnext.seen] at hle
  refine ⟨(last.tsUs, .ofNat (frames.reverse.takeWhile fun f => f.tsUs == last.tsUs).length +
    carried cursor last.tsUs), ?_, ?_, hback last (List.mem_of_getLast? hlast)⟩
  · rw [nextCursor, hlast]
    rfl
  · rw [hlen, UInt32.toNat_add, UInt32.toNat_ofNat', Nat.mod_eq_of_lt, Nat.mod_eq_of_lt]
    · exact hnext
    all_goals
      simp only [UInt32.size] at hfit
      omega

/-! ### The walk -/

/-- What `v` sees of the frames of each page is a slice of `seen`, from the page's place on. -/
def Slices {β : Type} (conv : Conversions) (clients : Nat → Client)
    (startTime endTime : Option String) (protocol : Option Wire.Protocol) (keys : List Int)
    (v : FrameBatchRow → β) (seen : List β) : Prop :=
  ∀ k p cursor limit rows, Place conv keys p cursor →
    clients k (framesSelect startTime endTime cursor limit protocol) = .ok rows →
      ((rows.drop (skipOf cursor)).map (FrameBatchRow.ofRow conv)).map v =
        (seen.drop p).take limit.toNat

/-- Each page of a walk shows the timestamps from its place on. -/
theorem slices_keys (hkeys : keys.Pairwise (· ≤ ·))
    (hperm : keys.Perm ((matching conv startTime endTime protocol archive).map (·.ts)))
    (hsurvive : Survives conv (matching conv startTime endTime protocol archive))
    (hserves : Serves conv clients startTime endTime protocol archive) :
    Slices conv clients startTime endTime protocol keys (·.tsUs.toInt) keys := by
  intro k p cursor limit rows hplace hrows
  obtain ⟨rows', hrows', hanswer⟩ := hserves k cursor limit
  obtain rfl : rows' = rows := Except.ok.inj (hrows'.symm.trans hrows)
  obtain ⟨a, ha, hts⟩ := page_keys hkeys hperm hplace hanswer
  rw [List.map_map, ← drop_take_skip ha, ← hts, ← List.map_drop]
  apply List.map_congr_left
  intro row hrow
  exact hsurvive.out row (mem_matching hanswer row (List.mem_of_mem_drop hrow))

/-- Where tied rows keep their order, each page shows the rows themselves. -/
theorem slices_unpaged (hkeys : keys.Pairwise (· ≤ ·)) (hunpaged : unpaged.map (·.ts) = keys)
    (hsame : SameTies conv clients startTime endTime protocol archive unpaged) :
    Slices conv clients startTime endTime protocol keys id
      (unpaged.map (FrameBatchRow.ofRow conv)) := by
  intro k p cursor limit rows hplace hrows
  obtain ⟨a, ha, hfilter⟩ := filter_fromClause hkeys hplace
  have hmatching : matching conv startTime endTime protocol unpaged = unpaged := by
    rw [matching, List.filter_eq_self]
    intro row hrow
    exact (List.mem_filter.mp (hsame.perm.mem_iff.mp hrow)).2
  have hanswer := hsame.answers k cursor limit
  rw [hrows, filter_admits, hmatching, hfilter (·.ts) unpaged hunpaged] at hanswer
  rw [Except.ok.inj hanswer, List.map_id]
  show (((unpaged.drop a).take (limit.toNat + skipOf cursor)).drop (skipOf cursor)).map _ = _
  rw [drop_take_skip ha, List.map_take, List.map_drop]

/-- A walk from a place gives out everything from there on. -/
theorem walk_from {β : Type} {v : FrameBatchRow → β} {seen : List β}
    (hkeys : keys.Pairwise (· ≤ ·)) (hties : ∀ t, keys.count t < UInt32.size)
    (hperm : keys.Perm ((matching conv startTime endTime protocol archive).map (·.ts)))
    (hsurvive : Survives conv (matching conv startTime endTime protocol archive))
    (hserves : Serves conv clients startTime endTime protocol archive)
    (hlimits : ∀ k, 1 ≤ (limits k).toNat)
    (hslices : Slices conv clients startTime endTime protocol keys v seen)
    (hseen : seen.length = keys.length) {fuel k : Nat} {cursor : Option (Int64 × UInt32)}
    (hp : p ≤ keys.length) (hplace : Place conv keys p cursor) (hfuel : keys.length - p < fuel) :
    ∃ frames, walk conv clients startTime endTime protocol limits fuel k (afterOf cursor) =
      some frames ∧ frames.map v = seen.drop p := by
  induction fuel generalizing k p cursor with
  | zero => omega
  | succ fuel ih =>
    obtain ⟨rows, hrows, hanswer⟩ := hserves k cursor (limits k)
    obtain ⟨a, ha, hts⟩ := page_keys hkeys hperm hplace hanswer
    have hshown := hslices k p cursor (limits k) rows hplace hrows
    have hlen : rows.length = min ((limits k).toNat + skipOf cursor) (keys.length - a) := by
      rw [← List.length_map (·.ts), hts, List.length_take, List.length_drop]
    rw [walk, framesBatch_ok hrows]
    by_cases hexhausted : rows.length < (limits k).toNat + skipOf cursor
    · -- The last page: the rest of the keys fit in it.
      refine ⟨(rows.drop (skipOf cursor)).map (FrameBatchRow.ofRow conv), ?_, ?_⟩
      · simp only [if_pos hexhausted]
      rw [hshown, List.take_of_length_le]
      rw [List.length_drop, hseen]
      omega
    · simp only [if_neg hexhausted]
      have hframes := slices_keys hkeys hperm hsurvive hserves k p cursor (limits k) rows hplace hrows
      set frames := (rows.drop (skipOf cursor)).map (FrameBatchRow.ofRow conv) with hdef
      have hcount : frames.length = (limits k).toNat := by
        rw [hdef, List.length_map, List.length_drop]
        omega
      have hone := hlimits k
      have hback : ∀ f ∈ frames, conv.toTimestamp f.tsUs = f.tsUs.toInt := by
        intro f hf
        obtain ⟨row, hrow, rfl⟩ := List.mem_map.mp hf
        have hmem := mem_matching hanswer row (List.mem_of_mem_drop hrow)
        exact (hsurvive.back row hmem).trans (hsurvive.out row hmem).symm
      -- A full page leaves its cursor at the place of the key after its last.
      obtain ⟨c, hc, hplace'⟩ := page_next hkeys hties hp hplace hframes hback
        (List.ne_nil_of_length_pos (by omega))
      rw [hc]
      obtain ⟨rest, hrest, hv⟩ := ih (k := k + 1) (by omega) hplace' (by omega)
      refine ⟨frames ++ rest, ?_, ?_⟩
      · simp only [afterOf, Option.map_some] at hrest ⊢
        rw [hrest, Option.map_some]
      · rw [List.map_append, hshown, hv, hcount, ← List.drop_drop, List.take_append_drop]

/-- The times of some rows in order. -/
def sortedTimes (rows : List CaptureFrame) : List Int := (rows.map (·.ts)).mergeSort (· ≤ ·)

theorem sortedTimes_sorted (rows : List CaptureFrame) : (sortedTimes rows).Pairwise (· ≤ ·) :=
  List.pairwise_mergeSort' (· ≤ ·) _

theorem sortedTimes_perm (rows : List CaptureFrame) :
    (sortedTimes rows).Perm (rows.map (·.ts)) :=
  List.mergeSort_perm _ _

/-- A whole walk, as `v` sees it. -/
theorem walk_none {β : Type} {v : FrameBatchRow → β} {seen : List β}
    (hsurvive : Survives conv (matching conv startTime endTime protocol archive))
    (hties : TiesFit (matching conv startTime endTime protocol archive))
    (hserves : Serves conv clients startTime endTime protocol archive)
    (hlimits : ∀ k, 1 ≤ (limits k).toNat)
    (hslices : Slices conv clients startTime endTime protocol
      (sortedTimes (matching conv startTime endTime protocol archive)) v seen)
    (hseen : seen.length = (matching conv startTime endTime protocol archive).length) :
    ∃ frames, walk conv clients startTime endTime protocol limits (archive.length + 1) 0 none =
      some frames ∧ frames.map v = seen := by
  set rows := matching conv startTime endTime protocol archive with hrows
  have hperm := sortedTimes_perm rows
  have hcount : ∀ t, (sortedTimes rows).count t < UInt32.size := by
    intro t
    rw [hperm.count_eq]
    exact hties t
  have hlen : (sortedTimes rows).length = rows.length := by
    rw [hperm.length_eq, List.length_map]
  have hfuel : (sortedTimes rows).length < archive.length + 1 := by
    rw [hlen]
    exact Nat.lt_succ_of_le (List.length_filter_le _ _)
  have hstart : Place conv (sortedTimes rows) 0 none := rfl
  have h := walk_from (k := 0) (sortedTimes_sorted rows) hcount hperm hsurvive hserves hlimits
    hslices (hseen.trans hlen.symm) (Nat.zero_le _) hstart hfuel
  rwa [List.drop_zero] at h

/-- The timestamps of a whole walk. -/
theorem walk_times (hsurvive : Survives conv (matching conv startTime endTime protocol archive))
    (hties : TiesFit (matching conv startTime endTime protocol archive))
    (hserves : Serves conv clients startTime endTime protocol archive)
    (hlimits : ∀ k, 1 ≤ (limits k).toNat) :
    ∃ frames, walk conv clients startTime endTime protocol limits (archive.length + 1) 0 none =
      some frames ∧
      frames.map (·.tsUs.toInt) =
        sortedTimes (matching conv startTime endTime protocol archive) := by
  apply walk_none hsurvive hties hserves hlimits
  · exact slices_keys (sortedTimes_sorted _) (sortedTimes_perm _) hsurvive hserves
  · rw [(sortedTimes_perm _).length_eq, List.length_map]

/-- Paging through the frames equals the unpaged read: the walk ends, its timestamps are those of
the matching rows in order, however each query breaks ties; and where all of them break ties the
same way, its frames are the unpaged rows. -/
theorem walk_eq_unpaged
    (hsurvive : Survives conv (matching conv startTime endTime protocol archive))
    (hties : TiesFit (matching conv startTime endTime protocol archive))
    (hserves : Serves conv clients startTime endTime protocol archive)
    (hlimits : ∀ k, 1 ≤ (limits k).toNat) :
    ∃ frames,
      walk conv clients startTime endTime protocol limits (archive.length + 1) 0 none =
        some frames ∧
      (frames.map (·.tsUs.toInt)).Pairwise (· ≤ ·) ∧
      (frames.map (·.tsUs.toInt)).Perm
        ((matching conv startTime endTime protocol archive).map (·.ts)) ∧
      ∀ unpaged, SameTies conv clients startTime endTime protocol archive unpaged →
        frames = unpaged.map (FrameBatchRow.ofRow conv) := by
  obtain ⟨frames, hwalk, hframes⟩ := walk_times hsurvive hties hserves hlimits
  refine ⟨frames, hwalk, ?_, ?_, ?_⟩
  · rw [hframes]
    exact sortedTimes_sorted _
  · rw [hframes]
    exact sortedTimes_perm _
  · intro unpaged hsame
    -- The unpaged rows are sorted too, so their times are the same keys.
    have hunpaged : unpaged.map (·.ts) =
        sortedTimes (matching conv startTime endTime protocol archive) :=
      List.Perm.eq_of_pairwise' (r := (· ≤ ·)) (List.pairwise_map.mpr hsame.sorted)
        (sortedTimes_sorted _) ((hsame.perm.map _).trans (sortedTimes_perm _).symm)
    have hlen : (unpaged.map (FrameBatchRow.ofRow conv)).length =
        (matching conv startTime endTime protocol archive).length := by
      rw [List.length_map, hsame.perm.length_eq]
    obtain ⟨frames', hwalk', hframes'⟩ := walk_none hsurvive hties hserves hlimits
      (slices_unpaged (sortedTimes_sorted _) hunpaged hsame) hlen
    obtain rfl : frames = frames' := Option.some.inj (hwalk.symm.trans hwalk')
    rwa [List.map_id] at hframes'

end Walk

/-- Times that are whole numbers of a `float8` convert exactly. -/
def exactConversions : Conversions where
  epochUs := Int64.ofInt
  toTimestamp := Int64.toInt
  timestamptz _ := none

/-- Three frames, the last two of them tied. -/
def tiedFrames : List CaptureFrame :=
  [(1700000000000000, 0x100), (1700000000250000, 0x200), (1700000000250000, 0x300)].map fun r =>
    { ts := r.1, protocol := .can, id := r.2, dlc := 0, dataBytes := [], bus := 0, flags := 0
      unit := none, func := none, crcValid := none
      dlc_check := by decide, columns_check := rfl }

/-- A table read in the order it is stored in. -/
def storedOrder (conv : Conversions) (archive : List CaptureFrame) : Client := fun q =>
  .ok ((archive.filter (q.admits conv)).take q.limit)

theorem matching_tiedFrames :
    matching exactConversions none none none tiedFrames = tiedFrames := by decide

theorem survives_tiedFrames :
    Survives exactConversions (matching exactConversions none none none tiedFrames) := by
  rw [matching_tiedFrames]
  exact ⟨by decide, by decide⟩

theorem tiesFit_tiedFrames : TiesFit (matching exactConversions none none none tiedFrames) := by
  rw [matching_tiedFrames]
  intro t
  have hle := List.count_le_length (a := t) (l := tiedFrames.map (·.ts))
  have hlength : (tiedFrames.map (·.ts)).length = 3 := rfl
  have hsize : UInt32.size = 4294967296 := rfl
  omega

theorem serves_storedOrder {conv : Conversions} {archive : List CaptureFrame}
    (hsorted : archive.Pairwise fun a b => a.ts ≤ b.ts) :
    Serves conv (fun _ => storedOrder conv archive) none none none archive :=
  fun _ _ _ => ⟨_, rfl, _, List.Perm.refl _, hsorted.filter _, rfl⟩

/-- Pages of one frame, through a run of tied frames. -/
theorem walk_tiedFrames :
    walk exactConversions (fun _ => storedOrder exactConversions tiedFrames) none none none
      (fun _ => 1) 4 0 none = some (tiedFrames.map (FrameBatchRow.ofRow exactConversions)) := by
  have hsorted : tiedFrames.Pairwise fun a b => a.ts ≤ b.ts := by decide
  have hlimits : ∀ k : Nat, 1 ≤ ((fun _ => 1 : Nat → UInt32) k).toNat := fun _ => le_refl 1
  obtain ⟨frames, hwalk, -, -, hsame⟩ := walk_eq_unpaged survives_tiedFrames tiesFit_tiedFrames
    (serves_storedOrder hsorted) hlimits
  have hperm : tiedFrames.Perm (matching exactConversions none none none tiedFrames) := by
    rw [matching_tiedFrames]
  rw [← hsame tiedFrames ⟨hperm, hsorted, fun _ _ _ => rfl⟩]
  exact hwalk

end WireTap.Gateway
