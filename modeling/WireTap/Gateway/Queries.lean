import Mathlib.Algebra.Ring.Int.Defs
import WireTap.Gateway.Inventory
import WireTap.Lib.Select

/-!
# The analytical queries

The nine queries of `sql.rs` that read `capture_frame` for an analyst: `byte_changes`,
`frame_changes`, `mirror_validation`, `mux_statistics`, `first_last`, `frequency`, `distribution`,
`gap_analysis` and `pattern_search`.  Each sends a statement and reads the rows that come back with
`Row::get`, which panics where a column read as a value is NULL.  So every column of a row is an
`Option` here, and a query is `none` where it panics: on a NULL, or on an index out of bounds.

`QueryStatement.Answers` says which rows PostgreSQL may answer a statement with.  An expression that
fails leaves the statement without any.  The parameters' types are `wslib_wiretap_gateway`'s; a
number among them is a `UInt32`, which holds the values of every narrower type too.
-/

namespace WireTap.Gateway

open Wire Lib

/-! ### PostgreSQL's numbers -/

/-- What PostgreSQL does with a `numeric`. -/
structure Numerics where
  /-- `x::float8`. -/
  float8 : Rat → Float
  /-- `x / y` for `y ≠ 0`, at the scale PostgreSQL picks. -/
  div : Rat → Rat → Rat

/-- `trunc`. -/
def trunc (x : Rat) : Int := if 0 ≤ x then x.floor else x.ceil

/-- SQL's `avg`. -/
def sqlAvg (num : Numerics) (column : List (Option Int)) : Option Rat :=
  match column.filterMap id with
  | [] => none
  | values => some (num.div values.sum values.length)

/-- `count(column)`. -/
def sqlCount {α : Type} (column : List (Option α)) : Nat := (column.filterMap id).length

/-- `count(DISTINCT column)`. -/
def sqlCountDistinct {α : Type} [DecidableEq α] (column : List (Option α)) : Nat :=
  (column.filterMap id).dedup.length

/-- `get_byte`: an index outside the string is an `array_subscript_error`. -/
def getByte (p : Bytes) (n : Int32) : Except String Int32 :=
  match if 0 ≤ n then p[n.toInt.toNat]? else none with
  | some b => .ok b.toUInt32.toInt32
  | none => .error "2202E"

/-- `public.get_byte_safe`. -/
def getByteSafe (p : Bytes) (n : Int32) : Except String (Option Int32) :=
  if (p.length : Int) > n.toInt then return some (← getByte p n) else return none

/-- `generate_series(start, stop, step)` for a positive step. -/
def generateSeries (start stop : Int32) (step : Nat) : List Int32 :=
  if start ≤ stop then
    (List.range ((stop.toInt - start.toInt).toNat / step + 1)).map fun k =>
      .ofInt (start.toInt + (k * step : Nat))
  else []

/-- `ORDER BY` a nullable number: NULLs come last. -/
def nullsLast : Option Int32 → Option Int32 → Bool
  | _, none => true
  | none, some _ => false
  | some a, some b => a.toInt ≤ b.toInt

/-- `ORDER BY 1, 2`. -/
def muxKeyLe (a b : Option Int32 × Int32) : Bool :=
  if a.1 = b.1 then a.2.toInt ≤ b.2.toInt else nullsLast a.1 b.1

/-! ### Parameters -/

structure FrameFilter where
  frameId : UInt32
  isExtended : Option Bool
  startTime : Option String
  endTime : Option String
  protocol : Option Wire.Protocol
  deriving DecidableEq

/-- `extended_clause`. -/
def extendedClause (isExtended : Option Bool) (row : CaptureFrame) : Bool :=
  isExtended.all (row.extended == ·)

/-- `FrameFilter::where_clause`. -/
def FrameFilter.whereClause (conv : Conversions) (f : FrameFilter) (row : CaptureFrame) : Bool :=
  row.protocol == f.protocol.getD defaultProtocol && row.id == f.frameId.toInt32 &&
    extendedClause f.isExtended row && timeClause conv f.startTime f.endTime row.ts && row.notRemote

structure ByteChangesParams where
  filter : FrameFilter
  byteIndex : UInt32
  limit : Option UInt32
  deriving DecidableEq

structure FrameChangesParams where
  filter : FrameFilter
  limit : Option UInt32
  deriving DecidableEq

structure MirrorValidationParams where
  mirrorFrameId : UInt32
  sourceFrameId : UInt32
  isExtended : Option Bool
  toleranceMs : UInt32
  startTime : Option String
  endTime : Option String
  protocol : Option Wire.Protocol
  limit : Option UInt32
  deriving DecidableEq

structure MuxStatisticsParams where
  filter : FrameFilter
  muxSelectorByte : UInt32
  include16bit : Bool
  payloadLength : UInt32
  limit : Option UInt32
  deriving DecidableEq

structure FirstLastParams where
  filter : FrameFilter
  deriving DecidableEq

structure FrequencyParams where
  filter : FrameFilter
  bucketSizeMs : UInt32
  limit : Option UInt32
  deriving DecidableEq

structure DistributionParams where
  filter : FrameFilter
  byteIndex : UInt32
  deriving DecidableEq

structure GapAnalysisParams where
  filter : FrameFilter
  gapThresholdMs : Float
  limit : Option UInt32

structure PatternSearchParams where
  pattern : Bytes
  patternMask : Bytes
  startTime : Option String
  endTime : Option String
  protocol : Option Wire.Protocol
  limit : Option UInt32
  deriving DecidableEq

/-! ### Rows -/

structure ByteChangeRow where
  timestampUs : Option Int64
  prevByte : Option Int32
  currByte : Option Int32

structure FrameChangeRow where
  timestampUs : Option Int64
  prevData : Option Bytes
  dataBytes : Option Bytes

structure MirrorRow where
  mirrorTs : Option Int64
  sourceTs : Option Int64
  mirrorPayload : Option Bytes
  sourcePayload : Option Bytes

structure MuxCountRow where
  muxValue : Option Int32
  frameCount : Option Nat

structure MuxByteRow where
  muxValue : Option Int32
  byteIndex : Option Int32
  min : Option Int
  max : Option Int
  avg : Option Float
  distinctCount : Option Nat
  sampleCount : Option Nat

/-- The columns `{prefix}_min` to `{prefix}_distinct` of a row of words. -/
structure WordColumns where
  min : Option Int
  max : Option Int
  avg : Option Float
  distinct : Option Nat

structure MuxWordRow where
  muxValue : Option Int32
  startByte : Option Int32
  le : WordColumns
  be : WordColumns

structure PayloadRow where
  timestampUs : Option Int64
  dataBytes : Option Bytes

structure CountRow where
  count : Option Nat

structure FrequencyRow where
  bucketStartUs : Option Float
  frameCount : Option Nat
  minIntervalUs : Option Float
  maxIntervalUs : Option Float
  avgIntervalUs : Option Float

structure DistributionRow where
  value : Option Int32
  count : Option Nat
  deriving DecidableEq

structure GapRow where
  gapStartUs : Option Int64
  gapEndUs : Option Int64
  durationMs : Option Float

structure PatternRow where
  timestampUs : Option Int64
  frameId : Option Int32
  extended : Option Bool
  dataBytes : Option Bytes

/-! ### Statements -/

/-- The statements the queries but `pattern_search` send, with what is written into each. -/
inductive QueryStatement where
  | byteChanges (byteIndex : Int32) (filter : FrameFilter) (limit : Nat)
  | frameChanges (filter : FrameFilter) (limit : Nat)
  | mirrors (mirrorId sourceId tolerance : Int32) (protocol : Wire.Protocol)
    (isExtended : Option Bool) (startTime endTime : Option String) (limit : Nat)
  | muxCounts (mux : Int32) (filter : FrameFilter) (limit : Nat)
  | muxBytes (mux startB endB : Int32) (filter : FrameFilter) (limit : Nat)
  | muxWords (mux startB endB : Int32) (filter : FrameFilter) (limit : Nat)
  | first (filter : FrameFilter)
  | last (filter : FrameFilter)
  | count (filter : FrameFilter)
  | frequency (bucketUs : Int64) (filter : FrameFilter) (limit : Nat)
  | distribution (byteIndex : Int32) (filter : FrameFilter)
  | gaps (threshold : Float) (filter : FrameFilter) (limit : Nat)

/-- The rows a statement gives. -/
@[reducible] def QueryStatement.Row : QueryStatement → Type
  | byteChanges .. => ByteChangeRow
  | frameChanges .. => FrameChangeRow
  | mirrors .. => MirrorRow
  | muxCounts .. => MuxCountRow
  | muxBytes .. => MuxByteRow
  | muxWords .. => MuxWordRow
  | first .. => PayloadRow
  | last .. => PayloadRow
  | count .. => CountRow
  | frequency .. => FrequencyRow
  | distribution .. => DistributionRow
  | gaps .. => GapRow

/-- The statement of `pattern_search`. -/
structure PatternSelect where
  protocol : Wire.Protocol
  startTime : Option String
  endTime : Option String
  deriving DecidableEq

/-- What the queries use of `tokio_postgres::Client`. -/
structure QueryClient where
  query : (s : QueryStatement) → Except PgError (List s.Row)
  /-- `query_raw`: the rows a stream gives, and what it ends with where it fails. -/
  queryRaw : PatternSelect → Except PgError (List PatternRow × Option PgError)

/-! ### What PostgreSQL may answer -/

section Answers

variable (conv : Conversions) (num : Numerics) (frames : List CaptureFrame)

/-- The frames a filter selects. -/
def FrameFilter.selected (f : FrameFilter) : List CaptureFrame := frames.filter (f.whereClause conv)

/-- `ordered_frames` of `byte_changes`: a frame's time, its byte and the byte before it. -/
def orderedBytes (byteIndex : Int32) (sorted : List CaptureFrame) :
    Except String (List (Int × Option Int32 × Option Int32)) := do
  let bytes ← sorted.mapM fun row => getByteSafe row.dataBytes byteIndex
  return (sorted.zip (lag bytes)).map fun r => (r.1.ts, r.2.1.join, r.2.2)

/-- The outer `SELECT` of `byte_changes`, with what it sorts by. -/
def byteChangeRows (ordered : List (Int × Option Int32 × Option Int32)) :
    List (Int × ByteChangeRow) :=
  (ordered.filter fun r => r.2.1.isSome && r.2.2.isSome && r.2.1 ≠ r.2.2).map fun r =>
    (r.1, { timestampUs := some (conv.epochUs r.1), prevByte := r.2.1, currByte := r.2.2 })

/-- The outer `SELECT` of `frame_changes`. -/
def frameChangeRows (sorted : List CaptureFrame) : List (Int × FrameChangeRow) :=
  let ordered := (lag sorted).map fun r => (r.2.ts, r.1.map (·.dataBytes), r.2.dataBytes)
  (ordered.filter fun r => r.2.1.isSome && r.2.1 ≠ some r.2.2).map fun r =>
    (r.1, { timestampUs := some (conv.epochUs r.1), prevData := r.2.1, dataBytes := some r.2.2 })

/-- `mirror_frames` and `source_frames`. -/
def mirrorSide (id : Int32) (protocol : Wire.Protocol) (isExtended : Option Bool)
    (startTime endTime : Option String) : List CaptureFrame :=
  frames.filter fun row => row.protocol == protocol && row.id == id &&
    extendedClause isExtended row && timeClause conv startTime endTime row.ts && row.notRemote

/-- The join of `mirror_validation`. -/
def mirrorRows (mirrors sources : List CaptureFrame) (tolerance : Int32) : List (Int × MirrorRow) :=
  ((mirrors.product sources).filter fun r =>
      ((r.1.ts - r.2.ts).natAbs : Int) < tolerance.toInt * 1000 &&
        r.1.dataBytes ≠ r.2.dataBytes).map fun r =>
    (r.1.ts,
      { mirrorTs := some (conv.epochUs r.1.ts)
        sourceTs := some (conv.epochUs r.2.ts)
        mirrorPayload := some r.1.dataBytes
        sourcePayload := some r.2.dataBytes })

/-- `src` of `mux_statistics`, with what it sorts by. -/
def muxSrc (mux : Int32) (f : FrameFilter) : List (Int × Bytes) :=
  ((f.selected conv frames).filter fun row => (row.dataBytes.length : Int) > mux.toInt).map
    fun row => (row.ts, row.dataBytes)

/-- `count_query`. -/
def muxCountRows (mux : Int32) (src : List Bytes) : Except String (List MuxCountRow) := do
  let values ← src.mapM fun data => getByteSafe data mux
  return (orderedKeys nullsLast values).map fun v =>
    { muxValue := v, frameCount := some (group id values v).length }

/-- A row of `byte_query` before its groups: what they are by, and the byte. -/
def muxByte (mux : Int32) (r : Bytes × Int32) :
    Except String ((Option Int32 × Int32) × Option Int32) := do
  let muxValue ← getByteSafe r.1 mux
  let byte ← getByteSafe r.1 r.2
  return ((muxValue, r.2), byte)

/-- A column of `int4`. -/
def ints (column : List (Option Int32)) : List (Option Int) := column.map (·.map (·.toInt))

/-- `byte_query`. -/
def muxByteRows (mux startB endB : Int32) (src : List Bytes) : Except String (List MuxByteRow) := do
  let joined ← (src.product (generateSeries startB endB 1)).mapM (muxByte mux)
  let groups := (orderedKeys muxKeyLe (joined.map (·.1))).map fun k =>
    (k, (group (·.1) joined k).map (·.2))
  return (groups.filter fun g => 0 < sqlCount g.2).map fun g =>
    { muxValue := g.1.1
      byteIndex := some g.1.2
      min := sqlMin (ints g.2)
      max := sqlMax (ints g.2)
      avg := (sqlAvg num (ints g.2)).map num.float8
      distinctCount := some (sqlCountDistinct g.2)
      sampleCount := some (sqlCount g.2) }

/-- A row of `word_query` before its groups: what they are by, `le_val` and `be_val`. -/
def muxWord (mux : Int32) (r : Bytes × Int32) :
    Except String ((Option Int32 × Int32) × Option Int32 × Option Int32) := do
  let muxValue ← getByteSafe r.1 mux
  let byte ← getByteSafe r.1 r.2
  let next ← getByteSafe r.1 (r.2 + 1)
  let leVal : Option Int32 := do return (← byte) ||| (← next) <<< 8
  let beVal : Option Int32 := do return (← byte) <<< 8 ||| (← next)
  return ((muxValue, r.2), leVal, beVal)

/-- The four aggregates of one byte order. -/
def wordColumns (column : List (Option Int32)) : WordColumns :=
  { min := sqlMin (ints column)
    max := sqlMax (ints column)
    avg := (sqlAvg num (ints column)).map num.float8
    distinct := some (sqlCountDistinct column) }

/-- `word_query`. -/
def muxWordRows (mux startB endB : Int32) (src : List Bytes) : Except String (List MuxWordRow) := do
  let joined ← (src.product (generateSeries startB endB 2)).mapM (muxWord mux)
  let groups := (orderedKeys muxKeyLe (joined.map (·.1))).map fun k =>
    (k, (group (·.1) joined k).map (·.2))
  return (groups.filter fun g => 0 < sqlCount (g.2.map (·.1))).map fun g =>
    { muxValue := g.1.1
      startByte := some g.1.2
      le := wordColumns num (g.2.map (·.1))
      be := wordColumns num (g.2.map (·.2)) }

def payloadRow (row : CaptureFrame) : Int × PayloadRow :=
  (row.ts, { timestampUs := some (conv.epochUs row.ts), dataBytes := some row.dataBytes })

/-- The times a filter selects, as `ORDER BY ts` takes them. -/
def FrameFilter.times (f : FrameFilter) : List (Int × Int) :=
  (f.selected conv frames).map fun row => (row.ts, row.ts)

/-- `trunc((EXTRACT(EPOCH FROM ts) * 1000000) / bucket_us) * bucket_us`. -/
def bucketStart (bucketUs : Int64) (ts : Int) : Except String Int :=
  if bucketUs = 0 then .error "22012"
  else .ok (trunc (num.div ts bucketUs.toInt) * bucketUs.toInt)

/-- The statement of `frequency` over the times of its innermost `SELECT`. -/
def frequencyRows (bucketUs : Int64) (times : List Int) : Except String (List FrequencyRow) := do
  let intervals := ((lag times).map fun r => (r.2, r.1.map (r.2 - ·))).filter (·.2.isSome)
  let bucketed ← intervals.mapM fun r => return (← bucketStart num bucketUs r.1, r.2)
  return (orderedKeys (fun a b => decide (a ≤ b)) (bucketed.map (·.1))).map fun k : Int =>
    let column := (group (·.1) bucketed k).map (·.2)
    { bucketStartUs := some (num.float8 k)
      frameCount := some column.length
      minIntervalUs := (sqlMin column).map fun m : Int => num.float8 m
      maxIntervalUs := (sqlMax column).map fun m : Int => num.float8 m
      avgIntervalUs := (sqlAvg num column).map num.float8 }

/-- The groups of `distribution`, with the count it sorts by. -/
def distributionRows (byteIndex : Int32) (f : FrameFilter) :
    Except String (List (Nat × DistributionRow)) := do
  let values ← (f.selected conv frames).mapM fun row => getByteSafe row.dataBytes byteIndex
  return (groupBy id values).map fun g =>
    (g.2.length, { value := g.1, count := some g.2.length })

/-- The outer `SELECT` of `gap_analysis`. -/
def gapRows (threshold : Float) (times : List Int) : List (Option Float × GapRow) :=
  let duration := fun r : Option Int × Int =>
    r.1.map fun prev => num.float8 (((r.2 - prev : Int) : Rat) / 1000)
  ((lag times).filter fun r => r.1.isSome && (duration r).any fun d => decide (threshold < d)).map
    fun r => (duration r,
      { gapStartUs := r.1.map conv.epochUs
        gapEndUs := some (conv.epochUs r.2)
        durationMs := duration r })

/-- `ORDER BY duration_ms DESC`, which puts NULLs first. -/
def longestFirst : Option Float → Option Float → Prop
  | none, _ => True
  | some _, none => False
  | some a, some b => b ≤ a

/-- Which rows a statement may be answered with, over one content of the table. -/
def QueryStatement.Answers : (s : QueryStatement) → List s.Row → Prop
  | byteChanges byteIndex f limit, rows =>
    -- `LIMIT 0` computes no row, and so not the byte of one
    (limit = 0 ∧ rows = []) ∨ ∃ sorted ordered,
      Arranged (· ≤ ·) ((f.selected conv frames).map fun row => (row.ts, row)) sorted ∧
        orderedBytes byteIndex sorted = .ok ordered ∧
        Limited (· ≤ ·) limit (byteChangeRows conv ordered) rows
  | frameChanges f limit, rows =>
    ∃ sorted, Arranged (· ≤ ·) ((f.selected conv frames).map fun row => (row.ts, row)) sorted ∧
      Limited (· ≤ ·) limit (frameChangeRows conv sorted) rows
  | mirrors mirrorId sourceId tolerance protocol isExtended startTime endTime limit, rows =>
    Limited (· ≤ ·) limit
      (mirrorRows conv (mirrorSide conv frames mirrorId protocol isExtended startTime endTime)
        (mirrorSide conv frames sourceId protocol isExtended startTime endTime) tolerance) rows
  | muxCounts mux f limit, rows =>
    ∃ src, Limited (· ≤ ·) limit (muxSrc conv frames mux f) src ∧ muxCountRows mux src = .ok rows
  | muxBytes mux startB endB f limit, rows =>
    ∃ src, Limited (· ≤ ·) limit (muxSrc conv frames mux f) src ∧
      muxByteRows num mux startB endB src = .ok rows
  | muxWords mux startB endB f limit, rows =>
    ∃ src, Limited (· ≤ ·) limit (muxSrc conv frames mux f) src ∧
      muxWordRows num mux startB endB src = .ok rows
  | first f, rows => Limited (· ≤ ·) 1 ((f.selected conv frames).map (payloadRow conv)) rows
  | last f, rows => Limited (· ≥ ·) 1 ((f.selected conv frames).map (payloadRow conv)) rows
  | count f, rows => rows = [{ count := some (f.selected conv frames).length }]
  | frequency bucketUs f limit, rows =>
    ∃ times, Limited (· ≤ ·) limit (f.times conv frames) times ∧
      frequencyRows num bucketUs times = .ok rows
  | distribution byteIndex f, rows =>
    ∃ groups, distributionRows conv frames byteIndex f = .ok groups ∧
      Arranged (· ≥ ·) groups rows
  | gaps threshold f limit, rows =>
    ∃ times, Arranged (· ≤ ·) (f.times conv frames) times ∧
      Limited longestFirst limit (gapRows conv num threshold times) rows

def patternRow (row : CaptureFrame) : Int × PatternRow :=
  (row.ts,
    { timestampUs := some (conv.epochUs row.ts)
      frameId := some row.id
      extended := some row.extended
      dataBytes := some row.dataBytes })

/-- The rows the statement of `pattern_search` may be answered with. -/
def PatternSelect.Answers (q : PatternSelect) (rows : List PatternRow) : Prop :=
  Arranged (· ≤ ·) ((frames.filter fun row =>
    row.protocol == q.protocol && timeClause conv q.startTime q.endTime row.ts).map
      (patternRow conv)) rows

/-- A client of a database with this content: it may fail, and answers as PostgreSQL does where it
does not. -/
structure Follows (client : QueryClient) : Prop where
  query : ∀ s rows, client.query s = .ok rows → s.Answers conv num frames rows
  queryRaw : ∀ q rows fail, client.queryRaw q = .ok (rows, fail) →
    ∃ rest, q.Answers conv frames (rows ++ rest)

end Answers

/-! ### Results -/

structure QueryStats where
  rowsScanned : Nat
  resultsCount : Nat
  deriving DecidableEq

structure ByteChangeResult where
  timestampUs : Int64
  oldValue : UInt8
  newValue : UInt8
  deriving DecidableEq

structure FrameChangeResult where
  timestampUs : Int64
  oldPayload : Bytes
  newPayload : Bytes
  changedIndices : List Nat
  deriving DecidableEq

structure MirrorValidationResult where
  mirrorTimestampUs : Int64
  sourceTimestampUs : Int64
  mirrorPayload : Bytes
  sourcePayload : Bytes
  mismatchIndices : List Nat
  deriving DecidableEq

structure BytePositionStats where
  byteIndex : UInt8
  min : UInt8
  max : UInt8
  avg : Float
  distinctCount : UInt32
  sampleCount : Nat

structure Word16Stats where
  startByte : UInt8
  endianness : String
  min : UInt16
  max : UInt16
  avg : Float
  distinctCount : UInt32

structure MuxCaseStats where
  muxValue : UInt16
  frameCount : Nat
  byteStats : List BytePositionStats
  word16Stats : List Word16Stats

structure MuxStatisticsResult where
  muxByte : UInt32
  totalFrames : Nat
  cases : List MuxCaseStats

structure FirstLastResult where
  firstTimestampUs : Int64
  firstPayload : Bytes
  lastTimestampUs : Int64
  lastPayload : Bytes
  totalCount : Nat
  deriving DecidableEq

structure FrequencyBucket where
  bucketStartUs : Int64
  frameCount : Nat
  minIntervalUs : Float
  maxIntervalUs : Float
  avgIntervalUs : Float

structure DistributionResult where
  value : UInt8
  count : Nat
  percentage : Float

structure GapResult where
  gapStartUs : Int64
  gapEndUs : Int64
  durationMs : Float

structure PatternSearchResult where
  timestampUs : Int64
  frameId : UInt32
  isExtended : Bool
  payload : Bytes
  matchPositions : List Nat
  deriving DecidableEq

/-- What every query returns: its results and the statistics beside them. -/
structure QueryResult (α : Type) where
  results : α
  stats : QueryStats
  deriving DecidableEq

/-- A list of results, each of which is one row read. -/
def QueryResult.ofList {α : Type} (results : List α) : QueryResult (List α) :=
  { results, stats := { rowsScanned := results.length, resultsCount := results.length } }

/-! ### Changes -/

/-- The closure `byte_changes` maps over its rows. -/
def ByteChangeRow.result (row : ByteChangeRow) : Option ByteChangeResult :=
  return {
    timestampUs := ← row.timestampUs
    oldValue := (← row.prevByte).toUInt32.toUInt8
    newValue := (← row.currByte).toUInt32.toUInt8 }

/-- `byte_changes`. -/
def byteChanges (client : QueryClient) (p : ByteChangesParams) :
    Except QueryError (Option (QueryResult (List ByteChangeResult))) := do
  let limit := (p.limit.getD 10000).toNat
  let rows ← (client.query (.byteChanges p.byteIndex.toInt32 p.filter limit)).mapError
    (failed "Query failed")
  return (rows.mapM ByteChangeRow.result).map .ofList

/-- `diff_indices`. -/
def diffIndices (a b : Bytes) : List Nat :=
  (List.range (max a.length b.length)).filter fun i => (a[i]?).getD 0 ≠ (b[i]?).getD 0

/-- The closure `frame_changes` maps over its rows. -/
def FrameChangeRow.result (row : FrameChangeRow) : Option FrameChangeResult := do
  let oldPayload ← row.prevData
  let newPayload ← row.dataBytes
  let changedIndices := diffIndices oldPayload newPayload
  return { timestampUs := ← row.timestampUs, oldPayload, newPayload, changedIndices }

/-- `frame_changes`. -/
def frameChanges (client : QueryClient) (p : FrameChangesParams) :
    Except QueryError (Option (QueryResult (List FrameChangeResult))) := do
  let limit := (p.limit.getD 10000).toNat
  let rows ← (client.query (.frameChanges p.filter limit)).mapError (failed "Query failed")
  return (rows.mapM FrameChangeRow.result).map .ofList

/-- The closure `mirror_validation` maps over its rows. -/
def MirrorRow.result (row : MirrorRow) : Option MirrorValidationResult := do
  let mirrorPayload ← row.mirrorPayload
  let sourcePayload ← row.sourcePayload
  let mismatchIndices := diffIndices mirrorPayload sourcePayload
  return {
    mirrorTimestampUs := ← row.mirrorTs
    sourceTimestampUs := ← row.sourceTs
    mirrorPayload
    sourcePayload
    mismatchIndices }

/-- `mirror_validation`. -/
def mirrorValidation (client : QueryClient) (p : MirrorValidationParams) :
    Except QueryError (Option (QueryResult (List MirrorValidationResult))) := do
  let limit := (p.limit.getD 10000).toNat
  let rows ← (client.query (.mirrors p.mirrorFrameId.toInt32 p.sourceFrameId.toInt32
    p.toleranceMs.toInt32 (p.protocol.getD defaultProtocol) p.isExtended p.startTime p.endTime
    limit)).mapError (failed "Query failed")
  return (rows.mapM MirrorRow.result).map .ofList

/-! ### Multiplexers -/

abbrev MuxCases := Std.TreeMap UInt16 MuxCaseStats

/-- The loop over `count_rows`: the cases, and the frames in all of them. -/
def readCount (acc : MuxCases × Nat) (row : MuxCountRow) : Option (MuxCases × Nat) := do
  let muxValue := (← row.muxValue).toUInt32.toUInt16
  let frameCount ← row.frameCount
  return (acc.1.insert muxValue { muxValue, frameCount, byteStats := [], word16Stats := [] },
    acc.2 + frameCount)

/-- What is read of a row of `byte_query`. -/
def MuxByteRow.stats (row : MuxByteRow) : Option BytePositionStats :=
  return {
    byteIndex := (← row.byteIndex).toUInt32.toUInt8
    min := .ofInt (← row.min)
    max := .ofInt (← row.max)
    avg := ← row.avg
    distinctCount := .ofNat (← row.distinctCount)
    sampleCount := ← row.sampleCount }

/-- The loop over `byte_rows`. -/
def readBytes (cases : MuxCases) (row : MuxByteRow) : Option MuxCases := do
  let muxValue := (← row.muxValue).toUInt32.toUInt16
  match cases.get? muxValue with
  | none => return cases
  | some case =>
    return cases.insert muxValue { case with byteStats := case.byteStats ++ [← row.stats] }

/-- What is read of a row of `word_query` for one byte order. -/
def WordColumns.stats (startByte : UInt8) (endianness : String) (columns : WordColumns) :
    Option Word16Stats :=
  return {
    startByte
    endianness
    min := .ofInt (← columns.min)
    max := .ofInt (← columns.max)
    avg := ← columns.avg
    distinctCount := .ofNat (← columns.distinct) }

/-- The loop over `word_rows`. -/
def readWords (cases : MuxCases) (row : MuxWordRow) : Option MuxCases := do
  let muxValue := (← row.muxValue).toUInt32.toUInt16
  match cases.get? muxValue with
  | none => return cases
  | some case =>
    let startByte := (← row.startByte).toUInt32.toUInt8
    let le ← row.le.stats startByte "le"
    let be ← row.be.stats startByte "be"
    return cases.insert muxValue { case with word16Stats := case.word16Stats ++ [le, be] }

/-- `mux_statistics`. -/
def muxStatistics (client : QueryClient) (p : MuxStatisticsParams) :
    Except QueryError (Option (QueryResult MuxStatisticsResult)) := do
  let limit := (p.limit.getD 500000).toNat
  let mux := p.muxSelectorByte.toInt32
  let plen := p.payloadLength.toInt32
  let countRows ← (client.query (.muxCounts mux p.filter limit)).mapError (failed "Query failed")
  let byteRows ← (client.query (.muxBytes mux (mux + 1) (plen - 1) p.filter limit)).mapError
    (failed "Byte stats query failed")
  let counted := do
    let (cases, totalFrames) ← countRows.foldlM readCount (∅, 0)
    return (← byteRows.foldlM readBytes cases, totalFrames)
  match counted with
  | none => return none
  | some (cases, totalFrames) =>
    let wordRows ← if p.include16bit then
        (client.query (.muxWords mux (mux + 1) (plen - 2) p.filter limit)).mapError
          (failed "Word stats query failed")
      else pure []
    return do
      let cases ← wordRows.foldlM readWords cases
      return {
        results := { muxByte := p.muxSelectorByte, totalFrames, cases := cases.values }
        stats := { rowsScanned := totalFrames, resultsCount := cases.size } }

/-! ### First and last -/

/-- `first_last`. -/
def firstLast (client : QueryClient) (p : FirstLastParams) :
    Except QueryError (Option (QueryResult FirstLastResult)) := do
  let firstRows ← (client.query (.first p.filter)).mapError (failed "First query failed")
  if firstRows.isEmpty then
    throw (.badRequest "No frames found matching the filter")
  let lastRows ← (client.query (.last p.filter)).mapError (failed "Last query failed")
  let countRows ← (client.query (.count p.filter)).mapError (failed "Count query failed")
  return do
    let first ← firstRows[0]?
    let firstTimestampUs ← first.timestampUs
    let firstPayload ← first.dataBytes
    let last ← lastRows[0]?
    let lastTimestampUs ← last.timestampUs
    let lastPayload ← last.dataBytes
    let totalCount ← (← countRows[0]?).count
    return {
      results := { firstTimestampUs, firstPayload, lastTimestampUs, lastPayload, totalCount }
      stats := { rowsScanned := 3, resultsCount := 1 } }

/-! ### Frequency and distribution -/

/-- The closure `frequency` maps over its rows. -/
def FrequencyRow.bucket (row : FrequencyRow) : Option FrequencyBucket := do
  let frameCount ← row.frameCount
  return {
    bucketStartUs := (← row.bucketStartUs).toInt64
    frameCount
    minIntervalUs := ← row.minIntervalUs
    maxIntervalUs := ← row.maxIntervalUs
    avgIntervalUs := ← row.avgIntervalUs }

/-- `frequency`. -/
def frequency (client : QueryClient) (p : FrequencyParams) :
    Except QueryError (Option (QueryResult (List FrequencyBucket))) := do
  let limit := (p.limit.getD 500000).toNat
  let bucketUs := p.bucketSizeMs.toUInt64.toInt64 * 1000
  let rows ← (client.query (.frequency bucketUs p.filter limit)).mapError (failed "Query failed")
  return do
    let results ← rows.mapM FrequencyRow.bucket
    return {
      results
      stats := {
        rowsScanned := (results.map (·.frameCount)).sum
        resultsCount := results.length } }

/-- The first loop of `distribution`, whose percentages are filled in by the second. -/
def DistributionRow.result (row : DistributionRow) : Option DistributionResult := do
  let count ← row.count
  return { value := (← row.value).toUInt32.toUInt8, count, percentage := 0.0 }

/-- `distribution`. -/
def distribution (client : QueryClient) (p : DistributionParams) :
    Except QueryError (Option (QueryResult (List DistributionResult))) := do
  let rows ← (client.query (.distribution p.byteIndex.toInt32 p.filter)).mapError
    (failed "Query failed")
  return do
    let results ← rows.mapM DistributionRow.result
    let total := (results.map (·.count)).sum
    let results :=
      if total > 0 then
        results.map fun r => { r with percentage := .ofNat r.count / .ofNat total * 100.0 }
      else results
    return .ofList results

/-! ### Gaps -/

/-- The closure `gap_analysis` maps over its rows. -/
def GapRow.result (row : GapRow) : Option GapResult :=
  return {
    gapStartUs := ← row.gapStartUs
    gapEndUs := ← row.gapEndUs
    durationMs := ← row.durationMs }

/-- `gap_analysis`. -/
def gapAnalysis (client : QueryClient) (p : GapAnalysisParams) :
    Except QueryError (Option (QueryResult (List GapResult))) := do
  let limit := (p.limit.getD 10000).toNat
  let rows ← (client.query (.gaps p.gapThresholdMs p.filter limit)).mapError (failed "Query failed")
  return (rows.mapM GapRow.result).map .ofList

/-! ### Patterns -/

/-- One byte of the pattern against the byte of a payload it is laid over. -/
def PatternSearchParams.byteMatches (p : PatternSearchParams) (data : Bytes) (start j : Nat) :
    Option Bool := do
  let mask ← p.patternMask[j]?
  return (← data[start + j]?) &&& mask == (← p.pattern[j]?) &&& mask

/-- `match_positions` of a payload that is at least as long as the pattern. -/
def PatternSearchParams.matchPositions (p : PatternSearchParams) (data : Bytes) :
    Option (List Nat) :=
  (List.range (data.length - p.pattern.length + 1)).filterM fun start =>
    (List.range p.pattern.length).allM (p.byteMatches data start)

/-- The loop of `pattern_search` over the rows of its stream: how many it took, its results, and
whether it stopped at the limit. -/
def patternLoop (p : PatternSearchParams) (resultLimit : Nat) :
    List PatternRow → Nat → List PatternSearchResult →
      Option (Nat × List PatternSearchResult × Bool)
  | [], rowsScanned, results => some (rowsScanned, results, false)
  | row :: rows, rowsScanned, results => do
    let dataBytes ← row.dataBytes
    if dataBytes.length < p.pattern.length then
      return ← patternLoop p resultLimit rows (rowsScanned + 1) results
    let matchPositions ← p.matchPositions dataBytes
    if matchPositions.isEmpty then
      return ← patternLoop p resultLimit rows (rowsScanned + 1) results
    let result := {
      timestampUs := ← row.timestampUs
      frameId := (← row.frameId).toUInt32
      isExtended := ← row.extended
      payload := dataBytes
      matchPositions }
    let results := results ++ [result]
    if results.length ≥ resultLimit then
      return (rowsScanned + 1, results, true)
    patternLoop p resultLimit rows (rowsScanned + 1) results

/-- `pattern_search`. -/
def patternSearch (client : QueryClient) (p : PatternSearchParams) :
    Except QueryError (Option (QueryResult (List PatternSearchResult))) := do
  if p.pattern.length ≠ p.patternMask.length then
    throw (.badRequest "Pattern and mask must have the same length")
  if p.pattern.isEmpty then
    throw (.badRequest "Pattern must not be empty")
  let resultLimit := (p.limit.getD 10000).toNat
  let (rows, fail) ← (client.queryRaw {
    protocol := p.protocol.getD defaultProtocol
    startTime := p.startTime
    endTime := p.endTime }).mapError (failed "Query failed")
  match patternLoop p resultLimit rows 0 [] with
  | none => return none
  | some (rowsScanned, results, stopped) =>
    match fail, stopped with
    | some e, false => throw (failed "Row fetch failed" e)
    | _, _ => return some { results, stats := { rowsScanned, resultsCount := results.length } }

/-! ### Any of them -/

/-- A request for one of the nine queries. -/
inductive Query where
  | byteChanges (p : ByteChangesParams)
  | frameChanges (p : FrameChangesParams)
  | mirrorValidation (p : MirrorValidationParams)
  | muxStatistics (p : MuxStatisticsParams)
  | firstLast (p : FirstLastParams)
  | frequency (p : FrequencyParams)
  | distribution (p : DistributionParams)
  | gapAnalysis (p : GapAnalysisParams)
  | patternSearch (p : PatternSearchParams)

/-- Whether a query comes neither to a result nor to an error. -/
def panicked {α : Type} : Except QueryError (Option α) → Bool
  | .ok none => true
  | _ => false

/-- Whether a request panics. -/
def Query.panics (client : QueryClient) : Query → Bool
  | byteChanges p => panicked (Gateway.byteChanges client p)
  | frameChanges p => panicked (Gateway.frameChanges client p)
  | mirrorValidation p => panicked (Gateway.mirrorValidation client p)
  | muxStatistics p => panicked (Gateway.muxStatistics client p)
  | firstLast p => panicked (Gateway.firstLast client p)
  | frequency p => panicked (Gateway.frequency client p)
  | distribution p => panicked (Gateway.distribution client p)
  | gapAnalysis p => panicked (Gateway.gapAnalysis client p)
  | patternSearch p => panicked (Gateway.patternSearch client p)

end WireTap.Gateway
