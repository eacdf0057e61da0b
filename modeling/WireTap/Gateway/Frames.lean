import WireTap.Lib.Text
import WireTap.Wire.Sample

/-!
# Reading frames back in batches

The table `capture_frame` as the read side sees it, and `frames_batch`: one page of frames in
ascending time order, with the cursor the next page is asked for with.  The table has no unique key,
so a cursor is the last timestamp of a page and how many rows at it were already given out.

What the code leaves to PostgreSQL is the parameter `Client`: the answer to each query, which
`Answers` specifies, and the conversions between a stored time and the number the API speaks
(`Conversions`), which go through a `float8` both ways.
-/

namespace WireTap.Gateway

open Wire Lib

/-! ### The table -/

/-- `capture_frame_protocol_columns_check`: each column belongs to its protocol. -/
def protocolColumnsCheck (protocol : Wire.Protocol) (flags : Int16) (unit func : Option Int16)
    (crcValid : Option Bool) : Bool :=
  match protocol with
  | .can => unit.isNone && func.isNone && crcValid.isNone
  | .modbusRtu => (flags == 0 || flags == 32) && unit.isSome && func.isSome && crcValid.isSome
  | .serial => (flags == 0 || flags == 32) && unit.isNone && func.isNone && crcValid.isNone

/-- One row of `capture_frame`, as the table's constraints let it be.  `flags` may be NULL by its
type, and is not by the check on the protocol's columns. -/
structure CaptureFrame where
  /-- Microseconds since the epoch. -/
  ts : Int
  protocol : Wire.Protocol
  id : Int32
  dlc : Int16
  dataBytes : Bytes
  bus : Int32
  flags : Int16
  unit : Option Int16
  func : Option Int16
  crcValid : Option Bool
  dlc_check : 0 ≤ dlc ∧ dlc ≤ 256
  columns_check : protocolColumnsCheck protocol flags unit func crcValid = true
  deriving DecidableEq

/-- `EXTENDED`: `flags & 8 <> 0`. -/
def CaptureFrame.extended (row : CaptureFrame) : Bool := row.flags &&& 8 ≠ 0

/-- `NOT_REMOTE`: `flags & 1 = 0`. -/
def CaptureFrame.notRemote (row : CaptureFrame) : Bool := row.flags &&& 1 = 0

/-! ### PostgreSQL -/

/-- The conversions of a time that PostgreSQL and the driver do between them. -/
structure Conversions where
  /-- `(EXTRACT(EPOCH FROM ts) * 1000000)::float8`, read as an `i64`. -/
  epochUs : Int → Int64
  /-- `to_timestamp(ts_us::float8 / 1000000.0)`. -/
  toTimestamp : Int64 → Int
  /-- `text::timestamptz`; `none` where PostgreSQL cannot read the text. -/
  timestamptz : String → Option Int

/-- `tokio_postgres::error::DbError`: what the server said. -/
structure DbError where
  code : String
  severity : String
  message : String

/-- `tokio_postgres::Error`: the server's error where it is one, and how it prints. -/
structure PgError where
  server : Option DbError
  text : String

/-- `Error::code`. -/
def PgError.code (e : PgError) : Option String := e.server.map (·.code)

/-- `db_error_detail`: the server's message is the only part worth reading. -/
def dbErrorDetail (e : PgError) : String :=
  match e.server with
  | some d => d.severity ++ ": " ++ d.message
  | none => e.text

/-- Why a query gave no answer: something in the request, or the database. -/
inductive QueryError where
  | badRequest (message : String)
  | database (message : String)
  deriving DecidableEq

/-- `refused_for_the_request`: class 22, `QUERY_CANCELED` or `INSUFFICIENT_PRIVILEGE`. -/
def refusedForTheRequest (code : Option String) : Bool :=
  code.any fun c => c.startsWith "22" || c == "57014" || c == "42501"

/-- `QueryError::postgres`. -/
def QueryError.postgres (message : String) (e : PgError) : QueryError :=
  if refusedForTheRequest e.code then .badRequest message else .database message

/-- `failed(what)`. -/
def failed (what : String) (e : PgError) : QueryError := .postgres (what ++ ": " ++ e.text) e

/-- `DEFAULT_PROTOCOL`. -/
def defaultProtocol : Wire.Protocol := .can

/-- The statement `frames_batch` sends: its `WHERE` clauses and its `LIMIT`. -/
structure FramesSelect where
  protocol : Wire.Protocol
  /-- `AND ts >= to_timestamp(..)`, the cursor's. -/
  fromUs : Option Int64
  startTime : Option String
  endTime : Option String
  limit : Nat
  deriving DecidableEq

/-- `time_clause`: from the start on, before the end. -/
def timeClause (conv : Conversions) (startTime endTime : Option String) (ts : Int) : Bool :=
  startTime.all (fun s => (conv.timestamptz s).any (· ≤ ts)) &&
    endTime.all fun e => (conv.timestamptz e).any (ts < ·)

/-- The `WHERE` clauses of a statement, on one row. -/
def FramesSelect.admits (conv : Conversions) (q : FramesSelect) (row : CaptureFrame) : Bool :=
  row.protocol == q.protocol && q.fromUs.all (fun us => conv.toTimestamp us ≤ row.ts) &&
    timeClause conv q.startTime q.endTime row.ts

/-- What `ORDER BY ts ASC LIMIT n` promises: the first `n` of the admitted rows in some order that
sorts them by time. -/
def Answers (conv : Conversions) (archive : List CaptureFrame) (q : FramesSelect)
    (rows : List CaptureFrame) : Prop :=
  ∃ sorted : List CaptureFrame, sorted.Perm (archive.filter (q.admits conv)) ∧
    sorted.Pairwise (fun a b => a.ts ≤ b.ts) ∧ rows = sorted.take q.limit

/-- `Client::query` for the statements of `frames_batch`. -/
abbrev Client := FramesSelect → Except PgError (List CaptureFrame)

/-! ### Frames as the API gives them -/

/-- Bits of `CanFlags`. -/
def CanFlags.rtr : UInt8 := 1
def CanFlags.brs : UInt8 := 2
def CanFlags.esi : UInt8 := 4
def CanFlags.ext : UInt8 := 8
def CanFlags.fd : UInt8 := 16
def CanFlags.tx : UInt8 := 32

/-- `CanFlags::contains`. -/
def CanFlags.contains (flags bit : UInt8) : Bool := flags &&& bit == bit

/-- `hex::encode`. -/
def hexEncode (data : Bytes) : String :=
  .ofList (data.flatMap fun b => [Nat.digitChar (b.toNat / 16), Nat.digitChar (b.toNat % 16)])

structure FrameBatchRow where
  tsUs : Int64
  id : UInt32
  extended : Bool
  dlc : UInt16
  len : Option UInt16
  isFd : Bool
  isRtr : Bool
  isBrs : Bool
  isEsi : Bool
  bus : UInt8
  dir : String
  dataHex : String
  crcValid : Option Bool
  deriving DecidableEq

structure FrameBatch where
  frames : List FrameBatchRow
  nextCursor : Option String
  deriving DecidableEq

/-- The closure `frames_batch` maps over its rows. -/
def FrameBatchRow.ofRow (conv : Conversions) (row : CaptureFrame) : FrameBatchRow :=
  let flags := row.flags.toUInt16.toUInt8
  { tsUs := conv.epochUs row.ts
    id := row.id.toUInt32
    extended := CanFlags.contains flags CanFlags.ext
    dlc := row.dlc.toUInt16
    len := some (.ofNat row.dataBytes.length)
    isFd := CanFlags.contains flags CanFlags.fd
    isRtr := CanFlags.contains flags CanFlags.rtr
    isBrs := CanFlags.contains flags CanFlags.brs
    isEsi := CanFlags.contains flags CanFlags.esi
    bus := row.bus.toUInt32.toUInt8
    dir := if CanFlags.contains flags CanFlags.tx then "tx" else "rx"
    dataHex := hexEncode row.dataBytes
    crcValid := row.crcValid }

/-! ### The cursor -/

/-- The text of a cursor: `{ts_us}:{skip}`. -/
def cursorText (tsUs : Int64) (skip : UInt32) : List Char :=
  ofInt tsUs.toInt ++ ':' :: Nat.toDigits 10 skip.toNat

/-- `encode_cursor`. -/
def encodeCursor (tsUs : Int64) (skip : UInt32) : String :=
  .ofList (Base64.encode (toUtf8 (cursorText tsUs skip)))

/-- `str::parse::<i64>`. -/
def parseI64 (text : List Char) : Option Int64 := do
  let z ← int? text
  if Int64.minValue.toInt ≤ z ∧ z ≤ Int64.maxValue.toInt then some (.ofInt z) else none

/-- `str::parse::<u32>`. -/
def parseU32 (text : List Char) : Option UInt32 := do
  let n ← unsigned? text
  if n < UInt32.size then some (.ofNat n) else none

/-- `decode_cursor`, whose every error reads the same. -/
def decodeCursor (cursor : String) : Except String (Int64 × UInt32) :=
  let decoded := do
    let raw ← Base64.decode cursor.toList
    let s ← fromUtf8 raw
    let (ts, skip) ← splitOnce ':' s
    let ts ← parseI64 ts
    let skip ← parseU32 skip
    pure (ts, skip)
  match decoded with
  | some cursor => .ok cursor
  | none => .error "bad cursor"

/-! ### `frames_batch` -/

/-- `cursor.map(|(_, s)| s).unwrap_or(0) as usize`. -/
def skipOf : Option (Int64 × UInt32) → Nat
  | some (_, s) => s.toNat
  | none => 0

/-- The statement of a page. -/
def framesSelect (startTime endTime : Option String) (cursor : Option (Int64 × UInt32))
    (limit : UInt32) (protocol : Option Wire.Protocol) : FramesSelect :=
  { protocol := protocol.getD defaultProtocol
    fromUs := cursor.map (·.1)
    startTime
    endTime
    limit := limit.toNat + skipOf cursor }

/-- The skip a page's cursor carries forward: a page that ends in the timestamp it began in goes on
counting from there. -/
def carried (cursor : Option (Int64 × UInt32)) (lastTs : Int64) : UInt32 :=
  match cursor with
  | some (ts, s) => if ts == lastTs then s else 0
  | none => 0

/-- The cursor after a page of frames that is not the last. -/
def nextCursor (cursor : Option (Int64 × UInt32)) (frames : List FrameBatchRow) : Option String :=
  match frames.getLast? with
  | none => none
  | some last =>
    let ties : UInt32 :=
      .ofNat (frames.reverse.takeWhile fun f => f.tsUs == last.tsUs).length
    some (encodeCursor last.tsUs (ties + carried cursor last.tsUs))

/-- `frames_batch`. -/
def framesBatch (conv : Conversions) (client : Client) (startTime endTime after : Option String)
    (limit : UInt32) (protocol : Option Wire.Protocol) : Except QueryError FrameBatch := do
  let cursor ← match after with
    | none => pure none
    | some text => match decodeCursor text with
      | .ok cursor => pure (some cursor)
      | .error message => throw (.badRequest message)
  let q := framesSelect startTime endTime cursor limit protocol
  let skip := skipOf cursor
  let rows ← (client q).mapError (failed "Frame query failed")
  let exhausted := rows.length < limit.toNat + skip
  let frames := (rows.drop skip).map (FrameBatchRow.ofRow conv)
  pure { frames, nextCursor := if exhausted then none else nextCursor cursor frames }

/-! ### A client that follows the cursor -/

/-- Asks for pages until one comes without a cursor, the `k`-th with `limits k` and answered by
`clients k`: all the frames, in the order they came.  `none` where a page is refused, or the fuel
runs out before the last one. -/
def walk (conv : Conversions) (clients : Nat → Client) (startTime endTime : Option String)
    (protocol : Option Wire.Protocol) (limits : Nat → UInt32) :
    Nat → Nat → Option String → Option (List FrameBatchRow)
  | 0, _, _ => none
  | fuel + 1, k, after =>
    match framesBatch conv (clients k) startTime endTime after (limits k) protocol with
    | .error _ => none
    | .ok batch => match batch.nextCursor with
      | none => some batch.frames
      | some cursor =>
        (walk conv clients startTime endTime protocol limits fuel (k + 1) (some cursor)).map
          (batch.frames ++ ·)

end WireTap.Gateway
