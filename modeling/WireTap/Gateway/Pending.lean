import WireTap.Gateway.FrameRow
import WireTap.Gateway.Frames

/-!
# The rows of the ingest buffer

A row waits in `capture_frame_pending`, which has the columns of `capture_frame` and none of its
`CHECK`s, until `drain_pending` inserts the whole buffer into `capture_frame` with one statement:
a row that only the second table refuses would fail every drain.

A column that may be NULL is an `Option`.  A constraint is a truth value of SQL, which may be NULL
itself, and a row violates it only if it is false.  What PostgreSQL makes of the text `copy_text`
writes for a time is the parameter `timestamptz`; the texts of the other columns are read back as
the values they were written from, where these fit the column's type.
-/

namespace WireTap.Gateway

open Wire

/-! ### Types and constraints -/

/-- `integer`. -/
def int4 (n : Int) : Option Int32 :=
  if Int32.minValue.toInt ≤ n ∧ n ≤ Int32.maxValue.toInt then some (.ofInt n) else none

/-- `smallint`. -/
def int2 (n : Int) : Option Int16 :=
  if Int16.minValue.toInt ≤ n ∧ n ≤ Int16.maxValue.toInt then some (.ofInt n) else none

/-- A column that may be NULL: the text of a value, or `\N`. -/
def nullable {α β : Type} (input : α → Option β) : Option α → Option (Option β)
  | none => some none
  | some v => (input v).map some

/-- `AND`. -/
def sqlAnd : Option Bool → Option Bool → Option Bool
  | some false, _ | _, some false => some false
  | some true, some true => some true
  | _, _ => none

/-- `IN`, of a list without NULL. -/
def sqlIn {α : Type} [DecidableEq α] (v : Option α) (options : List α) : Option Bool :=
  v.map fun x => decide (x ∈ options)

def sqlIsNull {α : Type} (v : Option α) : Option Bool := some v.isNone

def sqlIsNotNull {α : Type} (v : Option α) : Option Bool := some v.isSome

/-- A row violates a `CHECK` only if it is false. -/
def satisfies (check : Option Bool) : Bool := check ≠ some false

/-! ### The tables -/

/-- A row of `capture_frame_pending`. -/
structure PendingRow where
  ts : Int
  ingestTs : Int
  protocol : String
  id : Int32
  flags : Int16
  dlc : Int16
  dataBytes : Bytes
  bus : Int32
  unit : Option Int16
  func : Option Int16
  crcValid : Option Bool
  deriving DecidableEq

/-- A row for `capture_frame`, before its constraints are checked. -/
@[ext] structure CaptureRow where
  ts : Option Int
  ingestTs : Option Int
  protocol : Option String
  id : Option Int32
  dlc : Option Int16
  dataBytes : Option Bytes
  bus : Option Int32
  flags : Option Int16
  unit : Option Int16
  func : Option Int16
  crcValid : Option Bool
  deriving DecidableEq

namespace CaptureRow

/-- The columns that are `NOT NULL`. -/
def notNull (row : CaptureRow) : Bool :=
  row.ts.isSome && row.ingestTs.isSome && row.protocol.isSome && row.id.isSome && row.dlc.isSome &&
    row.dataBytes.isSome && row.bus.isSome

def protocolCheck (row : CaptureRow) : Option Bool :=
  sqlIn row.protocol ["can", "modbus_rtu", "serial"]

def dlcCheck (row : CaptureRow) : Option Bool :=
  sqlAnd (row.dlc.map (0 ≤ ·)) (row.dlc.map (· ≤ 256))

/-- `capture_frame_protocol_columns_check`. -/
def protocolColumnsCheck (row : CaptureRow) : Option Bool :=
  let modbus (isThere : {α : Type} → Option α → Option Bool) :=
    sqlAnd (isThere row.unit) (sqlAnd (isThere row.func) (isThere row.crcValid))
  if row.protocol = some "can" then
    sqlAnd (sqlIsNotNull row.flags) (modbus sqlIsNull)
  else if row.protocol = some "modbus_rtu" then
    sqlAnd (sqlIsNotNull row.flags) (sqlAnd (sqlIn row.flags [0, 32]) (modbus sqlIsNotNull))
  else
    sqlAnd (sqlIsNotNull row.flags) (sqlAnd (sqlIn row.flags [0, 32]) (modbus sqlIsNull))

/-- The table takes the row. -/
def accepted (row : CaptureRow) : Bool :=
  row.notNull && satisfies row.protocolCheck && satisfies row.dlcCheck &&
    satisfies row.protocolColumnsCheck

end CaptureRow

/-! ### Into the buffer, and out of it -/

variable {φ κ : Type} (protocol : ProtocolLib φ κ) (timestamptz : Int → Option Int)

/-- The row `COPY` stores in the buffer, where its columns' types take it. -/
def FrameRow.pending (now : Int) (row : FrameRow) : Option PendingRow := do
  let ts ← timestamptz row.tsUs
  let id ← int4 row.id.toNat
  let flags ← int2 row.flags.toNat
  let dlc ← int2 row.dlc.toNat
  let bus ← int4 row.bus.toNat
  let unit ← nullable int2 row.unit
  let func ← nullable int2 row.func
  return { ts, ingestTs := now, protocol := protocol.asStr row.protocol, id, flags, dlc,
           dataBytes := row.data, bus, unit, func, crcValid := row.crcValid }

/-- The row the drain inserts. -/
def PendingRow.captured (row : PendingRow) : CaptureRow where
  ts := row.ts
  ingestTs := row.ingestTs
  protocol := row.protocol
  id := row.id
  dlc := row.dlc
  dataBytes := row.dataBytes
  bus := row.bus
  flags := row.flags
  unit := row.unit
  func := row.func
  crcValid := row.crcValid

/-- The drain's `INSERT`: all rows of the buffer, or none. -/
def drainInsert (buffer : List PendingRow) : Option (List CaptureRow) :=
  if buffer.all fun row => row.captured.accepted then some (buffer.map PendingRow.captured) else none

end WireTap.Gateway
