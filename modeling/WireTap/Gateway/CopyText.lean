import WireTap.Gateway.CaptureImport
import WireTap.Gateway.Pending
import WireTap.Lib.CopyText
import WireTap.Lib.Text

/-!
# `copy_text`

The text the writer sends for a batch, and what `COPY` makes of it.  A time is formatted by a
library: `strftime` is what `DateTime::from_timestamp_micros` and then `format` give, and nothing
where the time is out of range.  On the other side, `timestamptz` is what PostgreSQL reads in the text
of a time; of its readers of numbers, byte strings and truth values, the model has the spellings the
writer uses.
-/

namespace WireTap.Gateway

open Wire Lib.CopyText

/-! ### The writer -/

/-- `SqlState::DATETIME_FIELD_OVERFLOW`. -/
def datetimeFieldOverflow : String := "22008"

/-- An integer as `Display` writes it. -/
def decimal (n : Int) : String := .ofList (Lib.ofInt n)

def copyBool (v : Bool) : String := if v then "t" else "f"

/-- `Nullable`. -/
def nullableText : Option String → String
  | some v => v
  | none => "\\N"

/-- The format of a row's time. -/
def timestampFormat : String := "%Y-%m-%dT%H:%M:%S%.6f+00:00"

variable {φ κ : Type} (protocol : ProtocolLib φ κ) (strftime : String → Int → Option String)

/-- The line of a row. -/
def copyLine (ts : String) (row : FrameRow) : String :=
  ts ++ "\t" ++ protocol.asStr row.protocol ++ "\t" ++ decimal row.id.toNat ++ "\t" ++
    decimal row.flags.toNat ++ "\t" ++ decimal row.dlc.toNat ++ "\t\\\\x" ++ hexEncode row.data ++
    "\t" ++ decimal row.bus.toNat ++ "\t" ++ nullableText (row.unit.map decimal) ++ "\t" ++
    nullableText (row.func.map decimal) ++ "\t" ++ nullableText (row.crcValid.map copyBool) ++ "\n"

/-- A turn of `copy_text`'s loop. -/
def copyRow (buf : String) (row : FrameRow) : Except CopyError String :=
  match strftime timestampFormat row.tsUs with
  | some ts => .ok (buf ++ copyLine protocol ts row)
  -- The SQLSTATE PostgreSQL gives the same refusal.
  | none => .error ⟨some datetimeFieldOverflow, "timestamp out of range: " ++ decimal row.tsUs⟩

def copyText (batch : List FrameRow) : Except CopyError String :=
  batch.foldlM (copyRow protocol strftime) ""

/-- `COLUMNS`. -/
def copyColumns : List String :=
  ["ts", "protocol", "id", "flags", "dlc", "data_bytes", "bus", "unit", "func", "crc_valid"]

/-! ### PostgreSQL -/

/-- A hexadecimal digit. -/
def hexValue? (c : Char) : Option Nat :=
  if '0' ≤ c ∧ c ≤ '9' then some (c.toNat - '0'.toNat)
  else if 'a' ≤ c ∧ c ≤ 'f' then some (c.toNat - 'a'.toNat + 10)
  else if 'A' ≤ c ∧ c ≤ 'F' then some (c.toNat - 'A'.toNat + 10)
  else none

def hexDecode : List Char → Option Bytes
  | [] => some []
  | [_] => none
  | hi :: lo :: hex => do
    let h ← hexValue? hi
    let l ← hexValue? lo
    let rest ← hexDecode hex
    return .ofNat (16 * h + l) :: rest

/-- `bytea`, in the hex format. -/
def bytea : List Char → Option Bytes
  | '\\' :: 'x' :: hex => hexDecode hex
  | _ => none

/-- `boolean`. -/
def boolean (text : List Char) : Option Bool :=
  if text = ['t'] then some true else if text = ['f'] then some false else none

/-- A column's value, by the reader of its type; NULL where that is allowed. -/
def nullColumn {α : Type} (reader : List Char → Option α) : Option Field → Option (Option α)
  | some none => some none
  | some (some text) => (reader text).map some
  | none => none

/-- A column's value where it is `NOT NULL`. -/
def column {α : Type} (reader : List Char → Option α) (field : Option Field) : Option α :=
  field.join.bind reader

/-- The row `capture_frame_pending` stores of the columns it is given. -/
def PendingRow.ofColumns (timestamptz : String → Option Int) (now : Int)
    (given : String → Option Field) : Option PendingRow := do
  let ts ← column (fun text => timestamptz (.ofList text)) (given "ts")
  let protocol ← column (fun text => some (String.ofList text)) (given "protocol")
  let id ← column (fun text => (Lib.int? text).bind int4) (given "id")
  let flags ← column (fun text => (Lib.int? text).bind int2) (given "flags")
  let dlc ← column (fun text => (Lib.int? text).bind int2) (given "dlc")
  let dataBytes ← column bytea (given "data_bytes")
  let bus ← column (fun text => (Lib.int? text).bind int4) (given "bus")
  let unit ← nullColumn (fun text => (Lib.int? text).bind int2) (given "unit")
  let func ← nullColumn (fun text => (Lib.int? text).bind int2) (given "func")
  let crcValid ← nullColumn boolean (given "crc_valid")
  return { ts, ingestTs := now, protocol, id, flags, dlc, dataBytes, bus, unit, func, crcValid }

/-- `COPY capture_frame_pending (columns) FROM STDIN`: all rows, or none. -/
def copyIn (timestamptz : String → Option Int) (now : Int) (columns : List String) (text : String) :
    Option (List PendingRow) := do
  let rows ← read text.toList
  rows.mapM fun fields =>
    if fields.length = columns.length then
      PendingRow.ofColumns timestamptz now fun name => (columns.zip fields).lookup name
    else none

end WireTap.Gateway
