import WireTap.Gateway.Frames

/-!
# The archive format

The file an export is and an import reads: five bytes of header, then one gzip stream of sections.
A section is its length in four bytes, most significant first, and that many bytes.  The first is
the manifest, and then come the sections of each table, an empty one at the end of each.

The manifest is JSON.  `Manifest.toVec` is the text `serde_json` writes for it; the text of its time
is `chrono`'s, a parameter.
-/

namespace WireTap.Gateway.Wtar

open Wire Lib

/-! ### Constants -/

/-- `MAGIC`: `WTAR`. -/
def magic : Bytes := [0x57, 0x54, 0x41, 0x52]

/-- `FORMAT_VERSION`. -/
def formatVersion : UInt8 := 1

/-- `schema::SCHEMA_VERSION`. -/
def schemaVersion : Int32 := 5

/-- `TABLES`: every table an archive carries, in its order, with the columns it carries. -/
def tables : List (String × List String) :=
  [("capture_frame",
    ["ts", "ingest_ts", "protocol", "id", "dlc", "data_bytes", "bus", "flags", "unit", "func",
      "crc_valid"]),
   ("events", ["id", "ts", "duration_us", "note", "created_at", "updated_at"])]

/-- `MAX_CHUNK`. -/
def maxChunk : Nat := 16 <<< 20

/-- `MAX_MANIFEST`. -/
def maxManifest : Nat := 1 <<< 20

/-- `INFLATE_AT`: compressed bytes inflated at a time. -/
def inflateAt : Nat := 8 <<< 10

/-- `SEND_AT`: compressed bytes gathered before they are sent. -/
def sendAt : Nat := 256 <<< 10

/-- `PIECE`: COPY bytes gathered into a section. -/
def pieceAt : Nat := 64 <<< 10

/-! ### Sections -/

/-- `u32::to_be_bytes`. -/
def toBeBytes (n : UInt32) : Bytes :=
  [.ofNat (n.toNat / 16777216), .ofNat (n.toNat / 65536), .ofNat (n.toNat / 256), .ofNat n.toNat]

/-- `u32::from_be_bytes`. -/
def fromBeBytes (bytes : Bytes) : UInt32 :=
  .ofNat (bytes.foldl (fun n b => n * 256 + b.toNat) 0)

/-- A section as it stands in the stream. -/
def sectionBytes (bytes : Bytes) : Bytes := toBeBytes (.ofNat bytes.length) ++ bytes

/-- The sections of one table, and the empty one that ends it. -/
def tableBytes (sections : List Bytes) : Bytes := sections.flatMap sectionBytes ++ sectionBytes []

/-! ### The manifest -/

structure Window where
  fromUs : Int64
  toUs : Int64
  deriving DecidableEq

structure TableManifest where
  name : String
  columns : List String
  rows : UInt64
  deriving DecidableEq

/-- `Manifest`; `createdAt` is a `DateTime<Utc>`, in nanoseconds since the epoch. -/
structure Manifest where
  schemaVersion : Int32
  gatewayVersion : String
  createdAt : Int
  database : String
  window : Option Window
  tables : List TableManifest
  deriving DecidableEq

/-- The bytes of a text. -/
def utf8 (s : String) : Bytes := toUtf8 s.toList

/-- A byte of a JSON string: `serde_json` escapes the quote, the backslash and control characters. -/
def jsonByte (b : UInt8) : Bytes :=
  match b with
  | 0x22 => utf8 "\\\""
  | 0x5c => utf8 "\\\\"
  | 0x08 => utf8 "\\b"
  | 0x0c => utf8 "\\f"
  | 0x0a => utf8 "\\n"
  | 0x0d => utf8 "\\r"
  | 0x09 => utf8 "\\t"
  | b =>
    if b < 0x20 then
      utf8 "\\u00" ++ toUtf8 [Nat.digitChar (b.toNat / 16), Nat.digitChar (b.toNat % 16)]
    else [b]

def jsonString (s : String) : Bytes := utf8 "\"" ++ (utf8 s).flatMap jsonByte ++ utf8 "\""

def jsonInt (z : Int) : Bytes := toUtf8 (ofInt z)

/-- A value between brackets, its items parted by commas. -/
def jsonArray (items : List Bytes) : Bytes :=
  utf8 "[" ++ (items.intersperse (utf8 ",")).flatten ++ utf8 "]"

def jsonWindow : Option Window → Bytes
  | none => utf8 "null"
  | some w =>
    utf8 "\x7b\"from_us\":" ++ jsonInt w.fromUs.toInt ++ utf8 ",\"to_us\":" ++ jsonInt w.toUs.toInt ++
      utf8 "\x7d"

def jsonTable (t : TableManifest) : Bytes :=
  utf8 "\x7b\"name\":" ++ jsonString t.name ++ utf8 ",\"columns\":" ++
    jsonArray (t.columns.map jsonString) ++ utf8 ",\"rows\":" ++ jsonInt t.rows.toNat ++ utf8 "\x7d"

/-- `serde_json::to_vec` of a manifest, over the text `chrono` gives its time. -/
def Manifest.toVec (rfc3339 : Int → String) (m : Manifest) : Bytes :=
  utf8 "\x7b\"schema_version\":" ++ jsonInt m.schemaVersion.toInt ++
    utf8 ",\"gateway_version\":" ++ jsonString m.gatewayVersion ++
    utf8 ",\"created_at\":" ++ jsonString (rfc3339 m.createdAt) ++
    utf8 ",\"database\":" ++ jsonString m.database ++
    utf8 ",\"window\":" ++ jsonWindow m.window ++
    utf8 ",\"tables\":" ++ jsonArray (m.tables.map jsonTable) ++ utf8 "\x7d"

/-! ### Refusals -/

/-- Why an import did not happen, by whose fault. -/
inductive ImportError where
  | badRequest (message : String)
  | notFound (message : String)
  | conflict (message : String)
  | unavailable (message : String)
  deriving DecidableEq

/-- `bad`. -/
def bad (message : String) : ImportError := .badRequest message

end WireTap.Gateway.Wtar
