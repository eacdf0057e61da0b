import WireTap.Gateway.WtarFormat

/-!
# Writing an archive

`write_archive`: the manifest and the rows of every table, from one snapshot of the database, as the
chunks of a download.  Rows are gathered into sections of about `PIECE`, and compressed bytes into
chunks of about `SEND_AT`.

The snapshot's answers, the gzip encoder and the clock are parameters.
-/

namespace WireTap.Gateway.Wtar

open Wire

/-! ### What the writer calls -/

/-- `flate2::write::GzEncoder` over a `Vec<u8>`: each call also gives the bytes it adds to it. -/
structure GzEncoder (σ : Type) where
  new : σ
  writeAll : σ → Bytes → Except String (σ × Bytes)
  finish : σ → Except String Bytes

/-- The database within one read-only transaction. -/
structure Snapshot where
  start : Except PgError Unit
  /-- `SELECT count(*)` of a table, within the window. -/
  count : Option Window → String → Except PgError Int64
  detectVersion : Except String (Option Int32)
  /-- `COPY (SELECT ..) TO STDOUT` of a table's columns, within the window: its messages. -/
  copyOut : Option Window → String → List String → Except PgError (List (Except PgError Bytes))
  commit : Except PgError Unit

/-- The download: what was sent to it, and after how many chunks it is abandoned, if it is. -/
structure Out where
  sent : List Bytes
  abandoned : Option Nat

/-- `send`. -/
def Out.send (out : Out) (bytes : Bytes) : Except String Out :=
  if out.abandoned.any (· ≤ out.sent.length) then .error "the download was abandoned"
  else .ok { out with sent := out.sent ++ [bytes] }

/-! ### `Compressed` -/

structure Compressed (σ : Type) where
  encoder : σ
  /-- The encoder's `Vec<u8>`. -/
  buffer : Bytes
  out : Out

variable {σ : Type} (gz : GzEncoder σ)

/-- `write_all` on the encoder. -/
def Compressed.writeAll (c : Compressed σ) (bytes : Bytes) : Except String (Compressed σ) := do
  let (encoder, added) ← gz.writeAll c.encoder bytes
  return { c with encoder, buffer := c.buffer ++ added }

/-- `Compressed::section`: a length, then the bytes; an empty one ends a table. -/
def Compressed.section (c : Compressed σ) (bytes : Bytes) : Except String (Compressed σ) := do
  if UInt32.size ≤ bytes.length then throw "a section past 4 GiB"
  let c ← c.writeAll gz (toBeBytes (.ofNat bytes.length))
  let c ← c.writeAll gz bytes
  if sendAt ≤ c.buffer.length then
    let out ← c.out.send c.buffer
    return { c with buffer := [], out }
  return c

/-- `Compressed::finish`. -/
def Compressed.finish (c : Compressed σ) : Except String Out := do
  let rest ← gz.finish c.encoder
  c.out.send (c.buffer ++ rest)

/-! ### `write_archive` -/

/-- The messages of one table, gathered into sections; `piece` is what was gathered so far. -/
def Compressed.rows (c : Compressed σ) (piece : Bytes) :
    List (Except PgError Bytes) → Except String (Compressed σ)
  | [] => if piece.isEmpty then .ok c else c.section gz piece
  | .error e :: _ => .error (dbErrorDetail e)
  | .ok row :: rows =>
    if pieceAt ≤ (piece ++ row).length then do
      let c ← c.section gz (piece ++ row)
      c.rows [] rows
    else c.rows (piece ++ row) rows

variable (snapshot : Snapshot) (window : Option Window)

/-- The counting loop: what the manifest says of each table. -/
def tableManifests : List (String × List String) → Except String (List TableManifest)
  | [] => .ok []
  | (name, columns) :: rest => do
    let rows ← (snapshot.count window name).mapError dbErrorDetail
    let others ← tableManifests rest
    return { name, columns, rows := rows.toUInt64 } :: others

/-- The copying loop: the sections of each table. -/
def Compressed.tables (c : Compressed σ) :
    List (String × List String) → Except String (Compressed σ)
  | [] => .ok c
  | (name, columns) :: rest => do
    let rows ← (snapshot.copyOut window name columns).mapError dbErrorDetail
    let c ← c.rows gz [] rows
    let c ← c.section gz []
    c.tables rest

variable (rfc3339 : Int → String)

/-- What `write_archive` sends, once it has the manifest. -/
def writeSections (manifest : Manifest) (out : Out) : Except String Out := do
  let out ← out.send (magic ++ [formatVersion])
  let c : Compressed σ := { encoder := gz.new, buffer := [], out }
  let c ← c.section gz (manifest.toVec rfc3339)
  let c ← c.tables gz snapshot window tables
  snapshot.commit.mapError dbErrorDetail
  c.finish gz

/-- `write_archive`, of the gateway `version` at the time `now`. -/
def writeArchive (version : String) (now : Int) (database : String) (out : Out) :
    Except String Out := do
  snapshot.start.mapError dbErrorDetail
  let manifests ← tableManifests snapshot window tables
  let detected ← snapshot.detectVersion
  match detected with
  | none => throw "no capture schema"
  | some schemaVersion =>
    writeSections gz snapshot window rfc3339
      { schemaVersion, gatewayVersion := version, createdAt := now, database, window,
        tables := manifests } out

end WireTap.Gateway.Wtar
