import Mathlib.Algebra.Ring.Nat
import WireTap.Gateway.WtarFormat

/-!
# Reading an archive

`Reader`: an upload taken chunk by chunk, its header checked as soon as its bytes are there,
everything after it decompressed a piece at a time, and sections taken from what has been
decompressed.  `manifest` reads the first section and checks it against what this gateway can load;
`load` copies the others into their tables.

The gzip decoder, the manifest's JSON and the database's COPY are parameters.  A call here returns
the reader it leaves behind, and `load` also what it sent to each table.
-/

namespace WireTap.Gateway.Wtar

open Wire

/-! ### What the reader calls -/

/-- `flate2::write::GzDecoder` over a `Vec<u8>`: each call also gives the bytes it adds to it. -/
structure GzDecoder (σ : Type) where
  new : σ
  writeAll : σ → Bytes → Except String (σ × Bytes)
  tryFinish : σ → Except String (σ × Bytes)

/-- `COPY .. FROM STDIN` into one table: opening it, one more chunk after those already sent, and
the end, which gives the rows it took. -/
structure CopyIn where
  copyIn : String → List String → Except PgError Unit
  send : String → List Bytes → Bytes → Except PgError Unit
  finish : String → List Bytes → Except PgError UInt64

/-- `refused_the_rows`: a data exception or an integrity constraint violation. -/
def refusedTheRows (code : Option String) : Bool :=
  code.any fun c => c.startsWith "22" || c.startsWith "23"

/-- `copy_refused`: a data or integrity error is the archive's, anything else the database's. -/
def copyRefused (table : String) (e : PgError) : ImportError :=
  let detail := table ++ ": " ++ dbErrorDetail e
  if refusedTheRows e.code then .badRequest detail else .unavailable detail

/-! ### The reader -/

structure Reader (σ : Type) where
  /-- The chunks still to come. -/
  body : List (Except String Bytes)
  header : Bytes
  /-- Received and not yet decompressed. -/
  received : Bytes
  decoder : σ
  /-- The decoder's `Vec<u8>`. -/
  out : Bytes
  decoded : Bytes
  ended : Bool

variable {σ : Type} (gz : GzDecoder σ)

/-- `Reader::new`. -/
def Reader.new (body : List (Except String Bytes)) : Reader σ :=
  { body, header := [], received := [], decoder := gz.new, out := [], decoded := [], ended := false }

/-- `Reader::check_header`: as far as the header has come. -/
def checkHeader (header : Bytes) : Except ImportError Unit :=
  let start := header.take magic.length
  if start ≠ magic.take start.length then .error (bad "this is not a WireTAP archive")
  else match header[magic.length]? with
    | some v =>
      if v ≠ formatVersion then
        .error (bad ("archive format v" ++ toString v.toNat ++
          " is not one this gateway reads (v" ++ toString formatVersion.toNat ++
          "); upgrade the gateway"))
      else .ok ()
    | none => .ok ()

/-- `Reader::receive`. -/
def Reader.receive (r : Reader σ) : Except ImportError (Reader σ) :=
  match r.body with
  | .error e :: _ => .error (bad ("the upload failed: " ++ e))
  | [] =>
    if r.header.length < magic.length + 1 then
      .error (bad "this is not a WireTAP archive: it is too short")
    else match gz.tryFinish r.decoder with
      | .error e => .error (bad ("the archive is truncated or corrupt: " ++ e))
      | .ok (decoder, out) => .ok { r with decoder, out := r.out ++ out, ended := true }
  | .ok bytes :: body =>
    let wanted := magic.length + 1 - r.header.length
    if 0 < wanted then
      let header := r.header ++ bytes.take wanted
      match checkHeader header with
      | .error e => .error e
      | .ok () => .ok { r with body, header, received := bytes.drop wanted }
    else .ok { r with body, received := bytes }

/-- One piece of what was received, through the decoder. -/
def Reader.inflate (r : Reader σ) : Except ImportError (Reader σ) :=
  match gz.writeAll r.decoder (r.received.take inflateAt) with
  | .error e => .error (bad ("the archive is corrupt: " ++ e))
  | .ok (decoder, out) =>
    .ok { r with received := r.received.drop inflateAt, decoder, out := r.out ++ out }

/-- One round of the loop in `fill`, up to its test. -/
def Reader.advance (r : Reader σ) : Except ImportError (Reader σ) :=
  if r.received.isEmpty then r.receive gz else r.inflate gz

/-- `Reader::take_decoded`. -/
def Reader.takeDecoded (r : Reader σ) : Bool × Reader σ :=
  (!r.out.isEmpty, { r with decoded := r.decoded ++ r.out, out := [] })

/-- The bytes of a chunk of the upload. -/
def chunkLength : Except String Bytes → Nat
  | .ok bytes => bytes.length
  | .error _ => 0

/-- What is left to do: bytes to decompress, chunks to receive, the end to come. -/
def Reader.left (r : Reader σ) : Nat :=
  (r.body.map chunkLength).sum + r.body.length + r.received.length + if r.ended then 0 else 1

theorem Reader.takeDecoded_left (r : Reader σ) : r.takeDecoded.2.left = r.left := rfl

theorem Reader.receive_left {r r' : Reader σ} (hended : r.ended = false)
    (h : r.receive gz = .ok r') : r'.left < r.left := by
  unfold Reader.receive at h
  split at h
  · cases h
  · rename_i hbody
    split at h
    · cases h
    · split at h
      · cases h
      · obtain rfl := Except.ok.inj h
        simp [Reader.left, hended]
  · rename_i bytes body hbody
    dsimp only at h
    split at h
    · split at h
      · cases h
      · obtain rfl := Except.ok.inj h
        simp only [Reader.left, hbody, hended, List.map_cons, List.sum_cons, List.length_cons,
          chunkLength, List.length_drop]
        omega
    · obtain rfl := Except.ok.inj h
      simp only [Reader.left, hbody, hended, List.map_cons, List.sum_cons, List.length_cons,
        chunkLength]
      omega

theorem Reader.inflate_left {r r' : Reader σ} (hreceived : r.received ≠ [])
    (h : r.inflate gz = .ok r') : r'.left < r.left := by
  unfold Reader.inflate at h
  split at h
  · cases h
  · obtain rfl := Except.ok.inj h
    have hpos : 0 < r.received.length := List.length_pos_iff.mpr hreceived
    have hat : 0 < inflateAt := by decide
    simp only [Reader.left, List.length_drop]
    omega

theorem Reader.advance_left {r r' : Reader σ} (hended : r.ended = false)
    (h : r.advance gz = .ok r') : r'.left < r.left := by
  unfold Reader.advance at h
  split at h
  · exact Reader.receive_left gz hended h
  · rename_i hreceived
    exact Reader.inflate_left gz (by simpa using hreceived) h

/-- `Reader::fill`: more decoded bytes, or false at the end of the upload. -/
def Reader.fill (r : Reader σ) : Except ImportError (Bool × Reader σ) :=
  if _ended : r.ended then .ok (false, r)
  else match _advanced : r.advance gz with
    | .error e => .error e
    | .ok r' =>
      if r'.takeDecoded.1 then .ok (true, r'.takeDecoded.2) else r'.takeDecoded.2.fill
termination_by r.left
decreasing_by
  have hleft := Reader.advance_left gz (by simpa using _ended) _advanced
  exact hleft

theorem Reader.fill_eq (r : Reader σ) :
    r.fill gz = if r.ended then .ok (false, r) else (r.advance gz).bind fun r' =>
      if r'.takeDecoded.1 then .ok (true, r'.takeDecoded.2) else r'.takeDecoded.2.fill gz := by
  rw [Reader.fill]
  split
  · rfl
  · split <;> rename_i h <;> rw [h] <;> rfl

/-- What can be carried back over each round of `fill` holds of every reader. -/
theorem Reader.fill_induct {P : Reader σ → Prop}
    (h : ∀ r, (∀ r', r.ended = false → r.advance gz = .ok r' → P r'.takeDecoded.2) → P r)
    (r : Reader σ) : P r := by
  induction hn : r.left using Nat.strongRecOn generalizing r with
  | ind n ih =>
    apply h
    intro r' hended hadvance
    have hleft := Reader.advance_left gz hended hadvance
    rw [hn, ← r'.takeDecoded_left] at hleft
    exact ih _ hleft _ rfl

theorem Reader.fill_left {r r' : Reader σ} (h : r.fill gz = .ok (true, r')) : r'.left < r.left := by
  induction r using Reader.fill_induct gz with
  | h r ih =>
    rw [Reader.fill_eq] at h
    split at h
    · cases h
    · rename_i hended
      have hended : r.ended = false := by simpa using hended
      cases hadvance : r.advance gz with
      | error e =>
        rw [hadvance] at h
        cases h
      | ok next =>
        have hleft := Reader.advance_left gz hended hadvance
        rw [← next.takeDecoded_left] at hleft
        rw [hadvance] at h
        simp only [Except.bind] at h
        split at h
        · cases h
          exact hleft
        · exact Nat.lt_trans (ih next hended hadvance h) hleft

/-- `Reader::take`. -/
def Reader.take (r : Reader σ) (n : Nat) : Except ImportError (Bytes × Reader σ) :=
  if n ≤ r.decoded.length then
    .ok (r.decoded.take n, { r with decoded := r.decoded.drop n })
  else match _filled : r.fill gz with
    | .error e => .error e
    | .ok (false, _) => .error (bad "the archive is truncated")
    | .ok (true, r') => r'.take n
termination_by r.left
decreasing_by exact Reader.fill_left gz _filled

/-- `Reader::section`. -/
def Reader.section (r : Reader σ) (max : Nat) : Except ImportError (Bytes × Reader σ) := do
  let (len, r) ← r.take gz 4
  let len := (fromBeBytes len).toNat
  if len > max then throw (bad "the archive is corrupt: a section is too long")
  r.take gz len

theorem Reader.take_left {r r' : Reader σ} {n : Nat} {bytes : Bytes}
    (h : r.take gz n = .ok (bytes, r')) :
    r'.left < r.left ∨ r'.left = r.left ∧ r'.decoded.length + n = r.decoded.length := by
  induction hn : r.left using Nat.strongRecOn generalizing r with
  | ind left ih =>
    rw [Reader.take] at h
    split at h
    · rename_i hle
      cases h
      refine .inr ⟨hn, ?_⟩
      simp only [List.length_drop]
      omega
    · split at h
      · cases h
      · cases h
      · rename_i next hfill
        have hleft := Reader.fill_left gz hfill
        have hnext := ih next.left (hn ▸ hleft) h rfl
        omega

theorem Reader.section_left {r r' : Reader σ} {max : Nat} {bytes : Bytes}
    (h : r.section gz max = .ok (bytes, r')) :
    r'.left < r.left ∨ r'.left = r.left ∧ r'.decoded.length < r.decoded.length := by
  simp only [Reader.section, bind, Except.bind] at h
  split at h
  · cases h
  · rename_i len hlen
    have hfirst := Reader.take_left gz hlen
    split at h
    · cases h
    · have hsecond := Reader.take_left gz h
      omega

/-! ### The manifest -/

/-- What `manifest` checks of one once it is read. -/
def checkManifest (manifest : Manifest) : Except ImportError Unit :=
  let schemaV := fun v : Int32 => "v" ++ toString v.toInt
  let atV := manifest.schemaVersion
  let ours := schemaVersion
  if atV > ours then
    .error (bad ("the archive is at capture schema " ++ schemaV atV ++
      ", newer than this gateway's " ++ schemaV ours ++ "; upgrade the gateway"))
  else if atV < ours then
    .error (bad ("the archive is at capture schema " ++ schemaV atV ++
      ", and this gateway loads only " ++ schemaV ours ++
      ": its migrator takes a database forward, and there is no " ++ schemaV atV ++
      " database to load the archive into"))
  else if manifest.tables.length == tables.length &&
      (manifest.tables.zip tables).all fun (t, name, columns) =>
        t.name == name && t.columns == columns then
    .ok ()
  else
    .error (bad ("the archive's tables are not the ones a " ++ schemaV ours ++ " archive carries"))

variable (fromSlice : Bytes → Except String Manifest)

/-- `Reader::manifest`, over `serde_json::from_slice`. -/
def Reader.manifest (r : Reader σ) : Except ImportError (Manifest × Reader σ) := do
  let (raw, r) ← r.section gz maxManifest
  let manifest ← (fromSlice raw).mapError fun e => bad ("the archive's manifest is corrupt: " ++ e)
  checkManifest manifest
  return (manifest, r)

/-! ### The tables -/

variable (client : CopyIn)

/-- The loop of `load` over the sections of one table, after those in `sent`. -/
def Reader.copySections (r : Reader σ) (name : String) (sent : List Bytes) :
    Except ImportError (List Bytes × Reader σ) :=
  match _taken : r.section gz maxChunk with
  | .error e => .error e
  | .ok (chunk, r') =>
    if chunk.isEmpty then .ok (sent, r')
    else match client.send name sent chunk with
      | .error e => .error (copyRefused name e)
      | .ok () => r'.copySections name (sent ++ [chunk])
termination_by (r.left, r.decoded.length)
decreasing_by
  rcases Reader.section_left gz _taken with h | ⟨h, h'⟩
  · exact Prod.Lex.left _ _ h
  · rw [h]
    exact Prod.Lex.right _ h'

/-- One table of `load`: what it sent. -/
def Reader.copyTable (r : Reader σ) (table : TableManifest) (name : String)
    (columns : List String) : Except ImportError (List Bytes × Reader σ) := do
  (client.copyIn name columns).mapError (copyRefused name)
  let (sent, r) ← r.copySections gz client name []
  let rows ← (client.finish name sent).mapError (copyRefused name)
  if rows ≠ table.rows then
    throw (bad (name ++ " carried " ++ toString rows.toNat ++
      " rows, and the archive's manifest says " ++ toString table.rows.toNat))
  return (sent, r)

/-- The tables of `load`, in the manifest's order. -/
def Reader.copyTables (r : Reader σ) :
    List (TableManifest × String × List String) →
      Except ImportError (List (List Bytes) × Reader σ)
  | [] => .ok ([], r)
  | (table, name, columns) :: rest => do
    let (sent, r) ← r.copyTable gz client table name columns
    let (others, r) ← r.copyTables rest
    return (sent :: others, r)

/-- `Reader::load`: every table into the client, each holding the rows its manifest says, and
nothing after the last. -/
def Reader.load (r : Reader σ) (manifest : Manifest) :
    Except ImportError (List (List Bytes) × Reader σ) := do
  let (sent, r) ← r.copyTables gz client (manifest.tables.zip tables)
  if !r.decoded.isEmpty then throw (bad "the archive has data after its last table")
  let (more, r) ← r.fill gz
  if more then throw (bad "the archive has data after its last table")
  return (sent, r)

/-- `manifest`, then `load`: what each table was sent. -/
def readArchive (body : List (Except String Bytes)) :
    Except ImportError (Manifest × List (List Bytes)) := do
  let (manifest, r) ← (Reader.new gz body).manifest gz fromSlice
  let (sent, _) ← r.load gz client manifest
  return (manifest, sent)

end WireTap.Gateway.Wtar
