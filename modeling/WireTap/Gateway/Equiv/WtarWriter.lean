import WireTap.Gateway.Equiv.WtarReader
import WireTap.Gateway.WtarWriter

/-!
# An archive is read back as it was written

Everything `write_archive` does goes through the encoder as sections, so what it has sent is always
the header and the compressed form of the sections written so far (`Wrote`).  A section it gathers
stays below `PIECE` and one more message (`rows_wrote`), so the reader's bound admits it, and the
manifest's JSON is far below its own (`length_toVec_le`).  With a decoder that undoes the encoder,
the reader then finds the sections the writer made, however the download is cut into an upload.
-/

namespace WireTap.Gateway.Wtar

open Wire Lib

/-! ### The size of a manifest -/

theorem length_toUtf8_le (text : List Char) : (toUtf8 text).length ≤ 4 * text.length := by
  have hbytes : toUtf8 text = text.flatMap String.utf8EncodeChar := by
    simp [toUtf8, String.toByteArray_ofList, List.utf8Encode]
  rw [hbytes]
  induction text with
  | nil => exact Nat.le_refl _
  | cons c text ih =>
    have hc := c.utf8Size_le_four
    have hsize := String.length_utf8EncodeChar c
    have htail := ih (by simp [toUtf8, String.toByteArray_ofList, List.utf8Encode])
    rw [List.flatMap_cons, List.length_append, List.length_cons]
    omega

theorem length_jsonByte_le (b : UInt8) : (jsonByte b).length ≤ 6 := by
  have hall : ∀ n : Fin 256, (jsonByte (.ofNat n)).length ≤ 6 := by decide +kernel
  have hb := hall ⟨b.toNat, b.toNat_lt⟩
  rwa [UInt8.ofNat_toNat] at hb

theorem length_jsonString_le (s : String) :
    (jsonString s).length ≤ 6 * (utf8 s).length + 2 := by
  have hbytes : ∀ bytes : Bytes, (bytes.flatMap jsonByte).length ≤ 6 * bytes.length := by
    intro bytes
    induction bytes with
    | nil => exact Nat.le_refl _
    | cons b bytes ih =>
      have hb := length_jsonByte_le b
      rw [List.flatMap_cons, List.length_append, List.length_cons]
      omega
  have hquote : (utf8 "\"").length = 1 := rfl
  have hbody := hbytes (utf8 s)
  rw [jsonString, List.length_append, List.length_append, hquote]
  omega

/-- The numeral of a machine integer is at most twenty digits and a sign. -/
theorem length_jsonInt_le {z : Int} (h : z.natAbs < 10 ^ 20) : (jsonInt z).length ≤ 84 := by
  have hdigits : (Nat.toDigits 10 z.natAbs).length ≤ 20 :=
    (Nat.length_toDigits_le_iff (by omega) (by omega)).mpr h
  have hofInt : (ofInt z).length ≤ 21 := by
    unfold ofInt
    split
    · rw [List.length_cons]
      omega
    · omega
  have hutf8 := length_toUtf8_le (ofInt z)
  rw [jsonInt]
  omega

theorem length_jsonInt_i32_le (z : Int32) : (jsonInt z.toInt).length ≤ 84 := by
  have hlt := z.toInt_lt
  have hge := z.le_toInt
  apply length_jsonInt_le
  omega

theorem length_jsonInt_i64_le (z : Int64) : (jsonInt z.toInt).length ≤ 84 := by
  have hlt := z.toInt_lt
  have hge := z.le_toInt
  apply length_jsonInt_le
  omega

theorem length_jsonInt_u64_le (n : UInt64) : (jsonInt n.toNat).length ≤ 84 := by
  have hlt := n.toNat_lt
  apply length_jsonInt_le
  omega

theorem length_jsonWindow_le (window : Option Window) : (jsonWindow window).length ≤ 200 := by
  match window with
  | none => decide +kernel
  | some w =>
    have hfrom := length_jsonInt_i64_le w.fromUs
    have hto := length_jsonInt_i64_le w.toUs
    have hopen : (utf8 "\x7b\"from_us\":").length = 11 := rfl
    have hmiddle : (utf8 ",\"to_us\":").length = 9 := rfl
    have hclose : (utf8 "\x7d").length = 1 := rfl
    simp only [jsonWindow, List.length_append]
    omega

/-- What a manifest says of the tables, whatever their rows. -/
def countedTables (rows : String → UInt64) : List TableManifest :=
  tables.map fun t => { name := t.1, columns := t.2, rows := rows t.1 }

/-- A table in the manifest, less its rows. -/
theorem length_jsonTable_le (t : TableManifest) :
    (jsonTable t).length ≤
      120 + (jsonString t.name).length + (jsonArray (t.columns.map jsonString)).length := by
  have hrows := length_jsonInt_u64_le t.rows
  have hkeys : (utf8 "\x7b\"name\":").length + (utf8 ",\"columns\":").length +
      (utf8 ",\"rows\":").length + (utf8 "\x7d").length ≤ 36 := by decide +kernel
  simp only [jsonTable, List.length_append]
  omega

theorem length_jsonTables_le (rows : String → UInt64) :
    (jsonArray ((countedTables rows).map jsonTable)).length ≤ 600 := by
  have hframes := length_jsonTable_le ⟨"capture_frame", ["ts", "ingest_ts", "protocol", "id", "dlc",
    "data_bytes", "bus", "flags", "unit", "func", "crc_valid"], rows "capture_frame"⟩
  have hevents := length_jsonTable_le ⟨"events", ["id", "ts", "duration_us", "note", "created_at",
    "updated_at"], rows "events"⟩
  have htexts : ((jsonString "capture_frame").length + (jsonArray (["ts", "ingest_ts", "protocol",
      "id", "dlc", "data_bytes", "bus", "flags", "unit", "func", "crc_valid"].map
        jsonString)).length) + ((jsonString "events").length + (jsonArray (["id", "ts",
      "duration_us", "note", "created_at", "updated_at"].map jsonString)).length) ≤ 300 := by
    decide +kernel
  have harray : ∀ a b : Bytes, (jsonArray [a, b]).length = a.length + b.length + 3 := by
    intro a b
    have hbrackets : (utf8 "[").length = 1 ∧ (utf8 ",").length = 1 ∧ (utf8 "]").length = 1 :=
      ⟨rfl, rfl, rfl⟩
    simp only [jsonArray, List.intersperse, List.flatten_cons, List.flatten_nil, List.length_append,
      List.length_nil, hbrackets]
    omega
  dsimp only at hframes hevents
  show (jsonArray [jsonTable _, jsonTable _]).length ≤ 600
  rw [harray]
  dsimp only
  omega

/-- A manifest is its texts and little else. -/
theorem length_toVec_le (rfc3339 : Int → String) (m : Manifest) (rows : String → UInt64)
    (htables : m.tables = countedTables rows) :
    (m.toVec rfc3339).length ≤ 1000 + 6 * (utf8 m.gatewayVersion).length +
      6 * (utf8 (rfc3339 m.createdAt)).length + 6 * (utf8 m.database).length := by
  have hschema := length_jsonInt_i32_le m.schemaVersion
  have hversion := length_jsonString_le m.gatewayVersion
  have hcreated := length_jsonString_le (rfc3339 m.createdAt)
  have hdatabase := length_jsonString_le m.database
  have hwindow := length_jsonWindow_le m.window
  have harray := length_jsonTables_le rows
  have hkeys : (utf8 "\x7b\"schema_version\":").length + (utf8 ",\"gateway_version\":").length +
      (utf8 ",\"created_at\":").length + (utf8 ",\"database\":").length +
      (utf8 ",\"window\":").length + (utf8 ",\"tables\":").length + (utf8 "\x7d").length ≤ 100 := by
    decide +kernel
  rw [← htables] at harray
  simp only [Manifest.toVec, List.length_append]
  omega

/-! ### What has been written -/

section Writer

variable {σ τ : Type} {enc : GzEncoder σ} {gz : GzDecoder τ}

/-- Writes one after another from a state: where the encoder is then, and what it gave. -/
def GzEncoder.run (enc : GzEncoder σ) (state : σ) : List Bytes → Except String (σ × Bytes)
  | [] => .ok (state, [])
  | bytes :: writes => do
    let (state, added) ← enc.writeAll state bytes
    let (state, more) ← enc.run state writes
    return (state, added ++ more)

/-- The compressed form of some writes. -/
def GzEncoder.deflate (enc : GzEncoder σ) (writes : List Bytes) : Except String Bytes := do
  let (state, given) ← enc.run enc.new writes
  let rest ← enc.finish state
  return given ++ rest

/-- The encoder takes every write, and the decoder undoes it. -/
def Undoes (gz : GzDecoder τ) (enc : GzEncoder σ) : Prop :=
  ∀ writes, ∃ bytes, enc.deflate writes = .ok bytes ∧ gz.inflate [bytes] = some writes.flatten

/-- What has been sent and gathered is the header and the compressed form of these writes. -/
structure Wrote (enc : GzEncoder σ) (c : Compressed σ) (writes : List Bytes) : Prop where
  run : ∃ given, enc.run enc.new writes = .ok (c.encoder, given) ∧
    c.out.sent.flatten ++ c.buffer = archiveHeader ++ given
  wanted : c.out.abandoned = none

theorem run_append {state : σ} {writes more : List Bytes} :
    enc.run state (writes ++ more) = (enc.run state writes).bind fun p =>
      (enc.run p.1 more).map fun q => (q.1, p.2 ++ q.2) := by
  induction writes generalizing state with
  | nil =>
    show enc.run state more = (enc.run state more).map _
    cases enc.run state more <;> rfl
  | cons bytes writes ih =>
    simp only [List.cons_append, GzEncoder.run, bind, Except.bind]
    cases enc.writeAll state bytes with
    | error e => rfl
    | ok p =>
      simp only [ih]
      cases enc.run p.1 writes with
      | error e => rfl
      | ok q =>
        simp only [Except.bind, pure, Except.pure]
        cases enc.run q.1 more with
        | error e => rfl
        | ok s => simp [Except.map]

/-- Every sequence of writes goes through. -/
theorem run_ok (h : Undoes gz enc) (writes : List Bytes) :
    ∃ p, enc.run enc.new writes = .ok p := by
  obtain ⟨bytes, hdeflate, -⟩ := h writes
  cases hrun : enc.run enc.new writes with
  | ok p => exact ⟨p, rfl⟩
  | error e =>
    simp only [GzEncoder.deflate, bind, Except.bind, hrun] at hdeflate
    cases hdeflate

theorem writeAll_wrote (h : Undoes gz enc) {c : Compressed σ} {writes : List Bytes}
    (hc : Wrote enc c writes) (bytes : Bytes) :
    ∃ c', c.writeAll enc bytes = .ok c' ∧ Wrote enc c' (writes ++ [bytes]) := by
  obtain ⟨given, hrun, hsent⟩ := hc.run
  obtain ⟨p, hp⟩ := run_ok h (writes ++ [bytes])
  have happend := hp
  rw [run_append, hrun] at happend
  simp only [Except.bind, GzEncoder.run, bind] at happend
  cases hwrite : enc.writeAll c.encoder bytes with
  | error e =>
    rw [hwrite] at happend
    cases happend
  | ok q =>
    rw [hwrite] at happend
    have hpq : (q.1, given ++ q.2) = p := by
      simpa [pure, Except.pure, Except.map] using happend
    refine ⟨{ c with encoder := q.1, buffer := c.buffer ++ q.2 }, ?_, ⟨given ++ q.2, ?_, ?_⟩,
      hc.wanted⟩
    · simp only [Compressed.writeAll, bind, Except.bind, hwrite]
      rfl
    · rw [hp, ← hpq]
    · rw [← List.append_assoc, hsent, List.append_assoc]

/-- The two writes of a section. -/
def sectionWrites (bytes : Bytes) : List Bytes := [toBeBytes (.ofNat bytes.length), bytes]

theorem flatten_sectionWrites (bytes : Bytes) :
    (sectionWrites bytes).flatten = sectionBytes bytes := by
  simp [sectionWrites, sectionBytes]

/-- A download that is wanted takes every chunk. -/
theorem send_ok {out : Out} (h : out.abandoned = none) (bytes : Bytes) :
    out.send bytes = .ok { out with sent := out.sent ++ [bytes] } := by
  rw [Out.send, h]
  rfl

theorem section_wrote (h : Undoes gz enc) {c : Compressed σ} {writes : List Bytes}
    (hc : Wrote enc c writes) {bytes : Bytes} (hsize : bytes.length < UInt32.size) :
    ∃ c', c.section enc bytes = .ok c' ∧ Wrote enc c' (writes ++ sectionWrites bytes) := by
  obtain ⟨c₁, hwrite₁, hc₁⟩ := writeAll_wrote h hc (toBeBytes (.ofNat bytes.length))
  obtain ⟨c₂, hwrite₂, hc₂⟩ := writeAll_wrote h hc₁ bytes
  rw [List.append_assoc] at hc₂
  simp only [Compressed.section, bind, Except.bind, hwrite₁, hwrite₂]
  rw [if_neg (Nat.not_le.mpr hsize)]
  by_cases hsend : sendAt ≤ c₂.buffer.length
  · -- What was gathered is sent on: the same bytes, on the other side.
    refine ⟨{ c₂ with buffer := [], out := { c₂.out with sent := c₂.out.sent ++ [c₂.buffer] } },
      ?_, ?_, hc₂.wanted⟩
    · rw [if_pos hsend, send_ok hc₂.wanted]
      rfl
    · obtain ⟨given, hrun, hsent⟩ := hc₂.run
      refine ⟨given, hrun, ?_⟩
      rw [← hsent]
      simp
  · rw [if_neg hsend]
    exact ⟨c₂, rfl, hc₂⟩

/-- The messages of a table become sections of it, none too long for the reader. -/
theorem rows_wrote (h : Undoes gz enc) {c : Compressed σ} {writes rows : List Bytes}
    {piece : Bytes} (hc : Wrote enc c writes) (hpiece : piece.length < pieceAt)
    (hrows : ∀ row ∈ rows, row.length ≤ maxChunk - pieceAt) :
    ∃ c' sections, c.rows enc piece (rows.map .ok) = .ok c' ∧ Sized sections ∧
      sections.flatten = piece ++ rows.flatten ∧
      Wrote enc c' (writes ++ sections.flatMap sectionWrites) := by
  have hbound : pieceAt + (maxChunk - pieceAt) = maxChunk := by decide
  have hmax := maxChunk_lt
  -- Over the messages: what has been gathered is below the mark whenever one comes.
  induction rows generalizing c writes piece with
  | nil =>
    by_cases hempty : piece = []
    · refine ⟨c, [], ?_, ?_, by simp [hempty], by simpa using hc⟩
      · rw [List.map_nil, Compressed.rows, if_pos (by simp [hempty])]
      · intro s hs
        cases hs
    · have hsize : piece.length < UInt32.size := by omega
      obtain ⟨c', hsection, hc'⟩ := section_wrote h hc hsize
      refine ⟨c', [piece], ?_, ?_, by simp, by simpa using hc'⟩
      · rw [List.map_nil, Compressed.rows, if_neg (by simp [hempty]), hsection]
      · intro s hs
        obtain rfl := List.mem_singleton.mp hs
        exact ⟨hempty, by omega⟩
  | cons row rows ih =>
    have hrow := hrows row List.mem_cons_self
    have hrest : ∀ r ∈ rows, r.length ≤ maxChunk - pieceAt :=
      fun r hr => hrows r (List.mem_cons_of_mem _ hr)
    rw [List.map_cons, Compressed.rows]
    have hlength : (piece ++ row).length ≤ maxChunk := by
      rw [List.length_append]
      omega
    by_cases hfull : pieceAt ≤ (piece ++ row).length
    · -- The gathered bytes pass the mark: below it before this message, so within the bound now.
      have hsize : (piece ++ row).length < UInt32.size := by omega
      have hnone : ([] : Bytes).length < pieceAt := by decide
      obtain ⟨c₁, hsection, hc₁⟩ := section_wrote h hc hsize
      obtain ⟨c', sections, hrun, hsized, hflatten, hc'⟩ := ih hc₁ hnone hrest
      refine ⟨c', (piece ++ row) :: sections, ?_, ?_, ?_, ?_⟩
      · rw [if_pos hfull]
        simp only [bind, Except.bind, hsection, hrun]
      · intro s hs
        rcases List.mem_cons.mp hs with rfl | hs
        · refine ⟨List.ne_nil_of_length_pos ?_, hlength⟩
          have hpos : 0 < pieceAt := by decide
          omega
        · exact hsized s hs
      · simp [hflatten]
      · simpa using hc'
    · rw [if_neg hfull]
      have hshort : (piece ++ row).length < pieceAt := Nat.lt_of_not_le hfull
      obtain ⟨c', sections, hrun, hsized, hflatten, hc'⟩ := ih hc hshort hrest
      exact ⟨c', sections, hrun, hsized, by simp [hflatten], hc'⟩

/-- The writes of one table. -/
def tableWrites (sections : List Bytes) : List Bytes :=
  sections.flatMap sectionWrites ++ sectionWrites []

theorem flatten_tableWrites (sections : List Bytes) :
    (tableWrites sections).flatten = tableBytes sections := by
  rw [tableWrites, tableBytes, List.flatten_append, flatten_sectionWrites]
  congr 1
  induction sections with
  | nil => rfl
  | cons s sections ih =>
    rw [List.flatMap_cons, List.flatten_append, ih, flatten_sectionWrites, List.flatMap_cons]

/-- What a snapshot answers: these messages and counts, of a database at the current schema. -/
structure Exports (snapshot : Snapshot) (window : Option Window) (rows : String → List Bytes)
    (count : String → Int64) : Prop where
  start : snapshot.start = .ok ()
  count : ∀ t ∈ tables, snapshot.count window t.1 = .ok (count t.1)
  version : snapshot.detectVersion = .ok (some schemaVersion)
  copyOut : ∀ t ∈ tables, snapshot.copyOut window t.1 t.2 = .ok ((rows t.1).map .ok)
  commit : snapshot.commit = .ok ()

theorem tables_wrote (h : Undoes gz enc) {snapshot : Snapshot} {window : Option Window}
    {rows : String → List Bytes} {list : List (String × List String)}
    (hcopy : ∀ t ∈ list, snapshot.copyOut window t.1 t.2 = .ok ((rows t.1).map .ok))
    (hrows : ∀ t ∈ list, ∀ row ∈ rows t.1, row.length ≤ maxChunk - pieceAt)
    {c : Compressed σ} {writes : List Bytes} (hc : Wrote enc c writes) :
    ∃ (c' : Compressed σ) (sent : List (List Bytes)),
      c.tables enc snapshot window list = .ok c' ∧ (∀ sections ∈ sent, Sized sections) ∧
      sent.map List.flatten = list.map (fun t => (rows t.1).flatten) ∧
      Wrote enc c' (writes ++ sent.flatMap tableWrites) := by
  induction list generalizing c writes with
  | nil => exact ⟨c, [], rfl, fun _ hs => absurd hs (List.not_mem_nil), rfl, by simpa using hc⟩
  | cons t list ih =>
    obtain ⟨name, columns⟩ := t
    have hnone : ([] : Bytes).length < pieceAt := by decide
    have hempty : ([] : Bytes).length < UInt32.size := by decide
    obtain ⟨c₁, sections, hrun, hsized, hflatten, hc₁⟩ :=
      rows_wrote h hc hnone (hrows _ List.mem_cons_self)
    obtain ⟨c₂, hend, hc₂⟩ := section_wrote h hc₁ hempty
    obtain ⟨c', sent, htables, hall, hmap, hc'⟩ := ih
      (fun t ht => hcopy t (List.mem_cons_of_mem _ ht))
      (fun t ht => hrows t (List.mem_cons_of_mem _ ht)) hc₂
    refine ⟨c', sections :: sent, ?_, ?_, ?_, ?_⟩
    · have hout := hcopy (name, columns) List.mem_cons_self
      simp only [Compressed.tables, bind, Except.bind, hout, Except.mapError, hrun, hend, htables]
    · intro s hs
      rcases List.mem_cons.mp hs with rfl | hs
      · exact hsized
      · exact hall s hs
    · rw [List.map_cons, List.map_cons, hmap, hflatten, List.nil_append]
    · simpa [tableWrites] using hc'

theorem tableManifests_ok {snapshot : Snapshot} {window : Option Window} {count : String → Int64}
    {list : List (String × List String)}
    (hcount : ∀ t ∈ list, snapshot.count window t.1 = .ok (count t.1)) :
    tableManifests snapshot window list =
      .ok (list.map fun t => { name := t.1, columns := t.2, rows := (count t.1).toUInt64 }) := by
  induction list with
  | nil => rfl
  | cons t list ih =>
    have hfirst := hcount t List.mem_cons_self
    have hrest := ih fun t ht => hcount t (List.mem_cons_of_mem _ ht)
    simp only [tableManifests, bind, Except.bind, hfirst, Except.mapError, hrest]
    rfl

/-! ### The round trip -/

/-- The manifest of an export. -/
def writtenManifest (version : String) (now : Int) (database : String) (window : Option Window)
    (count : String → Int64) : Manifest :=
  { schemaVersion, gatewayVersion := version, createdAt := now, database, window
    tables := countedTables fun name => (count name).toUInt64 }

theorem flatten_tablesWrites (sent : List (List Bytes)) :
    (sent.flatMap tableWrites).flatten = sent.flatMap tableBytes := by
  induction sent with
  | nil => rfl
  | cons sections sent ih =>
    rw [List.flatMap_cons, List.flatten_append, ih, flatten_tableWrites, List.flatMap_cons]

/-- What goes out for a manifest that the reader will take: the header, and a stream that inflates
to its section and those of the tables. -/
theorem writeSections_ok (h : Undoes gz enc) {snapshot : Snapshot} {window : Option Window}
    {rows : String → List Bytes} {count : String → Int64} {rfc3339 : Int → String}
    {manifest : Manifest} (hexports : Exports snapshot window rows count)
    (hrows : ∀ t ∈ tables, ∀ row ∈ rows t.1, row.length ≤ maxChunk - pieceAt)
    (hlength : (manifest.toVec rfc3339).length ≤ maxManifest) :
    ∃ (out : Out) (stream : Bytes) (sent : List (List Bytes)),
      writeSections enc snapshot window rfc3339 manifest ⟨[], none⟩ = .ok out ∧
      out.sent.flatten = archiveHeader ++ stream ∧ (∀ sections ∈ sent, Sized sections) ∧
      sent.map List.flatten = tables.map (fun t => (rows t.1).flatten) ∧
      gz.inflate [stream] =
        some (sectionBytes (manifest.toVec rfc3339) ++ sent.flatMap tableBytes) := by
  rw [writeSections]
  generalize manifest.toVec rfc3339 = raw at *
  set c₀ : Compressed σ :=
    { encoder := enc.new, buffer := [], out := ⟨[archiveHeader], none⟩ } with hdef
  have hc₀ : Wrote enc c₀ [] := ⟨⟨[], rfl, by simp [hdef]⟩, rfl⟩
  obtain ⟨c₁, hsection, hc₁⟩ := section_wrote h hc₀ (Nat.lt_of_le_of_lt hlength maxManifest_lt)
  obtain ⟨c₂, sent, htables, hsized, hmap, hc₂⟩ := tables_wrote h hexports.copyOut hrows hc₁
  obtain ⟨given, hrun, hsent⟩ := hc₂.run
  -- All the writes to the encoder are one deflated stream, which is what inflates.
  obtain ⟨bytes, hdeflate, hinflate⟩ := h ([] ++ sectionWrites raw ++ sent.flatMap tableWrites)
  simp only [GzEncoder.deflate, bind, Except.bind, hrun] at hdeflate
  cases hfinish : enc.finish c₂.encoder with
  | error e =>
    rw [hfinish] at hdeflate
    cases hdeflate
  | ok rest =>
    rw [hfinish] at hdeflate
    obtain rfl : given ++ rest = bytes := Except.ok.inj hdeflate
    refine ⟨{ c₂.out with sent := c₂.out.sent ++ [c₂.buffer ++ rest] }, given ++ rest, sent, ?_, ?_,
      hsized, hmap, ?_⟩
    · have hheader : (⟨[], none⟩ : Out).send (magic ++ [formatVersion]) =
          .ok ⟨[archiveHeader], none⟩ := rfl
      simp only [bind, Except.bind, hheader, ← hdef, hsection, htables, hexports.commit,
        Except.mapError, Compressed.finish, hfinish]
      exact send_ok hc₂.wanted _
    · rw [List.flatten_append, List.flatten_singleton, ← List.append_assoc, hsent,
        List.append_assoc]
    · rw [hinflate, List.nil_append, List.flatten_append, flatten_sectionWrites,
        flatten_tablesWrites]

theorem writeArchive_eq {snapshot : Snapshot} {window : Option Window}
    {rows : String → List Bytes} {count : String → Int64}
    (hexports : Exports snapshot window rows count) (rfc3339 : Int → String) (version : String)
    (now : Int) (database : String) (out : Out) :
    writeArchive enc snapshot window rfc3339 version now database out =
      writeSections enc snapshot window rfc3339
        (writtenManifest version now database window count) out := by
  have hmanifests := tableManifests_ok hexports.count
  simp only [writeArchive, bind, Except.bind, hexports.start, Except.mapError, hmanifests,
    hexports.version]
  rfl

theorem checkManifest_written (version : String) (now : Int) (database : String)
    (window : Option Window) (count : String → Int64) :
    checkManifest (writtenManifest version now database window count) = .ok () := by
  have hzip : ∀ list : List (String × List String),
      ((list.map fun t => (⟨t.1, t.2, (count t.1).toUInt64⟩ : TableManifest)).zip list).all
        (fun p => p.1.name == p.2.1 && p.1.columns == p.2.2) = true := by
    intro list
    induction list with
    | nil => rfl
    | cons t list ih => simpa using ih
  have hat : (writtenManifest version now database window count).schemaVersion = schemaVersion :=
    rfl
  have hgt : ¬ schemaVersion > schemaVersion := by decide
  have hlt : ¬ schemaVersion < schemaVersion := by decide
  rw [checkManifest]
  simp only [hat]
  rw [if_neg hgt, if_neg hlt]
  exact if_pos (Bool.and_eq_true_iff.mpr ⟨rfl, hzip tables⟩)

/-- The client takes what a table's export holds, and counts the rows that were counted there. -/
structure Imports (client : CopyIn) (rows : String → List Bytes) (count : String → Int64) :
    Prop where
  opens : ∀ t ∈ tables, client.copyIn t.1 t.2 = .ok ()
  sends : ∀ name sent chunk, client.send name sent chunk = .ok ()
  finish : ∀ t ∈ tables, ∀ sent : List Bytes, sent.flatten = (rows t.1).flatten →
    client.finish t.1 sent = .ok (count t.1).toUInt64

theorem copyAccepts_of_imports {client : CopyIn} {rows : String → List Bytes}
    {count : String → Int64} (h : Imports client rows count) {sent : List (List Bytes)}
    (hsent : sent.map List.flatten = tables.map (fun t => (rows t.1).flatten)) (version : String)
    (now : Int) (database : String) (window : Option Window) :
    CopyAccepts client (writtenManifest version now database window count) sent := by
  have hall : ∀ list : List (String × List String), (∀ t ∈ list, t ∈ tables) →
      ∀ sent : List (List Bytes), sent.map List.flatten = list.map (fun t => (rows t.1).flatten) →
      ∀ p ∈ ((list.map fun t => (⟨t.1, t.2, (count t.1).toUInt64⟩ : TableManifest)).zip list).zip
        sent, Copied client p.1.1 p.1.2.1 p.1.2.2 p.2 := by
    intro list
    induction list with
    | nil => simp
    | cons t list ih =>
      intro hlist sent hsent p hp
      match sent, hsent with
      | sections :: others, hsent =>
        rw [List.map_cons, List.map_cons, List.cons.injEq] at hsent
        have ht := hlist t List.mem_cons_self
        rcases List.mem_cons.mp hp with rfl | hp
        · exact ⟨h.opens t ht, sends_of_ok h.sends _ _ _, h.finish t ht sections hsent.1⟩
        · exact ih (fun t ht => hlist t (List.mem_cons_of_mem _ ht)) others hsent.2 p hp
  exact hall tables (fun _ ht => ht) sent hsent

/-- An export, however its download is cut into an upload, is imported as it was: the manifest that
counted the rows is read back, and each table's COPY is sent the bytes its own COPY gave. -/
theorem readArchive_writeArchive {fromSlice : Bytes → Except String Manifest} {client : CopyIn}
    {snapshot : Snapshot} {window : Option Window} {rows : String → List Bytes}
    {count : String → Int64} {rfc3339 : Int → String} {version database : String} {now : Int}
    (hgz : gz.Lawful) (hundoes : Undoes gz enc)
    (hjson : fromSlice ((writtenManifest version now database window count).toVec rfc3339) =
      .ok (writtenManifest version now database window count))
    (hexports : Exports snapshot window rows count) (himports : Imports client rows count)
    (hrows : ∀ t ∈ tables, ∀ row ∈ rows t.1, row.length ≤ maxChunk - pieceAt)
    (hversion : (utf8 version).length ≤ 255) (hnow : (utf8 (rfc3339 now)).length ≤ 64)
    (hdatabase : (utf8 database).length ≤ 63) :
    ∃ (out : Out) (sent : List (List Bytes)),
      writeArchive enc snapshot window rfc3339 version now database ⟨[], none⟩ = .ok out ∧
      sent.map List.flatten = tables.map (fun t => (rows t.1).flatten) ∧
      ∀ chunks : List Bytes, chunks.flatten = out.sent.flatten →
        readArchive gz fromSlice client (chunks.map .ok) =
          .ok (writtenManifest version now database window count, sent) := by
  have hlength : ((writtenManifest version now database window count).toVec rfc3339).length ≤
      maxManifest := by
    have hle := length_toVec_le rfc3339 (writtenManifest version now database window count)
      (fun name => (count name).toUInt64) rfl
    have hmax : maxManifest = 1048576 := rfl
    simp only [writtenManifest] at hle ⊢
    omega
  obtain ⟨out, stream, sent, hwrite, hstream, hsized, hmap, hinflate⟩ :=
    writeSections_ok hundoes hexports hrows hlength
  refine ⟨out, sent, ?_, hmap, ?_⟩
  · rw [writeArchive_eq hexports, hwrite]
  · intro chunks hchunks
    rw [readArchive_ok_iff hgz, hchunks]
    have hcount : sent.length = tables.length := by
      have hlengths := congrArg List.length hmap
      rwa [List.length_map, List.length_map] at hlengths
    exact ⟨⟨stream, _, hstream, hinflate, hlength, hjson, checkManifest_written _ _ _ _ _, hcount,
      hsized⟩, copyAccepts_of_imports himports hmap _ _ _ _⟩

end Writer

/-- An encoder that keeps what it is given and stores it at the end. -/
def storedEncoder : GzEncoder Bytes where
  new := []
  writeAll state bytes := .ok (state ++ bytes, [])
  finish state := .ok (Gzip.gzip state)

theorem storedEncoder_run (state : Bytes) (writes : List Bytes) :
    storedEncoder.run state writes = .ok (state ++ writes.flatten, []) := by
  induction writes generalizing state with
  | nil => simp [GzEncoder.run]
  | cons bytes writes ih =>
    have hnext := ih (state ++ bytes)
    simp only [GzEncoder.run, bind, Except.bind, storedEncoder] at hnext ⊢
    rw [hnext]
    simp [pure, Except.pure]

theorem storedEncoder_undone : Undoes storedDecoder storedEncoder := by
  intro writes
  refine ⟨Gzip.gzip writes.flatten, ?_, ?_⟩
  · have hrun := storedEncoder_run [] writes
    simp only [GzEncoder.deflate, bind, Except.bind, show storedEncoder.new = [] from rfl, hrun]
    rfl
  · rw [storedDecoder_inflate, List.flatten_singleton, Gzip.gunzip_gzip]

def oneRowSnapshot : Snapshot where
  start := .ok ()
  count _ name := .ok (oneRowCount name)
  detectVersion := .ok (some schemaVersion)
  copyOut _ name _ := .ok ((oneRow name).map .ok)
  commit := .ok ()

/-- `serde_json::from_slice` on the one text it is given here. -/
def readBack (m : Manifest) (raw : Bytes) : Except String Manifest :=
  if raw = m.toVec (fun _ => "1970-01-01T00:00:00Z") then .ok m else .error "expected value"

theorem readArchive_writeArchive_oneRow :
    ∃ (out : Out) (sent : List (List Bytes)),
      writeArchive storedEncoder oneRowSnapshot none (fun _ => "1970-01-01T00:00:00Z") "0.1.14" 0
        "site_a" ⟨[], none⟩ = .ok out ∧
      sent.map List.flatten = tables.map (fun t => (oneRow t.1).flatten) ∧
      ∀ chunks : List Bytes, chunks.flatten = out.sent.flatten →
        readArchive storedDecoder (readBack (writtenManifest "0.1.14" 0 "site_a" none oneRowCount))
            oneRowClient (chunks.map .ok) =
          .ok (writtenManifest "0.1.14" 0 "site_a" none oneRowCount, sent) :=
  readArchive_writeArchive storedDecoder_lawful storedEncoder_undone
    (by rw [readBack, if_pos rfl])
    ⟨rfl, fun _ _ => rfl, rfl, fun _ _ => rfl, rfl⟩
    ⟨fun _ _ => rfl, fun _ _ _ => rfl, fun _ _ _ _ => rfl⟩
    (by decide +kernel) (by decide +kernel) (by decide +kernel) (by decide +kernel)

end WireTap.Gateway.Wtar
