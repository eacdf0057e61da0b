import Mathlib.Data.List.Basic
import WireTap.Gateway.CaptureImport
import WireTap.Gateway.Wtim
import WireTap.Wire.Reference

/-!
# What a capture import stores

`import_stores_records`: the import answers exactly if the body is a header and records and nothing
else, and has then COPYed the row of each record once, in order, wherever the body was cut into
chunks.

The loop is followed through `ImportOutcome`: what it stores is a beginning of the rows of the
records there are, and all of them where it answers.  `import_rows` takes the records off the head of
what is pending (`Leads`), so each turn of the loop is a step of the same reading
(`ImportOutcome.read`).
-/

namespace WireTap.Gateway

open Wire

variable {φ κ : Type} {lib : ImportLib} {can : CanLib φ} {protocol : ProtocolLib φ κ}
  {row : ImportRecord → FrameRow}

/-! ### The records -/

/-- The bytes are records, and then these. -/
def Leads (lib : ImportLib) (bytes : Bytes) (rs : List ImportRecord) (rest : Bytes) : Prop :=
  ∃ before, bytes = before ++ rest ∧ Wholes lib.parseRecord before rs

theorem Leads.refl (bytes : Bytes) : Leads lib bytes [] bytes := ⟨[], rfl, .nil⟩

theorem Leads.append {bytes rest more : Bytes} {rs rs' : List ImportRecord}
    (h : Leads lib bytes rs rest) (hmore : Leads lib rest rs' more) :
    Leads lib bytes (rs ++ rs') more := by
  obtain ⟨before, rfl, hbefore⟩ := h
  obtain ⟨next, rfl, hnext⟩ := hmore
  exact ⟨before ++ next, by rw [List.append_assoc], hbefore.append hnext⟩

theorem Leads.more {bytes rest : Bytes} {rs : List ImportRecord} (h : Leads lib bytes rs rest)
    (more : Bytes) : Leads lib (bytes ++ more) rs (rest ++ more) := by
  obtain ⟨before, rfl, hbefore⟩ := h
  exact ⟨before, by rw [List.append_assoc], hbefore⟩

/-! ### `import_rows` -/

section Rows

variable (hlib : Incremental lib.parseRecord) (hrow : ∀ r, importRow can protocol r = some (row r))
include hlib hrow

/-- The loop takes every record that is there, and stops where the parser waits or refuses. -/
theorem importRowsLoop_spec (buf : Bytes) (fuel read : Nat) (rows : List FrameRow)
    (hfuel : buf.length < read + fuel) (hread : read ≤ buf.length) :
    (∃ read' rs, importRowsLoop lib can protocol buf fuel read rows =
        .ok (read', rows ++ rs.map row) ∧ Leads lib (buf.drop read) rs (buf.drop read') ∧
        lib.parseRecord (buf.drop read') = .ok none) ∨
    ∃ e rs rest why, importRowsLoop lib can protocol buf fuel read rows = .error (.refused e) ∧
      Leads lib (buf.drop read) rs rest ∧ lib.parseRecord rest = .error why := by
  induction fuel generalizing read rows with
  | zero => omega
  | succ fuel ih =>
    rw [importRowsLoop]
    cases hparse : lib.parseRecord (buf.drop read) with
    | error why => exact .inr ⟨_, [], _, why, rfl, .refl _, hparse⟩
    | ok found =>
      cases found with
      | none => exact .inl ⟨read, [], by simp, .refl _, hparse⟩
      | some item =>
        obtain ⟨r, n⟩ := item
        have hbounds := hlib.bounds hparse
        rw [List.length_drop] at hbounds
        have hfirst : Leads lib (buf.drop read) [r] (buf.drop (read + n)) := by
          obtain ⟨hwhole, -, hsplit⟩ := hlib.take_drop hparse
          refine ⟨(buf.drop read).take n, ?_, .single hwhole⟩
          rw [← List.drop_drop, hsplit]
        simp only [hrow]
        rcases ih (read + n) (rows ++ [row r]) (by omega) (by omega) with
          ⟨read', rs, hloop, hleads, hwaits⟩ | ⟨e, rs, rest, why, hloop, hleads, hwhy⟩
        · refine .inl ⟨read', r :: rs, ?_, hfirst.append hleads, hwaits⟩
          rw [hloop, List.map_cons, List.append_assoc]
          rfl
        · exact .inr ⟨e, r :: rs, rest, why, hloop, hfirst.append hleads, hwhy⟩

theorem importRows_spec (buf : Bytes) (rows : List FrameRow) :
    (∃ read rs, importRows lib can protocol buf rows = .ok (read, rows ++ rs.map row) ∧
        Leads lib buf rs (buf.drop read) ∧ lib.parseRecord (buf.drop read) = .ok none) ∨
    ∃ e rs rest why, importRows lib can protocol buf rows = .error (.refused e) ∧
      Leads lib buf rs rest ∧ lib.parseRecord rest = .error why :=
  importRowsLoop_spec hlib hrow buf (buf.length + 1) 0 rows (by omega) (by omega)

end Rows

/-! ### The loop -/

/-- How the loop ends on bytes it has still to read: what is stored is a beginning of `stored` and
the rows of the records there are, in their order; where it answers, there is nothing else in the
bytes, and all of them are stored and counted. -/
def ImportOutcome (lib : ImportLib) (row : ImportRecord → FrameRow) (bytes : Bytes)
    (stored : List FrameRow) (imported : Nat) (out : Except ImportFault Nat × CopyTarget) : Prop :=
  ∃ rs rest, Leads lib bytes rs rest ∧ out.2.copied.flatten <+: stored ++ rs.map row ∧
    ∀ n, out.1 = .ok n →
      rest = [] ∧ n = imported + rs.length ∧ out.2.copied.flatten = stored ++ rs.map row

namespace ImportOutcome

variable {bytes rest : Bytes} {stored : List FrameRow} {imported : Nat} {rs : List ImportRecord}
  {out : Except ImportFault Nat × CopyTarget}

theorem error {e : ImportFault} {db : CopyTarget} (h : db.copied.flatten <+: stored) :
    ImportOutcome lib row bytes stored imported (.error e, db) := by
  refine ⟨[], bytes, .refl bytes, ?_, fun n hn => by cases hn⟩
  rw [List.map_nil, List.append_nil]
  exact h

/-- The records at the head of the bytes have been read. -/
theorem read (hleads : Leads lib bytes rs rest)
    (h : ImportOutcome lib row rest (stored ++ rs.map row) (imported + rs.length) out) :
    ImportOutcome lib row bytes stored imported out := by
  obtain ⟨rs', rest', hleads', hprefix, hok⟩ := h
  refine ⟨rs ++ rs', rest', hleads.append hleads', ?_, ?_⟩
  · rwa [List.map_append, ← List.append_assoc]
  · intro n hn
    obtain ⟨hrest, hcount, hall⟩ := hok n hn
    refine ⟨hrest, ?_, ?_⟩
    · rw [List.length_append, hcount, Nat.add_assoc]
    · rw [List.map_append, ← List.append_assoc, hall]

theorem finish {db : CopyTarget} (h : db.copied.flatten = stored) :
    ImportOutcome lib row bytes stored imported (finishImport bytes imported, db) := by
  unfold finishImport
  split_ifs with hempty
  · rw [List.isEmpty_iff.mp hempty]
    refine ⟨[], [], .refl [], ?_, ?_⟩
    · simp [h]
    · intro n hn
      exact ⟨rfl, (Except.ok.inj hn).symm, by simp [h]⟩
  · exact error (h ▸ List.prefix_rfl)

end ImportOutcome

/-- A COPY adds its rows, or nothing. -/
theorem copyRows_cases (db : CopyTarget) (rows : List FrameRow) :
    (∃ e db', db.copyRows rows = (some e, db') ∧ db'.copied = db.copied) ∨
      ∃ db', db.copyRows rows = (none, db') ∧ db'.copied = db.copied ++ [rows] := by
  unfold CopyTarget.copyRows
  split
  · exact .inl ⟨_, _, rfl, rfl⟩
  · exact .inr ⟨_, rfl, rfl⟩
  · exact .inr ⟨_, rfl, rfl⟩

section Loop

variable (hlib : Incremental lib.parseRecord) (hrow : ∀ r, importRow can protocol r = some (row r))
include hlib hrow

theorem importLoop_outcome (broken : Option String) (chunks : List Bytes) (pending : Bytes)
    (rows : List FrameRow) (imported : Nat) (db : CopyTarget) :
    ImportOutcome lib row (pending ++ chunks.flatten) (db.copied.flatten ++ rows)
      (imported + rows.length) (importLoop lib can protocol broken chunks pending rows imported db) := by
  -- Over the chunks: what is pending and gathered when one comes is what the outcome is told over.
  induction chunks generalizing pending rows imported db with
  | nil =>
    rw [importLoop, List.flatten_nil, List.append_nil]
    rcases importRows_spec hlib hrow pending rows with
      ⟨read, rs, hrows, hleads, -⟩ | ⟨e, -, -, -, hrows, -⟩
    · rw [hrows]
      refine .read hleads ?_
      cases broken with
      | some e =>
        refine .error ?_
        rw [List.append_assoc]
        exact List.prefix_append _ _
      | none =>
        dsimp only
        split_ifs with hempty
        · -- Nothing is left to copy.
          have hnone : rows ++ rs.map row = [] := List.isEmpty_iff.mp hempty
          have hcount : imported + rows.length + rs.length = imported := by
            have hlength := congrArg List.length hnone
            simp only [List.length_append, List.length_map, List.length_nil] at hlength
            omega
          rw [hcount, List.append_assoc, hnone, List.append_nil]
          exact .finish rfl
        · rcases copyRows_cases db (rows ++ rs.map row) with
            ⟨e, db', hcopy, hsame⟩ | ⟨db', hcopy, hadded⟩
          · rw [hcopy]
            refine .error ?_
            rw [hsame, List.append_assoc]
            exact List.prefix_append _ _
          · rw [hcopy]
            have hcount : imported + rows.length + rs.length =
                imported + (rows ++ rs.map row).length := by
              simp [Nat.add_assoc]
            rw [hcount]
            refine .finish ?_
            rw [hadded]
            simp
    · rw [hrows]
      exact .error (List.prefix_append _ _)
  | cons bytes chunks ih =>
    rw [importLoop, List.flatten_cons]
    rcases importRows_spec hlib hrow pending rows with
      ⟨read, rs, hrows, hleads, -⟩ | ⟨e, -, -, -, hrows, -⟩
    · rw [hrows]
      refine .read (hleads.more (bytes ++ chunks.flatten)) ?_
      rw [← List.append_assoc]
      have hcount : imported + rows.length + rs.length =
          imported + (rows ++ rs.map row).length := by
        simp [Nat.add_assoc]
      rw [hcount, List.append_assoc (db.copied.flatten)]
      dsimp only
      split_ifs with hmany
      -- Enough rows are copied before the next chunk, fewer are kept for it.
      · rcases copyRows_cases db (rows ++ rs.map row) with
          ⟨e, db', hcopy, hsame⟩ | ⟨db', hcopy, hadded⟩
        · rw [hcopy]
          refine .error ?_
          rw [hsame]
          exact List.prefix_append _ _
        · rw [hcopy]
          have hnext := ih (pending.drop read ++ bytes) [] (imported + (rows ++ rs.map row).length) db'
          rw [hadded] at hnext
          simpa using hnext
      · exact ih (pending.drop read ++ bytes) (rows ++ rs.map row) imported db
    · rw [hrows]
      exact .error (List.prefix_append _ _)

/-- Records and nothing else are taken, whatever the chunks. -/
theorem importLoop_ok {answers : List (Option CopyError)} (haccepts : ∀ a ∈ answers, a = none)
    (chunks : List Bytes) (pending : Bytes) (rows : List FrameRow) (imported : Nat)
    (copied : List (List FrameRow)) {rs : List ImportRecord}
    (hall : Wholes lib.parseRecord (pending ++ chunks.flatten) rs) :
    ∃ n, (importLoop lib can protocol none chunks pending rows imported ⟨answers, copied⟩).1 = .ok n := by
  -- The database takes the rows, and goes on to.
  have hcopy : ∀ {answers : List (Option CopyError)} (copied rows), (∀ a ∈ answers, a = none) →
      ∃ answers', CopyTarget.copyRows ⟨answers, copied⟩ rows = (none, ⟨answers', copied ++ [rows]⟩) ∧
        ∀ a ∈ answers', a = none := by
    intro answers copied rows haccepts
    cases answers with
    | nil => exact ⟨[], rfl, haccepts⟩
    | cons a answers =>
      obtain rfl : a = none := haccepts a List.mem_cons_self
      exact ⟨answers, rfl, fun a ha => haccepts a (List.mem_cons_of_mem _ ha)⟩
  induction chunks generalizing pending rows imported answers copied rs with
  | nil =>
    rw [importLoop]
    rw [List.flatten_nil, List.append_nil] at hall
    rcases importRows_spec hlib hrow pending rows with
      ⟨read, rs', hrows, ⟨before, hsplit, hbefore⟩, hwaits⟩ |
        ⟨e, rs', rest, why, hrows, ⟨before, hsplit, hbefore⟩, hwhy⟩
    · rw [hrows]
      rw [hsplit] at hall
      obtain ⟨rs'', -, hrest⟩ := hlib.wholes_rest hbefore hall
      have hempty : pending.drop read = [] := hlib.eq_nil_of_waits hwaits hrest
      obtain ⟨answers', htaken, -⟩ := hcopy copied (rows ++ rs'.map row) haccepts
      dsimp only
      rw [hempty, htaken]
      split_ifs
      · exact ⟨_, rfl⟩
      · exact ⟨_, rfl⟩
    · rw [hsplit] at hall
      obtain ⟨rs'', -, hrest⟩ := hlib.wholes_rest hbefore hall
      rw [← List.append_nil rest] at hrest
      exact absurd hrest (hlib.not_wholes_of_error hwhy [])
  | cons bytes chunks ih =>
    rw [importLoop]
    rw [List.flatten_cons] at hall
    rcases importRows_spec hlib hrow pending rows with
      ⟨read, rs', hrows, ⟨before, hsplit, hbefore⟩, -⟩ |
        ⟨e, rs', rest, why, hrows, ⟨before, hsplit, hbefore⟩, hwhy⟩
    · rw [hrows]
      rw [hsplit, List.append_assoc] at hall
      obtain ⟨rs'', -, hrest⟩ := hlib.wholes_rest hbefore hall
      rw [← List.append_assoc] at hrest
      dsimp only
      split_ifs
      · obtain ⟨answers', htaken, haccepts'⟩ := hcopy copied (rows ++ rs'.map row) haccepts
        rw [htaken]
        exact ih haccepts' _ _ _ _ hrest
      · exact ih haccepts _ _ _ _ hrest
    · rw [hsplit, List.append_assoc] at hall
      obtain ⟨rs'', -, hrest⟩ := hlib.wholes_rest hbefore hall
      exact absurd hrest (hlib.not_wholes_of_error hwhy _)

end Loop

/-! ### The header -/

theorem header_of_parseHeader {bytes : Bytes} {found : Option Nat}
    (h : lib.parseHeader bytes = .ok found) : lib.header bytes = .ok (found.map fun n => ((), n)) := by
  simp [ImportLib.header, h, Except.map]

theorem header_of_error {bytes : Bytes} {e : String} (h : lib.parseHeader bytes = .error e) :
    lib.header bytes = .error e := by
  simp [ImportLib.header, h, Except.map]

/-- The header is found in the first chunks that have it, and otherwise the bytes do not begin with
one. -/
theorem readHeader_spec (hlib : lib.Lawful) (broken : Option String) (chunks : List Bytes)
    (pending : Bytes) :
    (∃ h pending' taken chunks', readHeader lib broken chunks pending = .ok (pending', chunks') ∧
      Whole lib.header h () ∧ chunks = taken ++ chunks' ∧ pending ++ taken.flatten = h ++ pending' ∧
      ∀ k < taken.length, lib.header (pending ++ (taken.take k).flatten) = .ok none) ∨
    ∃ e, readHeader lib broken chunks pending = .error e ∧
      ∀ h rest, Whole lib.header h () → pending ++ chunks.flatten ≠ h ++ rest := by
  -- Over the chunks, as each is appended to what has no header yet.
  induction chunks generalizing pending with
  | nil =>
    unfold readHeader
    cases hparse : lib.parseHeader pending with
    | error e =>
      exact .inr ⟨_, rfl, fun h rest hwhole => hlib.header.ne_of_error (header_of_error hparse) hwhole⟩
    | ok found =>
      cases found with
      | some n =>
        obtain ⟨hwhole, -, hsplit⟩ := hlib.header.take_drop (header_of_parseHeader hparse)
        refine .inl ⟨pending.take n, pending.drop n, [], [], rfl, hwhole, rfl, ?_, by simp⟩
        rw [List.flatten_nil, List.append_nil, hsplit]
      | none =>
        have hmissing : ∀ h rest, Whole lib.header h () → pending ++ [] ≠ h ++ rest := by
          intro h rest hwhole heq
          have hwaits := header_of_parseHeader hparse
          rw [← List.append_nil pending, heq, hlib.header.append hwhole] at hwaits
          cases hwaits
        cases broken with
        | some e => exact .inr ⟨_, rfl, hmissing⟩
        | none => exact .inr ⟨_, rfl, hmissing⟩
  | cons bytes chunks ih =>
    unfold readHeader
    cases hparse : lib.parseHeader pending with
    | error e =>
      exact .inr ⟨_, rfl, fun h rest hwhole => hlib.header.ne_of_error (header_of_error hparse) hwhole⟩
    | ok found =>
      cases found with
      | some n =>
        obtain ⟨hwhole, -, hsplit⟩ := hlib.header.take_drop (header_of_parseHeader hparse)
        refine .inl ⟨pending.take n, pending.drop n, [], bytes :: chunks, rfl, hwhole, rfl, ?_, by simp⟩
        rw [List.flatten_nil, List.append_nil, hsplit]
      | none =>
        rcases ih (pending ++ bytes) with
          ⟨h, pending', taken, chunks', hread, hwhole, rfl, hsplit, hwaits⟩ | ⟨e, hread, hno⟩
        · refine .inl ⟨h, pending', bytes :: taken, chunks', hread, hwhole, rfl, ?_, ?_⟩
          · rw [List.flatten_cons, ← List.append_assoc, hsplit]
          · intro k hk
            cases k with
            | zero => simpa using header_of_parseHeader hparse
            | succ k =>
              rw [List.take_succ_cons, List.flatten_cons, ← List.append_assoc]
              exact hwaits k (by simpa using hk)
        · refine .inr ⟨e, hread, ?_⟩
          rw [List.flatten_cons, ← List.append_assoc]
          exact hno

/-! ### The import -/

/-- A header, and then these records and nothing else. -/
def IsCapture (lib : ImportLib) (body : Bytes) (rs : List ImportRecord) : Prop :=
  ∃ h records, body = h ++ records ∧ Whole lib.header h () ∧ Wholes lib.parseRecord records rs

theorem IsCapture.unique (hlib : lib.Lawful) {body : Bytes} {rs rs' : List ImportRecord}
    (h : IsCapture lib body rs) (h' : IsCapture lib body rs') : rs = rs' := by
  obtain ⟨header, records, rfl, hheader, hrecords⟩ := h
  obtain ⟨header', records', heq, hheader', hrecords'⟩ := h'
  obtain ⟨-, rfl, rfl⟩ := hlib.header.whole_inj hheader hheader' heq
  rw [← List.append_nil records] at hrecords'
  obtain ⟨more, rfl, hmore⟩ := hlib.record.wholes_rest hrecords hrecords'
  cases more with
  | nil => rw [List.append_nil]
  | cons r more =>
    generalize hempty : ([] : Bytes) = bytes at hmore
    cases hmore with
    | @cons item rest _ _ hwhole _ =>
      exact absurd (List.append_eq_nil_iff.mp hempty.symm).1 (hlib.record.ne_nil hwhole)

/-- Every CAN record has a row. -/
theorem exists_importRow (hprotocol : protocol.Lawful can) :
    ∃ row : ImportRecord → FrameRow, ∀ r, importRow can protocol r = some (row r) := by
  have hrow : ∀ r, ∃ x, importRow can protocol r = some x := by
    intro r
    unfold importRow FrameRow.new
    have hkind := hprotocol.kind_fromWire .can r.idFlags r.flags
    cases hfields : protocol.fromWire .can r.idFlags r.flags with
    | can k transmitted =>
      obtain ⟨frame, hframe⟩ :=
        Option.isSome_iff_exists.mp (hprotocol.toCan_isSome k transmitted r.bus r.payload)
      simp only [hframe, Option.map_some]
      exact ⟨_, rfl⟩
    | modbus => simp [hfields, RecordFields.kind] at hkind
    | rawSerial => simp [hfields, RecordFields.kind] at hkind
  exact Classical.axiomOfChoice hrow

theorem mapM_importRow (hrow : ∀ r, importRow can protocol r = some (row r)) (rs : List ImportRecord) :
    rs.mapM (importRow can protocol) = some (rs.map row) := by
  induction rs with
  | nil => rfl
  | cons r rs ih => simp [hrow, ih]

/-- The import answers exactly where the body is a header and records and nothing else, however it
was cut; it has then COPYed the row of each record, in order and once, and counted them. -/
theorem import_stores_records (hlib : lib.Lawful) (hprotocol : protocol.Lawful can)
    {answers : List (Option CopyError)} (haccepts : ∀ a ∈ answers, a = none) (chunks : List Bytes) :
    ((∃ n, (importCapture lib can protocol (.ok ()) ⟨chunks, none⟩ ⟨answers, []⟩).1 = .ok n) ↔
      ∃ rs, IsCapture lib chunks.flatten rs) ∧
    ∀ rs, IsCapture lib chunks.flatten rs → ∃ rows, rs.mapM (importRow can protocol) = some rows ∧
      (importCapture lib can protocol (.ok ()) ⟨chunks, none⟩ ⟨answers, []⟩).1 = .ok rs.length ∧
      (importCapture lib can protocol (.ok ()) ⟨chunks, none⟩ ⟨answers, []⟩).2.copied.flatten = rows := by
  obtain ⟨row, hrow⟩ := exists_importRow hprotocol
  unfold importCapture
  rcases readHeader_spec hlib none chunks [] with
    ⟨h, pending, taken, chunks', hread, hheader, rfl, htaken, -⟩ | ⟨e, hread, hno⟩
  · have hbody : (taken ++ chunks').flatten = h ++ (pending ++ chunks'.flatten) := by
      rw [List.flatten_append, ← List.append_assoc, ← htaken, List.nil_append]
    simp only [hread]
    have hout := importLoop_outcome hlib.record hrow none chunks' pending [] 0 ⟨answers, []⟩
    -- What is said of a capture, once the loop has answered.
    have hanswered : ∀ n, (importLoop lib can protocol none chunks' pending [] 0 ⟨answers, []⟩).1 =
        .ok n → ∃ rs, IsCapture lib (taken ++ chunks').flatten rs ∧ n = rs.length ∧
          (importLoop lib can protocol none chunks' pending [] 0 ⟨answers, []⟩).2.copied.flatten =
            rs.map row := by
      intro n hn
      obtain ⟨rs, rest, ⟨records, hsplit, hrecords⟩, -, hok⟩ := hout
      obtain ⟨rfl, hcount, hall⟩ := hok n hn
      refine ⟨rs, ⟨h, records, ?_, hheader, hrecords⟩, by simpa using hcount, by simpa using hall⟩
      rw [hbody, hsplit, List.append_nil]
    have hanswers : ∀ rs, IsCapture lib (taken ++ chunks').flatten rs →
        ∃ n, (importLoop lib can protocol none chunks' pending [] 0 ⟨answers, []⟩).1 = .ok n := by
      rintro rs ⟨header, records, heq, hheader', hrecords⟩
      obtain ⟨-, rfl, rfl⟩ := hlib.header.whole_inj hheader hheader' (hbody.symm.trans heq)
      exact importLoop_ok hlib.record hrow haccepts chunks' pending [] 0 [] hrecords
    refine ⟨⟨?_, ?_⟩, ?_⟩
    · rintro ⟨n, hn⟩
      obtain ⟨rs, hrs, -⟩ := hanswered n hn
      exact ⟨rs, hrs⟩
    · rintro ⟨rs, hrs⟩
      exact hanswers rs hrs
    · intro rs hrs
      obtain ⟨n, hn⟩ := hanswers rs hrs
      obtain ⟨rs', hrs', rfl, hcopied⟩ := hanswered n hn
      obtain rfl := hrs.unique hlib hrs'
      exact ⟨_, mapM_importRow hrow rs, hn, hcopied⟩
  · simp only [hread]
    have hnone : ∀ rs, ¬IsCapture lib chunks.flatten rs := by
      rintro rs ⟨header, records, heq, hheader, -⟩
      exact hno header records hheader heq
    refine ⟨⟨?_, ?_⟩, ?_⟩
    · rintro ⟨n, hn⟩
      cases hn
    · rintro ⟨rs, hrs⟩
      exact absurd hrs (hnone rs)
    · intro rs hrs
      exact absurd hrs (hnone rs)

/-- A body of one frame, cut inside its header and inside its record. -/
def cutBody : List Bytes :=
  [[0x57, 0x54], [0x49, 0x4D, 2, 7, 0, 0, 0, 0, 0], [0, 0, 0x23, 1, 0, 0, 0, 3, 2, 0xAA, 0xBB]]

theorem import_stores_records_cut :
    ∃ r row, IsCapture Wtim.lib cutBody.flatten [r] ∧
      importRow Reference.canLib Reference.protocolLib r = some row ∧
      (importCapture Wtim.lib Reference.canLib Reference.protocolLib (.ok ()) ⟨cutBody, none⟩
        ⟨[], []⟩).1 = .ok 1 ∧
      (importCapture Wtim.lib Reference.canLib Reference.protocolLib (.ok ()) ⟨cutBody, none⟩
        ⟨[], []⟩).2.copied.flatten = [row] := by
  have hrecord : Whole Wtim.lib.parseRecord
      [7, 0, 0, 0, 0, 0, 0, 0, 0x23, 1, 0, 0, 0, 3, 2, 0xAA, 0xBB]
      ⟨7, 0x123, 0, 3, [0xAA, 0xBB]⟩ := rfl
  have hcapture : IsCapture Wtim.lib cutBody.flatten [⟨7, 0x123, 0, 3, [0xAA, 0xBB]⟩] :=
    ⟨Wtim.magic, _, rfl, Wtim.whole_header.mpr rfl, .single hrecord⟩
  have haccepts : ∀ a ∈ ([] : List (Option CopyError)), a = none := by simp
  obtain ⟨rows, hrows, hanswer, hcopied⟩ := (import_stores_records Wtim.lib_lawful
    Reference.protocolLib_lawful haccepts cutBody).2 _ hcapture
  cases hrow : importRow Reference.canLib Reference.protocolLib ⟨7, 0x123, 0, 3, [0xAA, 0xBB]⟩ with
  | none => simp [hrow] at hrows
  | some row =>
    obtain rfl : rows = [row] := by simpa [hrow, eq_comm] using hrows
    exact ⟨_, row, hcapture, hrow, hanswer, hcopied⟩

end WireTap.Gateway
