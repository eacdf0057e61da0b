import Mathlib.Data.List.Basic
import WireTap.Gateway.Equiv.CaptureImport

/-!
# What a refused import leaves

The rows are COPYed as the body streams, each COPY a statement of its own, so an import that is
refused leaves what had been COPYed before the fault.  `refused_import_leaves`: that is a beginning of
the rows of the body's records; and where the body is malformed or breaks off, it is nothing exactly
if the database refused the first COPY, or fewer than `IMPORT_CHUNK_ROWS` records were complete in
every beginning of the body that was followed by another chunk.
-/

namespace WireTap.Gateway

open Wire

variable {φ κ : Type} {lib : ImportLib} {can : CanLib φ} {protocol : ProtocolLib φ κ}
  {row : ImportRecord → FrameRow}

/-! ### Records, and a fault behind them -/

/-- The bytes are these records and the beginning of another. -/
def Waiting (lib : ImportLib) (bytes : Bytes) (rs : List ImportRecord) : Prop :=
  ∃ rest, Leads lib bytes rs rest ∧ lib.parseRecord rest = .ok none

/-- A malformed record follows some records. -/
def Faulty (lib : ImportLib) (bytes : Bytes) : Prop :=
  ∃ rs rest why, Leads lib bytes rs rest ∧ lib.parseRecord rest = .error why

theorem Waiting.unique (hlib : Incremental lib.parseRecord) {bytes : Bytes}
    {rs rs' : List ImportRecord} (h : Waiting lib bytes rs) (h' : Waiting lib bytes rs') : rs = rs' := by
  obtain ⟨rest, ⟨before, rfl, hbefore⟩, hwaits⟩ := h
  obtain ⟨rest', ⟨before', heq, hbefore'⟩, hwaits'⟩ := h'
  exact (hlib.waits_unique hbefore hbefore' heq hwaits hwaits').1

theorem Faulty.more {bytes : Bytes} (h : Faulty lib bytes) (more : Bytes)
    (hlib : Incremental lib.parseRecord) : ∀ rs, ¬Waiting lib (bytes ++ more) rs := by
  rintro rs ⟨rest', ⟨before', heq, hbefore'⟩, hwaits⟩
  obtain ⟨rs₀, rest, why, ⟨before, rfl, hbefore⟩, hwhy⟩ := h
  rw [List.append_assoc] at heq
  exact hlib.not_waits_of_error hbefore hwhy hbefore' more heq hwaits

/-- The database refuses the first COPY. -/
def RefusesFirst (answers : List (Option CopyError)) : Prop := ∃ e, answers.head? = some (some e)

theorem copyRows_of_refuses {answers : List (Option CopyError)} (h : RefusesFirst answers)
    (copied : List (List FrameRow)) (rows : List FrameRow) :
    ∃ e answers', CopyTarget.copyRows ⟨answers, copied⟩ rows = (some e, ⟨answers', copied⟩) := by
  obtain ⟨e, he⟩ := h
  cases answers with
  | nil => cases he
  | cons a answers =>
    obtain rfl : a = some e := Option.some.inj he
    exact ⟨e, answers, rfl⟩

theorem copyRows_of_not_refuses {answers : List (Option CopyError)} (h : ¬RefusesFirst answers)
    (copied : List (List FrameRow)) (rows : List FrameRow) :
    ∃ answers', CopyTarget.copyRows ⟨answers, copied⟩ rows = (none, ⟨answers', copied ++ [rows]⟩) := by
  cases answers with
  | nil => exact ⟨[], rfl⟩
  | cons a answers =>
    cases a with
    | none => exact ⟨answers, rfl⟩
    | some e => exact absurd ⟨e, rfl⟩ h

/-! ### The loop -/

/-- What has been stored stays. -/
theorem importLoop_grows (broken : Option String) (chunks : List Bytes) (pending : Bytes)
    (rows : List FrameRow) (imported : Nat) (db : CopyTarget) :
    db.copied <+: (importLoop lib can protocol broken chunks pending rows imported db).2.copied := by
  induction chunks generalizing pending rows imported db with
  | nil =>
    rw [importLoop]
    cases importRows lib can protocol pending rows with
    | error e => exact List.prefix_rfl
    | ok found =>
      cases broken with
      | some e => exact List.prefix_rfl
      | none =>
        dsimp only
        split_ifs
        · exact List.prefix_rfl
        · rcases copyRows_cases db found.2 with ⟨e, db', hcopy, hsame⟩ | ⟨db', hcopy, hadded⟩
          · rw [hcopy]
            exact hsame ▸ List.prefix_rfl
          · rw [hcopy]
            exact hadded ▸ List.prefix_append _ _
  | cons bytes chunks ih =>
    rw [importLoop]
    cases importRows lib can protocol pending rows with
    | error e => exact List.prefix_rfl
    | ok found =>
      dsimp only
      split_ifs
      · rcases copyRows_cases db found.2 with ⟨e, db', hcopy, hsame⟩ | ⟨db', hcopy, hadded⟩
        · rw [hcopy]
          exact hsame ▸ List.prefix_rfl
        · rw [hcopy]
          have hnext := ih (pending.drop found.1 ++ bytes) [] (imported + found.2.length) db'
          rw [hadded] at hnext
          exact (List.prefix_append _ _).trans hnext
      · exact ih _ _ _ _

/-- Where the first COPY is refused, nothing is stored. -/
theorem importLoop_refused {answers : List (Option CopyError)} (h : RefusesFirst answers)
    (broken : Option String) (chunks : List Bytes) (pending : Bytes) (rows : List FrameRow)
    (imported : Nat) :
    (importLoop lib can protocol broken chunks pending rows imported ⟨answers, []⟩).2.copied = [] := by
  induction chunks generalizing pending rows with
  | nil =>
    rw [importLoop]
    cases importRows lib can protocol pending rows with
    | error e => rfl
    | ok found =>
      cases broken with
      | some e => rfl
      | none =>
        obtain ⟨e, answers', hcopy⟩ := copyRows_of_refuses h [] found.2
        dsimp only
        rw [hcopy]
        split_ifs <;> rfl
  | cons bytes chunks ih =>
    rw [importLoop]
    cases importRows lib can protocol pending rows with
    | error e => rfl
    | ok found =>
      obtain ⟨e, answers', hcopy⟩ := copyRows_of_refuses h [] found.2
      dsimp only
      rw [hcopy]
      split_ifs
      · rfl
      · exact ih _ _

/-- Fewer than `IMPORT_CHUNK_ROWS` records are complete wherever another chunk follows. -/
def FewBefore (lib : ImportLib) (received : Bytes) (chunks : List Bytes) : Prop :=
  ∀ k < chunks.length, ∀ rs, Waiting lib (received ++ (chunks.take k).flatten) rs →
    rs.length < importChunkRows

theorem FewBefore.tail {received bytes : Bytes} {chunks : List Bytes}
    (h : FewBefore lib received (bytes :: chunks)) : FewBefore lib (received ++ bytes) chunks := by
  intro k hk rs hrs
  refine h (k + 1) (by simpa using hk) rs ?_
  rwa [List.take_succ_cons, List.flatten_cons, ← List.append_assoc]

section Loop

variable (hlib : Incremental lib.parseRecord) (hrow : ∀ r, importRow can protocol r = some (row r))
include hlib hrow

/-- One turn: the records that are complete have been read, and the parser waits for more; or it
refuses. -/
theorem importRows_turn {before : Bytes} {rs : List ImportRecord}
    (hbefore : Wholes lib.parseRecord before rs) (pending : Bytes) :
    (∃ read rs' before', importRows lib can protocol pending (rs.map row) =
        .ok (read, (rs ++ rs').map row) ∧ Wholes lib.parseRecord before' (rs ++ rs') ∧
        before ++ pending = before' ++ pending.drop read ∧
        Waiting lib (before ++ pending) (rs ++ rs')) ∨
    ∃ e, importRows lib can protocol pending (rs.map row) = .error (.refused e) ∧
      Faulty lib (before ++ pending) := by
  have hstart : Leads lib (before ++ pending) rs pending := ⟨before, rfl, hbefore⟩
  rcases importRows_spec hlib hrow pending (rs.map row) with
    ⟨read, rs', hrows, ⟨taken, hsplit, htaken⟩, hwaits⟩ | ⟨e, rs', rest, why, hrows, hleads, hwhy⟩
  · left
    refine ⟨read, rs', before ++ taken, ?_, hbefore.append htaken, ?_, pending.drop read,
      hstart.append ⟨taken, hsplit, htaken⟩, hwaits⟩
    · rw [hrows, List.map_append]
    · rw [List.append_assoc, ← hsplit]
  · exact .inr ⟨e, hrows, rs ++ rs', rest, why, hstart.append hleads, hwhy⟩

/-- With few records before the fault, nothing is stored. -/
theorem importLoop_few {answers : List (Option CopyError)} {broken : Option String}
    {chunks : List Bytes} {before pending : Bytes} {rs : List ImportRecord} (imported : Nat)
    (hbefore : Wholes lib.parseRecord before rs)
    (hfault : broken.isSome ∨ Faulty lib (before ++ pending ++ chunks.flatten))
    (hfew : FewBefore lib (before ++ pending) chunks) :
    (importLoop lib can protocol broken chunks pending (rs.map row) imported
      ⟨answers, []⟩).2.copied = [] := by
  induction chunks generalizing before pending rs with
  | nil =>
    rw [importLoop]
    rcases importRows_turn hlib hrow hbefore pending with
      ⟨read, rs', before', hrows, -, -, hwaiting⟩ | ⟨e, hrows, -⟩
    · rw [hrows]
      cases broken with
      | some e => rfl
      | none =>
        -- The parser waits at the end of the body, so no record in it is malformed.
        rcases hfault with hbroken | hfaulty
        · cases hbroken
        · rw [List.flatten_nil, List.append_nil] at hfaulty
          rw [← List.append_nil (before ++ pending)] at hwaiting
          exact absurd hwaiting (hfaulty.more [] hlib _)
    · rw [hrows]
  | cons bytes chunks ih =>
    rw [importLoop]
    rcases importRows_turn hlib hrow hbefore pending with
      ⟨read, rs', before', hrows, hbefore', hsplit, hwaiting⟩ | ⟨e, hrows, -⟩
    · rw [hrows]
      have hnow : (rs ++ rs').length < importChunkRows := by
        refine hfew 0 (by simp) _ ?_
        rw [List.take_zero, List.flatten_nil, List.append_nil]
        exact hwaiting
      have hno : ¬importChunkRows ≤ ((rs ++ rs').map row).length := by
        rw [List.length_map]
        omega
      have hreceived : before' ++ (pending.drop read ++ bytes) = before ++ pending ++ bytes := by
        rw [← List.append_assoc, ← hsplit]
      dsimp only
      rw [if_neg hno]
      refine ih hbefore' ?_ ?_
      · rw [hreceived, List.append_assoc (before ++ pending), ← List.flatten_cons]
        exact hfault
      · rw [hreceived]
        exact hfew.tail
    · rw [hrows]

/-- Where another chunk follows many records, they are stored. -/
theorem importLoop_many {answers : List (Option CopyError)} {broken : Option String}
    {chunks : List Bytes} {before pending : Bytes} {rs : List ImportRecord} (imported : Nat)
    (hbefore : Wholes lib.parseRecord before rs) (haccepts : ¬RefusesFirst answers)
    (hmany : ¬FewBefore lib (before ++ pending) chunks) :
    (importLoop lib can protocol broken chunks pending (rs.map row) imported
      ⟨answers, []⟩).2.copied.flatten ≠ [] := by
  induction chunks generalizing before pending rs with
  | nil =>
    refine absurd ?_ hmany
    intro k hk
    simp at hk
  | cons bytes chunks ih =>
    rw [importLoop]
    rcases importRows_turn hlib hrow hbefore pending with
      ⟨read, rs', before', hrows, hbefore', hsplit, hwaiting⟩ | ⟨e, hrows, hfaulty⟩
    · rw [hrows]
      dsimp only
      split_ifs with hmuch
      · -- They are copied now, and what is stored only grows.
        obtain ⟨answers', hcopy⟩ := copyRows_of_not_refuses haccepts [] ((rs ++ rs').map row)
        rw [hcopy]
        have hgrows : [] ++ [(rs ++ rs').map row] <+: (importLoop lib can protocol broken chunks
            (pending.drop read ++ bytes) [] (imported + ((rs ++ rs').map row).length)
            ⟨answers', [] ++ [(rs ++ rs').map row]⟩).2.copied :=
          importLoop_grows broken chunks _ [] _ ⟨answers', _⟩
        intro hnone
        have hrows : (rs ++ rs').map row = [] :=
          List.flatten_eq_nil_iff.mp hnone _ (hgrows.subset (by simp))
        rw [hrows] at hmuch
        simp [importChunkRows] at hmuch
      · have hreceived : before' ++ (pending.drop read ++ bytes) = before ++ pending ++ bytes := by
          rw [← List.append_assoc, ← hsplit]
        refine ih hbefore' ?_
        rw [hreceived]
        intro hfew
        refine hmany ?_
        intro k hk rs'' hrs''
        cases k with
        | zero =>
          rw [List.take_zero, List.flatten_nil, List.append_nil] at hrs''
          rw [← hwaiting.unique hlib hrs'', ← List.length_map (f := row)]
          omega
        | succ k =>
          rw [List.take_succ_cons, List.flatten_cons, ← List.append_assoc] at hrs''
          exact hfew k (by simpa using hk) rs'' hrs''
    · -- A malformed record has come before the records that were to be counted.
      exfalso
      refine hmany ?_
      intro k hk rs'' hrs''
      exact absurd hrs'' (hfaulty.more _ hlib rs'')

omit hlib hrow in
theorem importLoop_broken {e : String} (chunks : List Bytes) (pending : Bytes) (rows : List FrameRow)
    (imported : Nat) (db : CopyTarget) :
    ∃ fault, (importLoop lib can protocol (some e) chunks pending rows imported db).1 =
      .error fault := by
  induction chunks generalizing pending rows imported db with
  | nil =>
    rw [importLoop]
    cases importRows lib can protocol pending rows with
    | error e => exact ⟨e, rfl⟩
    | ok found => exact ⟨_, rfl⟩
  | cons bytes chunks ih =>
    rw [importLoop]
    cases importRows lib can protocol pending rows with
    | error e => exact ⟨e, rfl⟩
    | ok found =>
      dsimp only
      split_ifs
      · rcases copyRows_cases db found.2 with ⟨e, db', hcopy, -⟩ | ⟨db', hcopy, -⟩
        · rw [hcopy]
          exact ⟨_, rfl⟩
        · rw [hcopy]
          exact ih _ _ _ _
      · exact ih _ _ _ _

/-- A malformed record is answered with an error. -/
theorem importLoop_faulty {broken : Option String} {chunks : List Bytes} {pending : Bytes}
    (rows : List FrameRow) (imported : Nat) (db : CopyTarget)
    (hfaulty : Faulty lib (pending ++ chunks.flatten)) :
    ∃ fault, (importLoop lib can protocol broken chunks pending rows imported db).1 =
      .error fault := by
  have hout := importLoop_outcome hlib hrow broken chunks pending rows imported db
  cases hanswer : (importLoop lib can protocol broken chunks pending rows imported db).1 with
  | error fault => exact ⟨fault, rfl⟩
  | ok n =>
    obtain ⟨rs, rest, hleads, -, hok⟩ := hout
    obtain ⟨rfl, -⟩ := hok n hanswer
    have hwaiting : Waiting lib (pending ++ chunks.flatten ++ []) rs := by
      rw [List.append_nil]
      exact ⟨[], hleads, hlib.nil⟩
    exact absurd hwaiting (hfaulty.more [] hlib rs)

end Loop

/-! ### The import -/

/-- The bytes are a header, these records, and the beginning of another. -/
def Received (lib : ImportLib) (bytes : Bytes) (rs : List ImportRecord) : Prop :=
  ∃ h records, bytes = h ++ records ∧ Whole lib.header h () ∧ Waiting lib records rs

/-- A malformed record follows the header and some records. -/
def Malformed (lib : ImportLib) (body : Bytes) : Prop :=
  ∃ h records, body = h ++ records ∧ Whole lib.header h () ∧ Faulty lib records

/-- Fewer than `IMPORT_CHUNK_ROWS` records are complete in every beginning of the body that is
followed by another chunk. -/
def FewInTime (lib : ImportLib) (chunks : List Bytes) : Prop :=
  ∀ k < chunks.length, ∀ rs, Received lib (chunks.take k).flatten rs → rs.length < importChunkRows

/-- The chunks that have the header in them come first, and hold no record before they do. -/
theorem fewInTime_iff (hlib : lib.Lawful) {taken chunks : List Bytes} {h pending : Bytes}
    (hheader : Whole lib.header h ()) (htaken : taken.flatten = h ++ pending)
    (hwaits : ∀ k < taken.length, lib.header (taken.take k).flatten = .ok none) :
    FewInTime lib (taken ++ chunks) ↔ FewBefore lib pending chunks := by
  constructor
  · intro hfew k hk rs hrs
    refine hfew (taken.length + k) (by rw [List.length_append]; omega) rs ?_
    refine ⟨h, _, ?_, hheader, hrs⟩
    rw [List.take_length_add_append, List.flatten_append, htaken, List.append_assoc]
  · intro hfew k hk rs hrs
    obtain ⟨h', records, hbytes, hheader', hwaiting⟩ := hrs
    by_cases hearly : k < taken.length
    · rw [List.take_append_of_le_length hearly.le] at hbytes
      have hno := hwaits k hearly
      rw [hbytes, hlib.header.append hheader'] at hno
      cases hno
    · obtain ⟨j, rfl⟩ := Nat.exists_eq_add_of_le (Nat.le_of_not_lt hearly)
      rw [List.take_length_add_append, List.flatten_append, htaken, List.append_assoc] at hbytes
      obtain ⟨-, rfl, rfl⟩ := hlib.header.whole_inj hheader hheader' hbytes
      exact hfew j (by rw [List.length_append] at hk; omega) rs hwaiting

/-- What an import leaves is a beginning of the rows of the body's records; and nothing where the
database is not ready or refuses the first COPY.  Where the body is malformed or breaks off, it is
refused, and leaves nothing exactly if the first COPY was, or few records were complete in time. -/
theorem refused_import_leaves (hlib : lib.Lawful) (hprotocol : protocol.Lawful can)
    (upload : Upload) (answers : List (Option CopyError)) :
    (∀ ready, (importCapture lib can protocol ready upload ⟨answers, []⟩).2.copied.flatten = [] ∨
      ∃ h records rs rest rows, upload.chunks.flatten = h ++ records ∧ Whole lib.header h () ∧
        Leads lib records rs rest ∧ rs.mapM (importRow can protocol) = some rows ∧
        (importCapture lib can protocol ready upload ⟨answers, []⟩).2.copied.flatten <+: rows) ∧
    (∀ ready, RefusesFirst answers ∨ ready ≠ .ok () →
      (importCapture lib can protocol ready upload ⟨answers, []⟩).2.copied.flatten = []) ∧
    (upload.broken.isSome ∨ Malformed lib upload.chunks.flatten →
      (∃ fault, (importCapture lib can protocol (.ok ()) upload ⟨answers, []⟩).1 = .error fault) ∧
      ((importCapture lib can protocol (.ok ()) upload ⟨answers, []⟩).2.copied.flatten = [] ↔
        RefusesFirst answers ∨ FewInTime lib upload.chunks)) := by
  obtain ⟨row, hrow⟩ := exists_importRow hprotocol
  obtain ⟨chunks, broken⟩ := upload
  unfold importCapture
  rcases readHeader_spec hlib broken chunks [] with
    ⟨h, pending, taken, chunks', hread, hheader, rfl, htaken, hwaits⟩ | ⟨e, hread, hno⟩
  · simp only [List.nil_append] at htaken hwaits
    have hbody : (taken ++ chunks').flatten = h ++ (pending ++ chunks'.flatten) := by
      rw [List.flatten_append, htaken, List.append_assoc]
    simp only [hread]
    refine ⟨?_, ?_, ?_⟩
    · intro ready
      cases ready with
      | error e => exact .inl rfl
      | ok _ =>
        obtain ⟨rs, rest, hleads, hstart, -⟩ :=
          importLoop_outcome hlib.record hrow broken chunks' pending [] 0 ⟨answers, []⟩
        exact .inr ⟨h, _, rs, rest, rs.map row, hbody, hheader, hleads, mapM_importRow hrow rs,
          hstart⟩
    · intro ready hready
      cases ready with
      | error e => rfl
      | ok _ =>
        rcases hready with hrefuses | hnot
        · rw [importLoop_refused hrefuses broken chunks' pending [] 0, List.flatten_nil]
        · exact absurd rfl hnot
    · intro hfault
      have hfault' : broken.isSome ∨ Faulty lib (pending ++ chunks'.flatten) := by
        rcases hfault with hbroken | ⟨h', records, heq, hheader', hfaulty⟩
        · exact .inl hbroken
        · obtain ⟨-, rfl, rfl⟩ := hlib.header.whole_inj hheader hheader' (hbody.symm.trans heq)
          exact .inr hfaulty
      refine ⟨?_, ?_⟩
      · rcases hfault' with hbroken | hfaulty
        · obtain ⟨e, rfl⟩ := Option.isSome_iff_exists.mp hbroken
          exact importLoop_broken chunks' pending [] 0 ⟨answers, []⟩
        · exact importLoop_faulty hlib.record hrow [] 0 ⟨answers, []⟩ hfaulty
      · rw [fewInTime_iff hlib hheader htaken hwaits]
        constructor
        · intro hnothing
          by_contra hneither
          rw [not_or] at hneither
          exact importLoop_many hlib.record hrow 0 .nil hneither.1 hneither.2 hnothing
        · rintro (hrefuses | hfew)
          · rw [importLoop_refused hrefuses broken chunks' pending [] 0, List.flatten_nil]
          · exact congrArg List.flatten (importLoop_few hlib.record hrow 0 .nil hfault' hfew)
  · simp only [hread]
    refine ⟨fun _ => .inl rfl, fun _ _ => rfl, fun _ => ⟨⟨_, rfl⟩, ?_⟩⟩
    -- The body does not begin with a header, so no beginning of it does.
    refine iff_of_true rfl (.inr ?_)
    rintro k - rs ⟨h, records, hbytes, hheader, -⟩
    refine absurd ?_ (hno h (records ++ (chunks.drop k).flatten) hheader)
    rw [← List.append_assoc, ← hbytes, ← List.flatten_append, List.take_append_drop, List.nil_append]

/-- A CAN frame of no bytes, at time 7. -/
def emptyFrame : Bytes := [7, 0, 0, 0, 0, 0, 0, 0, 0x23, 1, 0, 0, 0, 3, 0]

/-- A record that says its payload is longer than a CAN frame's may be. -/
def longFrame : Bytes := [7, 0, 0, 0, 0, 0, 0, 0, 0x23, 1, 0, 0, 0, 3, 65]

theorem whole_emptyFrame : Whole Wtim.lib.parseRecord emptyFrame ⟨7, 0x123, 0, 3, []⟩ := rfl

/-- As many frames as a COPY takes, one more, and then the connection is reset. -/
def brokenOff : Upload :=
  ⟨[Wtim.magic ++ (List.replicate importChunkRows emptyFrame).flatten, emptyFrame], some "reset"⟩

/-- A body that breaks off when the frames of its first chunk have been COPYed. -/
theorem refused_import_leaves_broken :
    (∃ fault, (importCapture Wtim.lib Reference.canLib Reference.protocolLib (.ok ()) brokenOff
        ⟨[], []⟩).1 = .error fault) ∧
      (importCapture Wtim.lib Reference.canLib Reference.protocolLib (.ok ()) brokenOff
        ⟨[], []⟩).2.copied.flatten ≠ [] ∧
      ∃ h records rs rest rows, brokenOff.chunks.flatten = h ++ records ∧
        Leads Wtim.lib records rs rest ∧
        rs.mapM (importRow Reference.canLib Reference.protocolLib) = some rows ∧
        (importCapture Wtim.lib Reference.canLib Reference.protocolLib (.ok ()) brokenOff
          ⟨[], []⟩).2.copied.flatten <+: rows := by
  obtain ⟨hstart, -, hbroken⟩ := refused_import_leaves Wtim.lib_lawful Reference.protocolLib_lawful
    brokenOff []
  obtain ⟨herror, hnothing⟩ := hbroken (.inl rfl)
  have hcopied : (importCapture Wtim.lib Reference.canLib Reference.protocolLib (.ok ()) brokenOff
      ⟨[], []⟩).2.copied.flatten ≠ [] := by
    intro hnone
    rcases hnothing.mp hnone with ⟨e, he⟩ | hfew
    · cases he
    · -- The first chunk is followed by another, and has the records of a COPY.
      have hlt := hfew 1 Nat.one_lt_two (List.replicate importChunkRows ⟨7, 0x123, 0, 3, []⟩) ?_
      · rw [List.length_replicate] at hlt
        omega
      refine ⟨Wtim.magic, (List.replicate importChunkRows emptyFrame).flatten, by simp [brokenOff],
        Wtim.whole_header.mpr rfl, [], ⟨_, (List.append_nil _).symm, ?_⟩, Wtim.lib_lawful.record.nil⟩
      exact Wholes.replicate whole_emptyFrame importChunkRows
  refine ⟨herror, hcopied, ?_⟩
  obtain ⟨h, records, rs, rest, rows, hbody, -, hleads, hrows, hcopies⟩ :=
    (hstart (.ok ())).resolve_left hcopied
  exact ⟨h, records, rs, rest, rows, hbody, hleads, hrows, hcopies⟩

/-- Many records, and a malformed one in the next chunk. -/
theorem importLoop_late (hlib : Incremental lib.parseRecord)
    (hrow : ∀ r, importRow can protocol r = some (row r)) {frames bad : Bytes}
    {rs : List ImportRecord} {why : String} (hframes : Wholes lib.parseRecord frames rs)
    (hmany : importChunkRows ≤ rs.length) (hbad : lib.parseRecord bad = .error why) :
    (∃ fault, (importLoop lib can protocol none [bad] frames [] 0 ⟨[], []⟩).1 = .error fault) ∧
      (importLoop lib can protocol none [bad] frames [] 0 ⟨[], []⟩).2.copied.flatten ≠ [] := by
  have hfaulty : Faulty lib (frames ++ [bad].flatten) :=
    ⟨rs, bad, why, ⟨frames, by simp, hframes⟩, hbad⟩
  have hwaiting : Waiting lib (frames ++ ([bad].take 0).flatten) rs :=
    ⟨[], ⟨frames, by simp, hframes⟩, hlib.nil⟩
  refine ⟨importLoop_faulty hlib hrow [] 0 ⟨[], []⟩ hfaulty, ?_⟩
  have haccepts : ¬RefusesFirst [] := by
    rintro ⟨e, he⟩
    cases he
  have hnone : Wholes lib.parseRecord [] [] := .nil
  refine importLoop_many hlib hrow 0 hnone haccepts ?_
  intro hfew
  have hlt := hfew 0 Nat.one_pos rs hwaiting
  omega

/-- A first chunk of as many frames as a COPY takes, and then a malformed one. -/
def lateFault : List Bytes :=
  [Wtim.magic ++ (List.replicate importChunkRows emptyFrame).flatten, longFrame]

theorem refused_import_leaves_rows :
    (∃ fault, (importCapture Wtim.lib Reference.canLib Reference.protocolLib (.ok ())
        ⟨lateFault, none⟩ ⟨[], []⟩).1 = .error fault) ∧
      (importCapture Wtim.lib Reference.canLib Reference.protocolLib (.ok ())
        ⟨lateFault, none⟩ ⟨[], []⟩).2.copied.flatten ≠ [] := by
  obtain ⟨row, hrow⟩ := exists_importRow Reference.protocolLib_lawful
  have hread : readHeader Wtim.lib none lateFault [] =
      .ok ((List.replicate importChunkRows emptyFrame).flatten, [longFrame]) := rfl
  have hlong : Wtim.lib.parseRecord longFrame = .error "a CAN payload is at most 64 bytes" := rfl
  simp only [importCapture, hread]
  refine importLoop_late Wtim.lib_lawful.record hrow
    (Wholes.replicate whole_emptyFrame importChunkRows) ?_ hlong
  rw [List.length_replicate]

end WireTap.Gateway
