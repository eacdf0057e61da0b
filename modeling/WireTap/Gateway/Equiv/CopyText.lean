import WireTap.Gateway.CopyText
import WireTap.Gateway.Equiv.Pending

/-!
# What is copied is what was written

`copyText_copyIn`: a batch whose times are in range is one line a row, and `COPY` makes of the text
what `FrameRow.pending` makes of the rows; the first row whose time is not in range refuses the batch
as PostgreSQL would.
-/

namespace WireTap.Gateway

open Wire Lib.CopyText

variable {φ κ : Type} {protocol : ProtocolLib φ κ} {strftime : String → Int → Option String}

/-! ### The readers -/

theorem hexValue?_digitChar : ∀ n < 16, hexValue? (Nat.digitChar n) = some n := by decide

theorem hexDecode_hexEncode (data : Bytes) : hexDecode (hexEncode data).toList = some data := by
  have hdecode : ∀ data : Bytes, hexDecode (data.flatMap fun b =>
      [Nat.digitChar (b.toNat / 16), Nat.digitChar (b.toNat % 16)]) = some data := by
    intro data
    induction data with
    | nil => rfl
    | cons b data ih =>
      have hb : b.toNat < 256 := b.toNat_lt
      have hhi := hexValue?_digitChar (b.toNat / 16) (by omega)
      have hlo := hexValue?_digitChar (b.toNat % 16) (by omega)
      have hbyte : UInt8.ofNat (16 * (b.toNat / 16) + b.toNat % 16) = b := by
        rw [Nat.div_add_mod]
        exact UInt8.ofNat_toNat
      rw [List.flatMap_cons, List.cons_append, List.cons_append, List.nil_append, hexDecode, hhi,
        hlo, ih]
      exact congrArg (fun b => some (b :: data)) hbyte
  rw [hexEncode, String.toList_ofList, hdecode]

theorem int?_decimal (n : Int) : Lib.int? (decimal n).toList = some n := by
  rw [decimal, String.toList_ofList, Lib.int?_ofInt]

theorem boolean_copyBool (v : Bool) : boolean (copyBool v).toList = some v := by
  cases v <;> decide

/-! ### The fields of a line -/

theorem plain_append {s t : List Char} (hs : plain s = true) (ht : plain t = true) :
    plain (s ++ t) = true := by
  rw [plain, List.all_append, Bool.and_eq_true]
  exact ⟨hs, ht⟩

theorem plain_of_isDigit {text : List Char} (h : ∀ c ∈ text, c.isDigit) : plain text = true := by
  refine List.all_eq_true.mpr fun c hc => decide_eq_true ?_
  have hdigit := h c hc
  unfold Lib.CopyText.escape
  split
  case h_5 => rfl
  all_goals exact absurd hdigit (by decide)

theorem plain_decimal (n : Int) : plain (decimal n).toList = true := by
  have hdigits : plain (Nat.toDigits 10 n.natAbs) = true :=
    plain_of_isDigit fun _ => Lib.isDigit_toDigits
  rw [decimal, String.toList_ofList, Lib.ofInt]
  split
  · exact plain_append (s := ['-']) (by decide) hdigits
  · exact hdigits

theorem plain_digitChar : ∀ n < 16, plain [Nat.digitChar n] = true := by decide

theorem plain_hexEncode (data : Bytes) : plain (hexEncode data).toList = true := by
  rw [hexEncode, String.toList_ofList]
  induction data with
  | nil => rfl
  | cons b data ih =>
    have hb : b.toNat < 256 := b.toNat_lt
    have hhi := plain_digitChar (b.toNat / 16) (by omega)
    have hlo := plain_digitChar (b.toNat % 16) (by omega)
    exact plain_append (plain_append hhi hlo) ih

theorem plain_copyBool (v : Bool) : plain (copyBool v).toList = true := by
  cases v <;> decide

/-- The fields of a row's line, with the text of its time. -/
def copyFields (protocol : ProtocolLib φ κ) (ts : String) (row : FrameRow) : List Field :=
  [some ts.toList, some (protocol.asStr row.protocol).toList, some (decimal row.id.toNat).toList,
    some (decimal row.flags.toNat).toList, some (decimal row.dlc.toNat).toList,
    some ('\\' :: 'x' :: (hexEncode row.data).toList), some (decimal row.bus.toNat).toList,
    row.unit.map fun v => (decimal v).toList, row.func.map fun v => (decimal v).toList,
    row.crcValid.map fun v => (copyBool v).toList]

theorem writeField_plain {text : List Char} (h : plain text = true) :
    writeField (some text) = text := flatMap_escape h

theorem writeField_nullable {α : Type} {display : α → String}
    (h : ∀ v, plain (display v).toList = true) (v : Option α) :
    writeField (v.map fun v => (display v).toList) = (nullableText (v.map display)).toList := by
  cases v with
  | none => simp [writeField, nullableText, null]
  | some v => exact writeField_plain (h v)

theorem writeField_hex (data : Bytes) :
    writeField (some ('\\' :: 'x' :: (hexEncode data).toList)) =
      '\\' :: '\\' :: 'x' :: (hexEncode data).toList := by
  show Lib.CopyText.escape '\\' ++
    (Lib.CopyText.escape 'x' ++ (hexEncode data).toList.flatMap Lib.CopyText.escape) = _
  rw [flatMap_escape (plain_hexEncode data)]
  rfl

/-- The texts of a row's line. -/
def copyTexts (protocol : ProtocolLib φ κ) (ts : String) (row : FrameRow) : List (List Char) :=
  [ts.toList, (protocol.asStr row.protocol).toList, (decimal row.id.toNat).toList,
    (decimal row.flags.toNat).toList, (decimal row.dlc.toNat).toList,
    '\\' :: '\\' :: 'x' :: (hexEncode row.data).toList, (decimal row.bus.toNat).toList,
    (nullableText (row.unit.map decimal)).toList, (nullableText (row.func.map decimal)).toList,
    (nullableText (row.crcValid.map copyBool)).toList]

theorem map_writeField_copyFields {ts : String} (hts : plain ts.toList = true) {row : FrameRow}
    (hprotocol : plain (protocol.asStr row.protocol).toList = true) :
    (copyFields protocol ts row).map writeField = copyTexts protocol ts row := by
  have hdecimal (n : Int) : writeField (some (decimal n).toList) = (decimal n).toList :=
    writeField_plain (plain_decimal n)
  rw [copyFields, copyTexts]
  simp only [List.map_cons, List.map_nil]
  rw [writeField_plain hts, writeField_plain hprotocol, hdecimal, hdecimal, hdecimal, hdecimal,
    writeField_hex, writeField_nullable plain_decimal, writeField_nullable plain_decimal,
    writeField_nullable plain_copyBool]

theorem toList_copyLine_eq (ts : String) (row : FrameRow) :
    (copyLine protocol ts row).toList =
      List.intercalate ['\t'] (copyTexts protocol ts row) ++ ['\n'] := by
  -- The separators as variables: unification would unfold the literals.
  have happend (tab newline hex a b c d e f g h i j : String) (htab : tab.toList = ['\t'])
      (hnewline : newline.toList = ['\n']) (hhex : hex.toList = ['\t', '\\', '\\', 'x']) :
      (a ++ tab ++ b ++ tab ++ c ++ tab ++ d ++ tab ++ e ++ hex ++ f ++ tab ++ g ++ tab ++ h ++ tab ++
        i ++ tab ++ j ++ newline).toList =
      List.intercalate ['\t'] [a.toList, b.toList, c.toList, d.toList, e.toList,
        '\\' :: '\\' :: 'x' :: f.toList, g.toList, h.toList, i.toList, j.toList] ++ ['\n'] := by
    simp only [String.toList_append, htab, hnewline, hhex, List.intercalate_cons_cons,
      List.intercalate_singleton, List.append_assoc, List.cons_append, List.nil_append]
  exact happend "\t" "\n" "\t\\\\x" ts (protocol.asStr row.protocol) (decimal row.id.toNat)
    (decimal row.flags.toNat) (decimal row.dlc.toNat) (hexEncode row.data) (decimal row.bus.toNat)
    (nullableText (row.unit.map decimal)) (nullableText (row.func.map decimal))
    (nullableText (row.crcValid.map copyBool)) (by simp) (by simp) (by simp)

/-- A row's line is its fields, as the format writes them. -/
theorem toList_copyLine {ts : String} (hts : plain ts.toList = true) {row : FrameRow}
    (hprotocol : plain (protocol.asStr row.protocol).toList = true) :
    (copyLine protocol ts row).toList = writeRow (copyFields protocol ts row) ++ ['\n'] := by
  rw [toList_copyLine_eq, writeRow, map_writeField_copyFields hts hprotocol]

/-- The columns of a row's line are the row the buffer takes. -/
theorem ofColumns_copyFields (timestamptz : String → Option Int) (now : Int) (ts : String)
    (row : FrameRow) :
    PendingRow.ofColumns timestamptz now
        (fun name => (copyColumns.zip (copyFields protocol ts row)).lookup name) =
      row.pending protocol (fun _ => timestamptz ts) now := by
  have hnull {α β : Type} (display : α → String) (reader : List Char → Option β)
      (input : α → Option β) (h : ∀ v, reader (display v).toList = input v) (v : Option α) :
      nullColumn reader (some (v.map fun v => (display v).toList)) = nullable input v := by
    cases v with
    | none => rfl
    | some v => exact congrArg (Option.map some) (h v)
  have hint2 (v : Int) : (Lib.int? (decimal v).toList).bind int2 = int2 v := by
    rw [int?_decimal, Option.bind_some]
  have hint4 (v : Int) : (Lib.int? (decimal v).toList).bind int4 = int4 v := by
    rw [int?_decimal, Option.bind_some]
  have hbool := hnull copyBool boolean some boolean_copyBool row.crcValid
  have hcrc : nullable (some : Bool → Option Bool) row.crcValid = some row.crcValid := by
    cases row.crcValid <;> rfl
  rw [hcrc] at hbool
  have hunit := hnull decimal (fun text => (Lib.int? text).bind int2) int2 hint2 row.unit
  have hfunc := hnull decimal (fun text => (Lib.int? text).bind int2) int2 hint2 row.func
  have hdata : bytea ('\\' :: 'x' :: (hexEncode row.data).toList) = some row.data :=
    hexDecode_hexEncode row.data
  simp [PendingRow.ofColumns, FrameRow.pending, copyColumns, copyFields, List.lookup_cons, column,
    hint2, hint4, hdata, hunit, hfunc, hbool]

/-! ### The batch -/

section Batch

variable (timestamptz : String → Option Int) (now : Int)

/-- A time, where PostgreSQL reads the text it is written as. -/
def held (strftime : String → Int → Option String) (timestamptz : String → Option Int) (us : Int) :
    Option Int :=
  if ((strftime timestampFormat us).bind timestamptz).isSome then some us else none

/-- What PostgreSQL reads in the text of a time is the time. -/
theorem timestamptz_eq_held (hread : ∀ us text, strftime timestampFormat us = some text →
    ∀ t, timestamptz text = some t → t = us) {us : Int} {text : String}
    (h : strftime timestampFormat us = some text) :
    timestamptz text = held strftime timestamptz us := by
  rw [held, h, Option.bind_some]
  cases hstored : timestamptz text with
  | none => rfl
  | some t =>
    rw [hread us text h t hstored]
    rfl

theorem pending_of_strftime (hread : ∀ us text, strftime timestampFormat us = some text →
    ∀ t, timestamptz text = some t → t = us) {text : String} {row : FrameRow}
    (h : strftime timestampFormat row.tsUs = some text) :
    row.pending protocol (fun _ => timestamptz text) now =
      row.pending protocol (held strftime timestamptz) now := by
  rw [FrameRow.pending, FrameRow.pending, timestamptz_eq_held timestamptz hread h]

/-- What `COPY` does with the fields of one line. -/
def storedRow (fields : List Field) : Option PendingRow :=
  if fields.length = copyColumns.length then
    PendingRow.ofColumns timestamptz now fun name => (copyColumns.zip fields).lookup name
  else none

theorem storedRow_copyFields (hread : ∀ us text, strftime timestampFormat us = some text →
    ∀ t, timestamptz text = some t → t = us) {text : String} {row : FrameRow}
    (h : strftime timestampFormat row.tsUs = some text) :
    storedRow timestamptz now (copyFields protocol text row) =
      row.pending protocol (held strftime timestamptz) now := by
  have hlength : (copyFields protocol text row).length = copyColumns.length := rfl
  rw [storedRow, if_pos hlength, ofColumns_copyFields, pending_of_strftime timestamptz now hread h]

/-- The loop over rows in range: it adds lines, whose fields `COPY` stores as the rows. -/
theorem copyRows_spec
    (hplain : ∀ us text, strftime timestampFormat us = some text → plain text.toList = true)
    (hread : ∀ us text, strftime timestampFormat us = some text →
      ∀ t, timestamptz text = some t → t = us)
    (hprotocol : ∀ p, plain (protocol.asStr p).toList = true) {batch : List FrameRow}
    (h : ∀ row ∈ batch, (strftime timestampFormat row.tsUs).isSome) (buf : String) :
    ∃ text table, batch.foldlM (copyRow protocol strftime) buf = .ok text ∧
      text.toList = buf.toList ++ write table ∧ (∀ fields ∈ table, fields ≠ []) ∧
      table.mapM (storedRow timestamptz now) =
        batch.mapM (FrameRow.pending protocol (held strftime timestamptz) now) := by
  induction batch generalizing buf with
  | nil => exact ⟨buf, [], rfl, by simp [write], by simp, rfl⟩
  | cons row batch ih =>
    rw [List.forall_mem_cons] at h
    obtain ⟨ts, hts⟩ := Option.isSome_iff_exists.mp h.1
    have hrow : copyRow protocol strftime buf row = .ok (buf ++ copyLine protocol ts row) := by
      rw [copyRow, hts]
    have hline := toList_copyLine (hplain _ _ hts) (hprotocol row.protocol)
    obtain ⟨text, table, hfold, htext, hne, hstored⟩ := ih h.2 (buf ++ copyLine protocol ts row)
    refine ⟨text, copyFields protocol ts row :: table, ?_, ?_, ?_, ?_⟩
    · rw [List.foldlM_cons, hrow]
      exact hfold
    · rw [htext, String.toList_append, hline]
      simp [write]
    · refine List.forall_mem_cons.mpr ⟨?_, hne⟩
      simp [copyFields]
    · rw [List.mapM_cons, List.mapM_cons, storedRow_copyFields timestamptz now hread hts, hstored]

end Batch

/-- A batch whose times are in range is stored as it was written, one row a row in their order, each
column with the value it was written from, if every value fits its column and every time is one that
PostgreSQL reads; and not at all otherwise.  The first row whose time is out of range refuses the
batch. -/
theorem copyText_copyIn
    (hplain : ∀ us text, strftime timestampFormat us = some text → plain text.toList = true)
    (hprotocol : ∀ p, plain (protocol.asStr p).toList = true) (timestamptz : String → Option Int)
    (hread : ∀ us text, strftime timestampFormat us = some text →
      ∀ t, timestamptz text = some t → t = us) (now : Int) :
    (∀ batch : List FrameRow, (∀ row ∈ batch, (strftime timestampFormat row.tsUs).isSome) →
      ∃ text, copyText protocol strftime batch = .ok text ∧
        copyIn timestamptz now copyColumns text =
          batch.mapM (FrameRow.pending protocol (held strftime timestamptz) now)) ∧
    ∀ before row after, (∀ r ∈ before, (strftime timestampFormat r.tsUs).isSome) →
      strftime timestampFormat row.tsUs = none →
      copyText protocol strftime (before ++ row :: after) =
        .error ⟨some datetimeFieldOverflow, "timestamp out of range: " ++ decimal row.tsUs⟩ := by
  refine ⟨?_, ?_⟩
  · intro batch hbatch
    obtain ⟨text, table, hfold, htext, hne, hstored⟩ :=
      copyRows_spec timestamptz now hplain hread hprotocol hbatch ""
    refine ⟨text, hfold, ?_⟩
    have hlines : read text.toList = some table := by
      rw [htext]
      exact read_write hne
    rw [copyIn, hlines]
    exact hstored
  · intro before row after hbefore hrow
    obtain ⟨text, -, hfold, -⟩ :=
      copyRows_spec timestamptz now hplain hread hprotocol hbefore ""
    have hrefused : copyRow protocol strftime text row =
        .error ⟨some datetimeFieldOverflow, "timestamp out of range: " ++ decimal row.tsUs⟩ := by
      rw [copyRow, hrow]
    rw [copyText, List.foldlM_append, hfold]
    show List.foldlM (copyRow protocol strftime) text (row :: after) = _
    rw [List.foldlM_cons, hrefused]
    rfl

/-- The text of a time in the first ten microseconds of 1970. -/
def early (format : String) (us : Int) : Option String :=
  if format = timestampFormat ∧ 0 ≤ us ∧ us < 10 then
    some ("1970-01-01T00:00:00.00000" ++ decimal us ++ "+00:00")
  else none

/-- What is read in such a text. -/
def readEarly (text : String) : Option Int :=
  ([0, 1, 2, 3, 4, 5, 6, 7, 8, 9] : List Int).find? fun us => early timestampFormat us = some text

/-- A remote frame that asks for eight bytes. -/
def remoteRow (tsUs : Int) : FrameRow := ⟨tsUs, .can, 0x123, 1, 8, [], 0, none, none, none⟩

/-- A Modbus message that was sent. -/
def modbusRow (tsUs : Int) : FrameRow :=
  ⟨tsUs, .modbusRtu, 0x103, 32, 4, [1, 3, 0, 0], 4, some 1, some 3, some false⟩

theorem copyText_copyIn_two :
    (∃ text, copyText Reference.protocolLib early [remoteRow 7, modbusRow 9] = .ok text ∧
      copyIn readEarly 8 copyColumns text =
        some [⟨7, 8, "can", 0x123, 1, 8, [], 0, none, none, none⟩,
          ⟨9, 8, "modbus_rtu", 0x103, 32, 4, [1, 3, 0, 0], 4, some 1, some 3, some false⟩]) ∧
    copyText Reference.protocolLib early [remoteRow 7, modbusRow (2 ^ 63 - 1), remoteRow 9] =
      .error ⟨some "22008", "timestamp out of range: 9223372036854775807"⟩ := by
  have hplain : ∀ us text, early timestampFormat us = some text → plain text.toList = true := by
    intro us text h
    obtain ⟨-, h⟩ := Option.ite_none_right_eq_some.mp h
    rw [← Option.some.inj h, String.toList_append, String.toList_append]
    exact plain_append (plain_append (by decide) (plain_decimal us)) (by decide)
  have hprotocol : ∀ p, plain (Reference.protocolLib.asStr p).toList = true := by
    intro p
    cases p <;> decide
  have hread : ∀ us text, early timestampFormat us = some text →
      ∀ t, readEarly text = some t → t = us := by
    intro us text h t ht
    have htext : early timestampFormat t = some text := by
      simpa using List.find?_some ht
    -- The texts of two times differ in the times.
    obtain ⟨-, hus⟩ := Option.ite_none_right_eq_some.mp h
    obtain ⟨-, ht⟩ := Option.ite_none_right_eq_some.mp htext
    have hsame := congrArg String.toList ((Option.some.inj ht).trans (Option.some.inj hus).symm)
    simp only [String.toList_append] at hsame
    have hdecimal : decimal t = decimal us :=
      String.toList_injective (List.append_cancel_left (List.append_cancel_right hsame))
    have hint := congrArg (fun text => Lib.int? text.toList) hdecimal
    simpa [int?_decimal] using hint
  have h := copyText_copyIn hplain hprotocol readEarly hread 8
  refine ⟨?_, ?_⟩
  · obtain ⟨text, htext, hrows⟩ := h.1 [remoteRow 7, modbusRow 9] (by decide)
    refine ⟨text, htext, hrows.trans ?_⟩
    decide
  · exact h.2 [remoteRow 7] (modbusRow (2 ^ 63 - 1)) [remoteRow 9] (by decide) (by decide)

end WireTap.Gateway
