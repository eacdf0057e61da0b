import Mathlib.Data.List.Basic
import Mathlib.Data.List.TakeWhile

/-!
# The text format of `COPY`

A table is lines of fields: a newline ends each line, a tab stands between two fields, and `\N` is a
field that is NULL.  A backslash takes the character after it with it, so a separator that belongs
to a value is written escaped.

`read` refuses what a writer has no use for: numeric escapes, a carriage return that is not escaped,
and `\.` anywhere but alone on a line, where it ends the data.  `read_write` is the round trip.
-/

namespace WireTap.Lib.CopyText

/-- A field; `none` is NULL. -/
abbrev Field := Option (List Char)

/-- `\N`. -/
def null : List Char := ['\\', 'N']

/-- `\.` -/
def endOfData : List Char := ['\\', '.']

/-! ### Splitting at separators that are not escaped -/

/-- Text before the first piece. -/
def prepend (p : List Char) : List (List Char) → List (List Char)
  | [] => [p]
  | q :: qs => (p ++ q) :: qs

/-- The pieces between the separators. -/
def pieces (separator : Char) : List Char → List (List Char)
  | [] => [[]]
  | '\\' :: c :: text => prepend ['\\', c] (pieces separator text)
  | c :: text => if c = separator then [] :: pieces separator text
    else prepend [c] (pieces separator text)

/-- Every separator in the text is escaped, and its last backslash escapes something. -/
def whole (separator : Char) : List Char → Bool
  | [] => true
  | '\\' :: _ :: text => whole separator text
  | c :: text => c ≠ '\\' && c ≠ separator && whole separator text

theorem prepend_prepend (p q : List Char) {r : List (List Char)} (h : r ≠ []) :
    prepend p (prepend q r) = prepend (p ++ q) r := by
  cases r with
  | nil => exact absurd rfl h
  | cons r rs => simp [prepend]

theorem pieces_ne_nil (separator : Char) (text : List Char) : pieces separator text ≠ [] := by
  fun_induction pieces separator text with
  | case1 => simp
  | case2 c text ih => cases h : pieces separator text <;> simp [prepend]
  | case3 text => simp
  | case4 c text _ _ ih => cases h : pieces separator text <;> simp [prepend]

theorem pieces_whole_append {separator : Char} {p : List Char} (h : whole separator p = true)
    (text : List Char) : pieces separator (p ++ text) = prepend p (pieces separator text) := by
  fun_induction whole separator p with
  | case1 =>
    have hne := pieces_ne_nil separator text
    cases hp : pieces separator text with
    | nil => exact absurd hp hne
    | cons q qs => simp [prepend, hp]
  | case2 c p ih =>
    have hne := pieces_ne_nil separator text
    rw [List.cons_append, List.cons_append, pieces, ih h, prepend_prepend _ _ hne]
    rfl
  | case3 c p hc ih =>
    simp only [Bool.and_eq_true, decide_eq_true_eq] at h
    obtain ⟨⟨hback, hsep⟩, hp⟩ := h
    have hne := pieces_ne_nil separator text
    rw [List.cons_append, pieces, if_neg hsep, ih hp, prepend_prepend _ _ hne]
    · rfl
    · intro d rest hd _
      exact absurd hd hback

/-- A whole piece, and what its separator parts it from. -/
theorem pieces_separator {separator : Char} (hsep : separator ≠ '\\') {p : List Char}
    (h : whole separator p = true) (text : List Char) :
    pieces separator (p ++ separator :: text) = p :: pieces separator text := by
  rw [pieces_whole_append h, pieces]
  · rw [if_pos rfl, prepend, List.append_nil]
  · intro c rest hc _
    exact absurd hc hsep

theorem pieces_whole {separator : Char} {p : List Char} (h : whole separator p = true) :
    pieces separator p = [p] := by
  have hp := pieces_whole_append h []
  rwa [List.append_nil, pieces, prepend, List.append_nil] at hp

theorem whole_append {separator : Char} {p q : List Char} (hp : whole separator p = true)
    (hq : whole separator q = true) : whole separator (p ++ q) = true := by
  fun_induction whole separator p with
  | case1 => exact hq
  | case2 c p ih => exact ih hp
  | case3 c p hc ih =>
    simp only [Bool.and_eq_true, decide_eq_true_eq] at hp
    rw [List.cons_append, whole]
    · simp [hp.1.1, hp.1.2, ih hp.2]
    · intro d rest hd _
      exact absurd hd hp.1.1

/-- The pieces of a line put together from whole ones. -/
theorem pieces_intercalate {separator : Char} (hsep : separator ≠ '\\') {ps : List (List Char)}
    (hne : ps ≠ []) (h : ∀ p ∈ ps, whole separator p = true) :
    pieces separator (List.intercalate [separator] ps) = ps := by
  induction ps with
  | nil => exact absurd rfl hne
  | cons p ps ih =>
    rw [List.forall_mem_cons] at h
    cases ps with
    | nil => simpa using pieces_whole h.1
    | cons q qs =>
      have hcons : List.intercalate [separator] (p :: q :: qs) =
          p ++ separator :: List.intercalate [separator] (q :: qs) := by
        simp [List.intercalate, List.intersperse]
      rw [hcons, pieces_separator hsep h.1, ih (by simp) h.2]

/-! ### Reading -/

/-- The character that an escape stands for. -/
def escaped? : Char → Option Char
  | 'b' => some '\x08'
  | 'f' => some '\x0c'
  | 'n' => some '\n'
  | 'r' => some '\r'
  | 't' => some '\t'
  | 'v' => some '\x0b'
  | c => if c = '.' ∨ c = 'x' ∨ c.isDigit then none else some c

/-- A value's text without its escapes. -/
def unescape : List Char → Option (List Char)
  | [] => some []
  | ['\\'] => none
  | '\\' :: c :: text => do
    let d ← escaped? c
    let rest ← unescape text
    return d :: rest
  | c :: text => (unescape text).map (c :: ·)

def readField (raw : List Char) : Option Field :=
  if raw = null then some none else (unescape raw).map some

def readRow (line : List Char) : Option (List Field) :=
  if pieces '\r' line = [line] then (pieces '\t' line).mapM readField else none

/-- The lines of the text, the last with or without its newline, before the one that ends it. -/
def lines (text : List Char) : List (List Char) :=
  let all := pieces '\n' text
  (if all.getLast? = some [] then all.dropLast else all).takeWhile (· ≠ endOfData)

/-- The rows of the text: all of them, or none. -/
def read (text : List Char) : Option (List (List Field)) := (lines text).mapM readRow

/-! ### Writing -/

def escape : Char → List Char
  | '\\' => ['\\', '\\']
  | '\n' => ['\\', 'n']
  | '\r' => ['\\', 'r']
  | '\t' => ['\\', 't']
  | c => [c]

def writeField : Field → List Char
  | none => null
  | some text => text.flatMap escape

/-- A line without its newline. -/
def writeRow (row : List Field) : List Char := List.intercalate ['\t'] (row.map writeField)

def write (rows : List (List Field)) : List Char := rows.flatMap fun row => writeRow row ++ ['\n']

/-! ### The round trip -/

/-- No character of the text needs an escape. -/
def plain (text : List Char) : Bool := text.all fun c => escape c = [c]

theorem flatMap_escape {text : List Char} (h : plain text = true) : text.flatMap escape = text := by
  induction text with
  | nil => rfl
  | cons c text ih =>
    rw [plain, List.all_cons, Bool.and_eq_true] at h
    rw [List.flatMap_cons, of_decide_eq_true h.1, ih h.2]
    rfl

theorem unescape_escape (c : Char) (text : List Char) :
    unescape (escape c ++ text) = (unescape text).map (c :: ·) := by
  unfold escape
  split
  case h_5 =>
    rename_i hback _ _ _
    rw [List.singleton_append, unescape]
    · intro h _
      exact hback h
    · intro d rest h _
      exact hback h
  all_goals
    cases h : unescape text <;> simp [unescape, escaped?, h]

theorem unescape_flatMap (text : List Char) : unescape (text.flatMap escape) = some text := by
  induction text with
  | nil => rfl
  | cons c text ih => rw [List.flatMap_cons, unescape_escape, ih, Option.map_some]

/-- What is written for a character starts with no letter of `\N` after a backslash. -/
theorem escape_cases (c : Char) :
    (c ≠ '\\' ∧ escape c = [c]) ∨ ∃ d, d ≠ 'N' ∧ escape c = ['\\', d] := by
  unfold escape
  split
  case h_5 =>
    rename_i hback _ _ _
    exact .inl ⟨hback, rfl⟩
  all_goals exact .inr ⟨_, by decide, rfl⟩

theorem flatMap_escape_ne_null (text : List Char) : text.flatMap escape ≠ null := by
  intro h
  cases text with
  | nil => exact absurd h (by decide)
  | cons c text =>
    rw [List.flatMap_cons, null] at h
    obtain ⟨hc, he⟩ | ⟨d, hd, he⟩ := escape_cases c
    · rw [he, List.singleton_append, List.cons.injEq] at h
      exact hc h.1
    · rw [he, List.cons_append, List.cons_append, List.cons.injEq, List.cons.injEq] at h
      exact hd h.2.1

theorem readField_writeField (field : Field) : readField (writeField field) = some field := by
  cases field with
  | none => rfl
  | some text =>
    rw [writeField, readField, if_neg (flatMap_escape_ne_null text), unescape_flatMap]
    rfl

theorem whole_escape {separator : Char} (h : separator ∈ ['\n', '\r', '\t']) (c : Char) :
    whole separator (escape c) = true := by
  unfold escape
  split
  case h_5 hback hn hr ht =>
    have hsep : c ≠ separator := by
      rintro rfl
      simp only [List.mem_cons, List.not_mem_nil, or_false] at h
      tauto
    rw [whole]
    · simp [hsep, whole]
      exact hback
    · intro d rest hd _
      exact absurd hd hback
  all_goals rfl

theorem whole_writeField {separator : Char} (h : separator ∈ ['\n', '\r', '\t']) (field : Field) :
    whole separator (writeField field) = true := by
  cases field with
  | none => rfl
  | some text =>
    induction text with
    | nil => rfl
    | cons c text ih => exact whole_append (whole_escape h c) ih

theorem whole_writeRow {separator : Char} (h : separator ∈ ['\n', '\r']) (row : List Field) :
    whole separator (writeRow row) = true := by
  have hmem : separator ∈ ['\n', '\r', '\t'] := by
    simp only [List.mem_cons, List.not_mem_nil, or_false] at h ⊢
    tauto
  have htab : whole separator ['\t'] = true := by
    simp only [List.mem_cons, List.not_mem_nil, or_false] at h
    rcases h with rfl | rfl <;> rfl
  unfold writeRow
  induction row with
  | nil => rfl
  | cons field row ih =>
    cases row with
    | nil => simpa [List.intercalate] using whole_writeField hmem field
    | cons next row =>
      have hcons : List.intercalate ['\t'] ((field :: next :: row).map writeField) =
          writeField field ++ (['\t'] ++ List.intercalate ['\t'] ((next :: row).map writeField)) := by
        simp [List.intercalate]
      rw [hcons]
      exact whole_append (whole_writeField hmem field) (whole_append htab ih)

theorem mapM_readField (row : List Field) : (row.map writeField).mapM readField = some row := by
  induction row with
  | nil => rfl
  | cons field row ih => simp [readField_writeField, ih]

theorem readRow_writeRow {row : List Field} (h : row ≠ []) :
    readRow (writeRow row) = some row := by
  have hcr : pieces '\r' (writeRow row) = [writeRow row] :=
    pieces_whole (whole_writeRow (by decide) row)
  have htab : pieces '\t' (writeRow row) = row.map writeField := by
    refine pieces_intercalate (by decide) (by simpa using h) fun p hp => ?_
    obtain ⟨field, -, rfl⟩ := List.mem_map.mp hp
    exact whole_writeField (by decide) field
  rw [readRow, if_pos hcr, htab, mapM_readField]

/-- No row is written as the line that ends the data. -/
theorem writeRow_ne_endOfData {row : List Field} (h : row ≠ []) : writeRow row ≠ endOfData := by
  intro he
  have hread := readRow_writeRow h
  have hnone : readRow endOfData = none := by decide
  rw [he, hnone] at hread
  exact absurd hread.symm (Option.some_ne_none row)

theorem pieces_write (rows : List (List Field)) :
    pieces '\n' (write rows) = rows.map writeRow ++ [[]] := by
  induction rows with
  | nil => rfl
  | cons row rows ih =>
    have hcons : write (row :: rows) = writeRow row ++ '\n' :: write rows := by simp [write]
    rw [hcons, pieces_separator (by decide) (whole_writeRow (by decide) row), ih]
    rfl

theorem lines_write {rows : List (List Field)} (h : ∀ row ∈ rows, row ≠ []) :
    lines (write rows) = rows.map writeRow := by
  have hlast : (rows.map writeRow ++ [[]]).getLast? = some [] := by simp
  rw [lines, pieces_write]
  simp only [hlast, if_true, List.dropLast_concat]
  refine List.takeWhile_eq_self_iff.mpr fun line hline => ?_
  obtain ⟨row, hrow, rfl⟩ := List.mem_map.mp hline
  simpa using writeRow_ne_endOfData (h row hrow)

/-- A table that is written is read back, whatever texts are in it. -/
theorem read_write {rows : List (List Field)} (h : ∀ row ∈ rows, row ≠ []) :
    read (write rows) = some rows := by
  rw [read, lines_write h]
  induction rows with
  | nil => rfl
  | cons row rows ih =>
    rw [List.forall_mem_cons] at h
    simp [readRow_writeRow h.1, ih h.2]

end WireTap.Lib.CopyText
