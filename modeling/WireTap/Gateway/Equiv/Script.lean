import Mathlib.Data.List.Basic
import Mathlib.Data.List.Infix
import Mathlib.Tactic.SplitIfs
import WireTap.Gateway.Script

/-!
# The statements of a script

A script is lexed into pieces: plain characters, strings, dollar-quoted bodies, line comments and
meta-command lines.  `Lexes` is that they are what they claim to be, each in its place.  A comment
starts at the first of two dashes, a meta-command at a backslash that is first on its line, and a body
ends where its tag comes again.

`split_statements_eq`: what the splitter returns for a script is told by its pieces.  Each kind of
piece has its own lemma, from one top-level state of the loop to the next (`run_string` and so on).
-/

namespace WireTap.Gateway

open Lib
open Daemon (isWhitespace trim)

/-! ### Pieces -/

/-- A part of a script.  A comment or a meta-command ends with its line, or with the script. -/
inductive Piece where
  | plain (c : Char)
  | string (content : List Char)
  | dollar (tag body : List Char)
  | comment (text : List Char) (ended : Bool)
  | metaCommand (text : List Char) (ended : Bool)
  deriving DecidableEq

/-- `$tag$`. -/
def delimiter (tag : List Char) : List Char := '$' :: tag ++ ['$']

/-- `[A-Za-z0-9_]*`. -/
def IsTag (tag : List Char) : Prop := ∀ t ∈ tag, t.isAlphanum ∨ t = '_'

/-- A string's content, with its quotes doubled. -/
def quoted (content : List Char) : List Char :=
  content.flatMap fun c => if c = '\'' then ['\'', '\''] else [c]

/-- The end of a line, unless the script ends there. -/
def lineEnd (ended : Bool) : List Char := if ended then ['\n'] else []

namespace Piece

/-- As it is in the script. -/
def text : Piece → List Char
  | plain c => [c]
  | string content => '\'' :: quoted content ++ ['\'']
  | dollar tag body => delimiter tag ++ body ++ delimiter tag
  | comment text ended => '-' :: '-' :: text ++ lineEnd ended
  | metaCommand text ended => '\\' :: text ++ lineEnd ended

/-- What of it is part of a statement. -/
def kept : Piece → List Char
  | comment _ ended => lineEnd ended
  | metaCommand _ _ => []
  | p => p.text

end Piece

/-- The text of these pieces. -/
def script (pieces : List Piece) : List Char := pieces.flatMap Piece.text

/-- Behind this text, nothing is on the line yet but blanks. -/
def firstOnLine (before : List Char) : Bool :=
  (before.reverse.takeWhile (· ≠ '\n')).all isWhitespace

/-- The piece is what it claims to be, between these texts. -/
def Piece.Fits (before after : List Char) : Piece → Prop
  | .plain c => c ≠ '\'' ∧ c ≠ '$' ∧ ¬ (c = '-' ∧ after.head? = some '-') ∧
      ¬ (c = '\\' ∧ firstOnLine before = true)
  | .string _ => True
  | .dollar tag body => IsTag tag ∧ ¬ delimiter tag <:+: (body ++ delimiter tag).dropLast
  | .comment text ended => '\n' ∉ text ∧ (ended = false → after = [])
  | .metaCommand text ended =>
      firstOnLine before = true ∧ '\n' ∉ text ∧ (ended = false → after = [])

instance (before after : List Char) : (p : Piece) → Decidable (p.Fits before after)
  | .plain c => inferInstanceAs (Decidable (c ≠ '\'' ∧ c ≠ '$' ∧
      ¬ (c = '-' ∧ after.head? = some '-') ∧ ¬ (c = '\\' ∧ firstOnLine before = true)))
  | .string _ => inferInstanceAs (Decidable True)
  | .dollar tag body =>
    have : Decidable (IsTag tag) := List.decidableBAll _ _
    inferInstanceAs (Decidable (IsTag tag ∧ ¬ delimiter tag <:+: (body ++ delimiter tag).dropLast))
  | .comment text ended => inferInstanceAs (Decidable ('\n' ∉ text ∧ (ended = false → after = [])))
  | .metaCommand text ended => inferInstanceAs (Decidable
      (firstOnLine before = true ∧ '\n' ∉ text ∧ (ended = false → after = [])))

/-- The pieces are those of their text, behind what is before them. -/
def Lexes : List Char → List Piece → Prop
  | _, [] => True
  | before, p :: pieces => p.Fits before (script pieces) ∧ Lexes (before ++ p.text) pieces

instance Lexes.decidable :
    (before : List Char) → (pieces : List Piece) → Decidable (Lexes before pieces)
  | _, [] => inferInstanceAs (Decidable True)
  | before, p :: pieces =>
    have := Lexes.decidable (before ++ p.text) pieces
    inferInstanceAs (Decidable (_ ∧ _))

/-- The texts between top-level semicolons, trimmed, less the blank ones. -/
def statements (pieces : List Piece) : List (List Char) :=
  ((pieces.splitOn (.plain ';')).map fun between =>
    trim (between.flatMap Piece.kept)).filter (· ≠ [])

/-! ### The loop -/

namespace Splitter

/-- The loop with turns enough. -/
def run (s : Splitter) (text : List Char) : Splitter := loop text.length s text

theorem stepPlain_suffix (s : Splitter) (c : Char) (rest : List Char) :
    (s.stepPlain c rest).2 <:+ rest := by
  unfold stepPlain
  split_ifs
  · exact List.suffix_rfl
  · exact List.suffix_rfl
  · cases dollarOpener rest with
    | none => exact List.suffix_rfl
    | some tag => exact List.drop_suffix _ _
  · exact List.suffix_rfl
  · exact List.suffix_rfl

/-- A turn takes more off the iterator or leaves it. -/
theorem step_suffix (s : Splitter) (c : Char) (rest : List Char) : (s.step c rest).2 <:+ rest := by
  unfold step
  by_cases hcomment : s.inComment = true
  · rw [if_pos hcomment]
    split_ifs
    · exact List.suffix_rfl
    · exact List.suffix_rfl
  · rw [if_neg hcomment]
    cases s.dollarTag with
    | some tag =>
      dsimp only
      split_ifs
      · exact List.drop_suffix _ _
      · exact List.suffix_rfl
    | none =>
      dsimp only
      by_cases hsingle : s.inSingle = true
      · rw [if_pos hsingle]
      · rw [if_neg hsingle]
        by_cases hmeta : (s.atLineStart && decide (c = '\\')) = true
        · rw [if_pos hmeta]
          exact (List.tail_suffix _).trans (List.dropWhile_suffix _)
        · rw [if_neg hmeta]
          exact stepPlain_suffix _ c rest

theorem loop_eq_run {fuel : Nat} {text : List Char} (h : text.length ≤ fuel) (s : Splitter) :
    loop fuel s text = run s text := by
  -- Both loops take the same turns, and neither runs out.
  have hmore : ∀ fuel fuel' text (s : Splitter), text.length ≤ fuel → text.length ≤ fuel' →
      loop fuel s text = loop fuel' s text := by
    intro fuel
    induction fuel with
    | zero =>
      intro fuel' text s h _
      obtain rfl := List.length_eq_zero_iff.mp (Nat.le_zero.mp h)
      cases fuel' <;> rfl
    | succ fuel ih =>
      intro fuel' text s h h'
      cases text with
      | nil => cases fuel' <;> rfl
      | cons c rest =>
        have hle := (s.step_suffix c rest).length_le
        rw [List.length_cons] at h h'
        obtain ⟨fuel', rfl⟩ : ∃ n, fuel' = n + 1 := ⟨fuel' - 1, by omega⟩
        exact ih fuel' _ _ (by omega) (by omega)
  exact hmore fuel text.length text s h (Nat.le_refl _)

theorem run_cons (s : Splitter) (c : Char) (rest : List Char) :
    run s (c :: rest) = run (s.step c rest).1 (s.step c rest).2 :=
  loop_eq_run (s.step_suffix c rest).length_le _

/-! ### Each kind of piece -/

/-- The loop outside every comment, body and string. -/
def top (out : List (List Char)) (current : List Char) (atLineStart : Bool) : Splitter :=
  ⟨out, current, none, false, false, atLineStart⟩

variable {out : List (List Char)} {current : List Char} {atLineStart : Bool}

/-- The flag behind a character. -/
def lineStart (atLineStart : Bool) (c : Char) : Bool :=
  if !isWhitespace c then false else if c = '\n' then true else atLineStart

/-- A character outside that opens no meta-command. -/
theorem step_top {c : Char} (rest : List Char) (hmeta : ¬ (c = '\\' ∧ atLineStart = true)) :
    (top out current atLineStart).step c rest =
      (top out current (lineStart atLineStart c)).stepPlain c rest := by
  have hnot : (atLineStart && decide (c = '\\')) = false := by
    rw [Bool.and_eq_false_iff, decide_eq_false_iff_not, ← Bool.not_eq_true]
    tauto
  simp [step, top, hnot, lineStart]

theorem run_semicolon (rest : List Char) :
    run (top out current atLineStart) (';' :: rest) =
      run (top (if trim current = [] then out else out ++ [trim current]) [] false) rest := by
  rw [run_cons, step_top rest (by simp)]
  rfl

theorem run_plain {c : Char} {rest : List Char} (hquote : c ≠ '\'') (hdollar : c ≠ '$')
    (hdash : ¬ (c = '-' ∧ rest.head? = some '-')) (hmeta : ¬ (c = '\\' ∧ atLineStart = true))
    (hsemicolon : c ≠ ';') :
    run (top out current atLineStart) (c :: rest) =
      run (top out (current ++ [c]) (lineStart atLineStart c)) rest := by
  have hnext : ¬ (c = '-' ∧ nextByte rest = some 0x2D) := by
    rw [nextByte, show (0x2D : UInt8) = UInt8.ofNat '-'.toNat from rfl, head?_toUtf8 (by decide)]
    exact hdash
  rw [run_cons, step_top rest hmeta, stepPlain, if_neg hnext, if_neg hquote, if_neg hdollar,
    if_neg hsemicolon]
  rfl

/-- Inside a string. -/
def single (out : List (List Char)) (current : List Char) : Splitter :=
  ⟨out, current, none, true, false, false⟩

theorem run_quote (rest : List Char) :
    run (top out current atLineStart) ('\'' :: rest) = run (single out (current ++ ['\''])) rest := by
  rw [run_cons, step_top rest (by simp)]
  rfl

theorem run_single (c : Char) (rest : List Char) :
    run (single out current) (c :: rest) =
      if c = '\'' then run (top out (current ++ [c]) false) rest
      else run (single out (current ++ [c])) rest := by
  rw [run_cons]
  split_ifs with hquote
  · simp [step, single, push, top, hquote]
  · simp [step, single, push, hquote]

/-- A doubled quote closes the string and opens it again. -/
theorem run_content (content rest : List Char) :
    run (single out current) (quoted content ++ '\'' :: rest) =
      run (top out (current ++ quoted content ++ ['\'']) false) rest := by
  induction content generalizing current with
  | nil => simp [quoted, run_single]
  | cons c content ih =>
    have hcons : quoted (c :: content) = (if c = '\'' then ['\'', '\''] else [c]) ++ quoted content :=
      List.flatMap_cons
    rw [hcons]
    split_ifs with hquote
    · simp [run_single, run_quote, ih]
    · simp [run_single, hquote, ih]

theorem run_string (content rest : List Char) :
    run (top out current atLineStart) ((Piece.string content).text ++ rest) =
      run (top out (current ++ (Piece.string content).text) false) rest := by
  simp [Piece.text, run_quote, run_content]

/-- Inside a dollar-quoted body. -/
def body (out : List (List Char)) (current tag : List Char) : Splitter :=
  ⟨out, current, some tag, false, false, false⟩

theorem toNat_lt_of_isAlphanum {t : Char} (h : t.isAlphanum = true) : t.toNat < 128 := by
  have hval : t.val.toNat = t.toNat := rfl
  delta Char.isAlphanum Char.isAlpha Char.isUpper Char.isLower Char.isDigit at h
  simp only [Bool.or_eq_true, Bool.and_eq_true, decide_eq_true_eq, ge_iff_le,
    UInt32.le_iff_toNat_le] at h
  simp at h
  omega

theorem isAscii_delimiter {tag : List Char} (htag : IsTag tag) :
    ∀ c ∈ delimiter tag, c.toNat < 128 := by
  intro c hc
  simp only [delimiter, List.cons_append, List.mem_cons, List.mem_append, List.not_mem_nil,
    or_false] at hc
  rcases hc with rfl | hc | rfl
  · decide
  · rcases htag c hc with hc | rfl
    · exact toNat_lt_of_isAlphanum hc
    · decide
  · decide

/-- Less the dollar it starts with, in bytes. -/
theorem length_delimiter {tag : List Char} (htag : IsTag tag) :
    (toUtf8 (delimiter tag)).length - 1 = (tag ++ ['$']).length := by
  rw [length_toUtf8 (isAscii_delimiter htag)]
  simp [delimiter]

theorem dollar_notMem {tag : List Char} (htag : IsTag tag) : '$' ∉ tag := by
  intro hmem
  have hnot : ¬ (('$' : Char).isAlphanum = true ∨ '$' = '_') := by decide
  exact hnot (htag '$' hmem)

theorem dollarOpener_eq {tag : List Char} (htag : IsTag tag)
    (rest : List Char) : dollarOpener (tag ++ '$' :: rest) = some (delimiter tag) := by
  have htake : (tag ++ '$' :: rest).takeWhile (· ≠ '$') = tag := by
    have hne : ∀ t ∈ tag, decide (t ≠ '$') = true := by
      intro t ht
      rw [decide_eq_true_eq]
      rintro rfl
      exact dollar_notMem htag ht
    rw [List.takeWhile_append_of_pos hne]
    simp
  unfold dollarOpener
  simp only [htake]
  rw [if_pos]
  · rfl
  · simpa [IsTag] using htag

/-- The opening delimiter. -/
theorem run_open {tag : List Char} (htag : IsTag tag) (rest : List Char) :
    run (top out current atLineStart) (delimiter tag ++ rest) =
      run (body out (current ++ delimiter tag) (delimiter tag)) rest := by
  have hsplit : delimiter tag ++ rest = '$' :: (tag ++ '$' :: rest) := by simp [delimiter]
  have hrest : tag ++ '$' :: rest = (tag ++ ['$']) ++ rest := by simp
  rw [hsplit, run_cons, step_top _ (by simp), stepPlain, if_neg (by simp), if_neg (by simp),
    if_pos rfl, dollarOpener_eq htag]
  dsimp only
  rw [length_delimiter htag, hrest, List.take_left, List.drop_left]
  rfl

/-- The closing one. -/
theorem run_close {tag : List Char} (htag : IsTag tag) (rest : List Char) :
    run (body out current (delimiter tag)) (delimiter tag ++ rest) =
      run (top out (current ++ delimiter tag) false) rest := by
  have hsplit : delimiter tag ++ rest = '$' :: ((tag ++ ['$']) ++ rest) := by simp [delimiter]
  have hstart : (delimiter tag).isPrefixOf ('$' :: ((tag ++ ['$']) ++ rest)) = true := by
    rw [List.isPrefixOf_iff_prefix, ← hsplit]
    exact List.prefix_append _ _
  have hstep : (body out current (delimiter tag)).step '$' ((tag ++ ['$']) ++ rest) =
      (top out (current ++ delimiter tag) false, rest) := by
    unfold step
    rw [if_neg (by simp [body])]
    show (if _ then _ else _) = _
    rw [if_pos (by simpa using hstart), length_delimiter htag]
    dsimp only
    rw [List.take_left, List.drop_left]
    rfl
  rw [hsplit, run_cons, hstep]

/-- A body up to where its delimiter comes again. -/
theorem run_body {tag text : List Char} (htag : IsTag tag)
    (hfirst : ¬ delimiter tag <:+: (text ++ delimiter tag).dropLast) (rest : List Char) :
    run (body out current (delimiter tag)) (text ++ (delimiter tag ++ rest)) =
      run (top out (current ++ text ++ delimiter tag) false) rest := by
  induction text generalizing current with
  | nil => simpa using run_close htag rest
  | cons c text ih =>
    have hlater : (text ++ delimiter tag).dropLast <:+ (c :: text ++ delimiter tag).dropLast := by
      rw [List.cons_append, List.dropLast_cons_of_ne_nil (by simp [delimiter])]
      exact List.suffix_cons _ _
    have hnot : (delimiter tag).isPrefixOf (c :: (text ++ (delimiter tag ++ rest))) = false := by
      rw [← Bool.not_eq_true, List.isPrefixOf_iff_prefix]
      intro hstart
      -- It would be there before the end.
      have hwhole : (c :: text ++ delimiter tag).dropLast <+:
          c :: (text ++ (delimiter tag ++ rest)) := by
        refine (List.dropLast_prefix _).trans ⟨rest, ?_⟩
        simp
      have hwithin : delimiter tag <+: (c :: text ++ delimiter tag).dropLast :=
        List.prefix_of_prefix_length_le hstart hwhole (by simp)
      exact hfirst hwithin.isInfix
    have hstep : (body out current (delimiter tag)).step c (text ++ (delimiter tag ++ rest)) =
        (body out (current ++ [c]) (delimiter tag), text ++ (delimiter tag ++ rest)) := by
      unfold step
      rw [if_neg (by simp [body])]
      show (if _ then _ else _) = _
      rw [if_neg (by simp [hnot])]
      rfl
    rw [List.cons_append, run_cons, hstep]
    rw [ih fun hin => hfirst (hin.trans hlater.isInfix)]
    simp

theorem run_dollar {tag text : List Char} (htag : IsTag tag)
    (hfirst : ¬ delimiter tag <:+: (text ++ delimiter tag).dropLast) (rest : List Char) :
    run (top out current atLineStart) ((Piece.dollar tag text).text ++ rest) =
      run (top out (current ++ (Piece.dollar tag text).text) false) rest := by
  simp only [Piece.text, List.append_assoc]
  rw [run_open htag, run_body htag hfirst]
  simp

/-- Inside a comment. -/
def comment (out : List (List Char)) (current : List Char) (atLineStart : Bool) : Splitter :=
  ⟨out, current, none, false, true, atLineStart⟩

theorem run_dashes (rest : List Char) :
    run (top out current atLineStart) ('-' :: '-' :: rest) = run (comment out current false) rest := by
  have hnext : nextByte ('-' :: rest) = some 0x2D := by
    rw [nextByte, show (0x2D : UInt8) = UInt8.ofNat '-'.toNat from rfl, head?_toUtf8 (by decide)]
    rfl
  rw [run_cons, step_top _ (by simp), stepPlain, if_pos ⟨rfl, hnext⟩]
  exact run_cons _ _ _

/-- A comment's text is passed over. -/
theorem run_comment_text {text : List Char} (h : '\n' ∉ text) (rest : List Char) :
    run (comment out current false) (text ++ rest) = run (comment out current false) rest := by
  induction text with
  | nil => rfl
  | cons c text ih =>
    rw [List.mem_cons, not_or] at h
    rw [List.cons_append, run_cons]
    have hstep : (comment out current false).step c (text ++ rest) =
        (comment out current false, text ++ rest) := by
      simp [step, comment, Ne.symm h.1]
    rw [hstep]
    exact ih h.2

theorem run_comment {text : List Char} (h : '\n' ∉ text) (rest : List Char) :
    run (top out current atLineStart) ((Piece.comment text true).text ++ rest) =
      run (top out (current ++ ['\n']) true) rest := by
  have hsplit : (Piece.comment text true).text ++ rest = '-' :: '-' :: (text ++ '\n' :: rest) := by
    simp [Piece.text, lineEnd]
  rw [hsplit, run_dashes, run_comment_text h, run_cons]
  rfl

/-- A comment that ends with the script. -/
theorem run_comment_last {text : List Char} (h : '\n' ∉ text) :
    run (top out current atLineStart) (Piece.comment text false).text = comment out current false := by
  have hsplit : (Piece.comment text false).text = '-' :: '-' :: (text ++ []) := by
    simp [Piece.text, lineEnd]
  rw [hsplit, run_dashes, run_comment_text h]
  rfl

/-- A meta-command is passed over with its line. -/
theorem run_metaCommand {text : List Char} (h : '\n' ∉ text) {ended : Bool} {rest : List Char}
    (hrest : ended = false → rest = []) :
    run (top out current true) ((Piece.metaCommand text ended).text ++ rest) =
      run (top out current true) rest := by
  have hsplit : (Piece.metaCommand text ended).text ++ rest =
      '\\' :: (text ++ (lineEnd ended ++ rest)) := by
    simp [Piece.text]
  have hskip : ((text ++ (lineEnd ended ++ rest)).dropWhile (· ≠ '\n')).tail = rest := by
    have hne : ∀ c ∈ text, decide (c ≠ '\n') = true := by
      intro c hc
      rw [decide_eq_true_eq]
      rintro rfl
      exact h hc
    rw [List.dropWhile_append_of_pos hne]
    cases ended with
    | true => rfl
    | false =>
      rw [hrest rfl]
      rfl
  have hstep : (top out current true).step '\\' (text ++ (lineEnd ended ++ rest)) =
      (top out current true, rest) := by
    have hmeta : (top out current true).step '\\' (text ++ (lineEnd ended ++ rest)) =
        (top out current true, ((text ++ (lineEnd ended ++ rest)).dropWhile (· ≠ '\n')).tail) := rfl
    rw [hmeta, hskip]
  rw [hsplit, run_cons, hstep]

end Splitter

/-! ### Lines -/

theorem firstOnLine_append (before : List Char) (c : Char) :
    firstOnLine (before ++ [c]) = Splitter.lineStart (firstOnLine before) c := by
  unfold firstOnLine Splitter.lineStart
  rw [List.reverse_append, List.reverse_singleton, List.singleton_append, List.takeWhile_cons]
  by_cases hline : c = '\n'
  · subst hline
    rfl
  · cases hblank : isWhitespace c <;> simp [hline, hblank]

/-- Behind something that ends in a character which is no blank, the line has begun. -/
theorem firstOnLine_of_last (before text : List Char) {c : Char} (hc : isWhitespace c = false) :
    firstOnLine (before ++ (text ++ [c])) = false := by
  rw [← List.append_assoc, firstOnLine_append, Splitter.lineStart, hc]
  rfl

theorem firstOnLine_line (before text : List Char) :
    firstOnLine (before ++ (text ++ ['\n'])) = true := by
  rw [← List.append_assoc, firstOnLine_append]
  rfl

/-! ### Whole scripts -/

/-- What is between the semicolons, the first of it behind `current`. -/
def groups (current : List Char) (pieces : List Piece) : List (List Char) :=
  ((pieces.splitOn (.plain ';')).map (·.flatMap Piece.kept)).modifyHead (current ++ ·)

theorem groups_semicolon (current : List Char) (pieces : List Piece) :
    groups current (.plain ';' :: pieces) = current :: groups [] pieces := by
  unfold groups
  rw [List.splitOn_cons_eq_if_modifyHead]
  cases pieces.splitOn (.plain ';') <;> simp

theorem groups_cons (current : List Char) {p : Piece} (hp : p ≠ .plain ';') (pieces : List Piece) :
    groups current (p :: pieces) = groups (current ++ p.kept) pieces := by
  unfold groups
  rw [List.splitOn_cons_eq_if_modifyHead, if_neg (by simpa using hp)]
  cases pieces.splitOn (.plain ';') <;> simp

/-- The statements among groups. -/
def trimmed (groups : List (List Char)) : List (List Char) := (groups.map trim).filter (· ≠ [])

theorem trimmed_append (groups groups' : List (List Char)) :
    trimmed (groups ++ groups') = trimmed groups ++ trimmed groups' := by
  simp [trimmed]

theorem finish_out (s : Splitter) : s.finish.out = s.out ++ trimmed [s.current] := by
  unfold Splitter.finish trimmed
  by_cases hblank : trim s.current = [] <;> simp [hblank]

open Splitter in
/-- The loop over one piece, to what it returns. -/
theorem run_piece {before rest : List Char} {p : Piece} (hfits : p.Fits before rest)
    (hp : p ≠ .plain ';') (out : List (List Char)) (current : List Char) :
    ((top out current (firstOnLine before)).run (p.text ++ rest)).finish.out =
      ((top out (current ++ p.kept) (firstOnLine (before ++ p.text))).run rest).finish.out := by
  cases p with
  | plain c =>
    obtain ⟨hquote, hdollar, hdash, hmeta⟩ := hfits
    have hsemicolon : c ≠ ';' := by simpa using hp
    have hflag : firstOnLine (before ++ (Piece.plain c).text) = lineStart (firstOnLine before) c :=
      firstOnLine_append before c
    rw [hflag]
    exact congrArg (·.finish.out) (run_plain hquote hdollar hdash hmeta hsemicolon)
  | string content =>
    have hflag : firstOnLine (before ++ (Piece.string content).text) = false :=
      firstOnLine_of_last before ('\'' :: quoted content) (by decide)
    rw [hflag, run_string]
    rfl
  | dollar tag body =>
    have hflag : firstOnLine (before ++ (Piece.dollar tag body).text) = false := by
      have hlast := firstOnLine_of_last before (delimiter tag ++ body ++ '$' :: tag)
        (show isWhitespace '$' = false by decide)
      simpa [Piece.text, delimiter] using hlast
    rw [hflag, run_dollar hfits.1 hfits.2]
    rfl
  | comment text ended =>
    obtain ⟨htext, hlast⟩ := hfits
    cases ended with
    | true =>
      have hflag : firstOnLine (before ++ (Piece.comment text true).text) = true :=
        firstOnLine_line before ('-' :: '-' :: text)
      rw [hflag, run_comment htext]
      rfl
    | false =>
      -- The script ends in it.
      rw [hlast rfl, List.append_nil, run_comment_last htext, finish_out, finish_out]
      simp [Piece.kept, lineEnd, comment, Splitter.run, Splitter.loop, top]
  | metaCommand text ended =>
    obtain ⟨hfirst, htext, hlast⟩ := hfits
    rw [hfirst, run_metaCommand htext hlast]
    cases ended with
    | true =>
      have hflag : firstOnLine (before ++ (Piece.metaCommand text true).text) = true :=
        firstOnLine_line before ('\\' :: text)
      rw [hflag]
      simp [Piece.kept]
    | false =>
      rw [hlast rfl, finish_out, finish_out]
      simp [Piece.kept, Splitter.run, Splitter.loop, top]

theorem run_script {before : List Char} {pieces : List Piece} (h : Lexes before pieces)
    (out : List (List Char)) (current : List Char) :
    ((Splitter.top out current (firstOnLine before)).run (script pieces)).finish.out =
      out ++ trimmed (groups current pieces) := by
  induction pieces generalizing before out current with
  | nil =>
    have hgroups : groups current [] = [current] := by simp [groups]
    rw [hgroups]
    exact finish_out _
  | cons p pieces ih =>
    obtain ⟨hfits, hrest⟩ := h
    have hscript : script (p :: pieces) = p.text ++ script pieces := List.flatMap_cons
    rw [hscript]
    by_cases hp : p = .plain ';'
    · subst hp
      have hflag : firstOnLine (before ++ (Piece.plain ';').text) = false :=
        firstOnLine_append before ';'
      have hfinished : (if trim current = [] then out else out ++ [trim current]) =
          out ++ trimmed [current] := finish_out (.top out current false)
      have hnext := ih hrest (out ++ trimmed [current]) []
      rw [hflag, ← hfinished] at hnext
      show ((Splitter.top out current (firstOnLine before)).run (';' :: script pieces)).finish.out = _
      rw [Splitter.run_semicolon, hnext, hfinished, groups_semicolon, List.append_assoc,
        ← trimmed_append]
      rfl
    · rw [run_piece hfits hp, ih hrest, groups_cons current hp]

theorem split_statements_eq {pieces : List Piece} (h : Lexes [] pieces) :
    splitStatements (String.ofList (script pieces)) = (statements pieces).map String.ofList := by
  have hgroups : trimmed (groups [] pieces) = statements pieces := by
    unfold trimmed groups statements
    cases pieces.splitOn (.plain ';') <;> simp [Function.comp_def]
  have hrun := run_script h [] []
  rw [List.nil_append, hgroups] at hrun
  unfold splitStatements
  rw [String.toList_ofList]
  exact congrArg (List.map String.ofList) hrun

/-- A meta-command; a string, a comment and a body with semicolons in them; two statements. -/
def twoStatements : List Piece :=
  [.metaCommand "ir init.sql;".toList true, .plain 'A', .plain ' ', .string "é;'--".toList,
    .comment " it's;".toList true, .plain ';', .plain ' ', .plain '-',
    .dollar "f".toList "\n\\; $$ ".toList, .plain '\\', .comment ";".toList false]

theorem split_statements_two :
    splitStatements "\\ir init.sql;\nA 'é;''--'-- it's;\n; -$f$\n\\; $$ $f$\\--;" =
      ["A 'é;''--'", "-$f$\n\\; $$ $f$\\"] := by
  have hlexes : Lexes [] twoStatements := by
    simp only [twoStatements, String.reduceToList]
    decide +kernel
  have hscript : String.ofList (script twoStatements) =
      "\\ir init.sql;\nA 'é;''--'-- it's;\n; -$f$\n\\; $$ $f$\\--;" := by
    simp [script, twoStatements, Piece.text, quoted, delimiter, lineEnd]
  have hgroups : twoStatements.splitOn (.plain ';') =
      [twoStatements.take 5, twoStatements.drop 6] := by
    simp [twoStatements, List.splitOn_cons_eq_if_modifyHead]
  have hstatements : statements twoStatements =
      ["A 'é;''--'".toList, "-$f$\n\\; $$ $f$\\".toList] := by
    unfold statements
    rw [hgroups]
    simp only [twoStatements, String.reduceToList]
    decide +kernel
  rw [← hscript, split_statements_eq hlexes, hstatements]
  simp

end WireTap.Gateway
