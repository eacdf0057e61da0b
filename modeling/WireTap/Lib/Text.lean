import Mathlib.Data.List.Basic

/-!
# Text codecs

The conversions a short token goes through on its way out and back: numbers to decimal digits, text
to UTF-8, bytes to base64 without padding over the URL-safe alphabet.  Each decoder is the strict
one, and each section ends in its round trip: `int?_ofInt` and `nat?_toDigits`, `fromUtf8_toUtf8`,
`Base64.decode_encode`.
-/

namespace WireTap.Lib

/-! ### Decimal numerals -/

/-- Digits and nothing else, at least one. -/
def nat? (text : List Char) : Option Nat :=
  if text ≠ [] ∧ text.all Char.isDigit then some (Nat.ofDigitChars 10 text 0) else none

/-- An unsigned numeral, a leading plus allowed. -/
def unsigned? : List Char → Option Nat
  | '+' :: text => nat? text
  | text => nat? text

/-- A signed numeral. -/
def int? : List Char → Option Int
  | '-' :: text => (nat? text).map fun n => -(n : Int)
  | text => (unsigned? text).map fun n => (n : Int)

/-- The numeral of an integer: digits, after a minus where it is negative. -/
def ofInt (z : Int) : List Char :=
  if z < 0 then '-' :: Nat.toDigits 10 z.natAbs else Nat.toDigits 10 z.natAbs

/-- The text before the first separator and the text after it. -/
def splitOnce (separator : Char) (text : List Char) : Option (List Char × List Char) :=
  if separator ∈ text then
    some (text.takeWhile (· ≠ separator), (text.dropWhile (· ≠ separator)).tail)
  else none

theorem isDigit_toDigits {n : Nat} {c : Char} (h : c ∈ Nat.toDigits 10 n) : c.isDigit :=
  Nat.isDigit_of_mem_toDigits (by omega) (by omega) h

theorem nat?_toDigits (n : Nat) : nat? (Nat.toDigits 10 n) = some n := by
  have hall : (Nat.toDigits 10 n).all Char.isDigit = true :=
    List.all_eq_true.mpr fun _ h => isDigit_toDigits h
  rw [nat?, if_pos ⟨Nat.toDigits_ne_nil, hall⟩, Nat.ofDigitChars_ten_toDigits]

/-- The digits of a number do not start with a sign. -/
theorem toDigits_head (n : Nat) : ∃ c text, Nat.toDigits 10 n = c :: text ∧ c.isDigit := by
  obtain ⟨c, text, h⟩ := List.exists_cons_of_ne_nil (Nat.toDigits_ne_nil (n := n) (b := 10))
  exact ⟨c, text, h, isDigit_toDigits (h ▸ List.mem_cons_self)⟩

theorem unsigned?_toDigits (n : Nat) : unsigned? (Nat.toDigits 10 n) = some n := by
  obtain ⟨c, text, h, hc⟩ := toDigits_head n
  have hsign : c ≠ '+' := by rintro rfl; exact absurd hc (by decide)
  rw [← nat?_toDigits n, h, unsigned?]
  simpa using hsign

theorem int?_ofInt (z : Int) : int? (ofInt z) = some z := by
  unfold ofInt
  split
  · rename_i hz
    rw [int?, nat?_toDigits]
    show some (-(z.natAbs : Int)) = some z
    congr 1
    omega
  · rename_i hz
    obtain ⟨c, text, h, hc⟩ := toDigits_head z.natAbs
    have hsign : c ≠ '-' := by rintro rfl; exact absurd hc (by decide)
    have hparse := unsigned?_toDigits z.natAbs
    rw [h] at hparse ⊢
    rw [int?, hparse]
    · show some (z.natAbs : Int) = some z
      congr 1
      omega
    · simpa using hsign

/-- A numeral holds no colon. -/
theorem colon_notMem_ofInt (z : Int) : ':' ∉ ofInt z := by
  intro h
  have hdigits : ':' ∈ Nat.toDigits 10 z.natAbs := by
    unfold ofInt at h
    split at h
    · simpa using h
    · exact h
  exact absurd (isDigit_toDigits hdigits) (by decide)

theorem splitOnce_append {separator : Char} {a b : List Char} (h : separator ∉ a) :
    splitOnce separator (a ++ separator :: b) = some (a, b) := by
  have hne : ∀ c ∈ a, decide (c ≠ separator) = true := by
    intro c hc
    have hcs : c ≠ separator := by
      rintro rfl
      exact h hc
    simpa using hcs
  rw [splitOnce, if_pos (by simp), List.takeWhile_append_of_pos hne,
    List.dropWhile_append_of_pos hne]
  simp

/-! ### UTF-8 -/

/-- The bytes of a text. -/
def toUtf8 (text : List Char) : List UInt8 := (String.ofList text).toByteArray.data.toList

/-- The text of a byte string, where it is one. -/
def fromUtf8 (bytes : List UInt8) : Option (List Char) :=
  (ByteArray.mk bytes.toArray).utf8Decode?.map Array.toList

theorem fromUtf8_toUtf8 (text : List Char) : fromUtf8 (toUtf8 text) = some text := by
  have hbytes : ByteArray.mk (toUtf8 text).toArray = text.utf8Encode := by
    simp [toUtf8, String.toByteArray_ofList]
  rw [fromUtf8, hbytes, List.utf8Decode?_utf8Encode, Option.map_some]

theorem toUtf8_cons (c : Char) (text : List Char) :
    toUtf8 (c :: text) = String.utf8EncodeChar c ++ toUtf8 text := by
  unfold toUtf8
  rw [String.toByteArray_ofList, String.toByteArray_ofList, List.utf8Encode_cons,
    List.utf8Encode_singleton]
  simp

theorem utf8EncodeChar_of_ascii {c : Char} (h : c.toNat < 128) :
    String.utf8EncodeChar c = [UInt8.ofNat c.toNat] := by
  have hle : c.toNat ≤ 127 := by omega
  simp [String.utf8EncodeChar, hle]

/-- An ASCII text has as many bytes as characters. -/
theorem length_toUtf8 {text : List Char} (h : ∀ c ∈ text, c.toNat < 128) :
    (toUtf8 text).length = text.length := by
  induction text with
  | nil => rfl
  | cons c text ih =>
    rw [List.forall_mem_cons] at h
    rw [toUtf8_cons, utf8EncodeChar_of_ascii h.1, List.length_append, ih h.2]
    simp [Nat.add_comm]

/-- The first byte is an ASCII character's where the first character is that one. -/
theorem head?_toUtf8 {c : Char} (hc : c.toNat < 128) {text : List Char} :
    (toUtf8 text).head? = some (UInt8.ofNat c.toNat) ↔ text.head? = some c := by
  cases text with
  | nil => simp [toUtf8]
  | cons d text =>
    rw [toUtf8_cons, List.head?_cons]
    by_cases hd : d.toNat < 128
    · rw [utf8EncodeChar_of_ascii hd]
      have hsame : UInt8.ofNat d.toNat = UInt8.ofNat c.toNat ↔ d = c := by
        rw [← UInt8.toNat_inj, UInt8.toNat_ofNat', UInt8.toNat_ofNat', ← Char.toNat_inj]
        omega
      simpa using hsame
    · -- The first byte of a longer character is past every ASCII one.
      have hne : d ≠ c := by
        rintro rfl
        exact hd hc
      have hval : d.val.toNat = d.toNat := rfl
      unfold String.utf8EncodeChar
      simp only [Option.some.injEq, hne, iff_false]
      split_ifs
      all_goals simp [← UInt8.toNat_inj]
      all_goals omega

/-! ### Base64 -/

namespace Base64

/-- The 64 symbols in the order of their values. -/
def alphabet : List Char :=
  "ABCDEFGHIJKLMNOPQRSTUVWXYZabcdefghijklmnopqrstuvwxyz0123456789-_".toList

/-- The symbol of a six-bit value. -/
def digit (n : Nat) : Char := alphabet.getD n 'A'

/-- The six-bit value of a symbol. -/
def value (c : Char) : Option Nat := alphabet.idxOf? c

/-- The symbols of a byte string. -/
def encode : List UInt8 → List Char
  | [] => []
  | [a] => [digit (a.toNat / 4), digit (a.toNat % 4 * 16)]
  | [a, b] =>
    [digit (a.toNat / 4), digit (a.toNat % 4 * 16 + b.toNat / 16), digit (b.toNat % 16 * 4)]
  | a :: b :: c :: rest =>
    digit (a.toNat / 4) :: digit (a.toNat % 4 * 16 + b.toNat / 16) ::
      digit (b.toNat % 16 * 4 + c.toNat / 64) :: digit (c.toNat % 64) :: encode rest

/-- The byte string of a list of symbols. -/
def decode : List Char → Option (List UInt8)
  | [] => some []
  | [_] => none
  | [w, x] => do
    let w ← value w
    let x ← value x
    if x % 16 = 0 then some [.ofNat (w * 4 + x / 16)] else none
  | [w, x, y] => do
    let w ← value w
    let x ← value x
    let y ← value y
    if y % 4 = 0 then some [.ofNat (w * 4 + x / 16), .ofNat (x % 16 * 16 + y / 4)] else none
  | w :: x :: y :: z :: rest => do
    let w ← value w
    let x ← value x
    let y ← value y
    let z ← value z
    let tail ← decode rest
    some (.ofNat (w * 4 + x / 16) :: .ofNat (x % 16 * 16 + y / 4) :: .ofNat (y % 4 * 64 + z) :: tail)

theorem value_digit {n : Nat} (h : n < 64) : value (digit n) = some n := by
  have hall : ∀ i : Fin 64, value (digit i) = some i.val := by decide +kernel
  exact hall ⟨n, h⟩

/-- A byte is what its value, split and put together again, comes to. -/
theorem ofNat_eq {n : Nat} {a : UInt8} (h : n = a.toNat) : UInt8.ofNat n = a := by
  rw [h, UInt8.ofNat_toNat]

theorem decode_encode (bytes : List UInt8) : decode (encode bytes) = some bytes := by
  induction bytes using encode.induct with
  | case1 => rfl
  | case2 a =>
    have ha := a.toNat_lt
    simp only [encode, decode, value_digit (show a.toNat / 4 < 64 by omega),
      value_digit (show a.toNat % 4 * 16 < 64 by omega), Option.bind_eq_bind, Option.bind_some]
    rw [if_pos (by omega), ofNat_eq (a := a) (by omega)]
  | case3 a b =>
    have ha := a.toNat_lt
    have hb := b.toNat_lt
    simp only [encode, decode, value_digit (show a.toNat / 4 < 64 by omega),
      value_digit (show a.toNat % 4 * 16 + b.toNat / 16 < 64 by omega),
      value_digit (show b.toNat % 16 * 4 < 64 by omega), Option.bind_eq_bind, Option.bind_some]
    rw [if_pos (by omega), ofNat_eq (a := a) (by omega), ofNat_eq (a := b) (by omega)]
  | case4 a b c rest ih =>
    have ha := a.toNat_lt
    have hb := b.toNat_lt
    have hc := c.toNat_lt
    simp only [encode, decode, value_digit (show a.toNat / 4 < 64 by omega),
      value_digit (show a.toNat % 4 * 16 + b.toNat / 16 < 64 by omega),
      value_digit (show b.toNat % 16 * 4 + c.toNat / 64 < 64 by omega),
      value_digit (show c.toNat % 64 < 64 by omega), ih, Option.bind_eq_bind, Option.bind_some]
    rw [ofNat_eq (a := a) (by omega), ofNat_eq (a := b) (by omega), ofNat_eq (a := c) (by omega)]

end Base64

end WireTap.Lib
