import Mathlib.Data.List.Basic

/-!
# Parsers that are fed a piece at a time

A parser looks at the bytes there are and says that there is an item at their head, and how long it
is; that there is none yet; or that there can be none.  `Incremental` is what a caller that gets its
input in pieces relies on: an item is told by its own bytes, and there is none yet exactly where the
bytes are a proper beginning of one.

`Wholes` is input that is items and nothing else.  `wholes_rest`: what is left of it when its first
items are taken off is the others, so it does not matter where the input was cut.  `Decodes` is input
that may end inside an item.

`sized` is the parser of items that say how long they are.
-/

namespace WireTap

variable {β α : Type}

/-- An item and how many bytes it has. -/
abbrev Parse (β α : Type) := List β → Except String (Option (α × Nat))

/-- These bytes are this item. -/
def Whole (parse : Parse β α) (bytes : List β) (a : α) : Prop :=
  parse bytes = .ok (some (a, bytes.length))

/-- The parser takes no more than an item's own bytes, and waits exactly on a proper beginning of
one. -/
structure Incremental (parse : Parse β α) : Prop where
  bounds {bytes a n} : parse bytes = .ok (some (a, n)) → 0 < n ∧ n ≤ bytes.length
  whole {bytes a n} : parse bytes = .ok (some (a, n)) → Whole parse (bytes.take n) a
  append {bytes a} : Whole parse bytes a → ∀ more, parse (bytes ++ more) = .ok (some (a, bytes.length))
  waits_iff {bytes} : parse bytes = .ok none ↔ ∃ more a, more ≠ [] ∧ Whole parse (bytes ++ more) a
  nil : parse [] = .ok none

/-- Items, one after another. -/
inductive Wholes (parse : Parse β α) : List β → List α → Prop where
  | nil : Wholes parse [] []
  | cons {bytes rest a as} : Whole parse bytes a → Wholes parse rest as →
      Wholes parse (bytes ++ rest) (a :: as)

namespace Wholes

variable {parse : Parse β α} {bytes rest : List β} {a : α} {as bs : List α}

theorem single (h : Whole parse bytes a) : Wholes parse bytes [a] := by
  have hcons : Wholes parse (bytes ++ []) [a] := cons h nil
  rwa [List.append_nil] at hcons

theorem append (h : Wholes parse bytes as) (hrest : Wholes parse rest bs) :
    Wholes parse (bytes ++ rest) (as ++ bs) := by
  induction h with
  | nil => exact hrest
  | cons hwhole _ ih =>
    rw [List.append_assoc, List.cons_append]
    exact cons hwhole ih

theorem replicate (h : Whole parse bytes a) (n : Nat) :
    Wholes parse (List.replicate n bytes).flatten (List.replicate n a) := by
  induction n with
  | zero => exact nil
  | succ n ih => exact cons h ih

end Wholes

/-- A reader of these bytes has these items, and waits for more. -/
def Decodes (parse : Parse β α) (bytes : List β) (as : List α) : Prop :=
  ∃ before rest, bytes = before ++ rest ∧ Wholes parse before as ∧ parse rest = .ok none

namespace Incremental

variable {parse : Parse β α} {bytes rest : List β} {a : α} {as bs : List α} {n : Nat}

/-- An item at the head of the bytes. -/
theorem take_drop (h : Incremental parse) (hparse : parse bytes = .ok (some (a, n))) :
    Whole parse (bytes.take n) a ∧ (bytes.take n).length = n ∧ bytes.take n ++ bytes.drop n = bytes := by
  refine ⟨h.whole hparse, ?_, List.take_append_drop n bytes⟩
  rw [List.length_take]
  exact Nat.min_eq_left (h.bounds hparse).2

theorem ne_nil (h : Incremental parse) (hwhole : Whole parse bytes a) : bytes ≠ [] := by
  rintro rfl
  have hpos := (h.bounds hwhole).1
  simp at hpos

/-- The item at the head of the bytes is told by them. -/
theorem whole_inj {item item' rest rest' : List β} {a' : α} (h : Incremental parse)
    (hwhole : Whole parse item a) (hwhole' : Whole parse item' a')
    (heq : item ++ rest = item' ++ rest') : a = a' ∧ item = item' ∧ rest = rest' := by
  have hfirst := h.append hwhole rest
  rw [heq, h.append hwhole' rest'] at hfirst
  simp only [Except.ok.injEq, Option.some.injEq, Prod.mk.injEq] at hfirst
  exact ⟨hfirst.1.symm, List.append_inj heq hfirst.2.symm⟩

/-- What follows the first items is the others. -/
theorem wholes_rest (h : Incremental parse) (hbytes : Wholes parse bytes as)
    (hall : Wholes parse (bytes ++ rest) bs) : ∃ cs, bs = as ++ cs ∧ Wholes parse rest cs := by
  induction hbytes generalizing bs with
  | nil => exact ⟨bs, rfl, hall⟩
  | @cons bytes others a as hwhole _ ih =>
    rw [List.append_assoc] at hall
    generalize htotal : bytes ++ (others ++ rest) = total at hall
    cases hall with
    | nil =>
      have hempty : bytes = [] := (List.append_eq_nil_iff.mp htotal).1
      exact absurd hempty (h.ne_nil hwhole)
    | @cons bytes' total' b bs hwhole' hall =>
      obtain ⟨rfl, rfl, rfl⟩ := h.whole_inj hwhole hwhole' htotal
      obtain ⟨cs, rfl, hcs⟩ := ih hall
      exact ⟨cs, rfl, hcs⟩

/-- A proper beginning of an item is not items. -/
theorem eq_nil_of_waits (h : Incremental parse) (hwaits : parse bytes = .ok none)
    (hall : Wholes parse bytes as) : bytes = [] := by
  cases hall with
  | nil => rfl
  | @cons bytes rest a as hwhole _ =>
    rw [h.append hwhole rest] at hwaits
    cases hwaits

/-- Where there can be no item, none comes. -/
theorem ne_of_error {e : String} {item more : List β} (h : Incremental parse)
    (herror : parse bytes = .error e) (hwhole : Whole parse item a) :
    bytes ++ more ≠ item ++ rest := by
  intro heq
  rcases List.append_eq_append_iff.mp heq with ⟨tail, rfl, -⟩ | ⟨tail, rfl, -⟩
  · -- The bytes are the beginning of the item.
    by_cases htail : tail = []
    · subst htail
      rw [List.append_nil] at hwhole
      rw [hwhole] at herror
      cases herror
    · rw [h.waits_iff.mpr ⟨tail, a, htail, hwhole⟩] at herror
      cases herror
  · rw [h.append hwhole tail] at herror
    cases herror

theorem not_wholes_of_error {e : String} (h : Incremental parse) (herror : parse bytes = .error e)
    (more : List β) : ¬Wholes parse (bytes ++ more) as := by
  intro hall
  generalize htotal : bytes ++ more = total at hall
  cases hall with
  | nil =>
    rw [(List.append_eq_nil_iff.mp htotal).1, h.nil] at herror
    cases herror
  | cons hwhole _ => exact h.ne_of_error herror hwhole htotal

/-- The items up to where the parser waits are told by the bytes. -/
theorem waits_unique {before before' rest rest' : List β} (h : Incremental parse)
    (hbefore : Wholes parse before as) (hbefore' : Wholes parse before' bs)
    (hbytes : before ++ rest = before' ++ rest') (hwaits : parse rest = .ok none)
    (hwaits' : parse rest' = .ok none) : as = bs ∧ rest = rest' := by
  induction hbefore generalizing before' bs with
  | nil =>
    cases hbefore' with
    | nil => exact ⟨rfl, hbytes⟩
    | @cons bytes others b bs hwhole _ =>
      rw [List.nil_append, List.append_assoc] at hbytes
      rw [hbytes, h.append hwhole] at hwaits
      cases hwaits
  | @cons bytes others a as hwhole _ ih =>
    cases hbefore' with
    | nil =>
      rw [List.nil_append, List.append_assoc] at hbytes
      rw [← hbytes, h.append hwhole] at hwaits'
      cases hwaits'
    | @cons bytes' others' b bs hwhole' hothers' =>
      rw [List.append_assoc, List.append_assoc] at hbytes
      obtain ⟨rfl, rfl, hothers⟩ := h.whole_inj hwhole hwhole' hbytes
      obtain ⟨rfl, hrest⟩ := ih hothers' hothers
      exact ⟨rfl, hrest⟩

/-- Where the parser refuses what follows some items, it does not come to wait. -/
theorem not_waits_of_error {before before' rest rest' : List β} {e : String} (h : Incremental parse)
    (hbefore : Wholes parse before as) (herror : parse rest = .error e)
    (hbefore' : Wholes parse before' bs) (more : List β)
    (hbytes : before ++ (rest ++ more) = before' ++ rest') : parse rest' ≠ .ok none := by
  intro hwaits
  induction hbefore generalizing before' bs with
  | nil =>
    cases hbefore' with
    | nil =>
      obtain ⟨tail, a, htail, hwhole⟩ := h.waits_iff.mp hwaits
      rw [List.nil_append, List.nil_append] at hbytes
      rw [← hbytes] at hwhole
      have hne : rest ++ (more ++ tail) ≠ rest ++ more ++ tail ++ [] :=
        h.ne_of_error herror hwhole
      simp at hne
    | cons hwhole _ =>
      rw [List.nil_append, List.append_assoc] at hbytes
      exact h.ne_of_error herror hwhole hbytes
  | @cons bytes others a as hwhole _ ih =>
    cases hbefore' with
    | nil =>
      rw [List.nil_append, List.append_assoc] at hbytes
      rw [← hbytes, h.append hwhole] at hwaits
      cases hwaits
    | @cons bytes' others' b bs hwhole' hothers' =>
      rw [List.append_assoc, List.append_assoc] at hbytes
      obtain ⟨rfl, rfl, hothers⟩ := h.whole_inj hwhole hwhole' hbytes
      exact ih hothers' hothers

/-- The beginning of items is read as the first of them. -/
theorem decodes_of_wholes {more : List β} (h : Incremental parse)
    (hall : Wholes parse (bytes ++ more) as) : ∃ bs, Decodes parse bytes bs ∧ bs <+: as := by
  generalize htotal : bytes ++ more = total at hall
  induction hall generalizing bytes with
  | nil =>
    obtain ⟨rfl, rfl⟩ := List.append_eq_nil_iff.mp htotal
    exact ⟨[], ⟨[], [], rfl, .nil, h.nil⟩, List.prefix_rfl⟩
  | @cons item others a as hwhole _ ih =>
    rcases List.append_eq_append_iff.mp htotal with ⟨tail, rfl, hmore⟩ | ⟨tail, rfl, hmore⟩
    · -- The cut is inside the first item, or at its end.
      by_cases htail : tail = []
      · subst htail
        rw [List.append_nil] at hwhole
        exact ⟨[a], ⟨bytes, [], (List.append_nil _).symm, .single hwhole, h.nil⟩, ⟨as, rfl⟩⟩
      · exact ⟨[], ⟨[], bytes, rfl, .nil, h.waits_iff.mpr ⟨tail, a, htail, hwhole⟩⟩,
          List.nil_prefix⟩
    · obtain ⟨bs, ⟨before, rest, rfl, hbefore, hwaits⟩, hprefix⟩ := ih hmore.symm
      refine ⟨a :: bs, ⟨item ++ before, rest, ?_, .cons hwhole hbefore, hwaits⟩, ?_⟩
      · rw [List.append_assoc]
      · exact (List.prefix_cons_inj a).mpr hprefix

end Incremental

/-! ### Items that say how long they are -/

/-- The element at `place` gives the length, past `place` at least. -/
def sized (place : Nat) (size : β → Except String Nat) (item : List β → α) : Parse β α :=
  fun bytes => match bytes[place]? with
    | none => .ok none
    | some b => (size b).map fun more =>
      if bytes.length < place + 1 + more then none
      else some (item (bytes.take (place + 1 + more)), place + 1 + more)

section Sized

variable {place : Nat} {size : β → Except String Nat} {item : List β → α}

theorem sized_eq_some {bytes : List β} {a : α} {n : Nat} :
    sized place size item bytes = .ok (some (a, n)) ↔ ∃ b more, bytes[place]? = some b ∧
      size b = .ok more ∧ n = place + 1 + more ∧ n ≤ bytes.length ∧ a = item (bytes.take n) := by
  unfold sized
  cases hb : bytes[place]? with
  | none => simp
  | some b =>
    cases hsize : size b with
    | error e => simp [Except.map, hsize]
    | ok more =>
      have hsame (b' : β) (more' : Nat) (hb' : b = b') (hsize' : size b' = .ok more') :
          more = more' := by
        rw [← hb', hsize] at hsize'
        exact Except.ok.inj hsize'
      simp only [hsize, Except.map, Except.ok.injEq, Option.some.injEq]
      split_ifs with hshort
      · simp only [false_iff]
        rintro ⟨b', more', hb', hsize', rfl, hle, -⟩
        have hmore := hsame b' more' hb' hsize'
        omega
      · simp only [Option.some.injEq, Prod.mk.injEq]
        constructor
        · rintro ⟨rfl, rfl⟩
          exact ⟨b, more, rfl, hsize, rfl, by omega, rfl⟩
        · rintro ⟨b', more', hb', hsize', rfl, -, rfl⟩
          obtain rfl := hsame b' more' hb' hsize'
          exact ⟨rfl, rfl⟩

theorem sized_waits {bytes : List β} :
    sized place size item bytes = .ok none ↔ bytes.length ≤ place ∨
      ∃ b more, bytes[place]? = some b ∧ size b = .ok more ∧ bytes.length < place + 1 + more := by
  unfold sized
  cases hb : bytes[place]? with
  | none => simp [List.getElem?_eq_none_iff.mp hb]
  | some b =>
    have hlong := (List.getElem?_eq_some_iff.mp hb).1
    cases hsize : size b with
    | error e =>
      simp [Except.map, hsize]
      omega
    | ok more =>
      have hplace : ¬ bytes.length ≤ place := by omega
      simp [Except.map, hsize, hplace]

/-- An item is told by its own elements. -/
theorem sized_congr {bytes bytes' : List β} {a : α} {n : Nat}
    (hparse : sized place size item bytes = .ok (some (a, n))) (hlength : n ≤ bytes'.length)
    (h : bytes.take n = bytes'.take n) : sized place size item bytes' = .ok (some (a, n)) := by
  obtain ⟨b, more, hb, hsize, rfl, -, rfl⟩ := sized_eq_some.mp hparse
  refine sized_eq_some.mpr ⟨b, more, ?_, hsize, rfl, hlength, by rw [h]⟩
  rw [← hb, ← List.getElem?_take_of_lt (by omega : place < place + 1 + more), ← h,
    List.getElem?_take_of_lt (by omega)]

/-- Where some element is a length, what has begun can be ended. -/
theorem incremental_sized (b₀ : β) {n₀ : Nat} (h₀ : size b₀ = .ok n₀) :
    Incremental (sized place size item) where
  bounds {bytes a n} h := by
    obtain ⟨b, more, -, -, rfl, hle, -⟩ := sized_eq_some.mp h
    exact ⟨by omega, hle⟩
  whole {bytes a n} h := by
    obtain ⟨b, more, -, -, -, hle, -⟩ := sized_eq_some.mp h
    have htake : (bytes.take n).length = n := by simp [hle]
    show sized place size item (bytes.take n) = .ok (some (a, (bytes.take n).length))
    rw [htake]
    exact sized_congr h (by omega) (by rw [List.take_take, Nat.min_self])
  append {bytes a} h more := by
    refine sized_congr h (by simp) ?_
    rw [List.take_left, List.take_length]
  waits_iff {bytes} := by
    rw [sized_waits]
    constructor
    · rintro (hshort | ⟨b, more, hb, hsize, hshort⟩)
      · refine ⟨List.replicate (place + 1 + n₀ - bytes.length) b₀, _, by simp; omega,
          sized_eq_some.mpr ⟨b₀, n₀, ?_, h₀, by simp; omega, by simp, rfl⟩⟩
        rw [List.getElem?_append_right hshort, List.getElem?_replicate_of_lt (by omega)]
      · refine ⟨List.replicate (place + 1 + more - bytes.length) b₀, _, by simp; omega,
          sized_eq_some.mpr ⟨b, more, ?_, hsize, by simp; omega, by simp, rfl⟩⟩
        rw [List.getElem?_append_left (List.getElem?_eq_some_iff.mp hb).1, hb]
    · rintro ⟨tail, a, htail, hwhole⟩
      obtain ⟨b, more, hb, hsize, hlength, -, -⟩ := sized_eq_some.mp hwhole
      have hpos : 0 < tail.length := List.length_pos_of_ne_nil htail
      rw [List.length_append] at hlength
      by_cases hshort : bytes.length ≤ place
      · exact .inl hshort
      · rw [List.getElem?_append_left (by omega)] at hb
        exact .inr ⟨b, more, hb, hsize, by omega⟩
  nil := by simp [sized]

end Sized

end WireTap
