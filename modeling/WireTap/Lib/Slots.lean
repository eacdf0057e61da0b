import Mathlib.Data.List.Basic

/-!
# A list of slots

Things that are told apart by their place in a list: one of them changes, one more comes, or all
change at once.  Each lemma says what is then in a slot.
-/

namespace WireTap

variable {α : Type*} {xs : List α} {x₀ x y : α} {i j : Nat}

/-- What is in a slot after slot `i` has changed. -/
theorem getElem?_set_iff (hi : xs[i]? = some x₀) :
    (xs.set i x)[j]? = some y ↔ j = i ∧ y = x ∨ j ≠ i ∧ xs[j]? = some y := by
  have hlt := (List.getElem?_eq_some_iff.mp hi).1
  by_cases hj : j = i
  · subst hj
    rw [List.getElem?_set_self hlt]
    simp [eq_comm]
  · rw [List.getElem?_set_ne (Ne.symm hj)]
    simp [hj]

/-- What is in a slot after one more has come. -/
theorem getElem?_snoc_iff :
    (xs ++ [x])[j]? = some y ↔ xs[j]? = some y ∨ j = xs.length ∧ y = x := by
  rw [List.getElem?_append]
  split
  · rename_i hlt
    constructor
    · exact .inl
    · rintro (h | ⟨rfl, -⟩)
      · exact h
      · omega
  · rename_i hle
    rw [List.getElem?_singleton, List.getElem?_eq_none (Nat.le_of_not_lt hle)]
    split
    · have hj : j = xs.length := by omega
      simp [hj, eq_comm]
    · have hj : j ≠ xs.length := by omega
      simp [hj]

/-- Some slot is as `p` says after slot `i` has changed: that one, or another that was before. -/
theorem exists_set_iff {p : Nat → α → Prop} (hi : xs[i]? = some x₀) :
    (∃ j y, (xs.set i x)[j]? = some y ∧ p j y) ↔
      p i x ∨ ∃ j y, j ≠ i ∧ xs[j]? = some y ∧ p j y := by
  simp only [getElem?_set_iff hi]
  constructor
  · rintro ⟨j, y, ⟨rfl, rfl⟩ | ⟨hj, hy⟩, hp⟩
    · exact .inl hp
    · exact .inr ⟨j, y, hj, hy, hp⟩
  · rintro (hp | ⟨j, y, hj, hy, hp⟩)
    · exact ⟨i, x, .inl ⟨rfl, rfl⟩, hp⟩
    · exact ⟨j, y, .inr ⟨hj, hy⟩, hp⟩

/-- Some slot is as `p` says: slot `i`, or another. -/
theorem exists_slot_iff {p : Nat → α → Prop} (hi : xs[i]? = some x₀) :
    (∃ j y, xs[j]? = some y ∧ p j y) ↔ p i x₀ ∨ ∃ j y, j ≠ i ∧ xs[j]? = some y ∧ p j y := by
  constructor
  · rintro ⟨j, y, hy, hp⟩
    by_cases hj : j = i
    · subst hj
      rw [hi] at hy
      cases hy
      exact .inl hp
    · exact .inr ⟨j, y, hj, hy, hp⟩
  · rintro (hp | ⟨j, y, -, hy, hp⟩)
    · exact ⟨i, x₀, hi, hp⟩
    · exact ⟨j, y, hy, hp⟩

end WireTap
