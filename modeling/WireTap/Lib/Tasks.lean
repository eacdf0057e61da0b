import Mathlib.Data.List.Basic

/-!
# Tasks and the marks they leave

Tasks are a list of states, a task being its place in the list.  `Once` says that exactly the tasks
in some states have left their mark in a list of rows, and each of them once: the shape of an
exactly-once law.  Its rules say how the law survives a task's start, its steps, and the step in
which it leaves its mark.
-/

namespace WireTap

variable {φ β : Type}

/-- Task `i` is in a state that satisfies `p`. -/
def At (p : φ → Bool) (tasks : List φ) (i : Nat) : Bool := tasks[i]?.any p

section At

variable {p : φ → Bool} {tasks : List φ} {w w₀ : φ} {i j : Nat}

theorem at_of_getElem? (hi : tasks[i]? = some w) : At p tasks i = p w := by
  rw [At, hi, Option.any_some]

theorem at_set_self (hi : tasks[i]? = some w₀) : At p (tasks.set i w) i = p w := by
  have hlt := (List.getElem?_eq_some_iff.mp hi).1
  rw [At, List.getElem?_set_self hlt, Option.any_some]

theorem at_set_ne (h : i ≠ j) : At p (tasks.set i w) j = At p tasks j := by
  rw [At, At, List.getElem?_set_ne h]

/-- A task that starts in another state changes nothing. -/
theorem at_append (hw : p w = false) : At p (tasks ++ [w]) i = At p tasks i := by
  unfold At
  rw [List.getElem?_append]
  split
  · rfl
  · rename_i hle
    rw [List.getElem?_eq_none (Nat.le_of_not_lt hle), Option.any_none]
    cases h : [w][i - tasks.length]? with
    | none => rfl
    | some w' =>
      obtain rfl : w' = w := List.mem_singleton.mp (List.mem_of_getElem? h)
      exact hw

/-- Steps of all tasks at once that none of them can tell. -/
theorem at_map {f : φ → φ} (hf : ∀ w, p (f w) = p w) : At p (tasks.map f) i = At p tasks i := by
  unfold At
  rw [List.getElem?_map]
  cases tasks[i]? with
  | none => rfl
  | some w => exact hf w

end At

variable [DecidableEq β]

/-- The tasks that satisfy `p`, and no others, have left their mark in `rows`, once each. -/
def Once (mark : Nat → β) (p : φ → Bool) (tasks : List φ) (rows : List β) : Prop :=
  ∀ i, rows.count (mark i) = if At p tasks i then 1 else 0

namespace Once

variable {mark : Nat → β} {p : φ → Bool} {tasks : List φ} {rows rows' : List β} {w w₀ : φ} {i : Nat}

/-- Only how often each mark is there matters. -/
theorem congr (h : Once mark p tasks rows)
    (hcount : ∀ j, rows'.count (mark j) = rows.count (mark j)) : Once mark p tasks rows' :=
  fun j => (hcount j).trans (h j)

theorem start (h : Once mark p tasks rows) (hw : p w = false) : Once mark p (tasks ++ [w]) rows := by
  intro j
  rw [at_append hw]
  exact h j

theorem map {f : φ → φ} (h : Once mark p tasks rows) (hf : ∀ w, p (f w) = p w) :
    Once mark p (tasks.map f) rows := by
  intro j
  rw [at_map hf]
  exact h j

/-- A step that leaves no mark. -/
theorem move (h : Once mark p tasks rows) (hi : tasks[i]? = some w₀) (hw : p w = p w₀) :
    Once mark p (tasks.set i w) rows := by
  intro j
  by_cases hj : i = j
  · subst hj
    have hsame := h i
    rw [at_of_getElem? hi] at hsame
    rw [at_set_self hi, hw]
    exact hsame
  · rw [at_set_ne hj]
    exact h j

/-- The step that leaves the mark. -/
theorem leave (h : Once mark p tasks rows) (hi : tasks[i]? = some w₀) (hw₀ : p w₀ = false)
    (hw : p w = true)
    (hcount : ∀ j, rows'.count (mark j) = rows.count (mark j) + if i = j then 1 else 0) :
    Once mark p (tasks.set i w) rows' := by
  intro j
  rw [hcount, h j]
  by_cases hj : i = j
  · subst hj
    rw [at_set_self hi, at_of_getElem? hi, hw₀, hw]
    simp
  · rw [at_set_ne hj, if_neg hj, Nat.add_zero]

end Once

end WireTap
