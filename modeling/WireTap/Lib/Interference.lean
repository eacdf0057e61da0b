import Mathlib.Data.List.Basic

/-!
# Tasks that share a state

Each task, where it stands, asserts something of a state that all of them change.  `Asserts` says
that every assertion holds, and its rules say what a change has to prove: the task that moves, its
new assertion; everything else, that no assertion is disturbed.
-/

namespace WireTap

variable {σ φ : Type} {A : σ → φ → Prop} {s s' : σ} {tasks : List φ} {t : φ} {i : Nat}

/-- What every task asserts of the state holds. -/
def Asserts (A : σ → φ → Prop) (s : σ) (tasks : List φ) : Prop := ∀ t ∈ tasks, A s t

namespace Asserts

theorem none (A : σ → φ → Prop) (s : σ) : Asserts A s [] := by
  intro t ht
  cases ht

/-- The state changes under the tasks. -/
theorem change (h : Asserts A s tasks) (hothers : ∀ t ∈ tasks, A s t → A s' t) :
    Asserts A s' tasks :=
  fun t ht => hothers t ht (h t ht)

/-- A task starts. -/
theorem start (h : Asserts A s tasks) (ht : A s t) : Asserts A s (tasks ++ [t]) := by
  intro u hu
  rcases List.mem_append.mp hu with hu | hu
  · exact h u hu
  · obtain rfl := List.mem_singleton.mp hu
    exact ht

/-- A task moves, and changes the state under the others. -/
theorem move (h : Asserts A s tasks) (hothers : ∀ t, A s t → A s' t) (ht : A s' t) :
    Asserts A s' (tasks.set i t) := by
  intro u hu
  rcases List.mem_or_eq_of_mem_set hu with hu | rfl
  · exact hothers u (h u hu)
  · exact ht

end Asserts

end WireTap
