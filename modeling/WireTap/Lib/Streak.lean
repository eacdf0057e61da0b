import Mathlib.Data.List.Basic

/-!
# The streak a list ends in

`Streak f xs first last`: `first` and `last` are the ends of the longest stretch at the end of `xs`
along which `f` is one value.  What is kept of a series by overwriting, with the time of the last
change, is of its streak: the rules are `Streak.start` and `Streak.more`.
-/

namespace WireTap.Lib

variable {α κ : Type} {f : α → κ} {xs : List α} {first last x : α}

structure Streak (f : α → κ) (xs : List α) (first last : α) : Prop where
  stretch : ∃ before streak, xs = before ++ streak ∧ streak.head? = some first ∧
    streak.getLast? = some last ∧ (∀ y ∈ streak, f y = f first) ∧
    ∀ y ∈ before.getLast?, f y ≠ f first

namespace Streak

/-- What differs from the last there was begins a streak. -/
theorem start (h : ∀ y ∈ xs.getLast?, f y ≠ f x) : Streak f (xs ++ [x]) x x := by
  refine ⟨xs, [x], rfl, rfl, rfl, ?_, h⟩
  intro y hy
  rw [List.mem_singleton.mp hy]

/-- What does not goes on with it. -/
theorem more (h : Streak f xs first last) (hx : f x = f first) :
    Streak f (xs ++ [x]) first x := by
  obtain ⟨before, streak, rfl, hhead, -, hall, hbefore⟩ := h.stretch
  refine ⟨before, streak ++ [x], by rw [List.append_assoc], ?_, by simp, ?_, hbefore⟩
  · rw [List.head?_append, hhead, Option.some_or]
  · intro y hy
    rcases List.mem_append.mp hy with hy | hy
    · exact hall y hy
    · rw [List.mem_singleton.mp hy]
      exact hx

theorem getLast? (h : Streak f xs first last) : xs.getLast? = some last := by
  obtain ⟨before, streak, rfl, -, hlast, -, -⟩ := h.stretch
  rw [List.getLast?_append, hlast, Option.some_or]

theorem mem (h : Streak f xs first last) : first ∈ xs := by
  obtain ⟨before, streak, rfl, hhead, -, -, -⟩ := h.stretch
  exact List.mem_append_right _ (List.mem_of_head? hhead)

theorem last_eq (h : Streak f xs first last) : f last = f first := by
  obtain ⟨before, streak, -, -, hlast, hall, -⟩ := h.stretch
  exact hall last (List.mem_of_getLast? hlast)

end Streak

end WireTap.Lib
