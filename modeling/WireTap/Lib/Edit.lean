import Mathlib.Data.List.Basic
import Mathlib.Data.List.InsertIdx

/-!
# Editing one item of a list

An `Edit` puts an item at the end of a list, takes one away, or puts another in its place.  The
items it leaves alone are `untouched`, and `KeepsOthers` is that they stay what they were, whatever
the edit's own item comes to.

`keepsOthers_map_iff`: a list that goes through a function on its way, and is edited there, keeps
the others exactly if the function leaves each of them as it is.
-/

namespace WireTap.Lib

variable {α β : Type}

theorem map_eq_self_iff {g : α → α} {xs : List α} : xs.map g = xs ↔ ∀ x ∈ xs, g x = x := by
  have hid : xs.map g = xs ↔ xs.map g = xs.map id := by rw [List.map_id]
  exact hid.trans List.map_inj_left

inductive Edit (α : Type) where
  | add (item : α)
  | remove (i : Nat)
  | change (i : Nat) (item : α)

namespace Edit

def apply : Edit α → List α → List α
  | add item, xs => xs ++ [item]
  | remove i, xs => xs.eraseIdx i
  | change i item, xs => xs.set i item

/-- The same edit of other items. -/
def map (f : α → β) : Edit α → Edit β
  | add item => add (f item)
  | remove i => remove i
  | change i item => change i (f item)

/-- The items it leaves alone. -/
def untouched : Edit β → List α → List α
  | add _, xs => xs
  | remove i, xs => xs.eraseIdx i
  | change i _, xs => xs.eraseIdx i

/-- `ys` is `xs` with nothing changed but where the edit is. -/
def KeepsOthers (xs ys : List α) : Edit β → Prop
  | add _ => ∃ item, ys = xs ++ [item]
  | remove i => ys = xs.eraseIdx i
  | change i _ => ∃ item, ys = xs.set i item

theorem map_apply (f : α → β) (e : Edit α) (xs : List α) :
    (e.apply xs).map f = (e.map f).apply (xs.map f) := by
  cases e with
  | add item => simp [apply, map]
  | remove i => exact (List.eraseIdx_map f xs i).symm
  | change i item => exact List.map_set

theorem keepsOthers_map_iff (e : Edit β) (f : β → α) (g : α → α) (xs : List α) :
    e.KeepsOthers xs ((e.map f).apply (xs.map g)) ↔ ∀ x ∈ e.untouched xs, g x = x := by
  rw [← map_eq_self_iff]
  cases e with
  | add item =>
    constructor
    · rintro ⟨item', h⟩
      exact (List.append_inj' h rfl).1
    · intro h
      refine ⟨f item, ?_⟩
      show xs.map g ++ [f item] = xs ++ [f item]
      rw [show xs.map g = xs from h]
  | remove i =>
    simp only [KeepsOthers, map, apply, untouched, List.eraseIdx_map]
  | change i item =>
    simp only [KeepsOthers, map, apply, untouched]
    constructor
    · rintro ⟨item', h⟩
      have herased := congrArg (·.eraseIdx i) h
      simpa only [List.eraseIdx_set_eq, List.eraseIdx_map] using herased
    · intro h
      refine ⟨f item, List.ext_getElem? fun j => ?_⟩
      by_cases hj : i = j
      · simp [hj, List.getElem?_set]
      · rw [List.getElem?_set_ne hj, List.getElem?_set_ne hj, List.getElem?_map]
        cases hx : xs[j]? with
        | none => rfl
        | some x =>
          have hmem : x ∈ xs.eraseIdx i := List.mem_eraseIdx_iff_getElem?.mpr ⟨j, Ne.symm hj, hx⟩
          exact congrArg some (map_eq_self_iff.mp h x hmem)

/-- An edit that leaves a list as long as it was can leave one of that length as it was. -/
theorem keepsOthers_self {e : Edit β} (f : β → α) {xs : List α} (ys : List β)
    (hlength : xs.length = ys.length) (h : (e.apply ys).length = ys.length) :
    e.KeepsOthers xs xs := by
  cases e with
  | add item =>
    simp [apply] at h
  | remove i =>
    have hout : ys.length ≤ i := by
      rw [apply, List.length_eraseIdx] at h
      split at h <;> omega
    exact (List.eraseIdx_of_length_le (hlength ▸ hout)).symm
  | change i item =>
    by_cases hi : i < xs.length
    · exact ⟨xs[i], (List.set_getElem_self hi).symm⟩
    · exact ⟨f item, (List.set_eq_of_length_le (Nat.not_lt.mp hi)).symm⟩

end Edit

end WireTap.Lib
