import Mathlib.Data.List.Basic
import Mathlib.Data.List.Nodup
import Mathlib.Data.List.Sublists

/-!
# Order-keeping splits of a list

`Split input kept lost` says that every element of `input` is in exactly one of `kept` and `lost`
(`perm`), and that `kept` has its elements in the order `input` has them (`sublist`).  It is the
specification of a store that may drop elements but never repeats or reorders one: `kept` is the
concatenation of every place an element can be in, oldest place first.

A store moves through such splits by three kinds of step: elements arrive (`Split.append`), a run
of them is itself split (`Split.narrow`), or elements move between neighbouring places, which does
not change `kept` at all.
-/

namespace WireTap

variable {α : Type*}

/-- `input` split into `kept`, in its order, and `lost`, in any order. -/
structure Split (input kept lost : List α) : Prop where
  /-- The kept elements are in the order they came. -/
  sublist : kept.Sublist input
  /-- Each element is kept or lost, once. -/
  perm : (kept ++ lost).Perm input

namespace Split

variable {input kept lost : List α}

/-- Nothing lost. -/
theorem all (xs : List α) : Split xs xs [] :=
  ⟨List.Sublist.refl xs, by rw [List.append_nil]⟩

/-- Everything lost. -/
theorem none (xs : List α) : Split xs [] xs :=
  ⟨List.nil_sublist xs, by rw [List.nil_append]⟩

/-- Two splits, one behind the other. -/
theorem append {input' kept' lost' : List α} (h : Split input kept lost)
    (h' : Split input' kept' lost') : Split (input ++ input') (kept ++ kept') (lost ++ lost') := by
  refine ⟨h.sublist.append h'.sublist, ?_⟩
  calc
    ((kept ++ kept') ++ (lost ++ lost')).Perm (kept ++ (lost ++ (kept' ++ lost'))) := by
      rw [List.append_assoc, ← List.append_assoc kept', ← List.append_assoc lost]
      exact (List.perm_append_comm.append_right lost').append_left kept
    _ = (kept ++ lost) ++ (kept' ++ lost') := by rw [List.append_assoc]
    List.Perm _ (input ++ input') := h.perm.append h'.perm

/-- A run of the kept elements is split in its turn. -/
theorem narrow {before mid after kept' lost' : List α}
    (h : Split input (before ++ mid ++ after) lost) (h' : Split mid kept' lost') :
    Split input (before ++ kept' ++ after) (lost ++ lost') := by
  constructor
  · have hsub : (before ++ kept' ++ after).Sublist (before ++ mid ++ after) :=
      ((List.Sublist.refl before).append h'.sublist).append (List.Sublist.refl after)
    exact hsub.trans h.sublist
  · refine List.Perm.trans ?_ h.perm
    calc
      ((before ++ kept' ++ after) ++ (lost ++ lost')).Perm
          (before ++ (kept' ++ (lost' ++ (after ++ lost)))) := by
        simp only [List.append_assoc]
        refine List.Perm.append_left before (List.Perm.append_left kept' ?_)
        rw [← List.append_assoc]
        exact List.perm_append_comm
      _ = before ++ (kept' ++ lost') ++ after ++ lost := by simp only [List.append_assoc]
      List.Perm _ (before ++ mid ++ after ++ lost) := by
        simp only [List.append_assoc]
        rw [← List.append_assoc kept']
        exact (h'.perm.append_right (after ++ lost)).append_left before

theorem length_eq (h : Split input kept lost) : input.length = kept.length + lost.length := by
  rw [← h.perm.length_eq, List.length_append]

end Split

end WireTap
