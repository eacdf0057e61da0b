import Mathlib.Data.List.Perm.Subperm

/-!
# Deliveries that may repeat

`AtLeastOnce samples delivered gone rest` is the account of a store that may deliver a sample more
than once and in any order, but loses none: each of `samples` is in `gone` or still in `rest`, and
each of `gone` has a delivery of its own.  Samples arrive (`arrive`), move between the places that
`rest` puts together (`moved`), or are delivered, either to be done with (`deliver`) or to stay where
they are (`again`).
-/

namespace WireTap

variable {α : Type*}

structure AtLeastOnce (samples delivered gone rest : List α) : Prop where
  delivered : gone.Subperm delivered
  placed : samples.Perm (gone ++ rest)

namespace AtLeastOnce

variable {samples delivered gone gone' rest rest' xs : List α}

/-- Nothing delivered yet. -/
theorem start (samples : List α) : AtLeastOnce samples [] [] samples :=
  ⟨List.Subperm.refl [], by rw [List.nil_append]⟩

theorem arrive (h : AtLeastOnce samples delivered gone rest) (hrest : rest'.Perm (rest ++ xs)) :
    AtLeastOnce (samples ++ xs) delivered gone rest' := by
  refine ⟨h.delivered, (h.placed.append_right xs).trans ?_⟩
  rw [List.append_assoc]
  exact hrest.symm.append_left gone

theorem moved (h : AtLeastOnce samples delivered gone rest) (hrest : rest'.Perm rest) :
    AtLeastOnce samples delivered gone rest' :=
  ⟨h.delivered, h.placed.trans (hrest.symm.append_left gone)⟩

theorem deliver (h : AtLeastOnce samples delivered gone rest) (hgone : gone'.Perm (gone ++ xs))
    (hrest : rest.Perm (xs ++ rest')) :
    AtLeastOnce samples (delivered ++ xs) gone' rest' := by
  refine ⟨hgone.subperm.trans (h.delivered.append (List.Perm.refl xs).subperm), ?_⟩
  calc
    samples.Perm (gone ++ rest) := h.placed
    List.Perm _ (gone ++ (xs ++ rest')) := hrest.append_left gone
    _ = gone ++ xs ++ rest' := by rw [List.append_assoc]
    List.Perm _ (gone' ++ rest') := hgone.symm.append_right rest'

theorem again (h : AtLeastOnce samples delivered gone rest) :
    AtLeastOnce samples (delivered ++ xs) gone rest :=
  ⟨h.delivered.trans (List.sublist_append_left delivered xs).subperm, h.placed⟩

end AtLeastOnce

end WireTap
