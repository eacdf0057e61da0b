import Mathlib.Data.List.Basic

/-!
# Logs

A log grows at its end.  `Logs P log` says that each entry stands in the relation `P` to the entries
before it, and `Logs.snoc` is how an operation that adds one entry keeps it.
-/

namespace WireTap

variable {ε : Type}

/-- Each entry is `P` after those before it. -/
def Logs (P : List ε → ε → Prop) (log : List ε) : Prop :=
  ∀ before e after, log = before ++ e :: after → P before e

theorem Logs.nil (P : List ε → ε → Prop) : Logs P [] := by
  intro before e after h
  simp at h

theorem Logs.of_append {P : List ε → ε → Prop} {log new : List ε} (h : Logs P (log ++ new)) :
    Logs P log := by
  rintro before e after rfl
  refine h before e (after ++ new) ?_
  rw [List.append_assoc, List.cons_append]

theorem Logs.snoc {P : List ε → ε → Prop} {log : List ε} {e : ε} (h : Logs P log) (he : P log e) :
    Logs P (log ++ [e]) := by
  intro before x after heq
  rcases List.eq_nil_or_concat after with rfl | ⟨after, last, rfl⟩
  · obtain ⟨rfl, hx⟩ := List.append_inj' heq rfl
    rw [List.singleton_inj.mp hx] at he
    exact he
  · rw [List.concat_eq_append, ← List.cons_append, ← List.append_assoc] at heq
    obtain ⟨hlog, -⟩ := List.append_inj' heq rfl
    exact h before x after hlog

end WireTap
