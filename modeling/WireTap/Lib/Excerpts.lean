import Mathlib.Data.List.Basic

/-!
# Content read in excerpts

A reader asks for what is at an offset and is told, with what is there, where to ask next.  An
excerpt is `Of` the content if it has what the content has at its offset, and points to its own end
exactly while something is left after it.  A reader that goes on asking until an excerpt points
nowhere has then read the rest of the content (`Chain.flatMap_data`).
-/

namespace WireTap

variable {β : Type}

structure Excerpt (β : Type) where
  offset : Nat
  data : List β
  next : Option Nat

namespace Excerpt

structure Of (content : List β) (x : Excerpt β) : Prop where
  data : x.data <+: content.drop x.offset
  next : x.next = if x.offset + x.data.length < content.length then some (x.offset + x.data.length)
    else none

/-- Each is where the one before it points, and the last points nowhere. -/
inductive Chain : Nat → List (Excerpt β) → Prop where
  | last (x : Excerpt β) : x.next = none → Chain x.offset [x]
  | more (x : Excerpt β) {offset : Nat} {xs : List (Excerpt β)} : x.next = some offset →
    Chain offset xs → Chain x.offset (x :: xs)

variable {content : List β} {x : Excerpt β}

/-- After an excerpt comes what it points to. -/
theorem Of.append_drop (h : x.Of content) :
    x.data ++ content.drop (x.offset + x.data.length) = content.drop x.offset := by
  obtain ⟨rest, hrest⟩ := h.data
  rw [← List.drop_drop, ← hrest, List.drop_left]

theorem Of.last (h : x.Of content) (hnext : x.next = none) : x.data = content.drop x.offset := by
  have hend : ¬ x.offset + x.data.length < content.length := by
    intro hlt
    rw [h.next, if_pos hlt] at hnext
    cases hnext
  have hnone : content.drop (x.offset + x.data.length) = [] := by
    apply List.drop_eq_nil_of_le
    omega
  have happend := h.append_drop
  rw [hnone, List.append_nil] at happend
  exact happend

theorem Of.more {offset : Nat} (h : x.Of content) (hnext : x.next = some offset) :
    offset = x.offset + x.data.length ∧ offset < content.length := by
  rw [h.next] at hnext
  split at hnext
  · rename_i hlt
    obtain rfl := Option.some.inj hnext
    exact ⟨rfl, hlt⟩
  · cases hnext

theorem Chain.ne_nil {offset : Nat} {xs : List (Excerpt β)} (h : Chain offset xs) : xs ≠ [] := by
  cases h <;> exact List.cons_ne_nil _ _

/-- The whole of what is left is read. -/
theorem Chain.flatMap_data {offset : Nat} {xs : List (Excerpt β)} (h : Chain offset xs)
    (hoffset : offset ≤ content.length)
    (hof : ∀ x ∈ xs, x.offset ≤ content.length → x.Of content) :
    xs.flatMap Excerpt.data = content.drop offset := by
  induction h with
  | last x hnext =>
    have hx := hof x (List.mem_singleton_self x) hoffset
    rw [List.flatMap_singleton, hx.last hnext]
  | more x hnext _ ih =>
    have hx := hof x List.mem_cons_self hoffset
    obtain ⟨rfl, hlt⟩ := hx.more hnext
    have hrest := ih (Nat.le_of_lt hlt) fun y hy => hof y (List.mem_cons_of_mem x hy)
    rw [List.flatMap_cons, hrest, hx.append_drop]

end Excerpt

end WireTap
