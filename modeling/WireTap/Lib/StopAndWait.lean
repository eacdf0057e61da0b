import Mathlib.Data.List.Basic
import Mathlib.Logic.Relation

/-!
# Stop and wait

A sender that has at most one message out, a pipe, and a store that answers each message once, with
an answer that `confirms` it only if it was stored.  The sender may give up and start over on a new
pipe at any time, answers may be lost on their way, and others may use the store too.

`acked_sublist` is what it is for: what the sender heard confirmed is in the store, in the order
it was confirmed.  So each confirmation is for a storing of its own.
-/

namespace WireTap

variable {τ β : Type}

structure StopAndWait (τ β : Type) where
  /-- The message not answered yet. -/
  owing : Option τ := none
  /-- Sent, and not come to the store yet. -/
  pipe : List τ := []
  /-- Answers on their way back. -/
  due : List β := []
  stored : List τ := []
  acked : List τ := []

namespace StopAndWait

variable {confirms : β → τ → Prop} [∀ b x, Decidable (confirms b x)] {s s' : StopAndWait τ β}

inductive Step (confirms : β → τ → Prop) [∀ b x, Decidable (confirms b x)] :
    StopAndWait τ β → StopAndWait τ β → Prop where
  /-- The sender starts over. -/
  | redial (s : StopAndWait τ β) : Step confirms s { s with owing := none, pipe := [], due := [] }
  | send (s : StopAndWait τ β) (x : τ) : s.owing = none →
    Step confirms s { s with owing := some x, pipe := s.pipe ++ [x] }
  | store (s : StopAndWait τ β) (x : τ) (pipe : List τ) (b : β) : s.pipe = x :: pipe →
    Step confirms s { s with pipe, due := s.due ++ [b], stored := s.stored ++ [x] }
  | refuse (s : StopAndWait τ β) (x : τ) (pipe : List τ) (b : β) : s.pipe = x :: pipe →
    ¬confirms b x → Step confirms s { s with pipe, due := s.due ++ [b] }
  /-- Another's message is stored. -/
  | other (s : StopAndWait τ β) (x : τ) : Step confirms s { s with stored := s.stored ++ [x] }
  | lose (s : StopAndWait τ β) (b : β) (due : List β) : s.due = b :: due →
    Step confirms s { s with due }
  | hear (s : StopAndWait τ β) (x : τ) (b : β) (due : List β) : s.owing = some x →
    s.due = b :: due →
    Step confirms s
      { s with owing := none, due, acked := s.acked ++ if confirms b x then [x] else [] }

/-- Where the message that is out is: in the pipe, answered, or lost; and nothing else is on its
way. -/
def Out (confirms : β → τ → Prop) (s : StopAndWait τ β) : Option τ → Prop
  | none => s.pipe = [] ∧ s.due = []
  | some x => s.pipe = [x] ∧ s.due = [] ∨ s.pipe = [] ∧ (s.due = [] ∨
      ∃ b, s.due = [b] ∧ (confirms b x → (s.acked ++ [x]).Sublist s.stored))

structure Inv (confirms : β → τ → Prop) (s : StopAndWait τ β) : Prop where
  out : s.Out confirms s.owing
  acked : s.acked.Sublist s.stored

theorem Inv.step (h : Inv confirms s) (hs : Step confirms s s') : Inv confirms s' := by
  have hgrows : ∀ x, s.acked.Sublist (s.stored ++ [x]) :=
    fun x => h.acked.trans (List.sublist_append_left s.stored [x])
  have hout := h.out
  cases hs with
  | redial => exact ⟨⟨rfl, rfl⟩, h.acked⟩
  | send x hnone =>
    rw [hnone] at hout
    refine ⟨.inl ⟨?_, hout.2⟩, h.acked⟩
    rw [hout.1, List.nil_append]
  | store x pipe b hpipe =>
    refine ⟨?_, hgrows x⟩
    show Out confirms _ s.owing
    cases ho : s.owing with
    | none =>
      rw [ho] at hout
      exact absurd (hpipe.symm.trans hout.1) (List.cons_ne_nil x pipe)
    | some y =>
      rw [ho] at hout
      rcases hout with ⟨hone, hdue⟩ | ⟨hnil, -⟩
      · -- What is stored is the message that is out, behind everything acknowledged.
        obtain ⟨rfl, rfl⟩ := List.cons.inj (hpipe.symm.trans hone)
        refine .inr ⟨rfl, .inr ⟨b, ?_, fun _ => h.acked.append (List.Sublist.refl [x])⟩⟩
        show s.due ++ [b] = [b]
        rw [hdue, List.nil_append]
      · exact absurd (hpipe.symm.trans hnil) (List.cons_ne_nil x pipe)
  | refuse x pipe b hpipe hb =>
    refine ⟨?_, h.acked⟩
    show Out confirms _ s.owing
    cases ho : s.owing with
    | none =>
      rw [ho] at hout
      exact absurd (hpipe.symm.trans hout.1) (List.cons_ne_nil x pipe)
    | some y =>
      rw [ho] at hout
      rcases hout with ⟨hone, hdue⟩ | ⟨hnil, -⟩
      · obtain ⟨rfl, rfl⟩ := List.cons.inj (hpipe.symm.trans hone)
        refine .inr ⟨rfl, .inr ⟨b, ?_, fun hconfirms => absurd hconfirms hb⟩⟩
        show s.due ++ [b] = [b]
        rw [hdue, List.nil_append]
      · exact absurd (hpipe.symm.trans hnil) (List.cons_ne_nil x pipe)
  | other x =>
    refine ⟨?_, hgrows x⟩
    show Out confirms _ s.owing
    cases ho : s.owing with
    | none =>
      rw [ho] at hout
      exact hout
    | some y =>
      rw [ho] at hout
      rcases hout with hpipe | ⟨hpipe, hdue | ⟨b, hdue, hb⟩⟩
      · exact .inl hpipe
      · exact .inr ⟨hpipe, .inl hdue⟩
      · exact .inr ⟨hpipe, .inr ⟨b, hdue, fun hconfirms =>
          (hb hconfirms).trans (List.sublist_append_left s.stored [x])⟩⟩
  | lose b due hdue =>
    refine ⟨?_, h.acked⟩
    show Out confirms _ s.owing
    cases ho : s.owing with
    | none =>
      rw [ho] at hout
      exact absurd (hdue.symm.trans hout.2) (List.cons_ne_nil b due)
    | some y =>
      rw [ho] at hout
      rcases hout with ⟨-, hnil⟩ | ⟨hpipe, hnil | ⟨b', hone, -⟩⟩
      · exact absurd (hdue.symm.trans hnil) (List.cons_ne_nil b due)
      · exact absurd (hdue.symm.trans hnil) (List.cons_ne_nil b due)
      · obtain ⟨-, rfl⟩ := List.cons.inj (hdue.symm.trans hone)
        exact .inr ⟨hpipe, .inl rfl⟩
  | hear x b due ho hdue =>
    rw [ho] at hout
    rcases hout with ⟨-, hnil⟩ | ⟨hpipe, hnil | ⟨b', hone, hb⟩⟩
    · exact absurd (hdue.symm.trans hnil) (List.cons_ne_nil b due)
    · exact absurd (hdue.symm.trans hnil) (List.cons_ne_nil b due)
    · obtain ⟨rfl, rfl⟩ := List.cons.inj (hdue.symm.trans hone)
      refine ⟨⟨hpipe, rfl⟩, ?_⟩
      show (s.acked ++ if confirms b x then [x] else []).Sublist s.stored
      split
      · rename_i hconfirms
        exact hb hconfirms
      · rw [List.append_nil]
        exact h.acked

/-- What was confirmed is stored, in order. -/
theorem acked_sublist (hs : Relation.ReflTransGen (Step confirms) {} s) :
    s.acked.Sublist s.stored := by
  have hinv : Inv confirms s := by
    induction hs with
    | refl => exact ⟨⟨rfl, rfl⟩, List.Sublist.refl []⟩
    | tail _ hstep ih => exact ih.step hstep
  exact hinv.acked

end StopAndWait

end WireTap
