/-!
# Programs that may refuse

A handler changes a state and answers, or stops with a refusal; what it changed before stays changed.
`Guarded I prog Q`: `prog` keeps the invariant `I` of the state, whether or not it refuses, and what
it answers meets `Q`.  The rules follow the program, so that a check at its head is what the rest of
it may rely on.
-/

namespace WireTap

variable {σ ε α β : Type}

/-- `prog` keeps `I`, and answers with what meets `Q`. -/
def Guarded (I : σ → Prop) (prog : ExceptT ε (StateM σ) α) (Q : α → Prop) : Prop :=
  ∀ s, I s → I (prog.run s).2 ∧ ∀ a, (prog.run s).1 = .ok a → Q a

namespace Guarded

variable {I : σ → Prop} {Q : α → Prop} {R : β → Prop}

theorem pure {a : α} (h : Q a) :
    Guarded I (Pure.pure a : ExceptT ε (StateM σ) α) Q := by
  intro s hs
  refine ⟨hs, fun b hb => ?_⟩
  cases hb
  exact h

theorem throw {e : ε} : Guarded I (MonadExcept.throw e : ExceptT ε (StateM σ) α) Q := by
  intro s hs
  exact ⟨hs, fun b hb => nomatch hb⟩

theorem modify {f : σ → σ} (h : ∀ s, I s → I (f s)) :
    Guarded I (modifyThe σ f : ExceptT ε (StateM σ) PUnit) fun _ => True := by
  intro s hs
  exact ⟨h s hs, fun _ _ => trivial⟩

theorem get : Guarded I (MonadState.get : ExceptT ε (StateM σ) σ) I := by
  intro s hs
  refine ⟨hs, fun b hb => ?_⟩
  cases hb
  exact hs

/-- The rest runs where the first part answered, and may use what that says. -/
theorem bind {prog : ExceptT ε (StateM σ) α} {rest : α → ExceptT ε (StateM σ) β}
    (h : Guarded I prog Q) (hrest : ∀ a, Q a → Guarded I (rest a) R) :
    Guarded I (prog >>= rest) R := by
  intro s hs
  obtain ⟨hinv, hans⟩ := h s hs
  show I (ExceptT.bindCont rest (prog.run s).1 (prog.run s).2).2 ∧
    ∀ b, (ExceptT.bindCont rest (prog.run s).1 (prog.run s).2).1 = .ok b → R b
  rcases hrun : prog.run s with ⟨r, s'⟩
  rw [hrun] at hinv hans
  cases r with
  | ok a => exact hrest a (hans a rfl) s' hinv
  | error e => exact ⟨hinv, fun b hb => nomatch hb⟩

theorem mono {prog : ExceptT ε (StateM σ) α} {Q' : α → Prop} (h : Guarded I prog Q)
    (hq : ∀ a, Q a → Q' a) : Guarded I prog Q' := by
  intro s hs
  exact ⟨(h s hs).1, fun a ha => hq a ((h s hs).2 a ha)⟩

end Guarded

end WireTap
