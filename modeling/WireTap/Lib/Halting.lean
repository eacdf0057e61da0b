import Mathlib.Logic.Basic

/-!
# Computations that may halt early

A computation in `EStateM ε σ` returns a value or halts with a reason, and leaves a state either way.
`Ensures P x Q R` says what it leaves from a state that satisfies `P`: `Q` with the value if it
returns, `R` with the reason if it halts.  The rules compose along the computation; a state that is
only passed through need not satisfy anything.
-/

namespace WireTap

variable {ε σ β γ : Type}

/-- What a result says. -/
def Ends (result : EStateM.Result ε σ β) (Q : β → σ → Prop) (R : ε → σ → Prop) : Prop :=
  match result with
  | .ok b s => Q b s
  | .error e s => R e s

/-- From `P`, the computation returns with `Q` or halts with `R`. -/
def Ensures (P : σ → Prop) (x : EStateM ε σ β) (Q : β → σ → Prop) (R : ε → σ → Prop) : Prop :=
  ∀ s, P s → Ends (x s) Q R

variable {P : σ → Prop} {Q Q' : β → σ → Prop} {R R' : ε → σ → Prop} {x : EStateM ε σ β}

theorem Ends.imp {result : EStateM.Result ε σ β} (h : Ends result Q R)
    (hQ : ∀ b s, Q b s → Q' b s) (hR : ∀ e s, R e s → R' e s) : Ends result Q' R' := by
  cases result with
  | ok b s => exact hQ b s h
  | error e s => exact hR e s h

/-- A computation whose first step returns goes on from there. -/
theorem bind_of_ok {f : β → EStateM ε σ γ} {s s' : σ} {b : β} (h : x s = .ok b s') :
    (x >>= f) s = f b s' := by
  change EStateM.bind x f s = f b s'
  rw [EStateM.bind, h]

namespace Ensures

theorem pure {b : β} (h : ∀ s, P s → Q b s) : Ensures P (pure b : EStateM ε σ β) Q R := h

theorem throw {e : ε} (h : ∀ s, P s → R e s) : Ensures P (throw e : EStateM ε σ β) Q R := h

theorem bind {f : β → EStateM ε σ γ} {Q' : γ → σ → Prop} (hx : Ensures P x Q R)
    (hf : ∀ b, Ensures (Q b) (f b) Q' R) : Ensures P (x >>= f) Q' R := by
  intro s hs
  have hfirst := hx s hs
  change Ends (EStateM.bind x f s) Q' R
  unfold EStateM.bind
  cases hrun : x s with
  | ok b s' =>
    rw [hrun] at hfirst
    exact hf b s' hfirst
  | error e s' =>
    rw [hrun] at hfirst
    exact hfirst

theorem imp (hx : Ensures P x Q R) (hQ : ∀ b s, Q b s → Q' b s) : Ensures P x Q' R :=
  fun s hs => (hx s hs).imp hQ fun _ _ h => h

theorem of_imp {P' : σ → Prop} (hx : Ensures P x Q R) (hP : ∀ s, P' s → P s) : Ensures P' x Q R :=
  fun s hs => hx s (hP s hs)

theorem ite {c : Prop} [Decidable c] {y : EStateM ε σ β} (hx : c → Ensures P x Q R)
    (hy : ¬ c → Ensures P y Q R) : Ensures P (if c then x else y) Q R := by
  split
  · exact hx ‹c›
  · exact hy ‹¬ c›

end Ensures

end WireTap
