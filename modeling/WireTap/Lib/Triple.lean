import Mathlib

/-!
# From a Hoare triple to a run

The specifications of stateful code are `Std.Do` triples over pure assertions.  `run_of_triple` reads
one off at a concrete run.
-/

namespace WireTap

open Std.Do

/-- What a triple says of one run. -/
theorem run_of_triple {σ β : Type} {prog : StateM σ β} {P : σ → Prop} {Q : β → σ → Prop} {s s' : σ}
    {r : β} (h : ⦃fun s => ⌜P s⌝⦄ prog ⦃⇓ r s' => ⌜Q r s'⌝⦄) (hs : P s)
    (hrun : prog.run s = (r, s')) : Q r s' :=
  StateM.of_wp_run_eq hrun (fun p => Q p.1 p.2) fun _ => h s hs

/-- What comes after a computation starts from what that gave. -/
theorem run_bind_of_run {σ β γ : Type} {prog : StateM σ β} {next : β → StateM σ γ} {s s' : σ} {r : β}
    (h : prog.run s = (r, s')) : (prog >>= next).run s = (next r).run s' := by
  rw [StateT.run_bind, h]
  rfl

/-- What a program keeps holds after a run of it. -/
theorem kept_of_triple {σ β : Type} {prog : StateM σ β} {R : σ → Prop} {s : σ}
    (h : ⦃fun s => ⌜R s⌝⦄ prog ⦃⇓ _ s' => ⌜R s'⌝⦄) (hs : R s) : R (prog.run s).2 :=
  run_of_triple (Q := fun _ => R) h hs rfl

end WireTap
