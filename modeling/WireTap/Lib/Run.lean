import Mathlib.Data.Option.Basic

/-!
# Runs of a system of tasks

A system is a partial step function: `step s e` is the state after the event `e`, or `none` where it
cannot happen.  A run is a list of events, each of them a step of one of the tasks, so the runs are
all the interleavings.

`Along.invariant` is the rule for safety: what every step that meets a condition preserves holds
after every run whose steps all meet it.
-/

namespace WireTap

variable {σ ε : Type}

/-- The state after these events, if each could happen. -/
def runs (step : σ → ε → Option σ) : σ → List ε → Option σ
  | s, [] => some s
  | s, e :: es => (step s e).bind fun s' => runs step s' es

/-- Every step of the run meets `ok`, a condition on the event and the state it finds. -/
def Along (step : σ → ε → Option σ) (ok : σ → ε → Prop) : σ → List ε → Prop
  | _, [] => True
  | s, e :: es =>
    ok s e ∧
      match step s e with
      | none => True
      | some s' => Along step ok s' es

instance Along.decidable (step : σ → ε → Option σ) (ok : σ → ε → Prop)
    [∀ s e, Decidable (ok s e)] : ∀ s es, Decidable (Along step ok s es)
  | _, [] => inferInstanceAs (Decidable True)
  | s, e :: es =>
    match h : step s e with
    | none => decidable_of_iff (ok s e) (by simp [Along, h])
    | some s' =>
      have := Along.decidable step ok s' es
      decidable_of_iff (ok s e ∧ Along step ok s' es) (by simp [Along, h])

variable {step : σ → ε → Option σ}

/-- A guarded step that was taken found its guard true. -/
theorem of_guard {c : Prop} [Decidable c] {next : Option σ} {s' : σ}
    (h : (if c then next else none) = some s') : c ∧ next = some s' :=
  Option.ite_none_right_eq_some.mp h

/-- A run ends in `s'` exactly if its first step leads to a state from which the rest does. -/
theorem runs_cons {s s' : σ} {e : ε} {es : List ε} :
    runs step s (e :: es) = some s' ↔ ∃ t, step s e = some t ∧ runs step t es = some s' :=
  Option.bind_eq_some_iff

/-- What every step that meets the condition preserves holds after every run that meets it. -/
theorem Along.invariant {ok : σ → ε → Prop} {Inv : σ → Prop}
    (hstep : ∀ {s e s'}, Inv s → ok s e → step s e = some s' → Inv s')
    {es : List ε} {s s' : σ} (hs : Inv s) (hok : Along step ok s es)
    (hrun : runs step s es = some s') : Inv s' := by
  induction es generalizing s with
  | nil => exact Option.some.inj hrun ▸ hs
  | cons e es ih =>
    obtain ⟨t, he, hrest⟩ := runs_cons.mp hrun
    obtain ⟨hnow, hlater⟩ := hok
    rw [he] at hlater
    exact ih (hstep hs hnow he) hlater hrest

/-- What is met in every state is met along every run, with what is met along this one. -/
theorem Along.and_all {ok q : σ → ε → Prop} {es : List ε} {s : σ} (h : Along step ok s es)
    (hq : ∀ s, ∀ e ∈ es, q s e) : Along step (fun s e => ok s e ∧ q s e) s es := by
  induction es generalizing s with
  | nil => trivial
  | cons e es ih =>
    obtain ⟨hnow, hlater⟩ := h
    refine ⟨⟨hnow, hq s e List.mem_cons_self⟩, ?_⟩
    cases he : step s e with
    | none => trivial
    | some s' =>
      rw [he] at hlater
      exact ih hlater fun t e' he' => hq t e' (List.mem_cons_of_mem e he')

/-- What every step preserves holds after every run. -/
theorem invariant_of_runs {Inv : σ → Prop}
    (hstep : ∀ {s e s'}, Inv s → step s e = some s' → Inv s')
    {es : List ε} {s s' : σ} (hs : Inv s) (hrun : runs step s es = some s') : Inv s' := by
  induction es generalizing s with
  | nil => exact Option.some.inj hrun ▸ hs
  | cons e es ih =>
    obtain ⟨t, he, hrest⟩ := runs_cons.mp hrun
    exact ih (hstep hs he) hrest

end WireTap
