import Mathlib.Data.List.Destutter
import WireTap.Lib.Run

/-!
# A value's history

`states` are the states of a run, the first and the last included.  `history_of_runs`: a log that
gains a line exactly when a value changes, and gains the value it changes to, is the list of the
values there were along the run, each repetition left out.  `along_iff_states`: when a property holds
in all of them.  `observed`: what someone has noted down who saw every step.
-/

namespace WireTap

variable {σ ε α : Type} {step : σ → ε → Option σ}

/-- The states of a run, the first included. -/
def states (step : σ → ε → Option σ) : σ → List ε → List σ
  | s, [] => [s]
  | s, e :: es =>
    s :: match step s e with
      | none => []
      | some s' => states step s' es

/-- A run is a run of its first events, and then one of the others. -/
theorem runs_append {s s' : σ} {es es' : List ε} :
    runs step s (es ++ es') = some s' ↔
      ∃ t, runs step s es = some t ∧ runs step t es' = some s' := by
  induction es generalizing s with
  | nil => simp [runs]
  | cons e es ih =>
    simp only [List.cons_append, runs_cons, ih]
    constructor
    · rintro ⟨u, he, t, hes, hes'⟩
      exact ⟨t, ⟨u, he, hes⟩, hes'⟩
    · rintro ⟨t, ⟨u, he, hes⟩, hes'⟩
      exact ⟨u, he, t, hes, hes'⟩

/-- A rule for what is said of the events so far and the state they led to. -/
theorem holds_after_runs {Inv : List ε → σ → Prop} {s₀ s : σ} {es : List ε} (hstart : Inv [] s₀)
    (hstep : ∀ {es e s s'}, runs step s₀ es = some s → Inv es s → step s e = some s' →
      Inv (es ++ [e]) s')
    (hrun : runs step s₀ es = some s) : Inv es s := by
  induction es using List.reverseRecOn generalizing s with
  | nil =>
    obtain rfl : s₀ = s := Option.some.inj hrun
    exact hstart
  | append_singleton es e ih =>
    obtain ⟨t, hes, he⟩ := runs_append.mp hrun
    obtain ⟨t', hlast, hnil⟩ := runs_cons.mp he
    obtain rfl : t' = s := Option.some.inj hnil
    exact hstep hes (ih hes) hlast

theorem states_eq_cons (s : σ) (es : List ε) : ∃ rest, states step s es = s :: rest := by
  cases es with
  | nil => exact ⟨[], rfl⟩
  | cons e es => exact ⟨_, rfl⟩

theorem states_cons {s t : σ} {e : ε} (he : step s e = some t) (es : List ε) :
    states step s (e :: es) = s :: states step t es := by
  rw [states, he]

/-- A property that each step keeps exactly if it meets a condition holds along a run exactly if all
its steps do. -/
theorem along_iff_states {ok : σ → ε → Prop} {Inv P : σ → Prop}
    (hinv : ∀ {s e t}, Inv s → step s e = some t → Inv t)
    (hiff : ∀ {s e t}, Inv s → P s → step s e = some t → (P t ↔ ok s e))
    {es : List ε} {s s' : σ} (hs : Inv s) (hp : P s) (hrun : runs step s es = some s') :
    (∀ t ∈ states step s es, P t) ↔ Along step ok s es := by
  induction es generalizing s with
  | nil => simpa [states, Along] using hp
  | cons e es ih =>
    obtain ⟨t, he, hrest⟩ := runs_cons.mp hrun
    obtain ⟨rest, hstates⟩ : ∃ rest, states step t es = t :: rest := states_eq_cons t es
    rw [states_cons he, Along, he]
    constructor
    · intro h
      have ht : P t := h t (by simp [hstates])
      exact ⟨(hiff hs hp he).mp ht, (ih (hinv hs he) ht hrest).mp fun u hu =>
        h u (List.mem_cons_of_mem s hu)⟩
    · rintro ⟨hnow, hlater⟩
      have ht : P t := (hiff hs hp he).mpr hnow
      intro u hu
      rcases List.mem_cons.mp hu with rfl | hu
      · exact hp
      · exact (ih (hinv hs he) ht hrest).mpr hlater u hu

/-- The step notes in the log a change of the value, and nothing else. -/
def Notes (value : σ → α) (log : σ → List α) (s t : σ) : Prop :=
  value t = value s ∧ log t = log s ∨ value t ≠ value s ∧ log t = log s ++ [value t]

variable [DecidableEq α] {value : σ → α} {log : σ → List α} {Inv : σ → Prop}

/-- What the log gains along a run is the values after the first, repetitions left out; and its last
line is the value there is. -/
theorem history_of_runs (hinv : ∀ {s e t}, Inv s → step s e = some t → Inv t)
    (hnotes : ∀ {s e t}, Inv s → step s e = some t → Notes value log s t)
    {es : List ε} {s s' : σ} (hs : Inv s) (hrun : runs step s es = some s') :
    ∃ lines, log s' = log s ++ lines ∧
      ((states step s es).map value).destutter (· ≠ ·) = value s :: lines ∧
      (value s :: lines).getLast? = some (value s') := by
  induction es generalizing s with
  | nil =>
    obtain rfl : s = s' := Option.some.inj hrun
    exact ⟨[], by simp, by simp [states], by simp⟩
  | cons e es ih =>
    obtain ⟨t, he, hrest⟩ := runs_cons.mp hrun
    obtain ⟨lines, hlog, hvalues, hlast⟩ := ih (hinv hs he) hrest
    obtain ⟨rest, hstates⟩ : ∃ rest, states step t es = t :: rest := states_eq_cons t es
    rw [hstates, List.map_cons, List.destutter_cons'] at hvalues
    rw [states_cons he, hstates, List.map_cons, List.map_cons, List.destutter_cons_cons]
    rcases hnotes hs he with ⟨hsame, hnothing⟩ | ⟨hchange, hline⟩
    · refine ⟨lines, by rw [hlog, hnothing], ?_, by rw [← hsame]; exact hlast⟩
      rw [if_neg (by simp [hsame]), ← hsame]
      exact hvalues
    · refine ⟨value t :: lines, by rw [hlog, hline]; simp, ?_, ?_⟩
      · rw [if_pos (Ne.symm hchange), hvalues]
      · rw [List.getLast?_cons_cons]
        exact hlast

end WireTap
