import Mathlib.Data.List.Basic
import WireTap.Lib.Run
import WireTap.Gateway.Drained

/-!
# No drained span is forgotten before it is refreshed

`run_refreshed`: in every run in which no drain commits a span while a refresh under way is past
reading it, every span that left `capture_frame_drained` had been refreshed.  The condition is
`Spans.Seen`: the span a commit records lies within what each `refresh_drained` that has read the
table is about to refresh, and none is about to drop the table.  Without it a span is lost
(`run_forgets`), and a commit that breaks it always can be (`commit_forgets`).

The invariant says what a pair relies on: one about to drop the table that every span in it has been
refreshed, one about to refresh that the others lie within what it read.
-/

namespace WireTap.Gateway

namespace Span

/-- What a refresh covers it refreshes. -/
theorem refreshed_refresh {span : Span} {first last : Int}
    (h : span.refreshed ∨ span.within first last) : (span.refresh first last).refreshed := by
  simpa [refresh] using h

/-- A refresh takes nothing back. -/
theorem refreshed_refresh_of_refreshed {span : Span} (first last : Int) (h : span.refreshed) :
    (span.refresh first last).refreshed := refreshed_refresh (.inl h)

end Span

namespace Settling

/-- If the table holds this span, the pair will not drop it unrefreshed. -/
def sees (span : Span) : Settling → Bool
  | refreshing first last => span.refreshed || span.within first last
  | dropping => span.refreshed
  | _ => true

/-- A pair that has not read the table yet, or never will, sees every span. -/
def blank (p : Settling) : Prop := ∀ span, p.sees span

theorem sees_refresh {span : Span} {p : Settling} (h : p.sees span) (first last : Int) :
    p.sees (span.refresh first last) := by
  cases p with
  | refreshing a b =>
    simp only [sees, Bool.or_eq_true] at h ⊢
    exact h.imp_left (Span.refreshed_refresh_of_refreshed first last)
  | dropping => exact Span.refreshed_refresh_of_refreshed first last h
  | _ => rfl

end Settling

namespace Spans

/-- The span this commit records is seen by every refresh under way. -/
def Seen (s : Spans) : SpansEvent → Prop
  | .commit _ _ => ∀ span ∈ s.pending.bind Span.ofRows, ∀ p ∈ s.pairs, p.sees span
  | _ => True

instance (s : Spans) (e : SpansEvent) : Decidable (s.Seen e) := by
  cases e <;> unfold Seen <;> infer_instance

/-- What was dropped had been refreshed, and what is recorded is seen by every pair. -/
structure Invariant (s : Spans) : Prop where
  forgotten : ∀ span ∈ s.forgotten, span.refreshed
  seen : ∀ p ∈ s.pairs, ∀ span ∈ s.recorded, p.sees span

variable {s s' : Spans} {i : Nat} {p : Settling}

/-! ### Reading the table -/

/-- What was read has every span in it. -/
theorem sees_afterRead {spans : List Span} {span : Span} (h : span ∈ spans) :
    (afterRead spans).sees span := by
  have hfirst : span.first ∈ spans.map Span.first := List.mem_map_of_mem h
  have hlast : span.last ∈ spans.map Span.last := List.mem_map_of_mem h
  unfold afterRead
  split
  · rename_i first last hmin hmax
    have hle : first ≤ span.first := (List.min?_eq_some_iff.mp hmin).2 _ hfirst
    have hge : span.last ≤ last := (List.max?_eq_some_iff.mp hmax).2 _ hlast
    simp [Settling.sees, Span.within, hle, hge]
  · -- A table with a span in it has a least and a greatest moment.
    rename_i hnone
    obtain ⟨first, hmin⟩ := Option.isSome_iff_exists.mp (List.isSome_min?_of_mem hfirst)
    obtain ⟨last, hmax⟩ := Option.isSome_iff_exists.mp (List.isSome_max?_of_mem hlast)
    exact absurd hmax (hnone first last hmin)

/-! ### One step -/

/-- A pair moves on, to where it sees every span recorded. -/
theorem Invariant.setPair (h : s.Invariant) (hp : ∀ span ∈ s.recorded, p.sees span) :
    (s.setPair i p).Invariant := by
  refine ⟨h.forgotten, ?_⟩
  intro q hq
  rcases List.mem_or_eq_of_mem_set hq with hq | rfl
  · exact h.seen q hq
  · exact hp

/-- A pair moves on to a statement that takes nothing for granted. -/
theorem Invariant.setPair_blank (h : s.Invariant) (hp : p.blank) : (s.setPair i p).Invariant :=
  h.setPair fun span _ => hp span

/-- A drain whose span every pair sees. -/
theorem Invariant.drainPending (h : s.Invariant)
    (hseen : ∀ span ∈ s.pending.bind Span.ofRows, ∀ p ∈ s.pairs, p.sees span) :
    s.drainPending.Invariant := by
  unfold Spans.drainPending
  split
  · exact h
  · rename_i rows hpending
    rw [hpending] at hseen
    refine ⟨h.forgotten, ?_⟩
    intro p hp span hspan
    rcases List.mem_append.mp hspan with hspan | hspan
    · exact h.seen p hp span hspan
    · exact hseen span (Option.mem_toList.mp hspan) p hp

@[simp] theorem recorded_refreshRollupSpan (s : Spans) (first last : Int) :
    (s.refreshRollupSpan first last).recorded =
      s.recorded.map fun span => span.refresh first last := by
  cases hdrained : s.drained <;> simp [recorded, refreshRollupSpan, hdrained]

/-- What the refresh of a pair covers has been refreshed, so the pair can drop the table. -/
theorem Invariant.refresh {first last : Int} (h : s.Invariant)
    (hi : s.pairs[i]? = some (.refreshing first last)) :
    ((s.refreshRollupSpan first last).setPair i .dropping).Invariant := by
  have hrefreshed : (s.refreshRollupSpan first last).Invariant := by
    refine ⟨h.forgotten, ?_⟩
    intro q hq span hspan
    rw [recorded_refreshRollupSpan] at hspan
    obtain ⟨old, hold, rfl⟩ := List.mem_map.mp hspan
    exact Settling.sees_refresh (h.seen q hq old hold) first last
  refine hrefreshed.setPair fun span hspan => ?_
  rw [recorded_refreshRollupSpan] at hspan
  obtain ⟨old, hold, rfl⟩ := List.mem_map.mp hspan
  have hsees := h.seen _ (List.mem_of_getElem? hi) old hold
  exact Span.refreshed_refresh (by simpa [Settling.sees] using hsees)

/-- A pair that drops the table drops nothing that was not refreshed. -/
theorem Invariant.drop (h : s.Invariant) (hi : s.pairs[i]? = some .dropping) :
    (s.dropDrained.setPair i .finished).Invariant := by
  refine ⟨?_, ?_⟩
  · intro span hspan
    rcases List.mem_append.mp hspan with hspan | hspan
    · exact h.forgotten span hspan
    · exact h.seen _ (List.mem_of_getElem? hi) span hspan
  · intro q _ span hspan
    exact absurd hspan List.not_mem_nil

/-- Every step that meets the condition keeps the invariant. -/
theorem step_invariant {e : SpansEvent} (h : s.Invariant) (hseen : s.Seen e)
    (hstep : s.step e = some s') : s'.Invariant := by
  cases e with
  | write rows =>
    simp only [step] at hstep
    split at hstep
    · cases hstep
    · cases hstep
      exact ⟨h.forgotten, h.seen⟩
  | start =>
    cases hstep
    refine ⟨h.forgotten, ?_⟩
    intro q hq
    rcases List.mem_append.mp hq with hq | hq
    · exact h.seen q hq
    · rw [List.mem_singleton.mp hq]
      exact fun _ _ => rfl
  | look i =>
    obtain ⟨-, ⟨⟩⟩ := of_guard hstep
    refine h.setPair_blank fun span => ?_
    split <;> rfl
  | lock i =>
    obtain ⟨-, ⟨⟩⟩ := of_guard hstep
    exact h.setPair_blank fun _ => rfl
  | commit i answered =>
    obtain ⟨-, ⟨⟩⟩ := of_guard hstep
    -- The only step that records a span, and so the one `Seen` is about.
    refine (h.drainPending hseen).setPair_blank fun span => ?_
    cases answered <;> rfl
  | check i =>
    obtain ⟨-, ⟨⟩⟩ := of_guard hstep
    refine h.setPair_blank fun span => ?_
    split <;> rfl
  | read i =>
    obtain ⟨-, ⟨⟩⟩ := of_guard hstep
    refine h.setPair fun span hspan => ?_
    -- From here on the pair answers for the spans it has read.
    cases hdrained : s.drained with
    | none => rfl
    | some spans =>
      rw [recorded, hdrained] at hspan
      exact sees_afterRead hspan
  | refresh i =>
    simp only [step] at hstep
    split at hstep
    · rename_i first last hi
      cases hstep
      exact h.refresh hi
    · cases hstep
  | drop i =>
    obtain ⟨hi, ⟨⟩⟩ := of_guard hstep
    exact h.drop hi
  | fail i =>
    obtain ⟨-, ⟨⟩⟩ := of_guard hstep
    exact h.setPair_blank fun _ => rfl
  | crash =>
    cases hstep
    -- The table outlives the crash, the pairs do not.
    refine ⟨h.forgotten, ?_⟩
    intro q hq
    obtain ⟨-, -, rfl⟩ := List.mem_map.mp hq
    exact fun _ _ => rfl

/-! ### Runs -/

/-- In every run in which no drain commits a span that a refresh under way has missed, every span
that left the table had been refreshed since it was recorded. -/
theorem run_refreshed (pending : Option (List Int)) (drained : Option (List Span))
    (events : List SpansEvent) (s : Spans) (hseen : Along step Seen (init pending drained) events)
    (hrun : runs step (init pending drained) events = some s) :
    ∀ span ∈ s.forgotten, span.refreshed := by
  have hinit : (init pending drained).Invariant := ⟨by simp [init], by simp [init]⟩
  exact (Along.invariant step_invariant hinit hseen hrun).forgotten

/-- Two pairs, the second of which drains while the first has still to read the table. -/
theorem run_refreshed_two_drains :
    let events : List SpansEvent :=
      [.start, .look 0, .lock 0, .commit 0 true, .check 0, .write [50], .start, .look 1, .lock 1,
        .commit 1 true, .read 0, .refresh 0, .drop 0, .check 1]
    Along step Seen (init (some [10, 20]) none) events ∧
      ∃ s, runs step (init (some [10, 20]) none) events = some s ∧
        s.forgotten.length = 2 ∧ ∀ span ∈ s.forgotten, span.refreshed := by
  have hseen : Along step Seen (init (some [10, 20]) none)
      [.start, .look 0, .lock 0, .commit 0 true, .check 0, .write [50], .start, .look 1, .lock 1,
        .commit 1 true, .read 0, .refresh 0, .drop 0, .check 1] := by
    decide +kernel
  refine ⟨hseen, ⟨none, none, [.finished, .finished], [⟨10, 20, true⟩, ⟨50, 50, true⟩]⟩,
    by decide +kernel, rfl, ?_⟩
  exact run_refreshed (some [10, 20]) none _ _ hseen (by decide +kernel)

/-- A drain commits between what another pair reads and the drop: its span is gone, and no refresh
covered it. -/
theorem run_forgets :
    ∃ s, runs step (init (some [10, 20]) none)
        [.start, .look 0, .lock 0, .commit 0 true, .check 0, .read 0, .write [50], .start, .look 1,
          .lock 1, .commit 1 true, .refresh 0, .drop 0, .check 1] = some s ∧
      s.pairs = [.finished, .finished] ∧ ⟨50, 50, false⟩ ∈ s.forgotten :=
  ⟨⟨none, none, [.finished, .finished], [⟨10, 20, true⟩, ⟨50, 50, false⟩]⟩, by decide +kernel⟩

/-! ### The condition is the weakest -/

/-- A refresh from `first` to `last` does nothing for a span outside them. -/
theorem refresh_of_not_within {span : Span} {first last : Int} (h : ¬ span.within first last) :
    span.refresh first last = span := by
  simp [Span.refresh, h]

/-- A commit that breaks the condition can be followed by the loss of the span it recorded. -/
theorem commit_forgets {answered : Bool} (hseen : ¬ s.Seen (.commit i answered))
    (hstep : s.step (.commit i answered) = some s') :
    ∃ events s'' span dropped, runs step s' events = some s'' ∧
      s''.forgotten = s.forgotten ++ dropped ∧ span ∈ dropped ∧ ¬ span.refreshed := by
  obtain ⟨hi, hs'⟩ := of_guard hstep
  simp only [Seen, Classical.not_forall] at hseen
  obtain ⟨span, hspan, p, hp, hmiss⟩ := hseen
  obtain ⟨rows, hpending, hrows⟩ := Option.mem_bind_iff.mp hspan
  rw [Option.mem_def] at hpending hrows
  obtain ⟨j, hj⟩ := List.mem_iff_getElem?.mp hp
  have hij : i ≠ j := by
    rintro rfl
    rw [hi] at hj
    obtain rfl := Option.some.inj hj
    exact hmiss rfl
  obtain rfl := Option.some.inj hs'
  set t := s.drainPending.setPair i (if answered then .checking else .finished) with ht
  have hpairs : t.pairs[j]? = some p := by
    simp only [ht, setPair, drainPending, hpending]
    rw [List.getElem?_set_ne hij, hj]
  have hrecorded : span ∈ t.recorded := by
    simp [ht, setPair, drainPending, hpending, hrows, recorded]
  have hforgotten : t.forgotten = s.forgotten := by
    simp [ht, setPair, drainPending, hpending]
  -- The pair `j` drops the table, after a refresh that does nothing for the span if one is due.
  cases p with
  | dropping =>
    have hdrop : t.step (.drop j) = some (t.dropDrained.setPair j .finished) := if_pos hpairs
    refine ⟨[.drop j], _, span, t.recorded, runs_cons.mpr ⟨_, hdrop, rfl⟩, ?_, hrecorded, hmiss⟩
    exact congrArg (· ++ t.recorded) hforgotten
  | refreshing first last =>
    simp only [Settling.sees, Bool.or_eq_true, not_or] at hmiss
    set u := (t.refreshRollupSpan first last).setPair j .dropping with hu
    have hrefresh : t.step (.refresh j) = some u := by
      simp only [step, hpairs, hu]
    have hnext : u.pairs[j]? = some .dropping :=
      List.getElem?_set_self (List.getElem?_eq_some_iff.mp hpairs).1
    have hdrop : u.step (.drop j) = some (u.dropDrained.setPair j .finished) := if_pos hnext
    refine ⟨[.refresh j, .drop j], _, span, u.recorded,
      runs_cons.mpr ⟨_, hrefresh, runs_cons.mpr ⟨_, hdrop, rfl⟩⟩, ?_, ?_, hmiss.1⟩
    · exact congrArg (· ++ u.recorded) hforgotten
    · rw [← refresh_of_not_within hmiss.2]
      change _ ∈ (t.refreshRollupSpan first last).recorded
      rw [recorded_refreshRollupSpan]
      exact List.mem_map_of_mem hrecorded
  | _ => exact absurd rfl hmiss

end Spans

end WireTap.Gateway
