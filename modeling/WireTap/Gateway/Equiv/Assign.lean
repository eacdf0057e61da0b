import Mathlib.Data.List.Basic
import WireTap.Lib.History
import WireTap.Lib.Tasks
import WireTap.Gateway.Assign
import WireTap.Gateway.Equiv.Reassign

/-!
# The guard of `assign` and `clear` is compare-and-set

`run_compares_and_sets`: in every run, an assignment changes only in the commit of a call whose
guard the assignment of that moment meets; a daemon's interface has in its history the values its
assignment has had, each once, and the last of them is the one it has; and the steps of a call that
returned an error changed nothing.

The advisory lock carries it: what a call read under its lock is still there when it commits
(`AssignCall.Sound`), since nobody else who holds a lock has the same key (`Invariant.alone`).
-/

namespace WireTap.Gateway

/-! ### The row of an interface -/

namespace AssignmentTable

theorem current_set_self (t : AssignmentTable) (d i : String) (sha : Option Sha) :
    (t.set d i sha).current d i = sha := by
  have hrest : (t.filter fun r => !(r.daemonId = d && r.interface = i)).find?
      (fun r => decide (r.daemonId = d) && decide (r.interface = i)) = none := by
    rw [List.find?_eq_none]
    intro r hr
    have hother := (List.mem_filter.mp hr).2
    simpa [imp_iff_not_or] using hother
  unfold current set
  rw [List.find?_append, hrest]
  cases sha <;> simp

theorem current_set_of_ne (t : AssignmentTable) {d i d' i' : String} (sha : Option Sha)
    (h : ¬(d' = d ∧ i' = i)) : (t.set d i sha).current d' i' = t.current d' i' := by
  have hrest : (t.filter fun r => !(r.daemonId = d && r.interface = i)).find?
      (fun r => decide (r.daemonId = d') && decide (r.interface = i')) =
      t.find? (fun r => decide (r.daemonId = d') && decide (r.interface = i')) := by
    rw [List.find?_filter]
    congr 1
    ext r
    by_cases hd : r.daemonId = d' <;> by_cases hi : r.interface = i' <;> simp [hd, hi]
    subst hd hi
    simpa [imp_iff_not_or] using h
  have hnew : ((sha.map fun blobSha => (⟨d, i, blobSha⟩ : AssignmentRow)).toList).find?
      (fun r => decide (r.daemonId = d') && decide (r.interface = i')) = none := by
    cases sha with
    | none => rfl
    | some blobSha =>
      have hne : ¬(d = d' ∧ i = i') := fun heq => h ⟨heq.1.symm, heq.2.symm⟩
      simpa using hne
  unfold current set
  rw [List.find?_append, hrest, hnew, Option.or_none]

end AssignmentTable

/-! ### The guard -/

theorem blobSha1Hex_ne (sha : Sha) : blobSha1Hex sha ≠ "" := by
  obtain ⟨bytes, hsize⟩ := sha
  cases bytes with
  | nil => simp at hsize
  | cons b bytes => simp [blobSha1Hex, String.ext_iff]

theorem toLower_eq_empty {e : String} (h : e.toLower = "".toLower) : e = "" := by
  have hchars : e.toList.map Char.toLower = [] := by
    rw [← String.toList_map]
    show e.toLower.toList = []
    rw [h]
    show ("".map Char.toLower).toList = []
    rw [String.toList_map]
    rfl
  rw [← String.toList_inj]
  simpa using hchars

/-- What a caller expects: `""` is no assignment, and anything else this SHA, in either case of its
digits. -/
def Expects (expected : Option String) (current : Option Sha) : Prop :=
  ∀ e, expected = some e →
    if e = "" then current = none
    else ∃ sha, current = some sha ∧ e.toLower = (blobSha1Hex sha).toLower

theorem expects_of_matches {expected : Option String} {current : Option Sha}
    (h : expectedMatches expected current) : Expects expected current := by
  rintro e rfl
  simp only [expectedMatches, decide_eq_true_eq] at h
  cases current with
  | none =>
    rw [if_pos (toLower_eq_empty h)]
  | some sha =>
    have hne : e ≠ "" := by
      rintro rfl
      exact blobSha1Hex_ne sha (toLower_eq_empty h.symm)
    rw [if_neg hne]
    exact ⟨sha, rfl, h⟩

/-! ### What a call knows -/

namespace AssignStage

/-- It has committed. -/
def done : AssignStage → Bool
  | committed _ | returned => true
  | _ => false

end AssignStage

/-- Past its guard, the row is what the call expected; past its write, `changed` says whether the row
is another than the one it asked for. -/
def AssignCall.Sound (c : AssignCall) (current : Option Sha) : Prop :=
  match c.stage with
  | .guarded | .stored => expectedMatches c.expected current
  | .written changed | .noted changed | .answered changed =>
    expectedMatches c.expected current ∧ changed = decide (current ≠ c.sha)
  | _ => True

/-- The next statement leaves the call with what it knew. -/
theorem AssignCall.Sound.after {c : AssignCall} {current : Option Sha} (h : c.Sound current) :
    AssignCall.Sound { c with stage := c.after current } current := by
  obtain ⟨d, i, sha, expected, stage⟩ := c
  cases stage <;> cases sha <;> simp_all [AssignCall.after, AssignCall.Sound] <;>
    split_ifs <;> simp_all

theorem AssignCall.sound_of_not_holds {c : AssignCall} {current : Option Sha}
    (h : c.stage.holds = false) : c.Sound current := by
  unfold AssignCall.Sound
  cases hstage : c.stage <;> simp_all [AssignStage.holds]

namespace CatalogStore

variable {hash : String → Int} {s s' : CatalogStore} {e : AssignEvent}

/-- Of two calls that hold a lock, the keys differ; and every call knows what its row is. -/
structure Invariant (hash : String → Int) (s : CatalogStore) : Prop where
  alone : ∀ (i j : Nat) (c c' : AssignCall), s.calls[i]? = some c → s.calls[j]? = some c' → c.stage.holds →
    c'.stage.holds → c.key hash = c'.key hash → i = j
  sound : ∀ c ∈ s.calls, c.Sound (s.row c)

theorem init_invariant : init.Invariant hash :=
  ⟨by simp [init], by simp [init]⟩

/-! ### What a step can do -/

/-- A call moves on without a commit that changes anything: to a stage that holds its lock only if
it did, or the lock was free. -/
structure Moved (hash : String → Int) (s : CatalogStore) (c : AssignCall) (stage : AssignStage) :
    Prop where
  holds : stage.holds → c.stage.holds ∨ s.free hash c
  sound : c.Sound (s.row c) → AssignCall.Sound { c with stage } (s.row c)
  done : c.stage.done → stage.done

theorem moved_fail {c : AssignCall} {error : AssignError} (h : c.uncommitted) :
    Moved hash s c (.failed error) := by
  refine ⟨by simp [AssignStage.holds], fun _ => trivial, ?_⟩
  intro hdone
  unfold AssignCall.uncommitted at h
  cases hstage : c.stage <;> simp_all [AssignStage.holds, AssignStage.done]

/-- A statement after the lock, but for the commit of a change. -/
theorem moved_after {c : AssignCall} (hbegun : c.stage ≠ .begun) :
    Moved hash s c (c.after (s.row c)) := by
  refine ⟨?_, AssignCall.Sound.after, ?_⟩
  · intro hholds
    left
    unfold AssignCall.after at hholds
    cases hstage : c.stage <;> simp_all [AssignStage.holds]
  · intro hdone
    unfold AssignCall.after
    cases hstage : c.stage <;> simp_all [AssignStage.done]

/-- A call that publishes is past its guard and its write, and its statement is the commit. -/
theorem publishes_eq {c : AssignCall} (h : c.publishes) :
    c.stage.holds ∧ (∀ current, c.after current = .committed true) ∧
      ∀ current, c.Sound current → expectedMatches c.expected current ∧ current ≠ c.sha := by
  unfold AssignCall.publishes at h
  split at h
  · rename_i hstage hsha
    simp [hstage, hsha, AssignStage.holds, AssignCall.after, AssignCall.Sound]
  · rename_i hstage
    simp [hstage, AssignStage.holds, AssignCall.after, AssignCall.Sound]
  · cases h

theorem advance_cases {j : Nat} {c : AssignCall} (h : s.advance hash j c = some s') :
    (∃ stage, Moved hash s c stage ∧ s' = s.setStage j c stage) ∨
    (c.publishes ∧ s' = (s.publish c).setStage j c (.committed true)) := by
  simp only [advance] at h
  split_ifs at h with hwaits hpublishes hrunning
  · right
    rw [(publishes_eq hpublishes).2.1] at h
    exact ⟨hpublishes, (Option.some.inj h).symm⟩
  · left
    refine ⟨_, ?_, (Option.some.inj h).symm⟩
    by_cases hbegun : c.stage = .begun
    · have hfree : s.free hash c := by simpa [hbegun] using hwaits
      exact ⟨fun _ => .inr hfree, AssignCall.Sound.after, by simp [hbegun, AssignStage.done]⟩
    · exact moved_after hbegun

theorem step_cases (h : s.step hash e = some s') :
    (e.caller = none ∧ ∃ c, c.stage = .begun ∧ s' = { s with calls := s.calls ++ [c] }) ∨
    (∃ j c stage, e.caller = some j ∧ s.calls[j]? = some c ∧ Moved hash s c stage ∧
      s' = s.setStage j c stage) ∨
    (∃ j c, e.caller = some j ∧ s.calls[j]? = some c ∧ c.publishes ∧
      s' = (s.publish c).setStage j c (.committed true)) := by
  cases e with
  | call daemonId interface sha expected =>
    exact .inl ⟨rfl, _, rfl, (Option.some.inj h).symm⟩
  | reject j =>
    simp only [step] at h
    cases hj : s.calls[j]? with
    | none => simp [hj] at h
    | some c =>
      rw [hj] at h
      obtain ⟨hguard, h⟩ := of_guard h
      have hbegun : c.uncommitted := by
        simp only [Bool.and_eq_true, decide_eq_true_eq] at hguard
        simp [AssignCall.uncommitted, hguard.1]
      exact .inr (.inl ⟨j, c, _, rfl, hj, moved_fail hbegun, (Option.some.inj h).symm⟩)
  | next j =>
    simp only [step] at h
    cases hj : s.calls[j]? with
    | none => simp [hj] at h
    | some c =>
      rw [hj] at h
      rcases advance_cases h with ⟨stage, hmoved, rfl⟩ | ⟨hpublishes, rfl⟩
      · exact .inr (.inl ⟨j, c, stage, rfl, hj, hmoved, rfl⟩)
      · exact .inr (.inr ⟨j, c, rfl, hj, hpublishes, rfl⟩)
  | fail j why =>
    simp only [step] at h
    cases hj : s.calls[j]? with
    | none => simp [hj] at h
    | some c =>
      rw [hj] at h
      obtain ⟨hopen, h⟩ := of_guard h
      exact .inr (.inl ⟨j, c, _, rfl, hj, moved_fail hopen, (Option.some.inj h).symm⟩)

/-! ### The invariant -/

/-- A call has the lock of its key to itself when it gets it. -/
theorem ne_of_free {c c' : AssignCall} (h : s.free hash c) (hc' : c' ∈ s.calls)
    (hholds : c'.stage.holds) : c'.key hash ≠ c.key hash := by
  simp only [free, List.all_eq_true] at h
  intro hkey
  simpa [hholds, hkey] using h c' hc'

/-- The locks after a call has moved. -/
theorem Invariant.alone_set {j : Nat} {c : AssignCall} {stage : AssignStage}
    (hs : s.Invariant hash) (hj : s.calls[j]? = some c)
    (hholds : stage.holds → c.stage.holds ∨ s.free hash c) :
    ∀ (i k : Nat) (c₁ c₂ : AssignCall), (s.calls.set j { c with stage })[i]? = some c₁ →
      (s.calls.set j { c with stage })[k]? = some c₂ → c₁.stage.holds → c₂.stage.holds →
      c₁.key hash = c₂.key hash → i = k := by
  -- Another call that holds the key the moved one has or gets.
  have hother : ∀ (k : Nat) (c₂ : AssignCall), s.calls[k]? = some c₂ → stage.holds →
      c₂.stage.holds → c.key hash = c₂.key hash → j = k := by
    intro k c₂ hk hnew hc₂ hkey
    rcases hholds hnew with hc | hfree
    · exact hs.alone j k c c₂ hj hk hc hc₂ hkey
    · exact absurd hkey.symm (ne_of_free hfree (List.mem_of_getElem? hk) hc₂)
  have hlt := (List.getElem?_eq_some_iff.mp hj).1
  intro i k c₁ c₂ hi hk hc₁ hc₂ hkey
  by_cases hji : j = i <;> by_cases hjk : j = k
  · omega
  · subst hji
    rw [List.getElem?_set_self hlt] at hi
    rw [List.getElem?_set_ne hjk] at hk
    obtain rfl := Option.some.inj hi
    exact hother k c₂ hk hc₁ hc₂ hkey
  · subst hjk
    rw [List.getElem?_set_self hlt] at hk
    rw [List.getElem?_set_ne hji] at hi
    obtain rfl := Option.some.inj hk
    exact (hother i c₁ hi hc₂ hc₁ hkey.symm).symm
  · rw [List.getElem?_set_ne hji] at hi
    rw [List.getElem?_set_ne hjk] at hk
    exact hs.alone i k c₁ c₂ hi hk hc₁ hc₂ hkey

theorem invariant_call {c : AssignCall} (hs : s.Invariant hash) (hc : c.stage = .begun) :
    Invariant hash { s with calls := s.calls ++ [c] } := by
  have hidle : c.stage.holds = false := by rw [hc]; rfl
  have hheld : ∀ (i : Nat) (c' : AssignCall), (s.calls ++ [c])[i]? = some c' → c'.stage.holds →
      s.calls[i]? = some c' := by
    intro i c' hi hholds
    rw [List.getElem?_append] at hi
    split at hi
    · exact hi
    · have hmem := List.mem_of_getElem? hi
      rw [List.mem_singleton.mp hmem, hidle] at hholds
      cases hholds
  refine ⟨?_, ?_⟩
  · intro i j c₁ c₂ hi hj h₁ h₂ hkey
    exact hs.alone i j c₁ c₂ (hheld i c₁ hi h₁) (hheld j c₂ hj h₂) h₁ h₂ hkey
  · intro c' hc'
    rcases List.mem_append.mp hc' with hc' | hc'
    · exact hs.sound c' hc'
    · rw [List.mem_singleton.mp hc']
      exact AssignCall.sound_of_not_holds hidle

theorem invariant_move {j : Nat} {c : AssignCall} {stage : AssignStage} (hs : s.Invariant hash)
    (hj : s.calls[j]? = some c) (h : Moved hash s c stage) :
    (s.setStage j c stage).Invariant hash := by
  refine ⟨hs.alone_set hj h.holds, ?_⟩
  intro c' hc'
  rcases List.mem_or_eq_of_mem_set hc' with hc' | rfl
  · exact hs.sound c' hc'
  · exact h.sound (hs.sound c (List.mem_of_getElem? hj))

/-- The row of another call that holds its lock is not the one that is published. -/
theorem invariant_publish {j : Nat} {c : AssignCall} (hs : s.Invariant hash)
    (hj : s.calls[j]? = some c) (h : c.publishes) :
    ((s.publish c).setStage j c (.committed true)).Invariant hash := by
  refine ⟨hs.alone_set hj (by simp [AssignStage.holds]), ?_⟩
  intro c' hc'
  obtain ⟨k, hk⟩ := List.mem_iff_getElem?.mp hc'
  by_cases hholds : c'.stage.holds
  swap
  · exact AssignCall.sound_of_not_holds (by simpa using hholds)
  have hlt := (List.getElem?_eq_some_iff.mp hj).1
  have hjk : j ≠ k := by
    rintro rfl
    rw [show ((s.publish c).setStage j c (.committed true)).calls =
      s.calls.set j { c with stage := .committed true } from rfl, List.getElem?_set_self hlt] at hk
    rw [← Option.some.inj hk] at hholds
    cases hholds
  rw [show ((s.publish c).setStage j c (.committed true)).calls =
    s.calls.set j { c with stage := .committed true } from rfl, List.getElem?_set_ne hjk] at hk
  have hpair : ¬(c'.daemonId = c.daemonId ∧ c'.interface = c.interface) := by
    rintro ⟨hd, hi⟩
    have hkey : c.key hash = c'.key hash := by simp [AssignCall.key, hd, hi]
    exact hjk (hs.alone j k c c' hj hk (publishes_eq h).1 hholds hkey)
  have hrow : ((s.publish c).setStage j c (.committed true)).row c' = s.row c' :=
    AssignmentTable.current_set_of_ne s.table c.sha hpair
  rw [hrow]
  exact hs.sound c' (List.mem_of_getElem? hk)

theorem step_invariant (hs : s.Invariant hash) (h : s.step hash e = some s') :
    s'.Invariant hash := by
  rcases step_cases h with ⟨-, c, hc, rfl⟩ | ⟨j, c, stage, -, hj, hmoved, rfl⟩ | ⟨j, c, -, hj, hp, rfl⟩
  · exact invariant_call hs hc
  · exact invariant_move hs hj hmoved
  · exact invariant_publish hs hj hp

/-! ### What a run leaves -/

/-- A change of an interface's assignment is noted in its history. -/
theorem notes_of_step (d i : String) (hs : s.Invariant hash) (h : s.step hash e = some s') :
    Notes (fun s : CatalogStore => s.table.current d i) (fun s => s.historyOf d i) s s' := by
  rcases step_cases h with ⟨-, c, -, rfl⟩ | ⟨j, c, stage, -, -, -, rfl⟩ | ⟨j, c, -, hj, hp, rfl⟩
  · exact .inl ⟨rfl, rfl⟩
  · exact .inl ⟨rfl, rfl⟩
  · have hsound := hs.sound c (List.mem_of_getElem? hj)
    have hchange := ((publishes_eq hp).2.2 _ hsound).2
    by_cases hpair : d = c.daemonId ∧ i = c.interface
    · obtain ⟨rfl, rfl⟩ := hpair
      have hnew : (s.table.set c.daemonId c.interface c.sha).current c.daemonId c.interface = c.sha :=
        AssignmentTable.current_set_self s.table c.daemonId c.interface c.sha
      refine .inr ⟨?_, ?_⟩
      · show (s.table.set c.daemonId c.interface c.sha).current c.daemonId c.interface ≠ _
        rw [hnew]
        exact Ne.symm hchange
      · show ((s.history ++ [_]).filter _).map _ = _ ++ [(s.table.set _ _ _).current _ _]
        rw [hnew]
        simp [historyOf]
    · refine .inl ⟨AssignmentTable.current_set_of_ne s.table c.sha hpair, ?_⟩
      have hne : ¬(c.daemonId = d ∧ c.interface = i) := fun heq => hpair ⟨heq.1.symm, heq.2.symm⟩
      show ((s.history ++ [_]).filter _).map _ = _
      have hline : ([⟨c.daemonId, c.interface, c.sha⟩] : List HistoryRow).filter
          (fun r => r.daemonId = d && r.interface = i) = [] := by
        rw [List.filter_cons_of_neg (by simpa [imp_iff_not_or] using hne), List.filter_nil]
      rw [List.filter_append, hline, List.append_nil]
      rfl

/-- The step is a commit of this call, which finds what its caller expects. -/
structure Commits (s : CatalogStore) (e : AssignEvent) (s' : CatalogStore) (j : Nat)
    (c : AssignCall) : Prop where
  caller : e.caller = some j
  call : s.calls[j]? = some c
  expects : Expects c.expected (s.row c)
  changes : s.row c ≠ c.sha
  table : s'.table = s.table.set c.daemonId c.interface c.sha
  history : s'.history = s.history ++ [⟨c.daemonId, c.interface, c.sha⟩]
  done : ∃ c', s'.calls[j]? = some c' ∧ c'.stage.done

/-- Every step is a commit, or leaves both tables as they were. -/
theorem commits_of_step (hs : s.Invariant hash) (h : s.step hash e = some s') :
    (s'.table = s.table ∧ s'.history = s.history) ∨ ∃ j c, Commits s e s' j c := by
  rcases step_cases h with ⟨-, c, -, rfl⟩ | ⟨j, c, stage, -, -, -, rfl⟩ | ⟨j, c, he, hj, hp, rfl⟩
  · exact .inl ⟨rfl, rfl⟩
  · exact .inl ⟨rfl, rfl⟩
  · have hlt := (List.getElem?_eq_some_iff.mp hj).1
    obtain ⟨hmatches, hchange⟩ := (publishes_eq hp).2.2 _ (hs.sound c (List.mem_of_getElem? hj))
    exact .inr ⟨j, c, he, hj, expects_of_matches hmatches, hchange, rfl, rfl,
      _, List.getElem?_set_self hlt, rfl⟩

/-- A call that has committed has not failed. -/
theorem done_of_step {j : Nat} (h : s.step hash e = some s')
    (hdone : At (fun c => c.stage.done) s.calls j) : At (fun c => c.stage.done) s'.calls j := by
  rcases step_cases h with ⟨-, c, hc, rfl⟩ | ⟨k, c, stage, -, hk, hmoved, rfl⟩ | ⟨k, c, -, hk, -, rfl⟩
  · rw [at_append (by rw [hc]; rfl)]
    exact hdone
  · show At _ (s.calls.set k { c with stage }) j
    by_cases hkj : k = j
    · subst hkj
      rw [at_of_getElem? hk] at hdone
      rw [at_set_self hk]
      exact hmoved.done hdone
    · rw [at_set_ne hkj]
      exact hdone
  · show At _ (s.calls.set k { c with stage := .committed true }) j
    by_cases hkj : k = j
    · subst hkj
      rw [at_set_self hk]
      rfl
    · rw [at_set_ne hkj]
      exact hdone

end CatalogStore

open CatalogStore in
/-- In every run, an assignment changes only in the commit of a call that finds what its caller
expects; the history of an interface is the values its assignment has had, and ends with the one it
has; and a call that returned an error changed nothing. -/
theorem run_compares_and_sets (hash : String → Int) {es : List AssignEvent} {s : CatalogStore}
    (hrun : runs (CatalogStore.step hash) init es = some s) :
    (∀ e s', s.step hash e = some s' → s'.table ≠ s.table ∨ s'.history ≠ s.history →
      ∃ j c, Commits s e s' j c) ∧
    (∀ d i, none :: s.historyOf d i =
        ((states (CatalogStore.step hash) init es).map fun t => t.table.current d i).destutter (· ≠ ·) ∧
      (none :: s.historyOf d i).IsChain (· ≠ ·) ∧
      (none :: s.historyOf d i).getLast? = some (s.table.current d i)) ∧
    (∀ j c, s.calls[j]? = some c → c.stage.isError → ∀ before e after, es = before ++ e :: after →
      e.caller = some j → ∀ t t', runs (CatalogStore.step hash) init before = some t →
      t.step hash e = some t' → t'.table = t.table ∧ t'.history = t.history) := by
  have hstep : ∀ {s e s'}, Invariant hash s → s.step hash e = some s' → Invariant hash s' :=
    step_invariant
  refine ⟨?_, ?_, ?_⟩
  · intro e s' he hchanged
    have hs : s.Invariant hash := invariant_of_runs hstep init_invariant hrun
    rcases commits_of_step hs he with ⟨htable, hhistory⟩ | hcommits
    · rcases hchanged with hchanged | hchanged
      · exact absurd htable hchanged
      · exact absurd hhistory hchanged
    · exact hcommits
  · intro d i
    obtain ⟨lines, hlog, hvalues, hlast⟩ :=
      history_of_runs hstep (notes_of_step d i) init_invariant hrun
    obtain rfl : s.historyOf d i = lines := by simpa [init, historyOf] using hlog
    have hchain := List.isChain_destutter (· ≠ ·)
      ((states (CatalogStore.step hash) init es).map fun t => t.table.current d i)
    rw [hvalues] at hchain
    exact ⟨hvalues.symm, hchain, hlast⟩
  · intro j c hj herror before e after hes hcaller t t' hbefore he
    have ht : t.Invariant hash := invariant_of_runs hstep init_invariant hbefore
    rcases commits_of_step ht he with hsame | ⟨k, c', hcommits⟩
    · exact hsame
    exfalso
    -- The step was the commit of the call, which stays committed to the end of the run.
    obtain rfl : k = j := Option.some.inj (hcommits.caller.symm.trans hcaller)
    rw [hes] at hrun
    obtain ⟨u, hu, hrest⟩ := runs_append.mp hrun
    obtain rfl : u = t := Option.some.inj (hu.symm.trans hbefore)
    obtain ⟨u', hu', hafter⟩ := runs_cons.mp hrest
    obtain rfl : u' = t' := Option.some.inj (hu'.symm.trans he)
    obtain ⟨c'', hc'', hdone⟩ := hcommits.done
    have hlater : At (fun c => c.stage.done) s.calls k :=
      invariant_of_runs (fun hs h => done_of_step h hs) (by rw [at_of_getElem? hc'', hdone]) hafter
    rw [at_of_getElem? hj] at hlater
    cases hstage : c.stage <;> simp_all [AssignStage.done, AssignStage.isError]

/-- Two calls that both expect no assignment: the second waits for the first's commit, and is
refused with what the first assigned. -/
def twoAssigns : List AssignEvent :=
  [.call "d" "can0" (some Assigning.shaA) (some ""), .call "d" "can0" (some Assigning.shaB) (some ""),
    .next 0, .next 0, .next 0, .next 0, .next 0, .next 0, .next 0, .next 1, .next 1]

open CatalogStore in
theorem run_compares_and_sets_twice :
    ∃ s, runs (CatalogStore.step fun name => name.length) init twoAssigns = some s ∧
      (∃ c, s.calls[1]? = some c ∧ c.stage.isError) ∧
      s.historyOf "d" "can0" = [some Assigning.shaA] ∧
      s.table.current "d" "can0" = some Assigning.shaA := by
  obtain ⟨s, hrun⟩ : ∃ s, runs (CatalogStore.step fun name => name.length) init twoAssigns = some s :=
    Option.isSome_iff_exists.mp (by decide +kernel)
  have hhistory : s.historyOf "d" "can0" = [some Assigning.shaA] := by
    have hall : ∀ t ∈ runs (CatalogStore.step fun name => name.length) init twoAssigns,
        t.historyOf "d" "can0" = [some Assigning.shaA] := by decide +kernel
    exact hall s hrun
  have herror : ∃ c, s.calls[1]? = some c ∧ c.stage.isError := by
    have hall : ∀ t ∈ runs (CatalogStore.step fun name => name.length) init twoAssigns,
        (t.calls[1]?.any fun c => c.stage.isError) = true := by decide +kernel
    exact (Option.any_eq_true _ _).mp (hall s hrun)
  have hlast := ((run_compares_and_sets _ hrun).2.1 "d" "can0").2.2
  rw [hhistory] at hlast
  exact ⟨s, hrun, herror, hhistory, (Option.some.inj hlast).symm⟩

end WireTap.Gateway
