import Mathlib.Data.List.Basic
import WireTap.Lib.Run
import WireTap.Gateway.Reassign

/-!
# No HELLO misses an assignment change

`run_told`: in every run that meets `Assigning.InTime`, a session that is open when a change that
concerns it is over has been answered from a table with the change in it, or has been told.  What
the code can miss is a HELLO that read the table before the change committed and opens its session
after `reassign` has looked for it (`run_misses`); a change whose commit is not answered tells
nobody, and a HELLO whose queries fail is answered with no assignments.

The invariant is about pairs of a HELLO and a change that is over: `Greeting.knows`.
-/

namespace WireTap.Gateway

namespace Greeting

/-- The HELLO read the table after change `v`, or has been told, or has still to read. -/
def knows (v : Nat) : Greeting → Bool
  | ready version _ => v < version
  | opened version _ reassigned => reassigned || v < version
  | asked | closed => true

/-- `reassign` after change `v` finds the session, or need not. -/
def found (v : Nat) : Greeting → Bool
  | ready version _ => v < version
  | _ => true

/-- The table it read, and what it made of it. -/
def read : Greeting → Option (Nat × List Assignment)
  | ready version answer | opened version answer _ => some (version, answer)
  | asked | closed => none

end Greeting

/-- The change of a call that has still to tell the sessions. -/
def Changing.pending : Changing → Option Nat
  | committed version => some version
  | _ => none

namespace Assigning

/-- A HELLO whose queries fail has nothing assigned to it; a change whose commit is not answered
concerns no HELLO that has to be told; and `reassign` comes when every HELLO it concerns that read
the table before the change is in the map. -/
def InTime (s : Assigning) : AssigningEvent → Prop
  | .read i recorded failed =>
    ∀ h ∈ s.hellos[i]?, (recorded = .ok () ∧ failed = none) ∨
      assignmentsFor s.table h.daemonId h.devices = []
  | .commit j answered =>
    ∀ c ∈ s.changes[j]?, answered = false → s.affects c →
      ∀ h ∈ s.hellos, Concerns h c → h.stage.knows s.past.length
  | .reassign j =>
    ∀ c ∈ s.changes[j]?, ∀ v ∈ c.stage.pending, ∀ h ∈ s.hellos, Concerns h c → h.stage.found v
  | _ => True

instance (s : Assigning) (e : AssigningEvent) : Decidable (s.InTime e) := by
  cases e <;> unfold InTime <;> infer_instance

/-- Change `v` is this call's: it made one table out of the other. -/
def Made (s : Assigning) (c : ChangeCall) (v : Nat) : Prop :=
  ∃ t, s.version v = some t ∧ s.version (v + 1) = some (t.set c.daemonId c.interface c.sha)

/-- What a HELLO answers is what its table says, and it knows of the changes that are over. -/
structure Invariant (s : Assigning) : Prop where
  answered : ∀ h ∈ s.hellos, h.daemonId ≠ "" → ∀ version answer,
    h.stage.read = some (version, answer) →
      ∃ t, s.version version = some t ∧ answer = assignmentsFor t h.daemonId h.devices
  made : ∀ c ∈ s.changes, ∀ v, c.stage.pending = some v ∨ c.stage.over = some v → s.Made c v
  knows : ∀ h ∈ s.hellos, ∀ c ∈ s.changes, Concerns h c → ∀ v, c.stage.over = some v →
    h.stage.knows v

theorem init_invariant (table : AssignmentTable) : (init table).Invariant :=
  ⟨by simp [init], by simp [init], by simp [init]⟩

variable {s s' : Assigning} {i j : Nat} {h h₀ : HelloCall} {c c₀ : ChangeCall}

/-! ### What a step can do -/

/-- A HELLO moves on: to where its answer is its table's, and it knows of every change over. -/
theorem Invariant.setHello (hs : s.Invariant)
    (hanswered : h.daemonId ≠ "" → ∀ version answer, h.stage.read = some (version, answer) →
      ∃ t, s.version version = some t ∧ answer = assignmentsFor t h.daemonId h.devices)
    (hknows : ∀ c ∈ s.changes, Concerns h c → ∀ v, c.stage.over = some v → h.stage.knows v) :
    (s.setHello i h).Invariant := by
  refine ⟨?_, hs.made, ?_⟩
  · intro h' hh'
    rcases List.mem_or_eq_of_mem_set hh' with hh' | rfl
    · exact hs.answered h' hh'
    · exact hanswered
  · intro h' hh'
    rcases List.mem_or_eq_of_mem_set hh' with hh' | rfl
    · exact hs.knows h' hh'
    · exact hknows

/-- A change that is over with no effect. -/
theorem Invariant.setChange_unchanged (hs : s.Invariant) :
    (s.setChange j { c with stage := .unchanged }).Invariant := by
  refine ⟨hs.answered, ?_, ?_⟩
  · intro c' hc' v hv
    rcases List.mem_or_eq_of_mem_set hc' with hc' | rfl
    · exact hs.made c' hc' v hv
    · simp [Changing.pending, Changing.over] at hv
  · intro h hh c' hc' hconcerns v hv
    rcases List.mem_or_eq_of_mem_set hc' with hc' | rfl
    · exact hs.knows h hh c' hc' hconcerns v hv
    · cases hv

/-- What the next change leaves of the tables there have been. -/
theorem version_of_version {k : Nat} {t table : AssignmentTable} {changes : List ChangeCall}
    (hk : s.version k = some t) :
    version ⟨table, s.past ++ [s.table], s.hellos, changes⟩ k = some t := by
  have hlt := (List.getElem?_eq_some_iff.mp hk).1
  exact (List.getElem?_append_left hlt).trans hk

theorem Made.commit {v : Nat} {table : AssignmentTable} {changes : List ChangeCall}
    (h : s.Made c v) : Made ⟨table, s.past ++ [s.table], s.hellos, changes⟩ c v := by
  obtain ⟨t, hbefore, hafter⟩ := h
  exact ⟨t, version_of_version hbefore, version_of_version hafter⟩

/-- The tables it made were there before the last. -/
theorem Made.lt {v : Nat} (h : s.Made c v) : v < s.past.length := by
  obtain ⟨t, -, hafter⟩ := h
  have hlt := (List.getElem?_eq_some_iff.mp hafter).1
  rw [List.length_append, List.length_singleton] at hlt
  omega

/-- A change commits.  If it is over with that, every HELLO it concerns knows of it. -/
theorem Invariant.commit {stage : Changing} (hs : s.Invariant)
    (hmade : ∀ v, stage.pending = some v ∨ stage.over = some v → v = s.past.length)
    (hknows : ∀ h ∈ s.hellos, Concerns h c → ∀ v, stage.over = some v → h.stage.knows v) :
    Invariant { s.setChange j { c with stage } with
      past := s.past ++ [s.table], table := s.table.set c.daemonId c.interface c.sha } := by
  refine ⟨?_, ?_, ?_⟩
  · intro h hh hdaemon version answer hread
    obtain ⟨t, ht, hanswer⟩ := hs.answered h hh hdaemon version answer hread
    exact ⟨t, version_of_version ht, hanswer⟩
  · intro c' hc' v hv
    rcases List.mem_or_eq_of_mem_set hc' with hc' | rfl
    · exact (hs.made c' hc' v hv).commit
    · rw [hmade v hv]
      -- The change is the last one: from the table there was to the table there is.
      exact ⟨s.table, by simp [version], by simp [version]⟩
  · intro h hh c' hc' hconcerns v hv
    rcases List.mem_or_eq_of_mem_set hc' with hc' | rfl
    · exact hs.knows h hh c' hc' hconcerns v hv
    · exact hknows h hh hconcerns v hv

/-! ### Telling the sessions -/

section Tell

variable (daemonId interface : String) (h)

/-- Telling a session changes nothing but its stage. -/
theorem tell_eq : tell daemonId interface h = { h with stage := (tell daemonId interface h).stage } := by
  unfold tell
  split
  · split_ifs <;> rfl
  · rfl

theorem read_tell : (tell daemonId interface h).stage.read = h.stage.read := by
  unfold tell
  split
  · rename_i hstage
    split_ifs
    · rw [hstage]
      rfl
    · rfl
  · rfl

/-- A session that knew of a change knows of it when it has been told of another. -/
theorem knows_tell {v : Nat} (hknows : h.stage.knows v) :
    (tell daemonId interface h).stage.knows v := by
  unfold tell
  split
  · split_ifs
    · rfl
    · exact hknows
  · exact hknows

end Tell

/-- A session that `reassign` finds, or need not find, knows of the change. -/
theorem knows_tell_of_found {v : Nat} (hconcerns : Concerns h c) (hfound : h.stage.found v) :
    (tell c.daemonId c.interface h).stage.knows v := by
  simp only [Concerns, Bool.and_eq_true, decide_eq_true_eq] at hconcerns
  unfold tell
  split
  · simp [hconcerns, Greeting.knows]
  · rename_i hother
    cases hstage : h.stage with
    | asked => rfl
    | ready version answer =>
      rw [hstage] at hfound
      exact hfound
    | opened version answer reassigned => exact absurd hstage (hother version answer reassigned)
    | closed => rfl

theorem Invariant.reassign {v : Nat} (hs : s.Invariant) (hj : s.changes[j]? = some c)
    (hpending : c.stage.pending = some v)
    (hfound : ∀ h ∈ s.hellos, Concerns h c → h.stage.found v) :
    Invariant { s.setChange j { c with stage := .returned v } with
      hellos := s.hellos.map (tell c.daemonId c.interface) } := by
  have hc := List.mem_of_getElem? hj
  refine ⟨?_, ?_, ?_⟩
  · intro h hh hdaemon version answer hread
    obtain ⟨h₀, hh₀, rfl⟩ := List.mem_map.mp hh
    rw [read_tell] at hread
    rw [tell_eq] at hdaemon ⊢
    exact hs.answered h₀ hh₀ hdaemon version answer hread
  · intro c' hc' v' hv'
    rcases List.mem_or_eq_of_mem_set hc' with hc' | rfl
    · exact hs.made c' hc' v' hv'
    · obtain rfl : v = v' := by simpa [Changing.pending, Changing.over] using hv'
      exact hs.made c hc v (.inl hpending)
  · intro h hh c' hc' hconcerns v' hv'
    obtain ⟨h₀, hh₀, rfl⟩ := List.mem_map.mp hh
    rw [tell_eq] at hconcerns
    rcases List.mem_or_eq_of_mem_set hc' with hc' | rfl
    · exact knows_tell h₀ _ _ (hs.knows h₀ hh₀ c' hc' hconcerns v' hv')
    · obtain rfl : v = v' := by simpa [Changing.over] using hv'
      -- The one place a session can be missed: `hfound` says that none is.
      exact knows_tell_of_found hconcerns (hfound h₀ hh₀ hconcerns)

/-! ### One step -/

/-- A HELLO reads: what it answers is what is assigned, and it knows of every change. -/
theorem Invariant.read {recorded : Except String Unit} {failed : Option String}
    (hs : s.Invariant)
    (hread : (recorded = .ok () ∧ failed = none) ∨
      assignmentsFor s.table h.daemonId h.devices = []) :
    (s.setHello i { h with stage := .ready s.past.length (s.answer h recorded failed) }).Invariant := by
  have hanswer : s.answer h recorded failed = assignmentsFor s.table h.daemonId h.devices := by
    unfold answer
    rcases hread with ⟨rfl, rfl⟩ | hnone
    · rfl
    · rw [hnone]
      cases recorded <;> cases failed <;> rfl
  refine hs.setHello ?_ ?_
  · intro _ version answer hseen
    obtain ⟨rfl, rfl⟩ := Prod.mk.inj (Option.some.inj hseen)
    exact ⟨s.table, by simp [Assigning.version], hanswer⟩
  · intro c hc _ v hv
    exact decide_eq_true (hs.made c hc v (.inr hv)).lt

theorem step_invariant {e : AssigningEvent} (hs : s.Invariant) (hintime : s.InTime e)
    (hstep : s.step e = some s') : s'.Invariant := by
  cases e with
  | hello daemonId devices =>
    cases hstep
    -- A HELLO that names no daemon reads nothing, and no change concerns it.
    refine ⟨?_, hs.made, ?_⟩
    · intro h hh hdaemon version answer hread
      rcases List.mem_append.mp hh with hh | hh
      · exact hs.answered h hh hdaemon version answer hread
      · obtain rfl := List.mem_singleton.mp hh
        simp [show daemonId ≠ "" from hdaemon, Greeting.read] at hread
    · intro h hh c hc hconcerns v hv
      rcases List.mem_append.mp hh with hh | hh
      · exact hs.knows h hh c hc hconcerns v hv
      · obtain rfl := List.mem_singleton.mp hh
        have hdaemon : daemonId ≠ "" := by
          simp only [Concerns, Bool.and_eq_true, decide_eq_true_eq] at hconcerns
          exact hconcerns.1.1
        simp [hdaemon, Greeting.knows]
  | read i recorded failed =>
    simp only [step] at hstep
    split at hstep
    · rename_i h hi
      obtain ⟨-, ⟨⟩⟩ := of_guard hstep
      exact hs.read (hintime h hi)
    · cases hstep
  | opens i =>
    simp only [step] at hstep
    split at hstep
    · rename_i daemonId devices version answer hi
      cases hstep
      have hmem := List.mem_of_getElem? hi
      -- It goes into the map with what it read, so it still knows what it knew.
      refine hs.setHello ?_ ?_
      · intro hdaemon version' answer' hread
        exact hs.answered _ hmem hdaemon version' answer' hread
      · intro c hc hconcerns v hv
        exact hs.knows _ hmem c hc hconcerns v hv
    · cases hstep
  | close i =>
    simp only [step] at hstep
    split at hstep
    · cases hstep
      exact hs.setHello (fun _ _ _ hread => by cases hread) fun _ _ _ _ _ => rfl
    · cases hstep
  | change daemonId interface sha expected =>
    cases hstep
    refine ⟨hs.answered, ?_, ?_⟩
    · intro c hc v hv
      rcases List.mem_append.mp hc with hc | hc
      · exact hs.made c hc v hv
      · rw [List.mem_singleton.mp hc] at hv
        simp [Changing.pending, Changing.over] at hv
    · intro h hh c hc hconcerns v hv
      rcases List.mem_append.mp hc with hc | hc
      · exact hs.knows h hh c hc hconcerns v hv
      · rw [List.mem_singleton.mp hc] at hv
        cases hv
  | commit j answered =>
    simp only [step] at hstep
    split at hstep
    · rename_i c hj
      obtain ⟨-, hnext⟩ := of_guard hstep
      split at hnext
      · rename_i haffects
        obtain rfl := Option.some.inj hnext
        -- A commit that is not answered is over: nobody will be told, so `InTime` covers it here.
        refine hs.commit ?_ ?_
        · intro v hv
          cases answered <;> simpa [Changing.pending, Changing.over, eq_comm] using hv
        · intro h hh hconcerns v hv
          cases answered with
          | true => cases hv
          | false =>
            obtain rfl := Option.some.inj hv
            exact hintime c hj rfl haffects h hh hconcerns
      · obtain rfl := Option.some.inj hnext
        exact hs.setChange_unchanged
    · cases hstep
  | fail j =>
    simp only [step] at hstep
    split at hstep
    · obtain ⟨-, ⟨⟩⟩ := of_guard hstep
      exact hs.setChange_unchanged
    · cases hstep
  | reassign j =>
    simp only [step] at hstep
    split at hstep
    · rename_i c hj
      split at hstep
      · rename_i v hstage
        cases hstep
        have hpending : c.stage.pending = some v := by rw [hstage]; rfl
        exact hs.reassign hj hpending (hintime c hj v hpending)
      · cases hstep
    · cases hstep

/-! ### Runs -/

/-- In every run that meets the condition, a session that is open when a change that concerns it is
over has been told, or was answered from a table with the change in it. -/
theorem run_told (table : AssignmentTable) (events : List AssigningEvent) (s : Assigning)
    (hintime : Along step InTime (init table) events)
    (hrun : runs step (init table) events = some s) :
    ∀ h ∈ s.hellos, ∀ c ∈ s.changes, Concerns h c → ∀ version answer reassigned v,
      h.stage = .opened version answer reassigned → c.stage.over = some v →
        s.Made c v ∧ (reassigned = true ∨ ∃ k t, v < k ∧ s.version k = some t ∧
          answer = assignmentsFor t h.daemonId h.devices) := by
  have hs : s.Invariant := Along.invariant step_invariant (init_invariant table) hintime hrun
  intro h hh c hc hconcerns version answer reassigned v hstage hover
  refine ⟨hs.made c hc v (.inr hover), ?_⟩
  have hknows := hs.knows h hh c hc hconcerns v hover
  rw [hstage] at hknows
  simp only [Greeting.knows, Bool.or_eq_true, decide_eq_true_eq] at hknows
  -- It has been told, or its table has the change in it.
  rcases hknows with htold | hlt
  · exact .inl htold
  · have hdaemon : h.daemonId ≠ "" := by
      simp only [Concerns, Bool.and_eq_true, decide_eq_true_eq] at hconcerns
      exact hconcerns.1.1
    obtain ⟨t, ht, hanswer⟩ := hs.answered h hh hdaemon version answer (by rw [hstage]; rfl)
    exact .inr ⟨version, t, hlt, ht, hanswer⟩

/-- Two blobs to assign. -/
def shaA : Sha := ⟨List.replicate 20 0, rfl⟩

def shaB : Sha := ⟨List.replicate 20 1, rfl⟩

/-- Two sessions of a daemon, one open before a change commits and one that reads after it. -/
theorem run_told_two :
    let events : List AssigningEvent :=
      [.hello "d" [⟨0, "can0"⟩], .read 0 (.ok ()) none, .opens 0,
        .change "d" "can0" (some shaB) none, .commit 0 true, .hello "d" [⟨0, "can0"⟩],
        .read 1 (.ok ()) none, .reassign 0, .opens 1]
    ∃ s, runs step (init [⟨"d", "can0", shaA⟩]) events = some s ∧
      ∃ h₀ h₁ c, s.hellos = [h₀, h₁] ∧ s.changes = [c] ∧ Concerns h₀ c ∧ Concerns h₁ c ∧
        h₀.stage = .opened 0 [⟨0, shaA⟩] true ∧ h₁.stage = .opened 1 [⟨0, shaB⟩] false ∧
        ∃ k t, 0 < k ∧ s.version k = some t ∧
          [⟨0, shaB⟩] = assignmentsFor t h₁.daemonId h₁.devices := by
  have hintime : Along step InTime (init [⟨"d", "can0", shaA⟩])
      [.hello "d" [⟨0, "can0"⟩], .read 0 (.ok ()) none, .opens 0,
        .change "d" "can0" (some shaB) none, .commit 0 true, .hello "d" [⟨0, "can0"⟩],
        .read 1 (.ok ()) none, .reassign 0, .opens 1] := by
    decide +kernel
  have hrun : runs step (init [⟨"d", "can0", shaA⟩])
      [.hello "d" [⟨0, "can0"⟩], .read 0 (.ok ()) none, .opens 0,
        .change "d" "can0" (some shaB) none, .commit 0 true, .hello "d" [⟨0, "can0"⟩],
        .read 1 (.ok ()) none, .reassign 0, .opens 1] =
      some ⟨[⟨"d", "can0", shaB⟩], [[⟨"d", "can0", shaA⟩]],
        [⟨"d", [⟨0, "can0"⟩], .opened 0 [⟨0, shaA⟩] true⟩,
          ⟨"d", [⟨0, "can0"⟩], .opened 1 [⟨0, shaB⟩] false⟩],
        [⟨"d", "can0", some shaB, none, .returned 0⟩]⟩ := by
    decide +kernel
  refine ⟨_, hrun, _, _, _, rfl, rfl, by decide +kernel, by decide +kernel, rfl, rfl, ?_⟩
  have htold := run_told _ _ _ hintime hrun _ (List.mem_cons_of_mem _ (List.mem_singleton_self _)) _
    (List.mem_singleton_self _) (by decide +kernel) 1 [⟨0, shaB⟩] false 0 rfl rfl
  exact htold.2.resolve_left (by decide)

/-- A HELLO reads, the change commits and tells the sessions, and the HELLO opens its session: it was
answered with the assignment as it was, and nothing tells it. -/
theorem run_misses :
    ∃ s h c, runs step (init [⟨"d", "can0", shaA⟩])
        [.hello "d" [⟨0, "can0"⟩], .read 0 (.ok ()) none, .change "d" "can0" (some shaB) none,
          .commit 0 true, .reassign 0, .opens 0] = some s ∧
      s.hellos = [h] ∧ s.changes = [c] ∧ Concerns h c ∧ c.stage = .returned 0 ∧
      h.stage = .opened 0 [⟨0, shaA⟩] false ∧
      assignmentsFor s.table h.daemonId h.devices = [⟨0, shaB⟩] ∧
      ∀ k t, 0 < k → s.version k = some t →
        [⟨0, shaA⟩] ≠ assignmentsFor t h.daemonId h.devices := by
  refine ⟨⟨[⟨"d", "can0", shaB⟩], [[⟨"d", "can0", shaA⟩]],
      [⟨"d", [⟨0, "can0"⟩], .opened 0 [⟨0, shaA⟩] false⟩],
      [⟨"d", "can0", some shaB, none, .returned 0⟩]⟩, _, _, by decide +kernel, rfl, rfl,
    by decide +kernel, rfl, rfl, by decide +kernel, ?_⟩
  intro k t hk ht
  have hlt : k < 2 := (List.getElem?_eq_some_iff.mp ht).1
  obtain rfl : k = 1 := by omega
  obtain rfl : [⟨"d", "can0", shaB⟩] = t := Option.some.inj ht
  decide +kernel

/-! ### The condition is the weakest -/

/-- A HELLO that read before the change and is not in the map when `reassign` looks for it can be
opened next, with what it read and untold. -/
theorem reassign_misses {version v : Nat} {answer : List Assignment} (hj : s.changes[j]? = some c)
    (hpending : c.stage = .committed v) (hi : s.hellos[i]? = some h)
    (hready : h.stage = .ready version answer) (hbefore : version ≤ v) :
    ∃ s', runs step s [.reassign j, .opens i] = some s' ∧
      ∃ h' c', s'.hellos[i]? = some h' ∧ s'.changes[j]? = some c' ∧ c'.stage.over = some v ∧
        h'.stage = .opened version answer false ∧ ¬ h'.stage.knows v := by
  obtain ⟨daemonId, devices, stage⟩ := h
  obtain rfl : stage = .ready version answer := hready
  set t : Assigning := { s.setChange j { c with stage := .returned v } with
    hellos := s.hellos.map (tell c.daemonId c.interface) } with ht
  have hreassign : s.step (.reassign j) = some t := by
    simp only [step, hj, hpending, ht]
  have hhello : t.hellos[i]? = some ⟨daemonId, devices, .ready version answer⟩ := by
    simp [ht, hi, tell]
  -- `tell` left the HELLO alone: it is not in the map yet.
  have hopens : t.step (.opens i) =
      some (t.setHello i ⟨daemonId, devices, .opened version answer false⟩) := by
    simp only [step, hhello]
  refine ⟨_, runs_cons.mpr ⟨t, hreassign, runs_cons.mpr ⟨_, hopens, rfl⟩⟩, _, _,
    List.getElem?_set_self (List.getElem?_eq_some_iff.mp hhello).1,
    List.getElem?_set_self (List.getElem?_eq_some_iff.mp hj).1, rfl, rfl, ?_⟩
  simp [Greeting.knows, hbefore]

end Assigning

end WireTap.Gateway
