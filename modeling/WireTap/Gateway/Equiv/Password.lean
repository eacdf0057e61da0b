import WireTap.Gateway.Password
import WireTap.Lib.Run

/-!
# No rotation locks the gateway out, unless it overwrites the only copy

`PgPassword.Safe` is the law: the role's password is the file's or the staged one's.  It survives
every run in which neither a `stage` nor a `discard` meets a password that is in use and not yet
saved (`run_safe`), and from a safe state the next start gets in and saves the password
(`reachPostgres_of_safe`).  `stage_safe_iff` and `discard_safe_iff` say that nothing less will do.
-/

namespace WireTap.Gateway

namespace PgPassword

/-- The role's password is in the password file or in the `.next` beside it. -/
def Safe (s : PgPassword) : Prop := s.file = s.role ∨ s.next = some s.role

instance (s : PgPassword) : Decidable s.Safe := inferInstanceAs (Decidable (_ ∨ _))

/-- This call of `reach_postgres` discards `.next`. -/
def Discards (s : PgPassword) (a : Attempt) : Prop :=
  s.next.isSome ∧ a.reached ∧ s.memory = s.role ∧ a.discarded

instance (s : PgPassword) (a : Attempt) : Decidable (s.Discards a) :=
  inferInstanceAs (Decidable (_ ∧ _))

/-- Nothing writes over `.next` or removes it while the password in use is not the file's. -/
def Saved (s : PgPassword) : PasswordEvent → Prop
  | .stage _ => s.file = s.memory
  | .stageFails left => s.file = s.memory ∨ left = s.next
  | .reach a => s.Discards a → s.file = s.memory
  | _ => True

instance (s : PgPassword) : ∀ e, Decidable (s.Saved e)
  | .stage _ => inferInstanceAs (Decidable (_ = _))
  | .stageFails _ => inferInstanceAs (Decidable (_ ∨ _))
  | .reach _ => inferInstanceAs (Decidable (_ → _))
  | .connect => inferInstanceAs (Decidable True)
  | .alter => inferInstanceAs (Decidable True)
  | .reply => inferInstanceAs (Decidable True)
  | .promote _ => inferInstanceAs (Decidable True)
  | .fail => inferInstanceAs (Decidable True)
  | .crash => inferInstanceAs (Decidable True)

/-- What a rotation under way relies on. -/
def Rotating (s : PgPassword) : Prop :=
  match s.phase with
  | .starting | .serving => True
  | .connected => s.memory = s.role
  | .staged password => s.file = s.role ∧ s.next = some password
  | .applied password | .saving password => s.role = password ∧ s.next = some password

structure Invariant (s : PgPassword) : Prop where
  safe : s.Safe
  rotating : s.Rotating

/-! ### One step -/

theorem rename_of_next {s : PgPassword} {staged : Password} (h : s.next = some staged) :
    s.rename = { s with file := staged, next := none } := by
  rw [rename, h]

/-- What `reach_postgres` leaves of the files is safe. -/
theorem reachPostgres_safe {s : PgPassword} {a : Attempt} (hs : s.Safe)
    (hsaved : s.Discards a → s.file = s.memory) : (s.reachPostgres a).2.Safe := by
  unfold reachPostgres
  split
  · exact hs
  · rename_i staged hnext
    split
    · exact hs
    · rename_i hreached
      split
      · rename_i hlet
        split
        · rename_i hdiscarded
          -- The file must hold what works, since `.next` is about to go.
          have hfile := hsaved ⟨by rw [hnext]; rfl, by simpa using hreached, hlet, hdiscarded⟩
          exact .inl (hfile.trans hlet)
        · exact hs
      · split
        · exact hs
        · split
          · exact hs
          · rename_i hstaged
            obtain ⟨-, hstaged⟩ : a.reachedAgain = true ∧ staged = s.role := by
              simpa using hstaged
            have hmoved : ({ s with memory := staged } : PgPassword).rename.Safe := by
              rw [rename_of_next (s := { s with memory := staged }) hnext]
              exact .inl hstaged
            cases a.promoted with
            | moved => exact hmoved
            | unsynced => exact hmoved
            | unmoved => exact hs

theorem rename_phase (s : PgPassword) : s.rename.phase = s.phase := by
  unfold rename
  split <;> rfl

theorem reachPostgres_phase (s : PgPassword) (a : Attempt) :
    (s.reachPostgres a).2.phase = s.phase := by
  unfold reachPostgres
  repeat' split
  all_goals first | rfl | exact rename_phase _

/-- Every step that finds the password in use saved keeps the invariant. -/
theorem step_invariant {s s' : PgPassword} {e : PasswordEvent} (h : s.Invariant)
    (hsaved : s.Saved e) (hstep : s.step e = some s') : s'.Invariant := by
  obtain ⟨hsafe, hrotating⟩ := h
  cases e with
  | reach a =>
    obtain ⟨hphase, hnext⟩ := of_guard hstep
    have hafter := reachPostgres_safe hsafe hsaved
    have hstill := (reachPostgres_phase s a).trans hphase
    rcases hr : s.reachPostgres a with ⟨_ | _, t⟩
    · rw [hr] at hnext hafter hstill
      cases hnext
      exact ⟨hafter, by rw [Rotating, hstill]; trivial⟩
    · rw [hr] at hnext hafter
      cases hnext
      exact ⟨hafter, trivial⟩
  | connect =>
    obtain ⟨hlet, ⟨⟩⟩ := of_guard hstep
    exact ⟨hsafe, hlet.2⟩
  | stage password =>
    obtain ⟨hphase, ⟨⟩⟩ := of_guard hstep
    rw [Rotating, hphase] at hrotating
    -- The one in use is saved, so nothing is lost with what `.next` held.
    have hfile : s.file = s.role := hsaved.trans hrotating
    exact ⟨.inl hfile, hfile, rfl⟩
  | stageFails left =>
    obtain ⟨hphase, ⟨⟩⟩ := of_guard hstep
    rw [Rotating, hphase] at hrotating
    refine ⟨?_, trivial⟩
    rcases hsaved with hfile | rfl
    · exact .inl (hfile.trans hrotating)
    · exact hsafe
  | alter =>
    simp only [step] at hstep
    split at hstep
    · rename_i password hphase
      cases hstep
      rw [Rotating, hphase] at hrotating
      exact ⟨.inr hrotating.2, rfl, hrotating.2⟩
    · cases hstep
  | reply =>
    simp only [step] at hstep
    split at hstep
    · rename_i password hphase
      cases hstep
      rw [Rotating, hphase] at hrotating
      exact ⟨hsafe, hrotating⟩
    · cases hstep
  | promote p =>
    simp only [step] at hstep
    split at hstep
    · cases hstep
      exact ⟨hsafe, trivial⟩
    · rename_i password hphase _
      cases hstep
      rw [Rotating, hphase] at hrotating
      refine ⟨.inl ?_, trivial⟩
      rw [rename_of_next hrotating.2]
      exact hrotating.1.symm
    · cases hstep
  | fail =>
    simp only [step] at hstep
    split at hstep
    · cases hstep
      exact ⟨hsafe, trivial⟩
    · cases hstep
      exact ⟨hsafe, trivial⟩
    · cases hstep
      exact ⟨hsafe, trivial⟩
    · cases hstep
  | crash =>
    cases hstep
    exact ⟨hsafe, trivial⟩

/-! ### A start -/

/-- From a safe state a start that meets no failure gets in and leaves the password saved. -/
theorem reachPostgres_of_safe {s : PgPassword} (h : s.Safe) :
    s.restart.reachPostgres {} =
      (.ok (), { s.restart with file := s.role, next := none, memory := s.role }) := by
  obtain ⟨role, file, next, memory, phase⟩ := s
  by_cases hfile : file = role
  · subst hfile
    cases next <;> simp [reachPostgres, restart]
  · have hnext : next = some role := h.resolve_left hfile
    subst hnext
    simp [reachPostgres, restart, rename, hfile]

/-- From any other state no start gets in, whatever it meets. -/
theorem reachPostgres_of_not_safe {s : PgPassword} (h : ¬ s.Safe) (a : Attempt) :
    (s.restart.reachPostgres a).1 ≠ .ok () := by
  obtain ⟨role, file, next, memory, phase⟩ := s
  obtain ⟨hfile, hnext⟩ := not_or.mp h
  change ¬ file = role at hfile
  cases next with
  | none => simp [reachPostgres, restart, hfile]
  | some staged =>
    have hstaged : ¬ staged = role := fun h => hnext (congrArg some h)
    simp only [reachPostgres, restart, hfile, hstaged, if_false, decide_false, Bool.and_false,
      Bool.not_false, if_true]
    split
    · rintro ⟨⟩
    · split <;> rintro ⟨⟩

/-! ### Runs -/

/-- In every run in which each `stage` and each `discard` finds the password in use saved in the
file, the role's password is at every moment the file's or the staged one, and a crash at that
moment is followed by a start that gets in and leaves the working password in the file. -/
theorem run_safe (password : Password) (left : Option Password) (events : List PasswordEvent)
    (s : PgPassword) (hsaved : Along step Saved (init password left) events)
    (hrun : runs step (init password left) events = some s) :
    s.Safe ∧ ∃ s', s.restart.reachPostgres {} = (.ok (), s') ∧
      s'.role = s.role ∧ s'.file = s.role ∧ s'.memory = s.role := by
  have hinit : (init password left).Invariant := ⟨.inl rfl, trivial⟩
  have h : s.Invariant := Along.invariant step_invariant hinit hsaved hrun
  exact ⟨h.safe, _, reachPostgres_of_safe h.safe, rfl, rfl, rfl⟩

/-- A rotation whose reply is lost, and a restart. -/
theorem run_safe_reply_lost :
    let events : List PasswordEvent :=
      [.reach {}, .connect, .stage "new", .alter, .fail, .crash, .reach {}]
    Along step Saved (init "old" none) events ∧
      ∃ s, runs step (init "old" none) events = some s ∧ s.file = "new" ∧ s.Safe := by
  have hsaved : Along step Saved (init "old" none)
      [.reach {}, .connect, .stage "new", .alter, .fail, .crash, .reach {}] := by
    decide +kernel
  refine ⟨hsaved, ⟨"new", "new", none, "new", .serving⟩, by decide +kernel, rfl, ?_⟩
  exact (run_safe "old" none _ _ hsaved (by decide +kernel)).1

/-- A rotation whose rename fails, and another one that stages its password: the password the role
has is gone from both files, and no start gets in any more. -/
theorem run_locked_out :
    ∃ s, runs step (init "old" none)
        [.reach {}, .connect, .stage "new", .alter, .reply, .promote .unmoved, .connect,
          .stage "newer", .crash] = some s ∧
      ¬ s.Safe ∧ ∀ a, (s.reachPostgres a).1 ≠ .ok () := by
  have hlost : ¬ Safe ⟨"new", "old", some "newer", "old", .starting⟩ := by decide +kernel
  exact ⟨_, by decide +kernel, hlost, reachPostgres_of_not_safe hlost⟩

/-! ### The condition is the weakest -/

/-- Staging a password other than the role's is safe only if the one in use is saved. -/
theorem stage_safe_iff {s s' : PgPassword} {password : Password} (hlet : s.memory = s.role)
    (hnew : password ≠ s.role) (hstep : s.step (.stage password) = some s') :
    s'.Safe ↔ s.file = s.memory := by
  obtain ⟨-, ⟨⟩⟩ := of_guard hstep
  rw [hlet]
  constructor
  · rintro (h | h)
    · exact h
    · exact absurd (Option.some.inj h) hnew
  · exact .inl

/-- A start that discards `.next` is safe only if the password in use is saved. -/
theorem discard_safe_iff {s s' : PgPassword} {a : Attempt} (hdiscards : s.Discards a)
    (hstep : s.step (.reach a) = some s') : s'.Safe ↔ s.file = s.memory := by
  obtain ⟨hnext, hreached, hlet, hdiscarded⟩ := hdiscards
  obtain ⟨staged, hstaged⟩ := Option.isSome_iff_exists.mp hnext
  have hreach : s.reachPostgres a = (.ok (), { s with next := none }) := by
    simp [reachPostgres, hstaged, hreached, hlet, hdiscarded]
  obtain ⟨-, hnext⟩ := of_guard hstep
  rw [hreach] at hnext
  cases hnext
  rw [hlet]
  constructor
  · rintro (h | h)
    · exact h
    · cases h
  · exact .inl

end PgPassword

end WireTap.Gateway
