import WireTap.Gateway.Databases
import WireTap.Lib.Run

/-!
# A database that is not the gateway's

The sweep and `start_migration` probe a database before they migrate it, and leave one without the
capture schema alone.  Two others do not.  With automatic migration on, `require_current` migrates a
database never met, or one that failed a while ago; and `create_database`, which a `HELLO` calls
where it found no such database, takes one that another application has made meanwhile for its own.
`run_never_migrates` says that these are the only ways: in every run without them a database that is
not the gateway's stays as it is.
-/

namespace WireTap.Gateway

/-- The task cannot come to a migration of another's database by itself. -/
def DbTask.harmless : DbTask → Bool
  | checking _ | probing _ | requiring | sweeping | starting | creating | asking | making
  | finished => true
  | _ => false

namespace Tracked

variable {s s' : Tracked}

/-- A `require_current` would start a migration. -/
def prompts (s : Tracked) : Bool := s.autoMigrate && (s.state = none || s.retryDue)

/-- No `create_database` finds, in its second look, a database that another application made. -/
def Unfound (s : Tracked) : DatabaseEvent → Prop
  | .run i o => s.tasks[i]? = some .asking → o.error = none → s.origin ≠ some .other
  | _ => True

/-- No request comes to `require_current` while the database is unknown, or due for a retry, and
automatic migration is on; and no `create_database` finds another's. -/
def Unprompted (s : Tracked) (e : DatabaseEvent) : Prop :=
  (match e with
    | .run i _ => s.tasks[i]? = some .requiring → s.prompts = false
    | _ => True) ∧
  s.Unfound e

instance (s : Tracked) (e : DatabaseEvent) : Decidable (s.Unfound e) := by
  unfold Unfound
  split <;> infer_instance

instance (s : Tracked) (e : DatabaseEvent) : Decidable (s.Unprompted e) := by
  unfold Unprompted
  split <;> infer_instance

/-- The database is not the gateway's, has not been touched, and is not about to be. -/
structure Untouched (s : Tracked) : Prop where
  origin : s.origin ≠ some .gateway
  version : s.version = none
  migrations : s.migrations = 0
  state : s.state = none ∨ ∃ version error since, s.state = some (.failed version error since)
  tasks : ∀ t ∈ s.tasks, t.harmless = true

/-- The database is the gateway's own, or `Untouched`. -/
def Spared (s : Tracked) : Prop := s.origin = some .gateway ∨ s.Untouched

theorem foreign_untouched (autoMigrate autoCreate «exists» : Bool) :
    (foreign autoMigrate autoCreate «exists»).Untouched := by
  refine ⟨?_, rfl, rfl, .inl rfl, fun t ht => by cases ht⟩
  show (if «exists» then some Origin.other else none) ≠ some .gateway
  split <;> simp

/-! ### What no step changes -/

/-- The settings, and who made the database. -/
def surroundings (s : Tracked) : Bool × Option Origin := (s.autoMigrate, s.origin)

@[simp] theorem surroundings_setState (s : Tracked) (state : DbSchemaState) :
    (s.setState state).surroundings = s.surroundings := by
  cases state <;> rfl

@[simp] theorem surroundings_setTask (s : Tracked) (i : Nat) (t : DbTask) :
    (s.setTask i t).surroundings = s.surroundings := rfl

@[simp] theorem surroundings_spawn (s : Tracked) (t : DbTask) :
    (s.spawn t).surroundings = s.surroundings := rfl

@[simp] theorem surroundings_beginMigration (s : Tracked) (i : Nat) (found : Option Nat) :
    (s.beginMigration i found).surroundings = s.surroundings := by
  unfold beginMigration
  split <;> simp

@[simp] theorem surroundings_requireCurrent (s : Tracked) :
    s.requireCurrent.surroundings = s.surroundings := by
  unfold requireCurrent
  split
  · rfl
  · split <;> rfl
  · rfl
  · split <;> rfl

@[simp] theorem surroundings_pool (s : Tracked) : s.pool.surroundings = s.surroundings := by
  unfold pool
  repeat' split
  all_goals rfl

@[simp] theorem surroundings_route (s : Tracked) (foundCurrent : Bool) :
    (s.route foundCurrent).surroundings = s.surroundings := by
  unfold route
  repeat' split
  all_goals simp

@[simp] theorem surroundings_ensureDatabase (s : Tracked) (allowCreate : Bool) :
    (s.ensureDatabase allowCreate).surroundings = s.surroundings := by
  unfold ensureDatabase
  repeat' split
  all_goals simp

/-- A task changes neither, but for one that makes the database. -/
theorem surroundings_runTask {i : Nat} {o : Outcome} {t : DbTask} (ht : t ≠ .making)
    (hrun : s.runTask i o t = some s') : s'.surroundings = s.surroundings := by
  cases t
  case making => exact absurd rfl ht
  all_goals
    simp only [runTask] at hrun
    repeat' split at hrun
    all_goals cases hrun
    all_goals first | rfl | exact surroundings_beginMigration _ _ _ | simp | contradiction

/-- The one that makes it does so only where nobody has. -/
theorem making_spec {i : Nat} {o : Outcome} (hrun : s.runTask i o .making = some s') :
    (s' = s.setTask i .finished ∨
      s.origin = none ∧ s'.origin = some .gateway) ∧ s'.autoMigrate = s.autoMigrate := by
  simp only [runTask] at hrun
  split at hrun
  · cases hrun
    exact ⟨.inl rfl, rfl⟩
  · rename_i hnone
    have hnone : s.origin = none := by simpa using hnone
    split at hrun
    · cases hrun
      exact ⟨.inr ⟨hnone, rfl⟩, rfl⟩
    · cases hrun
      cases hcalled : o.called
      · refine ⟨.inl ?_, rfl⟩
        show { s.setTask i .finished with origin := none } = s.setTask i .finished
        rw [← hnone]
        rfl
      · exact ⟨.inr ⟨hnone, rfl⟩, rfl⟩

/-- No step changes the setting, and nobody takes a database from whoever made it. -/
theorem step_surroundings {e : DatabaseEvent} (hstep : s.step e = some s') :
    s'.autoMigrate = s.autoMigrate ∧ (s.origin = none ∨ s'.origin = s.origin) := by
  have hsame (h : s'.surroundings = s.surroundings) :
      s'.autoMigrate = s.autoMigrate ∧ (s.origin = none ∨ s'.origin = s.origin) :=
    ⟨congrArg Prod.fst h, .inr (congrArg Prod.snd h)⟩
  cases e with
  | tick n =>
    cases hstep
    exact hsame rfl
  | appear =>
    simp only [step] at hstep
    split at hstep
    · cases hstep
    · rename_i hnone
      cases hstep
      exact ⟨rfl, .inl (by simpa using hnone)⟩
  | request =>
    cases hstep
    exact hsame (by simp)
  | hello allowCreate =>
    cases hstep
    exact hsame (by simp)
  | ingest foundCurrent =>
    cases hstep
    exact hsame (by simp)
  | sweep =>
    simp only [step] at hstep
    split at hstep
    · cases hstep
      exact hsame (by simp)
    · cases hstep
  | start =>
    cases hstep
    apply hsame
    split <;> simp
  | run i o =>
    simp only [step] at hstep
    split at hstep
    · rename_i t _
      by_cases ht : t = .making
      · subst ht
        obtain ⟨rfl | ⟨hnone, _⟩, hauto⟩ := making_spec hstep
        · exact hsame rfl
        · exact ⟨hauto, .inl hnone⟩
      · exact hsame (surroundings_runTask ht hstep)
    · cases hstep

namespace Untouched

theorem spawn {t : DbTask} (h : s.Untouched) (ht : t.harmless = true) : (s.spawn t).Untouched := by
  refine ⟨h.origin, h.version, h.migrations, h.state, ?_⟩
  intro t' ht'
  rcases List.mem_append.mp ht' with hold | hnew
  · exact h.tasks t' hold
  · rw [List.mem_singleton.mp hnew]
    exact ht

theorem setTask {t : DbTask} {i : Nat} (h : s.Untouched) (ht : t.harmless = true) :
    (s.setTask i t).Untouched := by
  refine ⟨h.origin, h.version, h.migrations, h.state, ?_⟩
  intro t' ht'
  rcases List.mem_or_eq_of_mem_set ht' with hold | rfl
  · exact h.tasks t' hold
  · exact ht

theorem setFailed {version since : Nat} {error : String} (h : s.Untouched) :
    (s.setState (.failed version error since)).Untouched :=
  ⟨h.origin, h.version, h.migrations, .inr ⟨version, error, since, rfl⟩, h.tasks⟩

theorem pool (h : s.Untouched) : s.pool.Untouched := by
  unfold Tracked.pool
  split
  · exact h
  · split
    · exact h.spawn rfl
    · exact h

theorem route (h : s.Untouched) (foundCurrent : Bool) : (s.route foundCurrent).Untouched := by
  unfold Tracked.route
  split
  · split
    · exact h.spawn rfl
    · exact h
  · exact h.pool

theorem ensureDatabase (h : s.Untouched) (allowCreate : Bool) :
    (s.ensureDatabase allowCreate).Untouched := by
  unfold Tracked.ensureDatabase
  split
  · exact h.route false
  · split
    · exact h.spawn rfl
    · exact h

theorem afterRecheck_harmless (request : Bool) : (afterRecheck request).harmless = true := by
  cases request <;> rfl

/-- A `require_current` that starts no migration changes nothing. -/
theorem requireCurrent (h : s.Untouched) (hprompts : s.prompts = false) :
    s.requireCurrent.Untouched := by
  unfold prompts at hprompts
  rcases h.state with hstate | ⟨version, error, since, hstate⟩
  · rw [hstate] at hprompts
    have hauto : s.autoMigrate = false := by simpa using hprompts
    have hsame : s.requireCurrent = s := by
      rw [Tracked.requireCurrent, hstate]
      simp [hauto]
    rw [hsame]
    exact h
  · rw [hstate] at hprompts
    have hidle : (s.autoMigrate && s.retryDue) = false := by simpa using hprompts
    have hsame : s.requireCurrent = s := by
      rw [Tracked.requireCurrent, hstate]
      simp [hidle]
    rw [hsame]
    exact h

/-- Every task of an untouched database leaves it so, if it prompts no migration, or makes it the
gateway's. -/
theorem runTask {i : Nat} {o : Outcome} {t : DbTask} (h : s.Untouched) (ht : s.tasks[i]? = some t)
    (hprompts : t = .requiring → s.prompts = false)
    (hfound : t = .asking → o.error = none → s.origin ≠ some .other)
    (hrun : s.runTask i o t = some s') : s'.Spared := by
  have hharmless := h.tasks t (List.mem_of_getElem? ht)
  -- With no schema in the database, no task gets as far as a migration.
  cases t with
  | checking request =>
    cases hrun
    refine .inr (h.setTask ?_)
    split
    · rfl
    · exact afterRecheck_harmless request
  | probing request =>
    simp only [Tracked.runTask, h.version] at hrun
    split at hrun
    · rename_i hsome
      cases hsome
    · cases hrun
      exact .inr (h.setTask (afterRecheck_harmless request))
  | requiring =>
    cases hrun
    exact .inr ((h.requireCurrent (hprompts rfl)).setTask rfl)
  | sweeping =>
    simp only [Tracked.runTask, h.version] at hrun
    split at hrun
    · cases hrun
      exact .inr (h.setFailed.setTask rfl)
    · cases hrun
      exact .inr (h.setTask rfl)
    · rename_i hsome
      cases hsome
  | starting =>
    simp only [Tracked.runTask, h.version] at hrun
    split at hrun
    · rename_i hsome
      cases hsome
    · cases hrun
      exact .inr (h.setTask rfl)
  | creating =>
    simp only [Tracked.runTask] at hrun
    split at hrun
    · cases hrun
    · cases hrun
      exact .inr (h.setTask rfl)
  | asking =>
    simp only [Tracked.runTask] at hrun
    split at hrun
    · cases hrun
      exact .inr (h.setTask rfl)
    · rename_i herror
      cases hrun
      -- Another's is not found, and the gateway's own is none of these.
      have hnone : s.origin = none := by
        cases horigin : s.origin with
        | none => rfl
        | some origin =>
          cases origin
          · exact absurd horigin h.origin
          · exact absurd horigin (hfound rfl herror)
      rw [hnone]
      exact .inr (h.setTask rfl)
  | making =>
    obtain ⟨rfl | ⟨_, hmade⟩, _⟩ := making_spec hrun
    · exact .inr (h.setTask rfl)
    · exact .inl hmade
  | finished => cases hrun
  -- Those on their way to a migration are not harmless, so there are none.
  | rechecked | queued | locked | migrating | settling | ours | claiming | created =>
    cases hharmless

/-- Every step leaves an untouched database so, if it prompts no migration, or makes it the
gateway's. -/
theorem step {e : DatabaseEvent} (h : s.Untouched) (hprompts : s.Unprompted e)
    (hstep : s.step e = some s') : s'.Spared := by
  cases e with
  | tick n =>
    cases hstep
    exact .inr ⟨h.origin, h.version, h.migrations, h.state, h.tasks⟩
  | appear =>
    simp only [Tracked.step] at hstep
    split at hstep
    · cases hstep
    · cases hstep
      exact .inr ⟨by simp, h.version, h.migrations, h.state, h.tasks⟩
  | request =>
    cases hstep
    exact .inr h.pool
  | hello allowCreate =>
    cases hstep
    exact .inr (h.ensureDatabase allowCreate)
  | ingest foundCurrent =>
    cases hstep
    exact .inr (h.route foundCurrent)
  | sweep =>
    simp only [Tracked.step] at hstep
    split at hstep
    · cases hstep
      exact .inr (h.spawn rfl)
    · cases hstep
  | start =>
    cases hstep
    apply Or.inr
    split
    · exact h
    · exact h.spawn rfl
  | run i o =>
    simp only [Tracked.step] at hstep
    split at hstep
    · rename_i t ht
      refine h.runTask ht ?_ ?_ hstep
      · rintro rfl
        exact hprompts.1 ht
      · rintro rfl
        exact hprompts.2 ht
    · cases hstep

end Untouched

/-- Every step spares the database, if it prompts no migration. -/
theorem Spared.step {e : DatabaseEvent} (h : s.Spared) (hprompts : s.Unprompted e)
    (hstep : s.step e = some s') : s'.Spared := by
  rcases h with hown | huntouched
  · -- The gateway's own stays that.
    rcases (step_surroundings hstep).2 with hnone | hsame
    · rw [hnone] at hown
      cases hown
    · exact .inl (hsame.trans hown)
  · exact huntouched.step hprompts hstep

/-- Sparing holds of a foreign database from the beginning, and says what it is about. -/
theorem Spared.foreign_kept (h : s.Spared) (hforeign : s.origin ≠ some .gateway) :
    s.migrations = 0 ∧ s.version = none := by
  rcases h with hown | huntouched
  · exact absurd hown hforeign
  · exact ⟨huntouched.migrations, huntouched.version⟩

/-- In every run in which no request comes to `require_current` while automatic migration is on and
the database is unknown or due for a retry, and in which no `create_database` finds a database made
meanwhile, `schema::migrate` is never called on a database that is not the gateway's. -/
theorem run_never_migrates (autoMigrate autoCreate «exists» : Bool) (events : List DatabaseEvent)
    (s : Tracked)
    (hprompts : Along step Unprompted (foreign autoMigrate autoCreate «exists») events)
    (hrun : runs step (foreign autoMigrate autoCreate «exists») events = some s)
    (hforeign : s.origin ≠ some .gateway) : s.migrations = 0 ∧ s.version = none := by
  have h : s.Spared :=
    Along.invariant Spared.step (.inr (foreign_untouched autoMigrate autoCreate «exists»)) hprompts
      hrun
  exact h.foreign_kept hforeign

/-- With automatic migration off, the requests need no condition. -/
theorem run_never_migrates_off (autoCreate «exists» : Bool) (events : List DatabaseEvent)
    (s : Tracked) (hfound : Along step Unfound (foreign false autoCreate «exists») events)
    (hrun : runs step (foreign false autoCreate «exists») events = some s)
    (hforeign : s.origin ≠ some .gateway) : s.migrations = 0 ∧ s.version = none := by
  have hkept : ∀ {s e s'}, Spared s ∧ s.autoMigrate = false → Unfound s e → step s e = some s' →
      Spared s' ∧ s'.autoMigrate = false := by
    rintro s e s' ⟨h, hoff⟩ hfound hstep
    refine ⟨h.step ⟨?_, hfound⟩ hstep, (step_surroundings hstep).1.trans hoff⟩
    cases e with
    | run i o =>
      intro _
      rw [prompts, hoff]
      rfl
    | _ => trivial
  have h := Along.invariant hkept ⟨.inr (foreign_untouched false autoCreate «exists»), rfl⟩ hfound
    hrun
  exact h.1.foreign_kept hforeign

/-- Automatic migration and creation are on.  A `HELLO` finds no such database and fails in its
second look, by which another application has made it; the sweep cannot reach it, and within the
retry interval come a query, a batch, a `HELLO` and `start_migration`. -/
def unasked : List DatabaseEvent :=
  [.hello true, .appear, .run 0 {}, .run 0 { error := some "server closed the connection" },
    .sweep, .run 1 { error := some "connection refused" },
    .request, .run 2 {}, .run 2 {}, .tick 10, .ingest false, .run 3 {}, .run 3 {},
    .hello true, .run 4 {}, .run 4 {}, .start, .run 5 {}]

theorem run_never_migrates_unasked :
    ∃ s, runs step (foreign true true false) unasked = some s ∧ s.origin = some .other ∧
      s.migrations = 0 ∧ s.version = none := by
  obtain ⟨s, hs, hother⟩ : ∃ s, runs step (foreign true true false) unasked = some s ∧
      s.origin = some .other := by
    obtain ⟨s, hs⟩ : ∃ s, runs step (foreign true true false) unasked = some s :=
      Option.isSome_iff_exists.mp (by decide +kernel)
    have horigin : (runs step (foreign true true false) unasked).map Tracked.origin =
        some (some .other) := by decide +kernel
    rw [hs] at horigin
    exact ⟨s, hs, Option.some.inj horigin⟩
  refine ⟨s, hs, hother, run_never_migrates true true false unasked s (by decide +kernel) hs ?_⟩
  rw [hother]
  decide

/-- Automatic migration is on: the sweep leaves the database alone, a query for it does not.  It is
off: a `HELLO` finds no such database, another application makes it, and the `HELLO` takes it for
one to initialise. -/
theorem run_migrates_foreign :
    (∃ s, runs step (foreign true true true)
        [.sweep, .run 0 {}, .request, .run 1 {}, .run 1 {}, .run 2 {}, .run 2 {}, .run 2 {}] =
          some s ∧
      s.origin = some .other ∧ s.migrations = 1 ∧ s.version = some schemaVersion) ∧
    ∃ s, runs step (foreign false true false)
        [.hello true, .run 0 {}, .appear, .run 0 {}, .run 0 {}, .run 0 {}, .run 0 {}, .run 0 {}] =
          some s ∧
      s.origin = some .other ∧ s.migrations = 1 ∧ s.version = some schemaVersion := by
  constructor
  · refine ⟨⟨true, true, some .other, some schemaVersion, some (.migrating 0), false, 0,
      [.finished, .finished, .settling none none], 1⟩, ?_, rfl, rfl, rfl⟩
    decide +kernel
  · refine ⟨⟨false, true, some .other, some schemaVersion, some (.migrating 0), false, 0,
      [.settling none none], 1⟩, ?_, rfl, rfl, rfl⟩
    decide +kernel

end Tracked

end WireTap.Gateway
