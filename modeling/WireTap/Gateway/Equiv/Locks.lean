import Mathlib.Data.List.Basic
import Mathlib.Tactic.SplitIfs
import WireTap.Lib.Run
import WireTap.Gateway.Locks

/-!
# When migrations of one database exclude each other

The lock excludes, but only those that asked for the same one: `delete_database` forgets the entry
whether or not a migration has it, and the next to ask gets a new lock.  The handler's guard does not
see such a migration: one that re-applies the schema to a current database is never marked
`Migrating`.  `locks_overlap` is such a run: two migrations at work at once, and then a `Failed` from
the one that began before the delete, in place of the new database's state.

`run_locks`: where no `delete_database` removes the entry of a lock that a migration has or waits for,
at most one migration has the lock and its last `set_state` before it; and where none drops the
database while a migration is under way, no migration writes the state of a database re-created after
it began.

Both are invariants.  For the first, every lock that is wanted is the map's entry (`Exclusive`), so
that a lock made anew is wanted by nobody else.  For the second, every migration under way began since
the last drop (`Dated`).
-/

namespace WireTap.Gateway

/-- Inside, the lock held is the lock wanted. -/
theorem LockStage.wanted_of_inside {stage : LockStage} (h : stage.inside = true) :
    ∃ lock, stage.held = some lock ∧ stage.wanted = some lock := by
  cases stage <;> first | exact ⟨_, rfl, rfl⟩ | simp [inside, held, wanted] at h

namespace Locks

variable {s s' : Locks}

/-! ### Conditions -/

/-- A `delete_database` that forgets the lock finds nobody that has it or waits for it. -/
def Unlocks (s : Locks) : LockEvent → Prop
  | .delete i _ =>
    s.deletes[i]? = some .unlocking → ∀ run ∈ s.runs, run.stage.wanted = none
  | _ => True

/-- A `delete_database` that drops the database finds no migration under way. -/
def Drops (s : Locks) : LockEvent → Prop
  | .delete i _ =>
    s.deletes[i]? = some .dropping → ∀ run ∈ s.runs, run.stage.underWay = false
  | _ => True

instance (s : Locks) : DecidablePred s.Unlocks
  | .delete i _ => inferInstanceAs (Decidable
      (s.deletes[i]? = some .unlocking → ∀ run ∈ s.runs, run.stage.wanted = none))
  | .migrateFrom _ | .startMigration | .createDatabase | .deleteDatabase | .setState _ | .swapIn
  | .run _ _ | .create _ _ => inferInstanceAs (Decidable True)

instance (s : Locks) : DecidablePred s.Drops
  | .delete i _ => inferInstanceAs (Decidable
      (s.deletes[i]? = some .dropping → ∀ run ∈ s.runs, run.stage.underWay = false))
  | .migrateFrom _ | .startMigration | .createDatabase | .deleteDatabase | .setState _ | .swapIn
  | .run _ _ | .create _ _ => inferInstanceAs (Decidable True)

/-! ### What a step of a migration does -/

/-- The lock that `migration_lock` returns is the entry. -/
theorem migrationLock_entry (s : Locks) : s.migrationLock.2.entry = some s.migrationLock.1 := by
  unfold migrationLock
  split
  · assumption
  · rfl

/-- And it was, if there was one. -/
theorem migrationLock_of_entry {lock : Nat} (h : s.entry = some lock) :
    s.migrationLock.1 = lock := by
  simp [migrationLock, h]

/-- What is left alone when a migration goes on. -/
structure Keeps (s s' : Locks) : Prop where
  runs : s'.runs = s.runs
  drops : s'.drops = s.drops

theorem Keeps.rfl : Keeps s s := ⟨Eq.refl _, Eq.refl _⟩

theorem keeps_migrationLock (s : Locks) : Keeps s s.migrationLock.2 := by
  unfold migrationLock
  split <;> exact ⟨rfl, rfl⟩

theorem keeps_write (s : Locks) (run : LockRun) (state : SchemaState) :
    Keeps s (s.write run state) := ⟨rfl, rfl⟩

/-- Everything a migration can do in one step. -/
structure Advanced (s : Locks) (run : LockRun) (s' : Locks) (stage : LockStage) : Prop where
  keeps : Keeps s s'
  /-- It wants what it wanted, or nothing, or it asked for the lock. -/
  wanted : (s'.entry = s.entry ∧ (stage.wanted = run.stage.wanted ∨ stage.wanted = none)) ∨
    (s' = s.migrationLock.2 ∧ stage.wanted = some s.migrationLock.1)
  /-- It has the lock it had, or none, or it took a free one. -/
  held : stage.held = run.stage.held ∨ stage.held = none ∨
    ∃ lock, stage.held = some lock ∧ s.free lock = true
  /-- Only one under way goes on to be, -/
  underWay : stage.underWay = true → run.stage.underWay = true
  /-- and writes. -/
  log : s'.log = s.log ∨ run.stage.underWay = true ∧ ∃ state,
    s'.log = s.log ++ [{ began := run.began, drops := s.drops, exists_ := s.exists_, state }]

/-- A step that changes nothing but the stage. -/
theorem Advanced.stay {run : LockRun} {stage : LockStage}
    (hwanted : stage.wanted = run.stage.wanted ∨ stage.wanted = none)
    (hheld : stage.held = run.stage.held ∨ stage.held = none ∨
      ∃ lock, stage.held = some lock ∧ s.free lock = true)
    (hway : stage.underWay = true → run.stage.underWay = true) : Advanced s run s stage :=
  ⟨.rfl, .inl ⟨rfl, hwanted⟩, hheld, hway, .inl rfl⟩

/-- A step that asks for the lock. -/
theorem Advanced.ask {run : LockRun} {stage : LockStage}
    (hwanted : stage.wanted = some s.migrationLock.1) (hheld : stage.held = none)
    (hway : run.stage.underWay = true) : Advanced s run s.migrationLock.2 stage where
  keeps := keeps_migrationLock s
  wanted := .inr ⟨rfl, hwanted⟩
  held := .inr (.inl hheld)
  underWay := fun _ => hway
  log := by
    left
    unfold migrationLock
    split <;> rfl

/-- A step that writes the state. -/
theorem Advanced.writes {run : LockRun} {stage : LockStage} {state : SchemaState}
    (hwanted : stage.wanted = run.stage.wanted ∨ stage.wanted = none)
    (hheld : stage.held = run.stage.held) (hway : run.stage.underWay = true) :
    Advanced s run (s.write run state) stage :=
  ⟨keeps_write s run state, .inl ⟨rfl, hwanted⟩, .inl hheld, fun _ => hway, .inr ⟨hway, state, rfl⟩⟩

theorem advanced_of_advance {run : LockRun} {outcome : LockOutcome} {stage : LockStage}
    (h : s.advance run outcome = some (s', stage)) : Advanced s run s' stage := by
  obtain ⟨began, at_⟩ := run
  -- What is answered (`outcome`) decides the next stage, and never what is written.
  cases at_ with
  | called =>
    obtain ⟨rfl, rfl⟩ := Prod.mk.inj (Option.some.inj h)
    exact .ask rfl rfl rfl
  | looking =>
    obtain ⟨rfl, rfl⟩ := Prod.mk.inj (Option.some.inj h)
    exact .ask rfl rfl rfl
  | queued lock at_ =>
    obtain ⟨hfree, h⟩ := of_guard h
    obtain ⟨rfl, rfl⟩ := Prod.mk.inj (Option.some.inj h)
    exact .stay (.inl rfl) (.inr (.inr ⟨lock, rfl, hfree⟩)) fun _ => rfl
  | trying lock =>
    obtain ⟨rfl, rfl⟩ := Prod.mk.inj (Option.some.inj h)
    split_ifs with hfree
    · exact .stay (.inl rfl) (.inr (.inr ⟨lock, rfl, hfree⟩)) fun _ => rfl
    · exact .stay (.inr rfl) (.inr (.inl rfl)) fun _ => rfl
  | locked lock at_ =>
    unfold advance at h
    dsimp only at h
    split_ifs at h
    · obtain ⟨rfl, rfl⟩ := Prod.mk.inj (Option.some.inj h)
      exact .stay (.inl rfl) (.inl rfl) fun _ => rfl
    · cases outcome <;>
        obtain ⟨rfl, rfl⟩ := Prod.mk.inj (Option.some.inj h) <;>
        exact .stay (.inl rfl) (.inl rfl) fun _ => rfl
  | unprobed =>
    obtain ⟨rfl, rfl⟩ := Prod.mk.inj (Option.some.inj h)
    exact .writes (.inr rfl) rfl rfl
  | settling =>
    obtain ⟨rfl, rfl⟩ := Prod.mk.inj (Option.some.inj h)
    exact .writes (.inr rfl) rfl rfl
  | asked =>
    cases outcome <;> obtain ⟨rfl, rfl⟩ := Prod.mk.inj (Option.some.inj h)
    · split_ifs <;> exact .stay (.inl rfl) (.inl rfl) fun _ => rfl
    · exact .stay (.inl rfl) (.inl rfl) fun _ => rfl
  | checking =>
    obtain ⟨rfl, rfl⟩ := Prod.mk.inj (Option.some.inj h)
    split_ifs <;> exact .stay (.inl rfl) (.inl rfl) fun _ => rfl
  | probing lock =>
    rcases outcome with (_ | version) | _ <;>
      obtain ⟨rfl, rfl⟩ := Prod.mk.inj (Option.some.inj h)
    · exact .stay (.inr rfl) (.inr (.inl rfl)) fun _ => rfl
    · exact .stay (.inl rfl) (.inl rfl) fun _ => rfl
    · exact .stay (.inr rfl) (.inr (.inl rfl)) fun _ => rfl
  | claiming =>
    unfold advance at h
    dsimp only at h
    split_ifs at h <;> obtain ⟨rfl, rfl⟩ := Prod.mk.inj (Option.some.inj h)
    · exact .stay (.inr rfl) (.inr (.inl rfl)) fun _ => rfl
    · exact .writes (.inl rfl) rfl rfl
  | holding =>
    unfold advance at h
    dsimp only at h
    split_ifs at h <;> obtain ⟨rfl, rfl⟩ := Prod.mk.inj (Option.some.inj h)
    · exact .stay (.inl rfl) (.inl rfl) fun _ => rfl
    · exact .writes (.inl rfl) rfl rfl
  | working =>
    cases outcome <;>
      obtain ⟨rfl, rfl⟩ := Prod.mk.inj (Option.some.inj h) <;>
      exact .stay (.inl rfl) (.inl rfl) fun _ => rfl
  | releasing =>
    obtain ⟨rfl, rfl⟩ := Prod.mk.inj (Option.some.inj h)
    exact .stay (.inl rfl) (.inr (.inl rfl)) fun hover => hover
  | ended => cases h

/-! ### What a step of anything does -/

/-- Everything one event can do to the migrations, the entry, the drops and the log. -/
inductive Stepped (s : Locks) (e : LockEvent) (s' : Locks) : Prop
  /-- It leaves them alone. -/
  | quiet (runs : s'.runs = s.runs) (entry : s'.entry = s.entry) (drops : s'.drops = s.drops)
      (log : s'.log = s.log)
  /-- A migration is called. -/
  | called (stage : LockStage) (hwanted : stage.wanted = none) (hheld : stage.held = none)
      (runs : s'.runs = s.runs ++ [{ began := s.drops, stage }]) (entry : s'.entry = s.entry)
      (drops : s'.drops = s.drops) (log : s'.log = s.log)
  /-- A migration goes on. -/
  | went (i : Nat) (run : LockRun) (t : Locks) (stage : LockStage) (hrun : s.runs[i]? = some run)
      (advanced : Advanced s run t stage)
      (eq : s' = { t with runs := t.runs.set i { run with stage } })
  /-- The lock is forgotten. -/
  | unlocked (i : Nat) (outcome : LockOutcome) (he : e = .delete i outcome)
      (hat : s.deletes[i]? = some .unlocking) (runs : s'.runs = s.runs) (drops : s'.drops = s.drops)
      (log : s'.log = s.log)
  /-- The database is dropped. -/
  | dropped (i : Nat) (outcome : LockOutcome) (he : e = .delete i outcome)
      (hat : s.deletes[i]? = some .dropping) (runs : s'.runs = s.runs) (entry : s'.entry = s.entry)
      (log : s'.log = s.log)

/-- `create_database` leaves the migrations alone, or calls one. -/
theorem advanceCreate_cases {stage stage' : CreateStage} {outcome : LockOutcome}
    (h : s.advanceCreate stage outcome = some (s', stage')) :
    (s'.runs = s.runs ∨ ∃ at_, s'.runs = s.runs ++ [{ began := s.drops, stage := .called at_ }]) ∧
      s'.entry = s.entry ∧ s'.drops = s.drops ∧ s'.log = s.log := by
  unfold advanceCreate at h
  split at h
  · split at h <;> cases h <;> simp
  · split_ifs at h
    split at h <;> cases h <;> simp
  · cases h
    simp
  · split at h
    · split_ifs at h <;> cases h <;> simp
    · cases h
      simp
  · split_ifs at h
    · cases h
      simp [call]
    · split at h
      · split_ifs at h <;> cases h <;> simp [call]
      · cases h
        simp [call]
      · cases h
        simp
  · cases h

/-- The handler leaves the migrations alone; where it does more, it is at that stage. -/
theorem advanceDelete_cases {stage stage' : DeleteStage} {outcome : LockOutcome}
    (h : s.advanceDelete stage outcome = some (s', stage')) :
    s'.runs = s.runs ∧ s'.log = s.log ∧
      ((s'.entry = s.entry ∧ s'.drops = s.drops) ∨ (stage = .unlocking ∧ s'.drops = s.drops) ∨
        (stage = .dropping ∧ s'.entry = s.entry)) := by
  unfold advanceDelete at h
  split at h
  · split at h <;> cases h <;> simp
  · cases h
    simp
  · split at h <;> cases h <;> simp
  · cases h
    simp
  · cases h
    simp
  · split at h
    · split_ifs at h <;> cases h <;> simp
    · cases h
      simp
  · cases h

theorem stepped_of_step {e : LockEvent} (h : s.step e = some s') : Stepped s e s' := by
  cases e with
  | migrateFrom at_ =>
    obtain rfl := Option.some.inj h
    exact .called _ rfl rfl rfl rfl rfl rfl
  | startMigration =>
    obtain rfl := Option.some.inj h
    exact .called _ rfl rfl rfl rfl rfl rfl
  | createDatabase | deleteDatabase | setState | swapIn =>
    obtain rfl := Option.some.inj h
    exact .quiet rfl rfl rfl rfl
  | run i outcome =>
    obtain ⟨run, hrun, h⟩ := Option.bind_eq_some_iff.mp h
    obtain ⟨⟨t, stage⟩, hadv, h⟩ := Option.bind_eq_some_iff.mp h
    obtain rfl := Option.some.inj h
    exact .went i run t stage hrun (advanced_of_advance hadv) rfl
  | create i outcome =>
    obtain ⟨stage, -, h⟩ := Option.bind_eq_some_iff.mp h
    obtain ⟨⟨t, stage'⟩, hadv, h⟩ := Option.bind_eq_some_iff.mp h
    obtain rfl := Option.some.inj h
    obtain ⟨hruns | ⟨at_, hruns⟩, hentry, hdrops, hlog⟩ := advanceCreate_cases hadv
    · exact .quiet hruns hentry hdrops hlog
    · exact .called (.called at_) rfl rfl hruns hentry hdrops hlog
  | delete i outcome =>
    obtain ⟨stage, hat, h⟩ := Option.bind_eq_some_iff.mp h
    obtain ⟨⟨t, stage'⟩, hadv, h⟩ := Option.bind_eq_some_iff.mp h
    obtain rfl := Option.some.inj h
    obtain ⟨hruns, hlog, ⟨hentry, hdrops⟩ | ⟨rfl, hdrops⟩ | ⟨rfl, hentry⟩⟩ :=
      advanceDelete_cases hadv
    · exact .quiet hruns hentry hdrops hlog
    · exact .unlocked i outcome rfl hat hruns hdrops hlog
    · exact .dropped i outcome rfl hat hruns hentry hlog

/-! ### Exclusion -/

/-- Every lock that is wanted is the entry, and a lock has one holder. -/
structure Exclusive (s : Locks) : Prop where
  entry : ∀ run ∈ s.runs, ∀ lock, run.stage.wanted = some lock → s.entry = some lock
  one : ∀ (i j : Nat) (a b : LockRun), s.runs[i]? = some a → s.runs[j]? = some b → ∀ lock,
    a.stage.held = some lock → b.stage.held = some lock → i = j

theorem exclusive_init (autoMigrate exists_ : Bool) (state : Option SchemaState) :
    Exclusive (init autoMigrate exists_ state) :=
  ⟨by simp [init], by simp [init]⟩

/-- Only the migrations and the entry matter. -/
theorem Exclusive.congr (hs : Exclusive s) (hruns : s'.runs = s.runs)
    (hentry : s'.entry = s.entry) : Exclusive s' := by
  constructor
  · rw [hruns, hentry]
    exact hs.entry
  · rw [hruns]
    exact hs.one

theorem Exclusive.call (hs : Exclusive s) {run : LockRun} (hwanted : run.stage.wanted = none)
    (hheld : run.stage.held = none) (hruns : s'.runs = s.runs ++ [run])
    (hentry : s'.entry = s.entry) : Exclusive s' := by
  constructor
  · intro a ha lock hlock
    rw [hruns, List.mem_append, List.mem_singleton] at ha
    rw [hentry]
    rcases ha with ha | rfl
    · exact hs.entry a ha lock hlock
    · rw [hwanted] at hlock
      cases hlock
  · intro i j a b hi hj lock ha hb
    -- One that holds a lock is not the new one.
    have hold : ∀ {i : Nat} {a : LockRun}, s'.runs[i]? = some a → a.stage.held = some lock →
        s.runs[i]? = some a := by
      intro i a hi ha
      rw [hruns, List.getElem?_append] at hi
      split_ifs at hi with hlt
      · exact hi
      · obtain rfl := List.mem_singleton.mp (List.mem_of_getElem? hi)
        rw [hheld] at ha
        cases ha
    exact hs.one i j a b (hold hi ha) (hold hj hb) lock ha hb

/-- A free lock has no holder. -/
theorem not_held_of_free {lock : Nat} (hfree : s.free lock = true) {run : LockRun}
    (hrun : run ∈ s.runs) : run.stage.held ≠ some lock := by
  have hall := List.all_eq_true.mp hfree run hrun
  simpa using hall

theorem Exclusive.went (hs : Exclusive s) {i : Nat} {run : LockRun} {t : Locks} {stage : LockStage}
    (hrun : s.runs[i]? = some run) (hadv : Advanced s run t stage) :
    Exclusive { t with runs := t.runs.set i { run with stage } } := by
  have hmem := List.mem_of_getElem? hrun
  constructor
  · intro a ha lock hlock
    change a ∈ t.runs.set i { run with stage } at ha
    show t.entry = some lock
    rw [hadv.keeps.runs] at ha
    rcases hadv.wanted with ⟨hentry, hstage⟩ | ⟨rfl, hstage⟩
    · rw [hentry]
      rcases List.mem_or_eq_of_mem_set ha with ha | rfl
      · exact hs.entry a ha lock hlock
      · rcases hstage with hstage | hstage
        · exact hs.entry run hmem lock (hstage ▸ hlock)
        · cases hstage.symm.trans hlock
    · rw [migrationLock_entry]
      rcases List.mem_or_eq_of_mem_set ha with ha | rfl
      -- Who wanted a lock before wanted the entry, which is the one asked for.
      · rw [migrationLock_of_entry (hs.entry a ha lock hlock)]
      · exact hstage.symm.trans hlock
  · intro j k a b hj hk lock ha hb
    change (t.runs.set i { run with stage })[j]? = some a at hj
    change (t.runs.set i { run with stage })[k]? = some b at hk
    rw [hadv.keeps.runs, List.getElem?_set] at hj hk
    -- The one that went on holds what it held, or a lock nobody else does.
    have hother : ∀ {k : Nat} {b : LockRun}, i ≠ k → s.runs[k]? = some b →
        b.stage.held = some lock → stage.held = some lock → False := by
      intro k b hne hk hb hstage
      rcases hadv.held with h | h | ⟨l, h, hfree⟩
      · exact hne (hs.one i k run b hrun hk lock (h ▸ hstage) hb)
      · cases h.symm.trans hstage
      · obtain rfl := Option.some.inj (h.symm.trans hstage)
        exact not_held_of_free hfree (List.mem_of_getElem? hk) hb
    split_ifs at hj hk with hij hlt hik hik
    · exact hij.symm.trans hik
    · obtain rfl := Option.some.inj hj
      exact (hother hik hk hb ha).elim
    · obtain rfl := Option.some.inj hk
      exact (hother hij hj ha hb).elim
    · exact hs.one j k a b hj hk lock ha hb

theorem exclusive_step {e : LockEvent} (hs : Exclusive s) (hok : Unlocks s e)
    (h : s.step e = some s') : Exclusive s' := by
  cases stepped_of_step h with
  | quiet hruns hentry => exact hs.congr hruns hentry
  | called stage hwanted hheld hruns hentry => exact hs.call hwanted hheld hruns hentry
  | went i run t stage hrun hadv heq =>
    rw [heq]
    exact hs.went hrun hadv
  | unlocked i outcome he hat hruns =>
    subst he
    constructor
    · intro run hrun lock hlock
      rw [hruns] at hrun
      cases (hok hat run hrun).symm.trans hlock
    · rw [hruns]
      exact hs.one
  | dropped i outcome he hat hruns hentry => exact hs.congr hruns hentry

/-- At most one migration is inside. -/
theorem Exclusive.inside (hs : Exclusive s) {i j : Nat} {a b : LockRun}
    (hi : s.runs[i]? = some a) (hj : s.runs[j]? = some b) (ha : a.stage.inside = true)
    (hb : b.stage.inside = true) : i = j := by
  obtain ⟨lock, hheld, hwanted⟩ := LockStage.wanted_of_inside ha
  obtain ⟨lock', hheld', hwanted'⟩ := LockStage.wanted_of_inside hb
  -- Both are the entry.
  have hentry := hs.entry a (List.mem_of_getElem? hi) lock hwanted
  have hentry' := hs.entry b (List.mem_of_getElem? hj) lock' hwanted'
  obtain rfl := Option.some.inj (hentry.symm.trans hentry')
  exact hs.one i j a b hi hj lock hheld hheld'

/-! ### Dates -/

/-- Every migration under way, and every one that wrote the state of a database, began since the last
drop before it. -/
structure Dated (s : Locks) : Prop where
  runs : ∀ run ∈ s.runs, run.stage.underWay = true → run.began = s.drops
  log : ∀ w ∈ s.log, w.exists_ = true → w.began = w.drops

theorem dated_init (autoMigrate exists_ : Bool) (state : Option SchemaState) :
    Dated (init autoMigrate exists_ state) :=
  ⟨by simp [init], by simp [init]⟩

theorem dated_step {e : LockEvent} (hs : Dated s) (hok : Drops s e) (h : s.step e = some s') :
    Dated s' := by
  cases stepped_of_step h with
  | quiet hruns _ hdrops hlog =>
    constructor
    · rw [hruns, hdrops]
      exact hs.runs
    · rw [hlog]
      exact hs.log
  | called stage _ _ hruns _ hdrops hlog =>
    constructor
    · intro run hrun hway
      rw [hruns, List.mem_append, List.mem_singleton] at hrun
      rw [hdrops]
      rcases hrun with hrun | rfl
      · exact hs.runs run hrun hway
      · rfl
    · rw [hlog]
      exact hs.log
  | went i run t stage hrun hadv heq =>
    have hmem := List.mem_of_getElem? hrun
    rw [heq]
    constructor
    · -- The run that went began when it did, and is under way only if it was.
      intro a ha hway
      change a ∈ t.runs.set i { run with stage } at ha
      show a.began = t.drops
      rw [hadv.keeps.runs] at ha
      rw [hadv.keeps.drops]
      rcases List.mem_or_eq_of_mem_set ha with ha | rfl
      · exact hs.runs a ha hway
      · exact hs.runs run hmem (hadv.underWay hway)
    · -- What it wrote, it wrote under way.
      intro w hw hexists
      change w ∈ t.log at hw
      rcases hadv.log with hlog | ⟨hway, state, hlog⟩
      · rw [hlog] at hw
        exact hs.log w hw hexists
      · rw [hlog, List.mem_append, List.mem_singleton] at hw
        rcases hw with hw | rfl
        · exact hs.log w hw hexists
        · exact hs.runs run hmem hway
  | unlocked i outcome he hat hruns hdrops hlog =>
    constructor
    · rw [hruns, hdrops]
      exact hs.runs
    · rw [hlog]
      exact hs.log
  | dropped i outcome he hat hruns hentry hlog =>
    subst he
    constructor
    · intro run hrun hway
      rw [hruns] at hrun
      cases (hok hat run hrun).symm.trans hway
    · rw [hlog]
      exact hs.log

end Locks

/-! ### Runs -/

/-- Where no delete forgets a lock that is wanted, at most one migration has it and its last
`set_state` before it; where none drops the database under a migration, no migration writes the state
of a database re-created after it began. -/
theorem run_locks (autoMigrate exists_ : Bool) (state : Option SchemaState) (es : List LockEvent)
    (s : Locks) (hrun : runs Locks.step (Locks.init autoMigrate exists_ state) es = some s) :
    (Along Locks.step Locks.Unlocks (Locks.init autoMigrate exists_ state) es →
      ∀ (i j : Nat) (a b : LockRun), s.runs[i]? = some a → s.runs[j]? = some b →
        a.stage.inside = true → b.stage.inside = true → i = j) ∧
    (Along Locks.step Locks.Drops (Locks.init autoMigrate exists_ state) es →
      ∀ w ∈ s.log, w.exists_ = true → w.began = w.drops) := by
  constructor
  · intro hok i j a b hi hj ha hb
    have hs : s.Exclusive :=
      hok.invariant Locks.exclusive_step (Locks.exclusive_init _ _ _) hrun
    exact hs.inside hi hj ha hb
  · intro hok
    have hs : s.Dated := hok.invariant Locks.dated_step (Locks.dated_init _ _ _) hrun
    exact hs.log

/-- A second migration waits for the lock the first has; both are over when a delete comes. -/
def queuedRun : List LockEvent :=
  [.migrateFrom (some thisVersion), .run 0 (.ok none), .run 0 (.ok none), .migrateFrom none,
    .run 1 (.ok none), .run 0 (.ok none), .run 0 (.ok none), .run 0 .fails, .run 0 (.ok none),
    .run 0 (.ok none), .run 1 (.ok none), .run 1 .fails, .run 1 (.ok none), .run 1 (.ok none),
    .deleteDatabase, .delete 0 (.ok none), .delete 0 (.ok none), .delete 0 (.ok none),
    .delete 0 (.ok none), .delete 0 (.ok none), .delete 0 (.ok none)]

theorem run_locks_queued :
    ∃ s, runs Locks.step (Locks.init false true (some (.current thisVersion))) queuedRun = some s ∧
      s.drops = 1 ∧ s.log.length = 2 ∧
      (∀ (i j : Nat) (a b : LockRun), s.runs[i]? = some a → s.runs[j]? = some b →
        a.stage.inside = true → b.stage.inside = true → i = j) ∧
      (∀ w ∈ s.log, w.exists_ = true → w.began = w.drops) :=
  have h := run_locks false true (some (.current thisVersion)) queuedRun _ rfl
  ⟨_, rfl, rfl, rfl, h.1 (by decide), h.2 (by decide)⟩

/-- A migration re-applies the schema to a current database, which is not marked, so a delete passes
its guards and forgets the lock under it; the database created next is migrated, too. -/
def overlapRun : List LockEvent :=
  [.migrateFrom (some thisVersion), .run 0 (.ok none), .run 0 (.ok none), .run 0 (.ok none),
    .run 0 (.ok none), .deleteDatabase, .delete 0 (.ok none), .delete 0 (.ok none),
    .delete 0 (.ok none), .delete 0 (.ok none), .delete 0 (.ok none), .delete 0 (.ok none),
    .createDatabase, .create 0 (.ok none), .create 0 (.ok none), .create 0 (.ok none),
    .create 0 (.ok none), .run 1 (.ok none), .run 1 (.ok none), .run 1 (.ok none),
    .run 1 (.ok none)]

/-- Both migrations are at work, each under a lock of its own; and when the first then fails, it
writes so for the new database. -/
theorem locks_overlap :
    let s := Locks.init false true (some (.current thisVersion))
    (∃ s', runs Locks.step s overlapRun = some s' ∧
      s'.runs = [⟨0, .working 0 (some thisVersion)⟩, ⟨1, .working 1 none⟩]) ∧
    (∃ s', runs Locks.step s (overlapRun ++ [.run 0 .fails, .run 0 (.ok none)]) = some s' ∧
      s'.state = some (.failed thisVersion) ∧
      ⟨0, 1, true, .failed thisVersion⟩ ∈ s'.log) :=
  ⟨⟨_, rfl, rfl⟩, ⟨_, rfl, rfl, by decide⟩⟩

end WireTap.Gateway
