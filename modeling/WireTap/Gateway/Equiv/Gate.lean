import Mathlib.Data.Option.Basic
import Mathlib.Data.Int.Order.Basic
import WireTap.Lib.Interference
import WireTap.Lib.Run
import WireTap.Gateway.Gate

/-!
# What the schema gate lets through

`run_gate`: in every run in which no migration asks a database newer than this build, and in which
nothing but the gateway's own paths disturbs what a path under way has found, a database that is set
`Current` is at `SCHEMA_VERSION` with its buffer drained, and `apply_capture_schema` is never run on
a newer one.

What a path has found is an assertion about the database (`Asserted`): that it is at
`SCHEMA_VERSION`, that there is no buffer left, that no span is left, or that it is not newer.  The
paths do not disturb each other's assertions (`Quiet`): none of them takes a database away from
`SCHEMA_VERSION`, and none of them makes a buffer where there was none.
-/

namespace WireTap.Gateway

/-! ### What a path has found -/

/-- The drain is done to serve the database. -/
def Drainer.serves : Drainer → Bool
  | migration _ | recheck => true
  | abandon => false

namespace GatePath

/-- The path found the database at `SCHEMA_VERSION`, or brought it there, and has yet to write
`Current`. -/
def relies : GatePath → Bool
  | looking | serving => true
  | setting state _ | rechecked state => state.isCurrent
  | draining by_ | emptying by_ | refreshing by_ | dropping by_ => by_.serves
  | _ => false

/-- It has seen the last of the buffer, too. -/
def looked : GatePath → Bool
  | serving => true
  | setting state _ | rechecked state => state.isCurrent
  | refreshing by_ | dropping by_ => by_.serves
  | _ => false

/-- And of the spans. -/
def refreshed : GatePath → Bool
  | serving => true
  | setting state _ | rechecked state => state.isCurrent
  | _ => false

/-- It applies the schema without asking for the version again. -/
def applies : GatePath → Bool
  | setting _ found => found = some thisVersion
  | queued at_ | locked at_ => at_ = some thisVersion
  | looking | holding _ | migrating _ | applying _ | claiming _ => true
  | _ => false

/-- It is about to ask for the version, to migrate whatever has one. -/
def asks : GatePath → Bool
  | locked _ | startProbing => true
  | _ => false

theorem looked_of_refreshed {p : GatePath} (h : p.refreshed = true) : p.looked = true := by
  cases p with
  | setting state _ => exact h
  | rechecked state => exact h
  | serving => rfl
  | _ => cases h

end GatePath

namespace Gate

/-- No migration asks a database that is newer; while a path has yet to act on what it found, nobody
changes the version by hand under it; and none finds out too late that a batch went into the
buffer. -/
def Undisturbed (s : Gate) : GateEvent → Prop
  | .advance i _ => (s.paths[i]?.any GatePath.asks) = true → newer s.db.version = false
  | .byHand version =>
    (s.paths.any GatePath.relies = true → version = some thisVersion) ∧
      (s.paths.any GatePath.applies = true → newer version = false)
  | .commit => s.paths.any GatePath.looked = false
  | _ => True

instance (s : Gate) : ∀ e, Decidable (s.Undisturbed e)
  | .advance .. => inferInstanceAs (Decidable (_ → _))
  | .byHand _ => inferInstanceAs (Decidable ((_ → _) ∧ (_ → _)))
  | .commit => inferInstanceAs (Decidable (_ = _))
  | .sweep | .migrate | .start | .request _ | .recheck | .create _ | .finishImport _ | .buffer _
  | .abort | .restart _ => inferInstanceAs (Decidable True)

end Gate

/-- What a path asserts of the database. -/
structure Asserted (db : GateDb) (p : GatePath) : Prop where
  version : p.relies = true → db.version = some thisVersion
  pending : p.looked = true → db.pending = false
  drained : p.refreshed = true → db.drained = false
  notNewer : p.applies = true → newer db.version = false

/-- A change of the database that disturbs no assertion. -/
structure Quiet (db db' : GateDb) : Prop where
  version : db.version = some thisVersion → db'.version = some thisVersion
  pending : db.pending = false → db'.pending = false
  drained : db.pending = false → db.drained = false → db'.drained = false
  notNewer : newer db.version = false → newer db'.version = false

variable {db db' : GateDb} {p p' : GatePath} {v : Option Int}

theorem Quiet.refl (db : GateDb) : Quiet db db := ⟨id, id, fun _ => id, id⟩

theorem Asserted.quiet (h : Asserted db p) (hq : Quiet db db') : Asserted db' p where
  version hp := hq.version (h.version hp)
  pending hp := hq.pending (h.pending hp)
  drained hp := hq.drained (h.pending (GatePath.looked_of_refreshed hp)) (h.drained hp)
  notNewer hp := hq.notNewer (h.notNewer hp)

/-- One that has not come to the buffer. -/
theorem Asserted.of_not_looked (hlooked : p.looked = false)
    (hversion : p.relies = true → db.version = some thisVersion)
    (hnewer : p.applies = true → newer db.version = false) : Asserted db p where
  version := hversion
  pending hp := by simp [hlooked] at hp
  drained hp := by simp [GatePath.looked_of_refreshed hp] at hlooked
  notNewer := hnewer

/-- A path that has found nothing yet, or is done with it. -/
theorem Asserted.idle (hlooked : p.looked = false) (hrelies : p.relies = false)
    (happlies : p.applies = false) : Asserted db p :=
  .of_not_looked hlooked (by simp [hrelies]) (by simp [happlies])

/-- One that will apply the schema. -/
theorem Asserted.applying (hlooked : p.looked = false) (hrelies : p.relies = false)
    (hnewer : newer db.version = false) : Asserted db p :=
  .of_not_looked hlooked (by simp [hrelies]) fun _ => hnewer

/-- The database can be served: it is at `SCHEMA_VERSION`, with neither a buffer nor a drained span
left. -/
structure Servable (db : GateDb) : Prop where
  version : db.version = some thisVersion
  pending : db.pending = false
  drained : db.drained = false

theorem Asserted.servable (h : Asserted db p) (hp : p.refreshed = true)
    (hrelies : p.relies = true) : Servable db :=
  ⟨h.version hrelies, h.pending (GatePath.looked_of_refreshed hp), h.drained hp⟩

theorem Servable.asserted (h : Servable db) (p : GatePath) : Asserted db p where
  version _ := h.version
  pending _ := h.pending
  drained _ := h.drained
  notNewer _ := by rw [h.version]; rfl

/-- The assertions say nothing of the writers. -/
theorem Asserted.writers {n : Nat} (h : Asserted db p) : Asserted { db with writers := n } p :=
  ⟨h.version, h.pending, h.drained, h.notNewer⟩

/-- A batch comes into the buffer behind a path that has not come to it. -/
theorem Asserted.buffered {n : Nat} (h : Asserted db p) (hp : p.looked = false) :
    Asserted { db with pending := true, writers := n } p :=
  .of_not_looked hp h.version h.notNewer

/-! ### Versions -/

@[simp] theorem newer_thisVersion : newer (some thisVersion) = false := by decide

/-- The stamp takes whatever is not newer to `SCHEMA_VERSION`. -/
theorem stamp_of_not_newer (h : newer v = false) : stamp v = some thisVersion := by
  cases v with
  | none => rfl
  | some v =>
    have hle : v ≤ thisVersion := by simpa [newer] using h
    rw [stamp, max_eq_right hle]

theorem leaves_thisVersion {v' : Option Int} (h : leaves v v' = true)
    (hv : v = some thisVersion) : v' = some thisVersion := by
  subst hv
  simpa [leaves] using h

theorem newer_of_leaves {v' : Option Int} (h : leaves v v' = true) (hv : newer v = false) :
    newer v' = false := by
  simp only [leaves, Bool.or_eq_true, decide_eq_true_eq, Bool.and_eq_true,
    Bool.not_eq_true'] at h
  rcases h with rfl | ⟨-, h⟩
  · exact hv
  · exact h

/-! ### The probes -/

namespace Gate

variable {s s' : Gate} {m : GateMet} {at_ : Option Int} {by_ : Drainer}

theorem sweep_asserted : Asserted s.db (s.sweep m) := by
  unfold sweep
  split
  · exact .idle rfl rfl rfl
  · cases hv : s.db.version with
    | none => exact .idle rfl rfl rfl
    | some v =>
      dsimp only
      split
      · rename_i hthis
        subst hthis
        exact .of_not_looked rfl (fun _ => hv) fun _ => by rw [hv]; rfl
      · rename_i hthis
        exact .idle rfl rfl (by cases s.autoMigrate <;> simp [GatePath.applies, hthis])

theorem bufferLeft_asserted (h : Asserted s.db .looking) : Asserted s.db (s.bufferLeft m) := by
  unfold bufferLeft
  split_ifs with hleft
  · simp only [Bool.and_eq_true, Bool.not_eq_true', Bool.or_eq_false_iff] at hleft
    exact Servable.asserted ⟨h.version rfl, hleft.2.1, hleft.2.2⟩ _
  · exact .applying rfl rfl (h.notNewer rfl)

theorem createProbe_asserted : Asserted s.db (s.createProbe m) := by
  unfold createProbe
  split_ifs
  · exact .idle rfl rfl rfl
  · cases hv : s.db.version with
    | none => exact .idle rfl rfl rfl
    | some v =>
      dsimp only
      split_ifs with hthis
      · exact .idle rfl rfl rfl
      · obtain rfl := not_not.mp hthis
        exact .applying rfl rfl (by rw [hv]; rfl)

theorem migrateFrom_asserted (hnewer : newer s.db.version = false) :
    Asserted s.db (s.migrateFrom m at_) := by
  unfold migrateFrom
  split_ifs
  · exact .applying rfl rfl hnewer
  · exact .applying rfl rfl hnewer
  · exact .idle rfl rfl rfl

theorem startProbe_asserted (hnewer : newer s.db.version = false) :
    Asserted s.db (s.startProbe m) := by
  unfold startProbe
  split_ifs
  · exact .idle rfl rfl rfl
  · cases s.db.version with
    | none => exact .idle rfl rfl rfl
    | some v => exact .applying rfl rfl hnewer

theorem recheckProbe_asserted : Asserted s.db (s.recheckProbe m) := by
  unfold recheckProbe
  split_ifs
  · exact .idle rfl rfl rfl
  · cases hv : s.db.version with
    | none => exact .idle rfl rfl rfl
    | some v =>
      dsimp only
      split_ifs with hthis
      · subst hthis
        exact .of_not_looked rfl (fun _ => hv) (fun h => nomatch h)
      · exact .idle rfl rfl rfl

/-! ### A path's step -/

/-- What a step of a path that comes to `p'` keeps. -/
structure Advanced (s s' : Gate) (p' : GatePath) : Prop where
  quiet : Quiet s.db s'.db
  asserted : Asserted s'.db p'
  paths : s'.paths = s.paths
  served : ∀ db ∈ s'.served, db ∈ s.served ∨ Servable db
  applied : ∀ v ∈ s'.applied, v ∈ s.applied ∨ newer v = false

theorem of_step {s₁ : Gate} {p₁ : GatePath} (hstep : some (s₁, p₁) = some (s', p'))
    (h : Advanced s s₁ p₁) : Advanced s s' p' := by
  obtain ⟨rfl, rfl⟩ := Prod.mk.inj (Option.some.inj hstep)
  exact h

/-- A step that only looks. -/
theorem Advanced.looks (h : Asserted s.db p') : Advanced s s p' :=
  ⟨.refl _, h, rfl, fun _ => .inl, fun _ => .inl⟩

/-- A step that changes nothing but the database. -/
theorem Advanced.changes (hq : Quiet s.db db) (h : Asserted db p') : Advanced s { s with db } p' :=
  ⟨hq, h, rfl, fun _ => .inl, fun _ => .inl⟩

/-- A step that writes the state. -/
theorem Advanced.writes {state : SchemaState} (hstate : state.isCurrent = true → Servable s.db)
    (h : Asserted s.db p') : Advanced s (s.setState state) p' := by
  refine ⟨.refl _, h, rfl, ?_, fun _ => .inl⟩
  intro d hd
  simp only [setState] at hd
  split_ifs at hd with hcurrent
  · rcases List.mem_append.mp hd with hd | hd
    · exact .inl hd
    · obtain rfl := List.mem_singleton.mp hd
      exact .inr (hstate hcurrent)
  · exact .inl hd

theorem failed_asserted : Asserted db by_.failed := by
  cases by_ with
  | migration _ => exact .idle rfl rfl rfl
  | recheck => exact .idle rfl rfl rfl
  | abandon => exact .idle rfl rfl rfl

/-- The end of a drain: there is nothing left. -/
theorem done_asserted (h : by_.serves = true → Servable db) : Asserted db by_.done := by
  cases by_ with
  | migration _ => exact (h rfl).asserted _
  | recheck => exact (h rfl).asserted _
  | abandon => exact .idle rfl rfl rfl

theorem quiet_of_leaves {v' : Option Int} (h : leaves s.db.version v' = true) :
    Quiet s.db { s.db with version := v' } where
  version := leaves_thisVersion h
  pending := id
  drained _ := id
  notNewer := newer_of_leaves h

theorem quiet_stamp (h : newer s.db.version = false) :
    Quiet s.db { s.db with version := stamp s.db.version } where
  version _ := stamp_of_not_newer h
  pending := id
  drained _ := id
  notNewer _ := by rw [stamp_of_not_newer h]; rfl

theorem migrated_asserted (h : newer db.version = false) : Asserted db (migrated m at_) := by
  unfold migrated
  split_ifs
  · exact .applying rfl rfl h
  · exact .idle rfl rfl rfl

theorem runMigrations_spec (h : Asserted s.db (.migrating at_))
    (hstep : s.runMigrations m at_ = some (s', p')) : Advanced s s' p' := by
  have hnewer := h.notNewer rfl
  unfold runMigrations at hstep
  split_ifs at hstep with hnone hleaves
  · exact of_step hstep (.looks (migrated_asserted hnewer))
  · have hnewer' := newer_of_leaves hleaves hnewer
    exact of_step hstep (.changes (quiet_of_leaves hleaves) (migrated_asserted hnewer'))

theorem applyCaptureSchema_spec (h : Asserted s.db (.applying at_))
    (hstep : s.applyCaptureSchema m at_ = some (s', p')) : Advanced s s' p' := by
  have hnewer := h.notNewer rfl
  have happlied : ∀ v ∈ s.applied ++ [s.db.version], v ∈ s.applied ∨ newer v = false := by
    intro v hv
    rcases List.mem_append.mp hv with hv | hv
    · exact .inl hv
    · rw [List.mem_singleton.mp hv]
      exact .inr hnewer
  unfold applyCaptureSchema at hstep
  split_ifs at hstep with hok hleaves
  · have hversion : Asserted { s.db with version := stamp s.db.version }
        (.draining (.migration at_)) :=
      .of_not_looked rfl (fun _ => stamp_of_not_newer hnewer) (fun h => nomatch h)
    exact of_step hstep ⟨quiet_stamp hnewer, hversion, rfl, fun _ => .inl, happlied⟩
  · exact of_step hstep
      ⟨quiet_of_leaves hleaves, .idle rfl rfl rfl, rfl, fun _ => .inl, happlied⟩

theorem empty_pending : s.empty.db.pending = false := by
  unfold empty
  split_ifs with h
  · rfl
  · simpa using h

/-- A drain makes a span only out of a buffer, which nobody has looked past. -/
theorem quiet_empty : Quiet s.db s.empty.db where
  version h := by unfold empty; split_ifs <;> exact h
  pending _ := empty_pending
  drained hpending h := by unfold empty; rw [if_neg (by simp [hpending])]; exact h
  notNewer h := by unfold empty; split_ifs <;> exact h

theorem empty_eq : s.empty = { s with db := s.empty.db } := by
  unfold empty
  split_ifs <;> rfl

theorem drainPending_spec (h : Asserted s.db (.emptying by_))
    (hstep : s.drainPending m by_ = some (s', p')) : Advanced s s' p' := by
  unfold drainPending at hstep
  split at hstep
  · exact of_step hstep (.looks failed_asserted)
  · split at hstep
    · cases hstep
    · obtain ⟨rfl, rfl⟩ := Prod.mk.inj (Option.some.inj hstep)
      rw [empty_eq]
      refine .changes quiet_empty ?_
      split_ifs
      · refine ⟨fun hp => quiet_empty.version (h.version hp), fun _ => empty_pending, ?_, ?_⟩
        · exact fun hp => nomatch hp
        · exact fun hp => nomatch hp
      · exact failed_asserted

theorem dropDrained_spec (h : Asserted s.db (.dropping by_)) :
    Advanced s (s.dropDrained m by_).1 (s.dropDrained m by_).2 := by
  have hquiet : Quiet s.db { s.db with drained := false } := ⟨id, id, fun _ _ => rfl, id⟩
  unfold dropDrained
  split_ifs
  · exact .changes hquiet (done_asserted fun hp => ⟨h.version hp, h.pending hp, rfl⟩)
  · exact .changes hquiet failed_asserted
  · exact .looks failed_asserted

/-- The database swapped in is at `SCHEMA_VERSION`, and has a buffer only if the one it replaces had
one. -/
theorem swapIn_spec {replace : Bool} :
    Advanced s (s.swapIn m replace).1 (s.swapIn m replace).2 := by
  have hquiet : Quiet s.db ⟨some thisVersion, replace && s.db.pending, false, 0⟩ :=
    ⟨fun _ => rfl, fun hpending => by simp [hpending], fun _ _ => rfl, fun _ => rfl⟩
  unfold swapIn
  split_ifs
  · exact .changes hquiet (.idle rfl rfl rfl)
  · exact .changes hquiet (.idle rfl rfl rfl)
  · exact .looks (.idle rfl rfl rfl)
  · exact .looks (.idle rfl rfl rfl)

/-- A step of any path: what it writes as `Current` is, and what it asserts next holds. -/
theorem advance_spec (h : Asserted s.db p) (hasks : p.asks = true → newer s.db.version = false)
    (hstep : s.advance m p = some (s', p')) : Advanced s s' p' := by
  -- A path that looks leaves the others' assertions; one that writes shows that it may.
  cases p with
  | sweeping => exact of_step hstep (.looks sweep_asserted)
  | looking => exact of_step hstep (.looks (bufferLeft_asserted h))
  | setting state found =>
    refine of_step hstep (.writes (fun hp => h.servable hp hp) ?_)
    cases found with
    | none => exact .idle rfl rfl rfl
    | some v => exact .of_not_looked rfl (fun hp => nomatch hp) h.notNewer
  | creating => exact of_step hstep (.looks createProbe_asserted)
  | queued at_ =>
    obtain ⟨-, hstep⟩ := of_guard hstep
    exact of_step hstep (.looks (.of_not_looked rfl (fun hp => nomatch hp) h.notNewer))
  | locked at_ => exact of_step hstep (.looks (migrateFrom_asserted (hasks rfl)))
  | holding at_ =>
    refine of_step hstep ?_
    -- A database at this version is applied to again without being taken out of service.
    split_ifs
    · exact .looks (.applying rfl rfl (h.notNewer rfl))
    · exact .writes (fun hp => nomatch hp) (.applying rfl rfl (h.notNewer rfl))
  | migrating at_ => exact runMigrations_spec h hstep
  | applying at_ => exact applyCaptureSchema_spec h hstep
  | draining by_ =>
    refine of_step hstep ?_
    split_ifs with hfailed hpending
    · exact .looks failed_asserted
    · exact .looks (.of_not_looked rfl h.version (fun hp => nomatch hp))
    · refine .looks ⟨h.version, fun _ => by simpa using hpending, ?_, ?_⟩
      · exact fun hp => nomatch hp
      · exact fun hp => nomatch hp
  | emptying by_ => exact drainPending_spec h hstep
  | refreshing by_ =>
    refine of_step hstep ?_
    split_ifs with hfailed hdrained
    · exact .looks failed_asserted
    · exact .looks ⟨h.version, h.pending, (fun hp => nomatch hp), (fun hp => nomatch hp)⟩
    · exact .looks (done_asserted fun hp => ⟨h.version hp, h.pending hp, by simpa using hdrained⟩)
  | dropping by_ => exact of_step hstep (dropDrained_spec h)
  | serving => exact of_step hstep (.writes (fun _ => h.servable rfl rfl) (.idle rfl rfl rfl))
  | failing version => exact of_step hstep (.writes (fun hp => nomatch hp) (.idle rfl rfl rfl))
  | starting =>
    refine of_step hstep ?_
    split_ifs <;> exact .looks (.idle rfl rfl rfl)
  | locking =>
    refine of_step hstep ?_
    split_ifs <;> exact .looks (.idle rfl rfl rfl)
  | startProbing => exact of_step hstep (.looks (startProbe_asserted (hasks rfl)))
  | claiming version =>
    -- Another path may have settled it between the probe and the claim.
    simp only [advance] at hstep
    split_ifs at hstep
    · exact of_step hstep (.looks (.idle rfl rfl rfl))
    · exact of_step hstep (.writes (fun hp => nomatch hp) (.applying rfl rfl (h.notNewer rfl)))
  | rechecking =>
    refine of_step hstep ?_
    split_ifs <;> exact .looks (.idle rfl rfl rfl)
  | probing => exact of_step hstep (.looks recheckProbe_asserted)
  | rechecked state =>
    refine of_step hstep ?_
    split_ifs
    · exact .writes (fun hp => h.servable hp hp) (.idle rfl rfl rfl)
    · exact .looks (.idle rfl rfl rfl)
  | swapping replace => exact of_step hstep swapIn_spec
  | swapped => exact of_step hstep (.writes (fun hp => nomatch hp) (.idle rfl rfl rfl))
  | finished => cases hstep

/-! ### Runs -/

/-- What holds in every state of an undisturbed run. -/
structure Gated (s : Gate) : Prop where
  asserts : Asserts Asserted s.db s.paths
  served : ∀ db ∈ s.served, Servable db
  applied : ∀ v ∈ s.applied, newer v = false

theorem Gated.spawn (h : Gated s) (hp : Asserted s.db p) : Gated (s.spawn p) :=
  ⟨h.asserts.start hp, h.served, h.applied⟩

theorem Gated.writes (h : Gated s) {state : SchemaState} (hstate : state.isCurrent = false) :
    Gated (s.setState state) := by
  refine ⟨h.asserts, ?_, h.applied⟩
  simp only [setState, hstate]
  exact h.served

/-- The database changes, and no path is disturbed. -/
theorem Gated.changes (h : Gated s) (hothers : ∀ p ∈ s.paths, Asserted s.db p → Asserted db p) :
    Gated { s with db } :=
  ⟨h.asserts.change hothers, h.served, h.applied⟩

theorem Gated.advance {i : Nat} (h : Gated s) (hp : Advanced s s' p') :
    Gated { s' with paths := s'.paths.set i p' } where
  asserts := by
    have hset : Asserts Asserted s'.db (s.paths.set i p') :=
      h.asserts.move (fun _ hq => hq.quiet hp.quiet) hp.asserted
    rw [← hp.paths] at hset
    exact hset
  served db hdb := (hp.served db hdb).elim (h.served db) id
  applied v hv := (hp.applied v hv).elim (h.applied v) id

theorem requireCurrent_gated {elapsed : Bool} (h : Gated s) : Gated (s.requireCurrent elapsed) := by
  have hidle : ∀ db, Asserted db (.queued none) := fun _ => .idle rfl rfl rfl
  unfold requireCurrent
  split
  · split_ifs
    · exact (h.writes rfl).spawn (hidle _)
    · exact h
  · exact h
  · split_ifs
    · exact h.spawn (hidle _)
    · exact h

theorem step_gated {e : GateEvent} (h : Gated s) (hok : s.Undisturbed e)
    (hstep : s.step e = some s') : Gated s' := by
  cases e with
  | sweep => exact Option.some.inj hstep ▸ h.spawn (.idle rfl rfl rfl)
  | migrate => exact Option.some.inj hstep ▸ h.spawn (.idle rfl rfl rfl)
  | start => exact Option.some.inj hstep ▸ h.spawn (.idle rfl rfl rfl)
  | request elapsed => exact Option.some.inj hstep ▸ requireCurrent_gated h
  | recheck => exact Option.some.inj hstep ▸ h.spawn (.idle rfl rfl rfl)
  | create created =>
    simp only [step] at hstep
    split_ifs at hstep
    · exact Option.some.inj hstep ▸ h.spawn (.idle rfl rfl rfl)
    · exact Option.some.inj hstep ▸ h.spawn (.idle rfl rfl rfl)
    · exact Option.some.inj hstep ▸ h.spawn (.idle rfl rfl rfl)
  | finishImport replace => exact Option.some.inj hstep ▸ h.spawn (.idle rfl rfl rfl)
  | advance i m =>
    simp only [step] at hstep
    split at hstep
    · cases hstep
    · rename_i p hi
      obtain ⟨⟨s₁, p'⟩, hadvance, rfl⟩ := Option.map_eq_some_iff.mp hstep
      have hp : Asserted s.db p := h.asserts p (List.mem_of_getElem? hi)
      simp only [Undisturbed, hi, Option.any_some] at hok
      exact h.advance (advance_spec hp hok hadvance)
  | buffer held =>
    obtain ⟨-, hstep⟩ := of_guard hstep
    exact Option.some.inj hstep ▸ h.changes fun _ _ hp => hp.writers
  | commit =>
    simp only [step] at hstep
    split_ifs at hstep
    refine Option.some.inj hstep ▸ h.changes fun p hp hasserted => hasserted.buffered ?_
    -- `Undisturbed`: no path relies on there being no buffer.
    simpa using List.any_eq_false.mp hok p hp
  | abort =>
    simp only [step] at hstep
    split_ifs at hstep
    exact Option.some.inj hstep ▸ h.changes fun _ _ hp => hp.writers
  | byHand version =>
    -- A change by hand: `Undisturbed` keeps the version that a path relies on.
    refine Option.some.inj hstep ▸ h.changes fun p hp hasserted => ?_
    obtain ⟨hrelies, happlies⟩ := hok
    refine ⟨fun hpr => hrelies ?_, hasserted.pending, hasserted.drained, fun hpa => happlies ?_⟩
    · exact List.any_eq_true.mpr ⟨p, hp, hpr⟩
    · exact List.any_eq_true.mpr ⟨p, hp, hpa⟩
  | restart autoMigrate =>
    exact Option.some.inj hstep ▸ ⟨.none _ _, h.served, h.applied⟩

/-- In every run in which no migration asks a newer database and nothing disturbs what a path has
found, whatever is set `Current` is at `SCHEMA_VERSION` with nothing left to drain, and the schema
is never applied to a newer database. -/
theorem run_gate {autoMigrate : Bool} {events : List GateEvent}
    (hok : Along step Undisturbed (init autoMigrate db) events)
    (hrun : runs step (init autoMigrate db) events = some s) :
    (∀ db ∈ s.served, Servable db) ∧ ∀ v ∈ s.applied, newer v = false := by
  have hinit : Gated (init autoMigrate db) :=
    ⟨.none _ _, fun _ h => (List.not_mem_nil h).elim, fun _ h => (List.not_mem_nil h).elim⟩
  have hgated : Gated s := hok.invariant step_gated hinit hrun
  exact ⟨hgated.served, hgated.applied⟩

-- A batch that found the database behind commits once `recheck_if_behind` has looked for a buffer.
example :
    ((runs step (init false ⟨some 3, false, false, 0⟩)
      ([.buffer false, .byHand (some 5), .recheck] ++ List.replicate 4 (.advance 0 {}) ++
        [.commit, .advance 0 {}])).map (·.served)) =
      some [⟨some 5, true, false, 0⟩] := by
  decide

-- A database is taken back to version 4 once a sweep has looked at it.
example :
    ((runs step (init false ⟨some 5, false, false, 0⟩)
      [.sweep, .advance 0 {}, .advance 0 {}, .byHand (some 4), .advance 0 {}]).map (·.served)) =
      some [⟨some 4, false, false, 0⟩] := by
  decide

/-- A sweep at a database at version 6, automatic migration being on. -/
def sweepOfNewer : List GateEvent := .sweep :: List.replicate 10 (.advance 0 {})

/-- It applies the schema to it, and sets it `Current`. -/
theorem run_gate_newer :
    ∃ s, runs step (init true ⟨some 6, false, false, 0⟩) sweepOfNewer = some s ∧
      s.state = some (.current thisVersion) ∧ s.served = [⟨some 6, false, false, 0⟩] ∧
      s.applied = [some 6] ∧
      (¬ ∀ db ∈ s.served, Servable db) ∧ ¬ ∀ v ∈ s.applied, newer v = false := by
  refine ⟨_, rfl, by decide, by decide, by decide, ?_, ?_⟩
  · intro hserved
    exact absurd (hserved ⟨some 6, false, false, 0⟩ (by decide)).version (by decide)
  · intro happlied
    exact absurd (happlied (some 6) (by decide)) (by decide)

/-- An admin migrates a database at version 3 that has a buffer, which a batch joins and a sweep
finds on the way. -/
def migrationOfOlder : List GateEvent :=
  [.start, .advance 0 {}, .advance 0 {}, .buffer false, .advance 0 {}, .sweep, .advance 1 {},
    .advance 0 {}, .advance 0 {}, .advance 0 { version := some 3 }, .advance 0 {}, .commit,
    .advance 0 {}, .advance 1 {}, .advance 0 {}, .advance 0 {}, .advance 0 {}, .advance 0 {}]

theorem run_gate_migration :
    ∃ s, runs step (init false ⟨some 3, true, false, 0⟩) migrationOfOlder = some s ∧
      s.state = some (.current thisVersion) ∧ s.served.length = 1 ∧ s.applied = [some 3] ∧
      (∀ db ∈ s.served, Servable db) ∧ ∀ v ∈ s.applied, newer v = false := by
  have hok : Along step Undisturbed (init false ⟨some 3, true, false, 0⟩) migrationOfOlder := by
    decide +kernel
  exact ⟨_, rfl, by decide, by decide, by decide, run_gate hok rfl⟩

end Gate

end WireTap.Gateway
