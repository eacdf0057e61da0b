import WireTap.Gateway.Import
import WireTap.Lib.Run
import WireTap.Lib.Tasks

/-!
# Held ingest and the swap

An import keeps every batch it held (`run_keeps_held`), unless someone drains the target's buffer
before the swap has moved it: the batches are then in the `capture_frame` of the database the swap
drops (`run_loses_held`).

`Import.Invariant` says where the batches are: in the target, once each, and while the swap still
has to move them, in its buffer.
-/

namespace WireTap.Gateway

/-- The target's buffer has still to be moved. -/
def ImportPhase.unmoved : ImportPhase → Bool
  | loading | gating | swapping => true
  | _ => false

theorem ImportPhase.registered_of_early {phase : ImportPhase} (h : phase.early = true) :
    phase.registered = true := by
  cases phase <;> first | rfl | cases h

namespace Import

variable {s s' : Import}

/-- Everything stored in the database that has the target's name. -/
def targetRows (s : Import) : List Batch := (s.target.map CaptureDb.rows).getD []

def stagingRows (s : Import) : List Batch := (s.staging.map CaptureDb.rows).getD []

/-- What the target's buffer holds. -/
def targetBuffered (s : Import) : List Batch := (s.target.map CaptureDb.buffered).getD []

/-- Nobody drains a buffer that holds batches the import has still to move. -/
def Undrained (s : Import) : ImportEvent → Prop
  | .drain _ => s.phase.unmoved → ∀ b ∈ s.targetBuffered, b = .earlier
  | _ => True

instance (s : Import) : ∀ e, Decidable (s.Undrained e)
  | .drain _ => inferInstanceAs (Decidable (_ → _))
  | .load _ => inferInstanceAs (Decidable True)
  | .finish => inferInstanceAs (Decidable True)
  | .gate => inferInstanceAs (Decidable True)
  | .lookPending => inferInstanceAs (Decidable True)
  | .readPending => inferInstanceAs (Decidable True)
  | .writePending => inferInstanceAs (Decidable True)
  | .rename _ => inferInstanceAs (Decidable True)
  | .unregister => inferInstanceAs (Decidable True)
  | .settle _ => inferInstanceAs (Decidable True)
  | .fail => inferInstanceAs (Decidable True)
  | .write => inferInstanceAs (Decidable True)
  | .enter _ => inferInstanceAs (Decidable True)
  | .store .. => inferInstanceAs (Decidable True)
  | .abort _ => inferInstanceAs (Decidable True)

/-! ### The invariant -/

/-- The stored batches are in these rows, once each. -/
abbrev Stored (s : Import) (rows : List Batch) : Prop := Once .call Holding.committed s.calls rows

/-- No batch of a call is in these rows. -/
def Free (rows : List Batch) : Prop := ∀ i, rows.count (.call i) = 0

/-- No held write is under way or can begin. -/
structure Frozen (s : Import) : Prop where
  holding : .holding ∉ s.calls
  gate : s.replace = true → s.gate = true

/-- What the import's phase adds. -/
def Placed (s : Import) : ImportPhase → Prop
  | .loading => (∀ db ∈ s.target, Free db.frames) ∧ Free s.stagingRows ∧
      (s.replace = false → s.target = none)
  | .gating => (∀ db ∈ s.target, Free db.frames) ∧ Free s.stagingRows
  | .swapping => (∀ db ∈ s.target, Free db.frames) ∧ Free s.stagingRows ∧ s.Frozen
  | .reading =>
    (∀ db ∈ s.target, ∀ rows ∈ db.pending, s.Stored rows) ∧ Free s.stagingRows ∧ s.Frozen
  | .writing rows => s.Stored rows ∧ Free s.stagingRows ∧ s.Frozen
  | .moved => s.Stored s.stagingRows ∧ s.Frozen
  | _ => True

structure Invariant (s : Import) : Prop where
  stored : s.Stored s.targetRows
  /-- Until the import is over, no batch is routed past it. -/
  unrouted : s.phase.registered = true → .routed ∉ s.calls
  /-- An import that replaces nothing holds nothing. -/
  unheld : s.replace = false → .waiting ∉ s.calls ∧ .holding ∉ s.calls
  placed : s.Placed s.phase

theorem free_replicate (n : Nat) : Free (.replicate n .earlier) := by
  intro i
  simp [List.count_replicate]

theorem init_invariant (replace : Bool) (frames : Nat) (pending : Option Nat) :
    (init replace frames pending).Invariant where
  stored := by
    intro i
    cases replace <;> cases pending <;>
      simp [init, targetRows, CaptureDb.rows, CaptureDb.buffered, List.count_replicate, At]
  unrouted := by
    intro _ h
    cases h
  unheld := by
    intro _
    constructor <;> intro h <;> cases h
  placed := by
    refine ⟨?_, ?_, ?_⟩
    · intro db hdb
      cases replace with
      | false => cases hdb
      | true =>
        cases hdb
        exact free_replicate frames
    · intro i
      rfl
    · intro hr
      change replace = false at hr
      subst hr
      rfl

/-! ### The calls of `write_rows` -/

/-- The calls change, and store nothing. -/
theorem calls_invariant {calls : List Holding} (h : s.Invariant)
    (hstored : ∀ rows, s.Stored rows → Once .call Holding.committed calls rows)
    (hrouted : .routed ∈ calls → .routed ∈ s.calls ∨ s.phase.registered = false)
    (hwaiting : .waiting ∈ calls → .waiting ∈ s.calls ∨ s.replace = true)
    (hholding : .holding ∈ calls → .holding ∈ s.calls ∨ .waiting ∈ s.calls ∧ s.gate = false) :
    ({ s with calls } : Import).Invariant := by
  -- Only a call that waited can begin to hold, and only while the gate is open.
  have hfrozen : s.Frozen → ({ s with calls } : Import).Frozen := by
    intro hf
    refine ⟨fun hnew => ?_, hf.gate⟩
    rcases hholding hnew with hold | ⟨hold, hgate⟩
    · exact hf.holding hold
    · cases hr : s.replace with
      | true =>
        rw [hf.gate hr] at hgate
        cases hgate
      | false => exact (h.unheld hr).1 hold
  refine ⟨hstored _ h.stored, ?_, ?_, ?_⟩
  · intro hregistered hnew
    rcases hrouted hnew with hold | hover
    · exact h.unrouted hregistered hold
    · change s.phase.registered = true at hregistered
      rw [hregistered] at hover
      cases hover
  · intro hr
    obtain ⟨hnone, hnone'⟩ := h.unheld hr
    change s.replace = false at hr
    constructor
    · intro hnew
      rcases hwaiting hnew with hold | hr'
      · exact hnone hold
      · rw [hr] at hr'
        cases hr'
    · intro hnew
      rcases hholding hnew with hold | ⟨hold, -⟩
      · exact hnone' hold
      · exact hnone hold
  · have hplaced : ∀ phase, s.Placed phase → ({ s with calls } : Import).Placed phase := by
      intro phase hp
      cases phase with
      | loading => exact hp
      | gating => exact hp
      | swapping => exact ⟨hp.1, hp.2.1, hfrozen hp.2.2⟩
      | reading =>
        exact ⟨fun db hdb rows hrows => hstored rows (hp.1 db hdb rows hrows), hp.2.1,
          hfrozen hp.2.2⟩
      | writing rows => exact ⟨hstored rows hp.1, hp.2.1, hfrozen hp.2.2⟩
      | moved => exact ⟨hstored _ hp.1, hfrozen hp.2⟩
      | _ => exact trivial
    exact hplaced s.phase h.placed

/-- A call that goes on without storing its batch. -/
theorem setCall_invariant {i : Nat} {w w₀ : Holding} (h : s.Invariant)
    (hi : s.calls[i]? = some w₀) (hw : w.committed = w₀.committed) (hrouted : w ≠ .routed)
    (hwaiting : w ≠ .waiting) (hholding : w = .holding → w₀ = .waiting ∧ s.gate = false) :
    (s.setCall i w).Invariant := by
  refine calls_invariant h (fun rows hrows => hrows.move hi hw) ?_ ?_ ?_
  · intro hnew
    rcases List.mem_or_eq_of_mem_set hnew with hold | hself
    · exact .inl hold
    · exact absurd hself.symm hrouted
  · intro hnew
    rcases List.mem_or_eq_of_mem_set hnew with hold | hself
    · exact .inl hold
    · exact absurd hself.symm hwaiting
  · intro hnew
    rcases List.mem_or_eq_of_mem_set hnew with hold | hself
    · exact .inl hold
    · obtain ⟨rfl, hgate⟩ := hholding hself.symm
      exact .inr ⟨List.mem_of_getElem? hi, hgate⟩

/-- A call that starts. -/
theorem write_invariant {w : Holding} (h : s.Invariant) (hw : w.committed = false)
    (hrouted : w = .routed → s.phase.registered = false)
    (hwaiting : w = .waiting → s.replace = true) (hholding : w ≠ .holding) :
    ({ s with calls := s.calls ++ [w] } : Import).Invariant := by
  have hold : ∀ {w'}, w' ∈ s.calls ++ [w] → w' ∈ s.calls ∨ w = w' := by
    intro w' hw'
    rcases List.mem_append.mp hw' with h | h
    · exact .inl h
    · exact .inr (List.mem_singleton.mp h).symm
  refine calls_invariant h (fun rows hrows => hrows.start hw) ?_ ?_ ?_
  · exact fun hnew => (hold hnew).imp_right hrouted
  · exact fun hnew => (hold hnew).imp_right hwaiting
  · exact fun hnew => (hold hnew).imp_right fun hself => absurd hself hholding

/-- A call that stores its batch: a held one in the buffer, one routed past the import anywhere. -/
theorem store_invariant {i : Nat} {w w₀ : Holding} {db db' : CaptureDb} (h : s.Invariant)
    (hi : s.calls[i]? = some w₀) (hopen : w₀ = .holding ∨ w₀ = .routed) (hw : w.committed = true)
    (htarget : s.target = some db)
    (hcount : ∀ c, db'.rows.count c = db.rows.count c + if Batch.call i = c then 1 else 0)
    (hframes : w₀ = .holding → db'.frames = db.frames) :
    ({ s.setCall i w with target := some db' } : Import).Invariant := by
  have hmem := List.mem_of_getElem? hi
  have hkept : ∀ {w'}, w'.committed = false → w' ∈ s.calls.set i w → w' ∈ s.calls := by
    intro w' hw' hnew
    rcases List.mem_or_eq_of_mem_set hnew with hold | rfl
    · exact hold
    · rw [hw] at hw'
      cases hw'
  refine ⟨?_, ?_, ?_, ?_⟩
  · have hstored := h.stored
    unfold targetRows at hstored
    rw [htarget] at hstored
    refine hstored.leave hi (by rcases hopen with rfl | rfl <;> rfl) hw ?_
    intro j
    refine (hcount _).trans ?_
    simp
  · exact fun hregistered hnew => h.unrouted hregistered (hkept rfl hnew)
  · intro hr
    obtain ⟨hnone, hnone'⟩ := h.unheld hr
    exact ⟨fun hnew => hnone (hkept rfl hnew), fun hnew => hnone' (hkept rfl hnew)⟩
  · -- A held write is over before the swap begins, and no other is routed before the end.
    have hregistered : s.phase.registered = true → w₀ = .holding := by
      intro hr
      refine hopen.resolve_right ?_
      rintro rfl
      exact h.unrouted hr hmem
    have hthawed : s.phase.registered = true → ¬ s.Frozen := by
      intro hr hf
      obtain rfl := hregistered hr
      exact hf.holding hmem
    have hplaced := h.placed
    change Placed _ s.phase
    cases hphase : s.phase with
    | loading =>
      -- The call is a held one: it stored in the buffer, and no frame was added.
      rw [hphase] at hplaced hregistered
      obtain rfl := hregistered rfl
      refine ⟨?_, hplaced.2.1, ?_⟩
      · intro db'' hdb
        cases hdb
        rw [hframes rfl]
        exact hplaced.1 db htarget
      · intro hr
        exact absurd hmem (h.unheld hr).2
    | gating =>
      rw [hphase] at hplaced hregistered
      obtain rfl := hregistered rfl
      refine ⟨?_, hplaced.2⟩
      intro db'' hdb
      cases hdb
      rw [hframes rfl]
      exact hplaced.1 db htarget
    | swapping =>
      -- From here to the rename the gate is shut, and there is no held call left to store.
      rw [hphase] at hplaced hthawed
      exact absurd hplaced.2.2 (hthawed rfl)
    | reading =>
      rw [hphase] at hplaced hthawed
      exact absurd hplaced.2.2 (hthawed rfl)
    | writing rows =>
      rw [hphase] at hplaced hthawed
      exact absurd hplaced.2.2 (hthawed rfl)
    | moved =>
      rw [hphase] at hplaced hthawed
      exact absurd hplaced.2 (hthawed rfl)
    | _ => exact trivial

/-! ### The other drains -/

/-- A drain of the target that takes no batch the import has still to move. -/
theorem drainTarget_invariant (h : s.Invariant)
    (hundrained : s.phase.unmoved = true → ∀ b ∈ s.targetBuffered, b = .earlier) :
    s.drainTarget.Invariant := by
  have hrows : s.drainTarget.targetRows = s.targetRows := by
    unfold targetRows drainTarget
    cases s.target with
    | none => rfl
    | some db => exact db.rows_drain
  -- What is drained before the swap is none of the calls' batches: `hundrained`.
  have hfree : s.phase.unmoved = true → (∀ db ∈ s.target, Free db.frames) →
      ∀ db ∈ s.drainTarget.target, Free db.frames := by
    intro hunmoved hframes db hdb
    obtain ⟨db₀, hdb₀, rfl⟩ := Option.map_eq_some_iff.mp hdb
    intro i
    change (db₀.frames ++ db₀.buffered).count (.call i) = 0
    rw [List.count_append, hframes db₀ hdb₀ i, Nat.zero_add]
    refine List.count_eq_zero.mpr fun hin => ?_
    have hearlier := hundrained hunmoved (.call i) (by unfold targetBuffered; rw [hdb₀]; exact hin)
    cases hearlier
  refine ⟨?_, h.unrouted, h.unheld, ?_⟩
  · change Once .call Holding.committed s.calls s.drainTarget.targetRows
    rw [hrows]
    exact h.stored
  · have hplaced := h.placed
    change s.drainTarget.Placed s.phase
    cases hphase : s.phase with
    | loading =>
      rw [hphase] at hplaced hfree
      refine ⟨hfree rfl hplaced.1, hplaced.2.1, ?_⟩
      intro hr
      change s.target.map CaptureDb.drain = none
      rw [hplaced.2.2 hr]
      rfl
    | gating =>
      rw [hphase] at hplaced hfree
      exact ⟨hfree rfl hplaced.1, hplaced.2⟩
    | swapping =>
      rw [hphase] at hplaced hfree
      exact ⟨hfree rfl hplaced.1, hplaced.2.1, hplaced.2.2.1, hplaced.2.2.2⟩
    | reading =>
      rw [hphase] at hplaced
      refine ⟨?_, hplaced.2.1, hplaced.2.2.1, hplaced.2.2.2⟩
      -- The buffer is gone, so the move that is under way fails.
      intro db hdb rows hrows
      obtain ⟨db₀, -, rfl⟩ := Option.map_eq_some_iff.mp hdb
      cases hrows
    | writing rows =>
      rw [hphase] at hplaced
      exact ⟨hplaced.1, hplaced.2.1, hplaced.2.2.1, hplaced.2.2.2⟩
    | moved =>
      rw [hphase] at hplaced
      exact ⟨hplaced.1, hplaced.2.1, hplaced.2.2⟩
    | _ => exact trivial

/-! ### The import -/

/-- The import goes on; the target and the calls stay as they are. -/
theorem phase_invariant (phase : ImportPhase) {gate : Bool} {staging old : Option CaptureDb}
    (h : s.Invariant) (hregistered : phase.registered = true → s.phase.registered = true)
    (hplaced : ({ s with phase, gate, staging, old } : Import).Placed phase) :
    ({ s with phase, gate, staging, old } : Import).Invariant :=
  ⟨h.stored, fun hr => h.unrouted (hregistered hr), h.unheld, hplaced⟩

/-- Where nothing of the calls is stored, nothing of them is missing. -/
theorem stored_of_free {rows rows' : List Batch} (h : s.Stored rows) (hrows : Free rows)
    (hrows' : Free rows') : s.Stored rows' :=
  h.congr fun j => (hrows' j).trans (hrows j).symm

theorem load_invariant (frames : Nat) (h : s.Invariant) (hphase : s.phase = .loading) :
    ({ s with staging := some ⟨some schemaVersion, .replicate frames .earlier, none⟩ } :
      Import).Invariant := by
  have hplaced := h.placed
  rw [hphase] at hplaced
  refine phase_invariant s.phase h (fun hr => hr) ?_
  rw [hphase]
  refine ⟨hplaced.1, ?_, hplaced.2.2⟩
  intro i
  change (List.replicate frames Batch.earlier ++ []).count (Batch.call i) = 0
  rw [List.append_nil]
  exact free_replicate frames i

theorem finish_invariant (h : s.Invariant) (hphase : s.phase = .loading) :
    ({ s with phase := if s.replace then .gating else .moved } : Import).Invariant := by
  have hplaced := h.placed
  rw [hphase] at hplaced
  by_cases hreplace : s.replace = true
  · rw [if_pos hreplace]
    exact phase_invariant .gating h (fun _ => by rw [hphase]; rfl) ⟨hplaced.1, hplaced.2.1⟩
  · have hr : s.replace = false := eq_false_of_ne_true hreplace
    rw [if_neg hreplace]
    refine phase_invariant .moved h (fun _ => by rw [hphase]; rfl) ⟨?_, (h.unheld hr).2, ?_⟩
    · -- There is no target yet, so no batch has been stored.
      have hnone : Free s.targetRows := by
        unfold targetRows
        rw [hplaced.2.2 hr]
        exact fun _ => rfl
      exact stored_of_free h.stored hnone hplaced.2.1
    · exact fun hr' => absurd hr' hreplace

/-- The gate is shut once no call holds it, and no call gets it after that. -/
theorem gate_invariant (h : s.Invariant) (hphase : s.phase = .gating)
    (hidle : ¬ (s.replace = true ∧ .holding ∈ s.calls)) :
    ({ s with gate := true, phase := .swapping } : Import).Invariant := by
  have hplaced := h.placed
  rw [hphase] at hplaced
  refine phase_invariant .swapping h (fun _ => by rw [hphase]; rfl)
    ⟨hplaced.1, hplaced.2, ?_, fun _ => rfl⟩
  intro hholding
  cases hr : s.replace with
  | true => exact hidle ⟨hr, hholding⟩
  | false => exact (h.unheld hr).2 hholding

theorem lookPending_invariant (h : s.Invariant) (hphase : s.phase = .swapping)
    (hstep : s.lookPending = some s') : s'.Invariant := by
  have hplaced := h.placed
  have hstored := h.stored
  rw [hphase] at hplaced
  unfold targetRows at hstored
  unfold lookPending at hstep
  split at hstep
  · rename_i db staging htarget hstaging
    have hframes := hplaced.1 db htarget
    rw [htarget] at hstored
    change s.Stored (db.frames ++ db.buffered) at hstored
    split at hstep
    · -- The database has no buffer.
      rename_i hpending
      cases hstep
      refine phase_invariant .moved h (fun _ => by rw [hphase]; rfl)
        ⟨?_, hplaced.2.2.1, hplaced.2.2.2⟩
      refine stored_of_free hstored ?_ hplaced.2.1
      intro i
      rw [List.count_append, hframes i, CaptureDb.buffered, hpending]
      rfl
    · rename_i rows hpending
      cases hstep
      refine phase_invariant .reading h (fun _ => by rw [hphase]; rfl)
        ⟨?_, ?_, hplaced.2.2.1, hplaced.2.2.2⟩
      · -- Nothing of the calls is in `capture_frame`, so all of it is in the buffer.
        intro db' hdb' rows' hrows'
        change s.target = some db' at hdb'
        rw [htarget] at hdb'
        cases hdb'
        refine hstored.congr fun j => ?_
        rw [List.count_append, hframes j, CaptureDb.buffered, Option.mem_def.mp hrows',
          Nat.zero_add]
        rfl
      · have hfree := hplaced.2.1
        unfold stagingRows at hfree
        rw [hstaging] at hfree
        exact hfree
  · cases hstep

theorem writePending_invariant {rows pending : List Batch} {staging : CaptureDb} (h : s.Invariant)
    (hphase : s.phase = .writing rows) (hstaging : s.staging = some staging)
    (hpending : staging.pending = some pending) :
    ({ s with phase := .moved
              staging := some { staging with pending := some (pending ++ rows) } } :
      Import).Invariant := by
  have hplaced := h.placed
  rw [hphase] at hplaced
  have hfree := hplaced.2.1
  unfold stagingRows at hfree
  rw [hstaging] at hfree
  refine phase_invariant .moved h (fun _ => by rw [hphase]; rfl) ⟨?_, hplaced.2.2.1, hplaced.2.2.2⟩
  refine hplaced.1.congr fun j => ?_
  have hzero := hfree j
  change (staging.frames ++ staging.buffered).count (.call j) = 0 at hzero
  change (staging.frames ++ (pending ++ rows)).count (.call j) = _
  rw [CaptureDb.buffered, hpending, Option.getD_some, List.count_append] at hzero
  rw [List.count_append, List.count_append]
  omega

theorem rename_invariant {staging : CaptureDb} (answered : Bool) (h : s.Invariant)
    (hphase : s.phase = .moved) (hstaging : s.staging = some staging) :
    (s.renameTo staging (if answered then .renamed else .abandoning)).Invariant := by
  have hplaced := h.placed
  rw [hphase] at hplaced
  refine ⟨?_, fun _ => h.unrouted (by rw [hphase]; rfl), h.unheld, by cases answered <;> trivial⟩
  have hstored := hplaced.1
  unfold stagingRows at hstored
  rw [hstaging] at hstored
  exact hstored

/-- The end of `finish_import` or `abandon_import`. -/
theorem settle_invariant (drain : Bool) {staging old : Option CaptureDb} (h : s.Invariant)
    (hphase : s.phase.unmoved = false) :
    ({ if drain then s.drainTarget else s with phase := .returned, staging, old } :
      Import).Invariant := by
  cases drain with
  | true =>
    have hdrained := drainTarget_invariant h fun hunmoved => absurd hunmoved (by rw [hphase]; simp)
    exact phase_invariant .returned hdrained (by rintro ⟨⟩) trivial
  | false => exact phase_invariant .returned h (by rintro ⟨⟩) trivial

/-- Every step but a drain of the batches the import has still to move keeps the invariant. -/
theorem step_invariant {e : ImportEvent} (h : s.Invariant) (hundrained : s.Undrained e)
    (hstep : s.step e = some s') : s'.Invariant := by
  cases e with
  | load frames =>
    obtain ⟨hphase, ⟨⟩⟩ := of_guard hstep
    exact load_invariant frames h hphase
  | finish =>
    obtain ⟨⟨hphase, -⟩, ⟨⟩⟩ := of_guard hstep
    exact finish_invariant h hphase
  | gate =>
    simp only [step] at hstep
    split at hstep
    · cases hstep
    · rename_i hidle
      split at hstep
      · rename_i hphase
        cases hstep
        -- No call holds the gate when it shuts.
        exact gate_invariant h hphase hidle
      · rename_i hphase
        cases hstep
        exact phase_invariant .abandoned h (fun _ => by rw [hphase]; rfl) trivial
      · cases hstep
  | lookPending =>
    obtain ⟨hphase, hnext⟩ := of_guard hstep
    exact lookPending_invariant h hphase hnext
  | readPending =>
    simp only [step] at hstep
    split at hstep
    · rename_i rows hphase hrows
      cases hstep
      have hplaced := h.placed
      rw [hphase] at hplaced
      obtain ⟨db, hdb, hrows⟩ := Option.bind_eq_some_iff.mp hrows
      exact phase_invariant (.writing rows) h (fun _ => by rw [hphase]; rfl)
        ⟨hplaced.1 db hdb rows hrows, hplaced.2.1, hplaced.2.2.1, hplaced.2.2.2⟩
    · cases hstep
  | writePending =>
    simp only [step] at hstep
    split at hstep
    · rename_i rows staging hphase hstaging
      split at hstep
      · cases hstep
      · rename_i pending hpending
        cases hstep
        exact writePending_invariant h hphase hstaging hpending
    · cases hstep
  | rename answered =>
    simp only [step] at hstep
    split at hstep
    · rename_i staging hphase hstaging
      obtain ⟨-, ⟨⟩⟩ := of_guard hstep
      exact rename_invariant answered h hphase hstaging
    · cases hstep
  | unregister =>
    simp only [step] at hstep
    split at hstep
    · cases hstep
      exact phase_invariant .serving h (by rintro ⟨⟩) trivial
    · cases hstep
      exact phase_invariant .leaving h (by rintro ⟨⟩) trivial
    · cases hstep
  | settle drained =>
    simp only [step] at hstep
    split at hstep
    · rename_i hphase
      cases hstep
      exact settle_invariant drained h (by rw [hphase]; rfl)
    · rename_i hphase
      cases hstep
      exact settle_invariant (drained && s.replace) h (by rw [hphase]; rfl)
    · cases hstep
  | fail =>
    obtain ⟨hearly, ⟨⟩⟩ := of_guard hstep
    exact phase_invariant .abandoning h (fun _ => ImportPhase.registered_of_early hearly) trivial
  | write =>
    simp only [step] at hstep
    split at hstep
    · cases hstep
      by_cases hreplace : s.replace = true
      · rw [if_pos hreplace]
        exact write_invariant h rfl (by rintro ⟨⟩) (fun _ => hreplace) (by rintro ⟨⟩)
      · rw [if_neg hreplace]
        exact write_invariant h rfl (by rintro ⟨⟩) (by rintro ⟨⟩) (by rintro ⟨⟩)
    · rename_i hover
      cases hstep
      exact write_invariant h rfl (fun _ => eq_false_of_ne_true hover) (by rintro ⟨⟩)
        (by rintro ⟨⟩)
  | enter i =>
    obtain ⟨hi, ⟨⟩⟩ := of_guard hstep
    cases hgate : s.gate with
    | true => exact setCall_invariant h hi rfl (by rintro ⟨⟩) (by rintro ⟨⟩) (by rintro ⟨⟩)
    | false =>
      exact setCall_invariant h hi rfl (by rintro ⟨⟩) (by rintro ⟨⟩) fun _ => ⟨rfl, hgate⟩
  | store i live answered =>
    simp only [step] at hstep
    split at hstep
    · rename_i db hi htarget
      cases hstep
      exact store_invariant h hi (.inl rfl) (by cases answered <;> rfl) htarget
        (CaptureDb.count_rows_buffer db _) fun _ => rfl
    · rename_i db hi htarget
      cases hstep
      refine store_invariant h hi (.inr rfl) (by cases answered <;> rfl) htarget ?_ (by rintro ⟨⟩)
      cases live with
      | true => exact CaptureDb.count_rows_copy db _
      | false => exact CaptureDb.count_rows_buffer db _
    · cases hstep
  | abort i =>
    simp only [step] at hstep
    split at hstep
    · rename_i hi
      cases hstep
      exact setCall_invariant h hi rfl (by rintro ⟨⟩) (by rintro ⟨⟩) (by rintro ⟨⟩)
    · rename_i hi
      cases hstep
      exact setCall_invariant h hi rfl (by rintro ⟨⟩) (by rintro ⟨⟩) (by rintro ⟨⟩)
    · rename_i hi
      cases hstep
      exact setCall_invariant h hi rfl (by rintro ⟨⟩) (by rintro ⟨⟩) (by rintro ⟨⟩)
    · cases hstep
  | drain drainer =>
    cases hstep
    exact drainTarget_invariant h hundrained

/-! ### Runs -/

/-- In every run in which nobody drains a batch the import has still to move, the batch of every
call that has returned `Ok` is in the database that has the target's name, once in its
`capture_frame` or its buffer: at every moment, and so once `finish_import` or `abandon_import` has
returned. -/
theorem run_keeps_held (replace : Bool) (frames : Nat) (pending : Option Nat)
    (events : List ImportEvent) (s : Import)
    (hundrained : Along step Undrained (init replace frames pending) events)
    (hrun : runs step (init replace frames pending) events = some s) (i : Nat)
    (hok : s.calls[i]? = some .ok) :
    ∃ db, s.target = some db ∧ db.frames.count (.call i) + db.buffered.count (.call i) = 1 := by
  have h : s.Invariant :=
    Along.invariant step_invariant (init_invariant replace frames pending) hundrained hrun
  have hone : s.targetRows.count (.call i) = 1 := by
    refine (h.stored i).trans ?_
    rw [at_of_getElem? hok]
    rfl
  unfold targetRows at hone
  cases htarget : s.target with
  | none =>
    rw [htarget] at hone
    cases hone
  | some db =>
    rw [htarget] at hone
    refine ⟨db, rfl, ?_⟩
    rw [← List.count_append]
    exact hone

/-- A replace with one batch held before the swap and one routed after it, and drains before the
first and behind the swap. -/
def replacing : List ImportEvent :=
  [.drain .recheck, .write, .enter 0, .store 0 false true, .load 3, .finish, .gate, .lookPending,
    .readPending, .drain .migrateOne, .writePending, .rename true, .unregister, .drain .sweep,
    .write, .store 1 false true, .settle true]

theorem run_keeps_held_replacing :
    ∃ s, runs step (init true 2 (some 1)) replacing = some s ∧ s.phase = .returned ∧
      ∃ db, s.target = some db ∧ db.frames.count (.call 0) + db.buffered.count (.call 0) = 1 := by
  have hfacts : (runs step (init true 2 (some 1)) replacing).map
      (fun s => (s.phase, s.calls)) = some (.returned, [.ok, .ok]) := by
    decide +kernel
  obtain ⟨s, hs, heq⟩ := Option.map_eq_some_iff.mp hfacts
  obtain ⟨hphase, hcalls⟩ := Prod.mk.inj heq
  refine ⟨s, hs, hphase, ?_⟩
  exact run_keeps_held true 2 (some 1) replacing s (by decide +kernel) hs 0
    (by rw [hcalls]; rfl)

/-- The sweep drains the held batch before the swap: it has been acknowledged, and is in neither
table of the target once `finish_import` has returned. -/
theorem run_loses_held :
    ∃ s, runs step (init true 2 none)
        [.write, .enter 0, .store 0 false true, .load 3, .drain .sweep, .finish, .gate,
          .lookPending, .rename true, .unregister, .settle true] = some s ∧
      s.phase = .returned ∧ s.calls[0]? = some .ok ∧
      s.target = some ⟨some schemaVersion, .replicate 3 .earlier, none⟩ := by
  refine ⟨⟨true, true, .returned, some ⟨some schemaVersion, .replicate 3 .earlier, none⟩, none,
    none, [.ok]⟩, ?_, rfl, rfl, rfl⟩
  decide +kernel

end Import

end WireTap.Gateway
