import Mathlib.Data.List.Basic
import Mathlib.Tactic.Common
import WireTap.Lib.Halting
import WireTap.Cache.Adopt
import WireTap.Cache.Equiv.Sqlite

/-!
# Adoption across interruptions

The invariant is `Kept calm total s`: the frames in the cache's file, followed by those still in the
legacy file, are `total`.  Every step keeps it, however it ends, except the two that move a batch:
between the append and the removal the batch is in both files, and a call that ends there leaves it
so (`adopted_twice`).  While no call does, and the closes of `take_over` checkpoint, adoption retried
on later starts moves every frame once (`adopt_exactly_once`).
-/

namespace WireTap

variable {α : Type}

theorem framesIn_insert (t : Table α) (xs : List α) :
    framesIn (some (t.insert xs)) = framesIn (some t) ++ xs := by
  change (t.rows ++ number t.seq xs).map Cached.sample = _
  rw [List.map_append, number_samples]
  rfl

theorem framesIn_of_no_rows {t : Table α} (h : t.rows = []) : framesIn (some t) = [] := by
  rw [framesIn, h, List.map_nil]

/-- If the batch reaches the cache, it also leaves the legacy file. -/
def Turn.Whole (turn : Turn) : Prop :=
  turn.append.takesEffect = true → turn.append = .ok ∧ turn.remove.takesEffect = true

/-- The closes checkpoint, and no batch is left in both files. -/
structure Answers.Whole (a : Answers α) : Prop where
  legacyLags : a.legacyLags = none
  ownLags : a.ownLags = none
  turns : ∀ turn ∈ a.turns, turn.Whole

/-- No step fails or is cut short, except that the rename may not be possible. -/
structure Answers.Calm (a : Answers α) : Prop where
  openLegacy : a.openLegacy = .ok
  placeholder : a.placeholder = .ok
  removeSidecars : a.removeSidecars = .ok ∨ a.removeSidecars = .fails
  rename : a.rename = .ok ∨ a.rename = .fails
  reopen : a.reopen = .ok
  openAgain : a.openAgain = .ok
  turns : ∀ turn ∈ a.turns, turn = {}
  unlinkFile : a.unlinkFile = .ok
  unlinkSidecars : a.unlinkSidecars = .ok

instance (turn : Turn) : Decidable turn.Whole :=
  inferInstanceAs (Decidable (_ → _))

namespace Site

/-! ### What every step keeps -/

/-- What is still to be answered leaves no batch in both files and, if the call is `calm`, is in its
favour. -/
structure Fair (calm : Prop) (s : Site α) : Prop where
  whole : s.answers.Whole
  calm : calm → s.answers.Calm ∧ s.own.host.append = []

/-- Nothing is lost and nothing is in both files. -/
structure Kept (calm : Prop) (total : List α) (s : Site α) : Prop where
  fair : s.Fair calm
  file : ∃ t, s.own.file = some t
  all : framesIn s.own.file ++ framesIn s.legacy.file = total

/-- The legacy cache is open, and its file holds `l`. -/
structure Open (l : Table α) (s : Site α) : Prop where
  table : s.legacy.table = some l
  reads : s.legacy.host.oldest = []
  deletes : s.legacy.host.remove = []

theorem Open.file {l : Table α} {s : Site α} (h : s.Open l) : s.legacy.file = some l :=
  SqliteCache.file_of_table h.table

/-- A call that halts has kept everything; it was not looping, and something went wrong. -/
def Halted (calm : Prop) (total : List α) (e : Halt) (s : Site α) : Prop :=
  e ≠ .looping ∧ s.Kept calm total ∧ ¬ calm

variable {calm : Prop} {total : List α} {l : Table α} {β : Type}

/-- A step, by what it leaves without its effect and with it. -/
theorem act_rule {fate : Fate} {effect : Site α → Except CacheError β × Site α} {s : Site α}
    {Q : β → Site α → Prop} {R : Halt → Site α → Prop} (hbefore : ∀ e, R e s)
    (hafter : ∀ e, R e (effect s).2) (hok : ∀ b, (effect s).1 = .ok b → Q b (effect s).2) :
    Ends (act fate effect s) Q R := by
  cases fate with
  | ok =>
    simp only [act]
    cases heffect : effect s with
    | mk r s' =>
      rw [heffect] at hafter hok
      cases r with
      | ok b => exact hok b rfl
      | error e => exact hafter _
  | fails => exact hbefore _
  | diesBefore => exact hbefore _
  | diesAfter => exact hafter _

/-- A step whose effect cannot fail: halted before it or after it, or done. -/
theorem act_ends {fate : Fate} {effect : Site α → Except CacheError β × Site α} {s s' : Site α}
    {b : β} {Q : β → Site α → Prop} (heffect : effect s = (.ok b, s')) (hcalm : calm → fate = .ok)
    (hbefore : s.Kept calm total) (hafter : s'.Kept calm total) (hok : Q b s') :
    Ends (act fate effect s) Q (Halted calm total) := by
  cases fate with
  | ok =>
    simp only [act, heffect]
    exact hok
  | fails => exact ⟨Halt.noConfusion, hbefore, fun h => Fate.noConfusion (hcalm h)⟩
  | diesBefore => exact ⟨Halt.noConfusion, hbefore, fun h => Fate.noConfusion (hcalm h)⟩
  | diesAfter =>
    simp only [act, heffect]
    exact ⟨Halt.noConfusion, hafter, fun h => Fate.noConfusion (hcalm h)⟩

/-- A call that dies in a step whose failure is passed over was not calm. -/
theorem rough_of_dies {fate : Fate} (hcalm : calm → fate = .ok ∨ fate = .fails)
    (hdies : fate = .diesBefore ∨ fate = .diesAfter) : ¬ calm := by
  intro h
  rcases hcalm h with rfl | rfl <;> rcases hdies with hdies | hdies <;> cases hdies

/-! ### The steps -/

/-- The cache is connected to its file, and its row count is the file's. -/
def Counted (s : Site α) : Prop := ∃ t, s.own.table = some t ∧ s.own.rows = t.rows.length

theorem openLegacy_kept :
    Ensures (fun s : Site α => s.Kept calm total ∧ s.Counted ∧ s.legacy.file = some l)
      Storage.openLegacy
      (fun moved s => moved = l.rows.length ∧ s.Kept calm total ∧ s.Counted ∧ s.Open l)
      (Halted calm total) := by
  rintro s ⟨hkept, hcounted, hfile⟩
  have hwhole : Answers.Whole { s.answers with openLegacy := s.answers.openAgain } :=
    ⟨hkept.fair.whole.legacyLags, hkept.fair.whole.ownLags, hkept.fair.whole.turns⟩
  have hcalm : calm → Answers.Calm { s.answers with openLegacy := s.answers.openAgain } ∧
      s.own.host.append = [] := by
    intro h
    obtain ⟨hcalm, happend⟩ := hkept.fair.calm h
    exact ⟨{ hcalm with openLegacy := hcalm.openAgain }, happend⟩
  have hopened : opened { s with
      answers := { s.answers with openLegacy := s.answers.openAgain } } =
      (.ok l.rows.length, { s with
        legacy := .opened l (2 ^ 64 - 1) {}
        answers := { s.answers with openLegacy := s.answers.openAgain } }) := by
    simp only [opened, hfile, Option.getD_some]
  have hall : framesIn s.own.file ++ framesIn (some l) = total := by
    rw [← hfile]
    exact hkept.all
  have hkept' : Kept calm total { s with
      legacy := .opened l (2 ^ 64 - 1) {}
      answers := { s.answers with openLegacy := s.answers.openAgain } } :=
    ⟨⟨hwhole, hcalm⟩, hkept.file, hall⟩
  exact act_ends hopened (fun h => (hkept.fair.calm h).1.openLegacy)
    ⟨⟨hwhole, hcalm⟩, hkept.file, hkept.all⟩ hkept' ⟨rfl, hkept', hcounted, rfl, rfl, rfl⟩

/-- An emptied legacy cache is deleted, and with it nothing. -/
theorem deleteLegacy_kept :
    Ensures (fun s : Site α => s.Kept calm total ∧ framesIn s.legacy.file = []) deleteLegacy
      (fun _ s => s.Kept calm total ∧ s.legacy.file = none) (Halted calm total) := by
  rintro s ⟨hkept, hempty⟩
  have hgone : Kept calm total { s with legacy.file := none } :=
    ⟨⟨hkept.fair.whole, hkept.fair.calm⟩, hkept.file, by rw [← hkept.all, hempty]; rfl⟩
  change Ends (EStateM.bind (act s.answers.unlinkFile _)
    (fun _ => act s.answers.unlinkSidecars _) s) _ _
  refine Ensures.bind (P := fun t => t = s) (Q := fun _ t => t = { s with legacy.file := none })
    ?_ ?_ s rfl
  · rintro t rfl
    exact act_ends rfl (fun h => (hkept.fair.calm h).1.unlinkFile) hkept hgone rfl
  · rintro - t rfl
    exact act_ends rfl (fun h => (hkept.fair.calm h).1.unlinkSidecars) hgone hgone ⟨hgone, rfl⟩

/-! ### The copy -/

/-- The batch is in the cache and still in the legacy file, and will leave it. -/
structure Doubled (calm : Prop) (total : List α) (l : Table α) (s : Site α) : Prop where
  fair : s.Fair calm
  table : ∃ t, s.own.table = some t
  all : framesIn s.own.file ++ (l.rows.drop adoptBatch).map Cached.sample = total
  opens : s.Open l
  removes : s.turn.remove.takesEffect = true

theorem Fair.turn {s : Site α} (h : s.Fair calm) : s.turn.Whole ∧ (calm → s.turn = {}) := by
  unfold Site.turn
  cases hturns : s.answers.turns with
  | nil => exact ⟨by decide, fun _ => rfl⟩
  | cons turn rest =>
    have hmem : turn ∈ s.answers.turns := by
      rw [hturns]
      exact List.mem_cons_self
    exact ⟨h.whole.turns turn hmem, fun hcalm => (h.calm hcalm).1.turns turn hmem⟩

/-- Between two turns of the loop: the cache is connected and `l` is left in the legacy file. -/
structure Copying (calm : Prop) (total : List α) (l : Table α) (s : Site α) : Prop where
  kept : s.Kept calm total
  table : ∃ t, s.own.table = some t
  opens : s.Open l

theorem oldestLegacy_kept :
    Ensures (Copying calm total l) (Storage.oldestLegacy adoptBatch)
      (fun batch s => batch = l.rows.take adoptBatch ∧ s.Copying calm total l)
      (Halted calm total) := by
  intro s hs
  have hread := SqliteCache.oldest_of_table hs.opens.table hs.opens.reads adoptBatch
  have hcalm : calm → s.turn.read = .ok := by
    intro h
    rw [hs.kept.fair.turn.2 h]
  exact act_ends (by simp only [hread]) hcalm hs.kept hs.kept ⟨rfl, hs⟩

theorem append_doubles (hne : l.rows ≠ []) :
    Ensures (Copying calm total l) (Storage.append ((l.rows.take adoptBatch).map Cached.sample))
      (fun _ s => s.Doubled calm total l) (Halted calm total) := by
  intro s hs
  obtain ⟨hwhole, hcalm⟩ := hs.kept.fair.turn
  have hbatch : (l.rows.take adoptBatch).map Cached.sample ≠ [] := by
    rw [Ne, List.map_eq_nil_iff, List.take_eq_nil_iff]
    exact fun h => h.elim (by decide) hne
  change Ends (act s.turn.append _ s) _ _
  cases hfate : s.turn.append with
  | fails =>
    refine ⟨Halt.noConfusion, hs.kept, fun h => ?_⟩
    rw [hcalm h] at hfate
    cases hfate
  | diesBefore =>
    refine ⟨Halt.noConfusion, hs.kept, fun h => ?_⟩
    rw [hcalm h] at hfate
    cases hfate
  | diesAfter =>
    -- The batch would be left in both files.
    rw [Turn.Whole, hfate] at hwhole
    cases (hwhole rfl).1
  | ok =>
    rw [Turn.Whole, hfate] at hwhole
    obtain ⟨t, ht⟩ := hs.table
    obtain ⟨t', ht', happend⟩ | ⟨e, hne, happend⟩ := s.own.append_cases hbatch
    · obtain rfl : t = t' := Option.some.inj (ht.symm.trans ht')
      simp only [act, happend]
      refine ⟨⟨hs.kept.fair.whole, fun h => ?_⟩,
        ⟨t.insert ((l.rows.take adoptBatch).map Cached.sample), ?_⟩, ?_,
        ⟨hs.opens.table, hs.opens.reads, hs.opens.deletes⟩, (hwhole rfl).2⟩
      · obtain ⟨hanswers, hhost⟩ := hs.kept.fair.calm h
        exact ⟨hanswers, by simp only [hhost, List.tail_nil]⟩
      · rw [SqliteCache.table, SqliteCache.conn_of_table ht]
      · rw [framesIn_insert, List.append_assoc, ← List.map_append, List.take_append_drop,
          ← SqliteCache.file_of_table ht, ← hs.kept.all, hs.opens.file]
        rfl
    · -- Only an I/O error keeps a connected cache from taking the batch.
      simp only [act, happend]
      have hrough : ¬ calm := by
        intro h
        refine hne ⟨t, ht⟩ ?_
        rw [(hs.kept.fair.calm h).2, List.headD_nil]
      refine ⟨Halt.noConfusion, ⟨⟨hs.kept.fair.whole, fun h => absurd h hrough⟩, hs.kept.file,
        hs.kept.all⟩, hrough⟩

theorem removeLegacy_kept :
    Ensures (Doubled calm total l) (Storage.removeLegacy (l.rows.take adoptBatch))
      (fun _ s => ∃ l' : Table α, l'.rows = l.rows.drop adoptBatch ∧ s.Copying calm total l')
      (Halted calm total) := by
  intro s hs
  have hfew : min adoptBatch l.rows.length ≤ maxVariables := by
    rw [adoptBatch, maxVariables]
    omega
  obtain ⟨l', hrows, hremove⟩ := SqliteCache.remove_of_table hs.opens.table hs.opens.deletes hfew
  have hwhole : Answers.Whole { s.answers with turns := s.answers.turns.tail } :=
    ⟨hs.fair.whole.legacyLags, hs.fair.whole.ownLags,
      fun turn hturn => hs.fair.whole.turns turn (List.mem_of_mem_tail hturn)⟩
  have hcalm : calm → Answers.Calm { s.answers with turns := s.answers.turns.tail } ∧
      s.own.host.append = [] := by
    intro h
    obtain ⟨hcalm, happend⟩ := hs.fair.calm h
    exact ⟨{ hcalm with turns := fun turn hturn => hcalm.turns turn (List.mem_of_mem_tail hturn) },
      happend⟩
  obtain ⟨t, ht⟩ := hs.table
  have hkept : Kept calm total { s with
      legacy.file := some l'
      legacy.rows := s.legacy.rows - min adoptBatch l.rows.length
      answers.turns := s.answers.turns.tail } := by
    refine ⟨⟨hwhole, hcalm⟩, ⟨t, SqliteCache.file_of_table ht⟩, ?_⟩
    rw [← hs.all, ← hrows]
    rfl
  change Ends (act s.turn.remove _ s) _ _
  -- The batch is in both caches, and the removal goes ahead, whether or not it is lived through.
  have hremoves := hs.removes
  cases hfate : s.turn.remove with
  | fails =>
    rw [hfate] at hremoves
    cases hremoves
  | diesBefore =>
    rw [hfate] at hremoves
    cases hremoves
  | diesAfter =>
    simp only [act, hremove]
    refine ⟨Halt.noConfusion, hkept, fun h => ?_⟩
    rw [hs.fair.turn.2 h] at hfate
    cases hfate
  | ok =>
    simp only [act, hremove]
    refine ⟨l', hrows, hkept, ⟨t, ht⟩, ?_, hs.opens.reads, hs.opens.deletes⟩
    rw [SqliteCache.table, SqliteCache.conn_of_table hs.opens.table]

/-- A batch at a time, with fuel for every row, the legacy cache is emptied. -/
theorem copyAcross_kept (fuel : Nat) (hfuel : l.rows.length < fuel) :
    Ensures (Copying calm total l) (copyAcross fuel)
      (fun _ s => s.Kept calm total ∧ framesIn s.legacy.file = []) (Halted calm total) := by
  induction fuel generalizing l with
  | zero => omega
  | succ fuel ih =>
    unfold copyAcross
    refine oldestLegacy_kept.bind fun batch => ?_
    rintro s ⟨rfl, hs⟩
    refine Ensures.ite (P := fun t => t = s) ?_ ?_ s rfl
    · rintro hempty t rfl
      refine ⟨hs.kept, ?_⟩
      rw [hs.opens.file]
      refine framesIn_of_no_rows ?_
      exact (List.take_eq_nil_iff.mp (List.isEmpty_iff.mp hempty)).resolve_left (by decide)
    · intro hsome
      have hne : l.rows ≠ [] := by
        intro hnone
        rw [hnone] at hsome
        exact hsome rfl
      refine ((append_doubles hne).bind fun _ => removeLegacy_kept.bind fun _ => ?_).of_imp
        fun t ht => ht ▸ hs
      rintro t ⟨l', hrows, ht⟩
      refine ih ?_ t ht
      have hpos : 0 < l.rows.length := List.length_pos_iff.mpr hne
      rw [hrows, List.length_drop, adoptBatch]
      omega

/-! ### The rename -/

/-- Before the rename: the cache's file is empty and the legacy one holds `l`. -/
structure Empty (calm : Prop) (total : List α) (l : Table α) (s : Site α) : Prop where
  kept : s.Kept calm total
  none : ∃ t, s.own.file = some t ∧ t.rows = []
  legacy : s.legacy.file = some l

theorem Empty.renamed {s : Site α} (h : s.Empty calm total l) : Kept calm total s.renamed := by
  obtain ⟨t, ht, hrows⟩ := h.none
  have hfile : s.renamed.own.file = some l := by
    simp only [Site.renamed, h.kept.fair.whole.ownLags, h.kept.fair.whole.legacyLags, h.legacy]
    rfl
  refine ⟨⟨h.kept.fair.whole, h.kept.fair.calm⟩, ⟨l, hfile⟩, ?_⟩
  rw [hfile, ← h.kept.all, ht, framesIn_of_no_rows hrows, h.legacy, List.nil_append]
  exact List.append_nil _

theorem placeholder_kept :
    Ensures (Empty calm total l) Storage.placeholder (fun _ => Empty calm total l)
      (Halted calm total) := by
  intro s hs
  have hkept : Kept calm total { s with own.conn := .memory } :=
    ⟨⟨hs.kept.fair.whole, hs.kept.fair.calm⟩, hs.kept.file, hs.kept.all⟩
  exact act_ends rfl (fun h => (hs.kept.fair.calm h).1.placeholder) hs.kept hkept
    ⟨hkept, hs.none, hs.legacy⟩

/-- A log that was checkpointed holds nothing. -/
theorem removeSidecars_kept :
    Ensures (Empty calm total l) Storage.removeSidecars (fun _ => Empty calm total l)
      (Halted calm total) := by
  intro s hs
  have hsame : s.withoutSidecars = s := by
    rw [withoutSidecars, hs.kept.fair.whole.ownLags]
  have hcalm : calm → _ := fun h => (hs.kept.fair.calm h).1.removeSidecars
  simp only [Storage.removeSidecars, hsame]
  cases hfate : s.answers.removeSidecars with
  | ok => exact hs
  | fails => exact hs
  | diesBefore => exact ⟨Halt.noConfusion, hs.kept, rough_of_dies hcalm (.inl hfate)⟩
  | diesAfter => exact ⟨Halt.noConfusion, hs.kept, rough_of_dies hcalm (.inr hfate)⟩

theorem rename_kept :
    Ensures (Empty calm total l) Storage.rename
      (fun renamed s => if renamed then s.Kept calm total ∧ s.legacy.file = none
        else s.Empty calm total l) (Halted calm total) := by
  intro s hs
  have hcalm : calm → _ := fun h => (hs.kept.fair.calm h).1.rename
  simp only [Storage.rename]
  cases hfate : s.answers.rename with
  | ok => exact ⟨hs.renamed, rfl⟩
  | fails => exact hs
  | diesBefore => exact ⟨Halt.noConfusion, hs.kept, rough_of_dies hcalm (.inl hfate)⟩
  | diesAfter => exact ⟨Halt.noConfusion, hs.renamed, rough_of_dies hcalm (.inr hfate)⟩

/-- However the rename went, the cache is connected again. -/
theorem reopen_kept (renamed : Bool) (rows : Nat) :
    Ensures
      (fun s : Site α => if renamed then s.Kept calm total ∧ s.legacy.file = none
        else s.Empty calm total l)
      (Storage.reopen (if renamed then rows else 0))
      (fun _ s => s.Kept calm total ∧ if renamed then s.legacy.file = none
        else s.Counted ∧ s.legacy.file = some l) (Halted calm total) := by
  intro s hs
  have hkept : s.Kept calm total := by
    cases renamed with
    | true => exact hs.1
    | false => exact hs.kept
  obtain ⟨t, ht⟩ := hkept.file
  have hopen : Kept calm total { s with
      own.conn := .file
      own.file := some (s.own.file.getD .empty)
      own.rows := if renamed then rows else 0 } := by
    refine ⟨⟨hkept.fair.whole, hkept.fair.calm⟩, ⟨_, rfl⟩, ?_⟩
    rw [← hkept.all, ht]
    rfl
  refine act_ends rfl (fun h => (hkept.fair.calm h).1.reopen) hkept hopen ⟨hopen, ?_⟩
  cases renamed with
  | true => exact hs.2
  | false =>
    obtain ⟨t', ht', hrows⟩ := hs.none
    refine ⟨⟨t', ?_, ?_⟩, hs.legacy⟩
    · rw [ht']
      rfl
    · rw [hrows]
      rfl

theorem takeOver_kept (moved : Nat) :
    Ensures (Empty calm total l) (takeOver moved)
      (fun renamed s => s.Kept calm total ∧ if renamed then s.legacy.file = none
        else s.Counted ∧ s.legacy.file = some l) (Halted calm total) := by
  have hclose : Ensures (Empty calm total l) Storage.closeLegacy (fun _ => Empty calm total l)
      (Halted calm total) := fun s hs => hs
  unfold takeOver
  exact hclose.bind fun _ => placeholder_kept.bind fun _ => removeSidecars_kept.bind fun _ =>
    rename_kept.bind fun renamed => (reopen_kept renamed moved).bind fun _ =>
      Ensures.pure fun _ hs => hs

/-! ### The call -/

theorem adoptByCopy_kept (fuel moved : Nat) (hfuel : l.rows.length < fuel) :
    Ensures (fun s : Site α => s.Kept calm total ∧ s.Counted ∧ s.Open l) (adoptByCopy fuel moved)
      (fun _ s => s.Kept calm total ∧ s.legacy.file = none) (Halted calm total) := by
  unfold adoptByCopy
  refine ((copyAcross_kept fuel hfuel).bind fun _ =>
    deleteLegacy_kept.bind fun _ => Ensures.pure fun _ hs => hs).of_imp ?_
  rintro s ⟨hkept, ⟨t, ht, -⟩, hopen⟩
  exact ⟨hkept, ⟨t, ht⟩, hopen⟩

theorem adoptRows_kept (fuel moved : Nat) (hfuel : l.rows.length < fuel) :
    Ensures (fun s : Site α => s.Kept calm total ∧ s.Counted ∧ s.Open l) (adoptRows fuel moved)
      (fun _ s => s.Kept calm total ∧ s.legacy.file = none) (Halted calm total) := by
  unfold adoptRows
  have hrows : Ensures (fun s : Site α => s.Kept calm total ∧ s.Counted ∧ s.Open l)
      Storage.ownRows (fun n s => s.own.rows = n ∧ s.Kept calm total ∧ s.Counted ∧ s.Open l)
      (Halted calm total) := fun s hs => ⟨rfl, hs⟩
  refine hrows.bind fun n => Ensures.ite ?_ ?_
  · rintro rfl
    have hempty : ∀ s : Site α, s.own.rows = 0 ∧ s.Kept calm total ∧ s.Counted ∧ s.Open l →
        s.Empty calm total l := by
      rintro s ⟨hzero, hkept, ⟨t, ht, hcount⟩, hopen⟩
      refine ⟨hkept, ⟨t, SqliteCache.file_of_table ht, ?_⟩, hopen.file⟩
      rw [← List.length_eq_zero_iff, ← hcount, hzero]
    refine ((takeOver_kept moved).of_imp hempty).bind fun renamed => ?_
    cases renamed with
    | true => exact Ensures.pure fun s hs => hs
    | false =>
      refine openLegacy_kept.bind fun again => ?_
      exact (adoptByCopy_kept fuel moved hfuel).of_imp fun s hs => hs.2
  · exact fun _ => (adoptByCopy_kept fuel moved hfuel).of_imp fun s hs => hs.2

/-- A call keeps every frame once, and one that returns has moved them all. -/
theorem adoptWhole_kept {s : Site α} (hkept : s.Kept calm total) (hcounted : s.Counted) :
    Ends s.adoptWhole (fun _ s' => s'.Kept calm total ∧ s'.legacy.file = none) (Halted calm total) := by
  unfold adoptWhole adopt
  cases hfile : s.legacy.file with
  | none =>
    have hthere : Ensures (fun t => t = s) Storage.legacyThere
        (fun there t => there = false ∧ t = s) (Halted calm total) := by
      rintro t rfl
      exact ⟨by rw [hfile]; rfl, rfl⟩
    refine hthere.bind (fun there => ?_) s rfl
    rintro t ⟨rfl, rfl⟩
    exact ⟨hkept, hfile⟩
  | some l =>
    have hfuel : l.rows.length < (framesIn (some l)).length + 1 := by
      rw [framesIn, List.length_map]
      omega
    have hthere : Ensures (fun t => t = s) Storage.legacyThere
        (fun there t => there = true ∧ t = s) (Halted calm total) := by
      rintro t rfl
      exact ⟨by rw [hfile]; rfl, rfl⟩
    refine hthere.bind (fun there => ?_) s rfl
    rintro t ⟨rfl, rfl⟩
    refine openLegacy_kept.bind (fun moved => ?_) t ⟨hkept, hcounted, hfile⟩
    refine Ensures.ite ?_ ?_
    · rintro rfl
      refine (deleteLegacy_kept.bind fun _ => Ensures.pure fun _ hs => hs).of_imp ?_
      rintro u ⟨hzero, hkept', -, hopen⟩
      refine ⟨hkept', ?_⟩
      rw [hopen.file]
      exact framesIn_of_no_rows (List.length_eq_zero_iff.mp hzero.symm)
    · intro _
      refine (adoptRows_kept _ moved hfuel).of_imp ?_
      rintro u ⟨-, hs⟩
      exact hs

/-! ### One start after another -/

/-- The site on which nothing has been adopted, or part of it. -/
structure Between (total : List α) (s : Site α) : Prop where
  file : ∃ t, s.own.file = some t
  all : framesIn s.own.file ++ framesIn s.legacy.file = total

theorem Between.restart {s : Site α} (h : s.Between total) {answers : Answers α}
    (hwhole : answers.Whole) :
    (s.restart answers).Kept answers.Calm total ∧ (s.restart answers).Counted := by
  obtain ⟨t, ht⟩ := h.file
  refine ⟨⟨⟨hwhole, fun hcalm => ⟨hcalm, rfl⟩⟩, ⟨t, ?_⟩, ?_⟩, ⟨t, ?_, ?_⟩⟩
  · rw [Site.restart, ht]
    rfl
  · rw [← h.all, Site.restart, ht]
    rfl
  · rw [Site.restart, ht]
    rfl
  · rw [Site.restart, ht]
    rfl

/-- Whatever interrupts the calls, the one that returns has moved every frame once. -/
theorem adoptUntilOk_all (attempts : List (Answers α)) (hwhole : ∀ a ∈ attempts, a.Whole)
    {s s' : Site α} (hs : s.Between total) (hrun : s.adoptUntilOk attempts = some s') :
    framesIn s'.own.file = total ∧ s'.legacy.file = none := by
  induction attempts generalizing s with
  | nil => cases hrun
  | cons a rest ih =>
    obtain ⟨hkept, hcounted⟩ := hs.restart (hwhole a List.mem_cons_self)
    have hends := adoptWhole_kept hkept hcounted
    rw [adoptUntilOk] at hrun
    cases hcall : (s.restart a).adoptWhole with
    | ok moved t =>
      rw [hcall] at hends hrun
      obtain rfl := Option.some.inj hrun
      obtain ⟨hkept', hgone⟩ := hends
      have hall := hkept'.all
      rw [hgone] at hall
      exact ⟨(List.append_nil _).symm.trans hall, hgone⟩
    | error e t =>
      rw [hcall] at hends hrun
      exact ih (fun b hb => hwhole b (List.mem_cons_of_mem a hb)) ⟨hends.2.1.file, hends.2.1.all⟩
        hrun

/-- A start on which nothing goes wrong ends the wait. -/
theorem adoptUntilOk_returns (attempts : List (Answers α)) (hwhole : ∀ a ∈ attempts, a.Whole)
    {s : Site α} (hs : s.Between total) (hcalm : ∃ a ∈ attempts, a.Calm) :
    ∃ s', s.adoptUntilOk attempts = some s' := by
  induction attempts generalizing s with
  | nil => simp at hcalm
  | cons a rest ih =>
    obtain ⟨hkept, hcounted⟩ := hs.restart (hwhole a List.mem_cons_self)
    have hends := adoptWhole_kept hkept hcounted
    rw [adoptUntilOk]
    cases hcall : (s.restart a).adoptWhole with
    | ok moved t => exact ⟨t, rfl⟩
    | error e t =>
      rw [hcall] at hends
      obtain ⟨b, hb, hcalm⟩ := hcalm
      rcases List.mem_cons.mp hb with rfl | hb
      · exact absurd hcalm hends.2.2
      · exact ih (fun b hb => hwhole b (List.mem_cons_of_mem a hb))
          ⟨hends.2.1.file, hends.2.1.all⟩ ⟨b, hb, hcalm⟩

end Site

/-- Adoption retried until it returns `Ok` leaves the cache's own frames followed by the legacy
ones, each once, and no legacy file; and it does return on a start on which nothing goes wrong. -/
theorem adopt_exactly_once (own legacy : Table α) (attempts : List (Answers α))
    (hwhole : ∀ a ∈ attempts, a.Whole) :
    (∀ s', (Site.ofTables own legacy).adoptUntilOk attempts = some s' →
      framesIn s'.own.file = framesIn (some own) ++ framesIn (some legacy) ∧
        s'.legacy.file = none) ∧
      ((∃ a ∈ attempts, a.Calm) → ∃ s', (Site.ofTables own legacy).adoptUntilOk attempts = some s')
      := by
  have hbetween : (Site.ofTables own legacy).Between
      (framesIn (some own) ++ framesIn (some legacy)) := ⟨⟨own, rfl⟩, rfl⟩
  exact ⟨fun s' hrun => Site.adoptUntilOk_all attempts hwhole hbetween hrun,
    Site.adoptUntilOk_returns attempts hwhole hbetween⟩

/-- A start that fails to remove the file it has emptied, and one on which nothing goes wrong. -/
def twoStarts : List (Answers Nat) := [{ unlinkFile := .fails }, {}]

theorem adopt_exactly_once_retried :
    ∃ s', (Site.ofTables (Table.empty.insert [1]) (Table.empty.insert [2, 3])).adoptUntilOk
        twoStarts = some s' ∧
      framesIn s'.own.file = [1, 2, 3] ∧ s'.legacy.file = none := by
  have hwhole : ∀ a ∈ twoStarts, a.Whole := by
    intro a ha
    rcases List.mem_pair.mp ha with rfl | rfl
    · exact ⟨rfl, rfl, by simp⟩
    · exact ⟨rfl, rfl, by simp⟩
  have hcalm : ∃ a ∈ twoStarts, a.Calm :=
    ⟨{}, List.mem_pair.mpr (.inr rfl),
      ⟨rfl, rfl, .inl rfl, .inl rfl, rfl, rfl, by simp, rfl, rfl⟩⟩
  obtain ⟨hall, hreturns⟩ :=
    adopt_exactly_once (Table.empty.insert [1]) (Table.empty.insert [2, 3]) twoStarts hwhole
  obtain ⟨s', hrun⟩ := hreturns hcalm
  obtain ⟨hframes, hgone⟩ := hall s' hrun
  exact ⟨s', hrun, hframes, hgone⟩

/-- A process that dies between the append and the removal leaves the batch to be moved again. -/
theorem adopted_twice :
    ((Site.ofTables (Table.empty.insert [1]) (Table.empty.insert [2])).adoptUntilOk
      [{ turns := [{ append := .diesAfter }] }, {}]).map
        (fun s => (framesIn s.own.file, s.legacy.file.isSome)) = some ([1, 2, 2], false) ∧
      ([1, 2, 2] : List Nat) ≠ [1] ++ [2] := by
  decide +kernel

end WireTap
