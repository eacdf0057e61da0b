import Mathlib.Data.List.Basic
import Mathlib.Tactic.Common
import WireTap.Lib.Halting
import WireTap.Cache.Adopt
import WireTap.Cache.Equiv.Adopt

/-!
# What can be in a cache's file

Whatever SQLite and the file system answer, an append adds its batch or nothing and no other
operation adds anything.  A call of `adopt` puts behind what the cache held only frames of the
legacy cache, however it ends, if the closes in `take_over` checkpoint (`adopting_adds`).
-/

namespace WireTap

variable {α : Type}

theorem mem_framesIn_getD {file : Option (Table α)} {t : Table α} {x : α}
    (h : x ∈ framesIn (some (file.getD t))) : x ∈ framesIn file ∨ x ∈ framesIn (some t) := by
  cases file with
  | none => exact .inr h
  | some u => exact .inl h

/-- No file holds what an empty one does. -/
theorem framesIn_getD_empty (file : Option (Table α)) :
    framesIn (some (file.getD .empty)) = framesIn file := by
  cases file <;> rfl

namespace SqliteCache

variable (c : SqliteCache α)

theorem append_adds (xs : List α) :
    framesIn (c.append xs).2.file = framesIn c.file ∨
      framesIn (c.append xs).2.file = framesIn c.file ++ xs := by
  by_cases hxs : xs = []
  · rw [hxs]
    exact .inl rfl
  · obtain ⟨t, ht, happend⟩ | ⟨e, -, happend⟩ := c.append_cases hxs
    · right
      rw [happend, framesIn_insert, file_of_table ht]
    · left
      rw [happend]

theorem mem_append {xs : List α} {x : α} (h : x ∈ framesIn (c.append xs).2.file) :
    x ∈ framesIn c.file ∨ x ∈ xs := by
  rcases c.append_adds xs with hsame | hadded
  · rw [hsame] at h
    exact .inl h
  · rw [hadded] at h
    exact List.mem_append.mp h

theorem oldest_file (limit : Nat) : (c.oldest limit).2.file = c.file := by
  unfold oldest
  dsimp only
  split
  · rfl
  · split <;> rfl

/-- What is read is in the file. -/
theorem oldest_subset {limit : Nat} {cached : List (Cached α)}
    (h : (c.oldest limit).1 = .ok cached) : cached.map Cached.sample ⊆ framesIn c.file := by
  unfold oldest at h
  dsimp only at h
  split at h
  · cases h
  · rename_i t ht
    split at h
    · cases h
    · obtain rfl := Except.ok.inj h
      rw [file_of_table ht]
      exact List.map_subset _ (List.take_subset limit t.rows)

theorem remove_subset (frames : List (Cached α)) :
    framesIn (c.remove frames).2.file ⊆ framesIn c.file := by
  unfold remove
  split
  · exact List.Subset.refl _
  · split
    · exact List.Subset.refl _
    · split
      · exact List.Subset.refl _
      · rename_i t ht
        dsimp only
        split
        · exact List.Subset.refl _
        · rw [file_of_table ht]
          exact List.map_subset _ (List.filter_subset_self _)

theorem reset_subset : framesIn c.reset.2.file ⊆ framesIn c.file := by
  unfold reset
  dsimp only
  split
  · exact List.Subset.refl _
  · exact List.Subset.refl _
  · exact List.nil_subset _
  · exact List.nil_subset _
  · exact List.nil_subset _

end SqliteCache

/-! ### Adoption -/

namespace Site

/-- The cache's file held `own` and has since got frames of `legacy`, which is all that is in the
other one. -/
structure Grown (own legacy : List α) (s : Site α) : Prop where
  legacyLags : s.answers.legacyLags = none
  ownLags : s.answers.ownLags = none
  own : ∃ moved, framesIn s.own.file = own ++ moved ∧ moved ⊆ legacy
  legacy : framesIn s.legacy.file ⊆ legacy

variable {β : Type} {own legacy : List α}

/-- A step that keeps it whether or not it takes effect. -/
theorem act_grown {fate : Fate} {effect : Site α → Except CacheError β × Site α} {s : Site α}
    {Q : β → Site α → Prop} (hbefore : s.Grown own legacy) (hafter : (effect s).2.Grown own legacy)
    (hok : ∀ b, (effect s).1 = .ok b → Q b (effect s).2) :
    Ends (act fate effect s) Q fun _ => Grown own legacy :=
  act_rule (fun _ => hbefore) (fun _ => hafter) hok

theorem openLegacy_grown :
    Ensures (Grown own legacy) Storage.openLegacy (fun _ => Grown own legacy)
      fun _ => Grown own legacy := by
  intro s hs
  have hopened : (opened { s with
      answers := { s.answers with openLegacy := s.answers.openAgain } }).2.Grown own legacy := by
    refine ⟨hs.legacyLags, hs.ownLags, hs.own, ?_⟩
    change framesIn (some (s.legacy.file.getD .empty)) ⊆ legacy
    rw [framesIn_getD_empty]
    exact hs.legacy
  exact act_grown ⟨hs.legacyLags, hs.ownLags, hs.own, hs.legacy⟩ hopened fun _ _ => hopened

theorem deleteLegacy_grown :
    Ensures (Grown own legacy) deleteLegacy (fun _ => Grown own legacy)
      fun _ => Grown own legacy := by
  intro s hs
  change Ends (EStateM.bind (act s.answers.unlinkFile _)
    (fun _ => act s.answers.unlinkSidecars _) s) _ _
  refine Ensures.bind (P := fun t => t = s) (Q := fun _ => Grown own legacy) ?_ ?_ s rfl
  · rintro t rfl
    have hgone : Grown own legacy { t with legacy.file := none } :=
      ⟨hs.legacyLags, hs.ownLags, hs.own, List.nil_subset _⟩
    exact act_grown hs hgone fun _ _ => hgone
  · intro _ t ht
    exact act_grown ht ht fun _ _ => ht

theorem oldestLegacy_grown (limit : Nat) :
    Ensures (Grown own legacy) (Storage.oldestLegacy limit)
      (fun batch s => s.Grown own legacy ∧ batch.map Cached.sample ⊆ legacy)
      fun _ => Grown own legacy := by
  intro s hs
  have hread : Grown own legacy { s with legacy := (s.legacy.oldest limit).2 } := by
    refine ⟨hs.legacyLags, hs.ownLags, hs.own, ?_⟩
    change framesIn (s.legacy.oldest limit).2.file ⊆ legacy
    rw [SqliteCache.oldest_file]
    exact hs.legacy
  refine act_grown hs hread fun batch hbatch => ⟨hread, ?_⟩
  exact List.Subset.trans (s.legacy.oldest_subset hbatch) hs.legacy

theorem append_grown {frames : List α} (hframes : frames ⊆ legacy) :
    Ensures (Grown own legacy) (Storage.append frames) (fun _ => Grown own legacy)
      fun _ => Grown own legacy := by
  intro s hs
  have happended : Grown own legacy { s with own := (s.own.append frames).2 } := by
    refine ⟨hs.legacyLags, hs.ownLags, ?_, hs.legacy⟩
    obtain ⟨moved, hown, hmoved⟩ := hs.own
    change ∃ moved, framesIn (s.own.append frames).2.file = own ++ moved ∧ moved ⊆ legacy
    rcases s.own.append_adds frames with hsame | hadded
    · exact ⟨moved, by rw [hsame, hown], hmoved⟩
    · refine ⟨moved ++ frames, by rw [hadded, hown, List.append_assoc], ?_⟩
      exact List.append_subset.mpr ⟨hmoved, hframes⟩
  exact act_grown hs happended fun _ _ => happended

theorem removeLegacy_grown (batch : List (Cached α)) :
    Ensures (Grown own legacy) (Storage.removeLegacy batch) (fun _ => Grown own legacy)
      fun _ => Grown own legacy := by
  intro s hs
  have hremoved : Grown own legacy { s with
      legacy := (s.legacy.remove batch).2
      answers.turns := s.answers.turns.tail } :=
    ⟨hs.legacyLags, hs.ownLags, hs.own, List.Subset.trans (s.legacy.remove_subset batch) hs.legacy⟩
  exact act_grown hs hremoved fun _ _ => hremoved

theorem copyAcross_grown (fuel : Nat) :
    Ensures (Grown own legacy) (copyAcross fuel) (fun _ => Grown own legacy)
      fun _ => Grown own legacy := by
  induction fuel with
  | zero => exact Ensures.throw fun _ hs => hs
  | succ fuel ih =>
    unfold copyAcross
    refine (oldestLegacy_grown adoptBatch).bind fun batch => Ensures.ite ?_ ?_
    · exact fun _ => Ensures.pure fun _ hs => hs.1
    · rintro - s ⟨hs, hbatch⟩
      exact ((append_grown hbatch).bind fun _ => (removeLegacy_grown batch).bind fun _ => ih) s hs

/-- With nothing in the cache's own file, the legacy one may take its place. -/
theorem takeOver_grown (rows : Nat) :
    Ensures (Grown [] legacy) (takeOver rows) (fun _ => Grown [] legacy)
      fun _ => Grown [] legacy := by
  have hclose : Ensures (Grown [] legacy) (Storage.closeLegacy (σ := Site α))
      (fun _ => Grown [] legacy) fun _ => Grown [] legacy := fun s hs => hs
  have hplaceholder : Ensures (Grown [] legacy) (Storage.placeholder (σ := Site α))
      (fun _ => Grown [] legacy) fun _ => Grown [] legacy := by
    intro s hs
    have hput : Grown [] legacy { s with own.conn := .memory } :=
      ⟨hs.legacyLags, hs.ownLags, hs.own, hs.legacy⟩
    exact act_grown hs hput fun _ _ => hput
  have hsidecars : Ensures (Grown [] legacy) (Storage.removeSidecars (σ := Site α))
      (fun _ => Grown [] legacy) fun _ => Grown [] legacy := by
    intro s hs
    have hsame : s.withoutSidecars = s := by
      rw [withoutSidecars, hs.ownLags]
    simp only [Storage.removeSidecars, hsame]
    cases s.answers.removeSidecars <;> exact hs
  have hrename : Ensures (Grown [] legacy) (Storage.rename (σ := Site α))
      (fun _ => Grown [] legacy) fun _ => Grown [] legacy := by
    -- Whatever the legacy file still holds is now the cache's own, or stays where it was.
    intro s hs
    have hrenamed : s.renamed.Grown [] legacy := by
      refine ⟨hs.legacyLags, hs.ownLags, ⟨framesIn s.legacy.file, ?_, hs.legacy⟩,
        List.nil_subset _⟩
      simp only [renamed, hs.ownLags, hs.legacyLags]
      exact framesIn_getD_empty _
    simp only [Storage.rename]
    cases s.answers.rename with
    | ok => exact hrenamed
    | fails => exact hs
    | diesBefore => exact hs
    | diesAfter => exact hrenamed
  have hreopen (rows : Nat) : Ensures (Grown [] legacy) (Storage.reopen (σ := Site α) rows)
      (fun _ => Grown [] legacy) fun _ => Grown [] legacy := by
    intro s hs
    have hopen : Grown [] legacy { s with
        own.conn := .file
        own.file := some (s.own.file.getD .empty)
        own.rows := rows } := by
      refine ⟨hs.legacyLags, hs.ownLags, ?_, hs.legacy⟩
      obtain ⟨moved, hown, hmoved⟩ := hs.own
      refine ⟨moved, ?_, hmoved⟩
      rw [← hown]
      exact framesIn_getD_empty _
    exact act_grown hs hopen fun _ _ => hopen
  unfold takeOver
  exact hclose.bind fun _ => hplaceholder.bind fun _ => hsidecars.bind fun _ =>
    hrename.bind fun _ => (hreopen _).bind fun _ => Ensures.pure fun _ hs => hs

theorem adoptByCopy_grown (fuel moved : Nat) :
    Ensures (Grown own legacy) (adoptByCopy fuel moved) (fun _ => Grown own legacy)
      fun _ => Grown own legacy := by
  unfold adoptByCopy
  exact (copyAcross_grown fuel).bind fun _ =>
    deleteLegacy_grown.bind fun _ => Ensures.pure fun _ hs => hs

/-- The cache's file is replaced only while its row count says it is empty. -/
theorem adoptRows_grown (fuel moved : Nat) :
    Ensures (fun s : Site α => s.Grown own legacy ∧ s.own.rows = own.length)
      (adoptRows fuel moved) (fun _ => Grown own legacy) fun _ => Grown own legacy := by
  rintro s ⟨hs, hcount⟩
  have hrows : Ensures (fun t => t = s) Storage.ownRows
      (fun n t => own.length = n ∧ t.Grown own legacy) fun _ => Grown own legacy := by
    rintro t rfl
    exact ⟨hcount.symm, hs⟩
  unfold adoptRows
  refine hrows.bind (fun n => Ensures.ite ?_ fun _ => ?_) s rfl
  · rintro rfl t ⟨hnone, ht⟩
    obtain rfl := List.length_eq_zero_iff.mp hnone
    refine (takeOver_grown moved).bind (fun renamed => Ensures.ite ?_ ?_) t ht
    · exact fun _ => Ensures.pure fun _ hu => hu
    · exact fun _ => openLegacy_grown.bind fun _ => adoptByCopy_grown fuel moved
  · exact (adoptByCopy_grown fuel moved).of_imp fun _ ht => ht.2

theorem adopt_grown (fuel : Nat) :
    Ensures (fun s : Site α => s.Grown own legacy ∧ s.own.rows = own.length) (adopt fuel)
      (fun _ => Grown own legacy) fun _ => Grown own legacy := by
  have hthere : Ensures (fun s : Site α => s.Grown own legacy ∧ s.own.rows = own.length)
      Storage.legacyThere (fun _ s => s.Grown own legacy ∧ s.own.rows = own.length)
      fun _ => Grown own legacy := fun s hs => hs
  have hopen : Ensures (fun s : Site α => s.Grown own legacy ∧ s.own.rows = own.length)
      Storage.openLegacy (fun _ s => s.Grown own legacy ∧ s.own.rows = own.length)
      fun _ => Grown own legacy := by
    rintro s ⟨hs, hcount⟩
    have hends := openLegacy_grown s hs
    revert hends
    change Ends (act s.answers.openLegacy opened _) _ _ → Ends (act s.answers.openLegacy opened _) _ _
    cases s.answers.openLegacy with
    | ok => exact fun hends => ⟨hends, hcount⟩
    | fails => exact id
    | diesBefore => exact id
    | diesAfter => exact id
  have hdelete : Ensures (Grown own legacy)
      (do deleteLegacy; return 0 : Step (Site α) Nat) (fun _ => Grown own legacy)
      fun _ => Grown own legacy := deleteLegacy_grown.bind fun _ => Ensures.pure fun _ hs => hs
  unfold adopt
  refine hthere.bind fun there => Ensures.ite (fun _ => ?_) fun _ => ?_
  · refine hopen.bind fun moved => Ensures.ite (fun _ => ?_) fun _ => adoptRows_grown fuel moved
    exact hdelete.of_imp fun _ hs => hs.1
  · exact Ensures.pure fun _ hs => hs.1

end Site

/-- However the call ends, the cache has what it had and then only frames of the legacy cache. -/
theorem SqliteCache.adopting_adds {c : SqliteCache α} {answers : Answers α}
    (hcount : c.rows = (framesIn c.file).length) (hlegacy : answers.legacyLags = none)
    (hown : answers.ownLags = none) (legacy : Option (Table α)) :
    (adoptLeaves (c.adopting legacy answers)).Grown (framesIn c.file) (framesIn legacy) := by
  have hends : Ends (c.adopting legacy answers) (fun _ => Site.Grown _ _) fun _ => Site.Grown _ _ :=
    Site.adopt_grown _ _ ⟨⟨hlegacy, hown, ⟨[], (List.append_nil _).symm, List.nil_subset _⟩,
      List.Subset.refl _⟩, hcount⟩
  cases hcall : c.adopting legacy answers with
  | ok moved s =>
    rw [hcall] at hends
    exact hends
  | error e s =>
    rw [hcall] at hends
    exact hends

end WireTap
