import Mathlib.Data.Finmap
import WireTap.Forward.Catalogues

/-!
# What `apply` does to the lines and to `assignments.json`

`Catalogues.apply_spec` says what an `apply` leaves: the lines and the assignments as the updates
leave them one after another (`applyOne_line`), and the file written if the assignments changed and
it can be.  `Catalogues.apply_cleared` follows a session whose `HELLO_ACK` assigns nothing: every
line it owns goes back to its `/etc` catalogue, every assignment of such a line is forgotten, and
the file is written if that changed anything.  `Catalogues.apply_sameStatus` says what the count of
changes is for: an `apply` that does not tick it leaves everything a `CATALOGUE_STATUS` reports.
-/

namespace WireTap

/-- A line with nothing assigned. -/
def Line.cleared (l : Line) : Line := { l with rules := fallback l.etc }

/-- The line once it has taken an update. -/
def Line.updated (l : Line) : Update → Line
  | .assigned sha catalogue => { l with rules := .gateway sha catalogue }
  | .cleared => l.cleared
  | .refused _ _ => l

/-- The assignments without those of `interfaces`. -/
def Assignments.without (m : Assignments) (interfaces : List String) : Assignments :=
  interfaces.foldl (fun m i => m.erase i) m

theorem Assignments.lookup_without (m : Assignments) (interfaces : List String) (k : String) :
    (m.without interfaces).lookup k = if k ∈ interfaces then none else m.lookup k := by
  induction interfaces generalizing m with
  | nil => rw [if_neg List.not_mem_nil]; rfl
  | cons i rest ih =>
    change (Assignments.without (m.erase i) rest).lookup k = _
    rw [ih]
    by_cases hrest : k ∈ rest
    · rw [if_pos hrest, if_pos (List.mem_cons_of_mem i hrest)]
    · rw [if_neg hrest]
      by_cases hk : k = i
      · subst hk
        rw [if_pos List.mem_cons_self, Finmap.lookup_erase]
      · rw [if_neg (List.not_mem_cons_of_ne_of_not_mem hk hrest), Finmap.lookup_erase_ne hk]

/-- Forgetting assignments there are none of. -/
theorem Assignments.without_eq_self_iff (m : Assignments) (interfaces : List String) :
    m.without interfaces = m ↔ ∀ i ∈ interfaces, m.lookup i = none := by
  constructor
  · intro h i hi
    have hlook := Assignments.lookup_without m interfaces i
    rw [h, if_pos hi] at hlook
    exact hlook
  · intro h
    apply Finmap.ext_lookup
    intro k
    rw [Assignments.lookup_without]
    split
    · rename_i hk
      rw [h k hk]
    · rfl

namespace Catalogues

theorem interface_of_line {c : Catalogues} {k : String} {l : Line} (h : c.line k = some l) :
    l.interface = k := by
  have hp := List.find?_some h
  simpa using hp

theorem find_of_mem {lines : List Line} (hdistinct : (lines.map Line.interface).Nodup) {l : Line}
    (h : l ∈ lines) : lines.find? (fun x => x.interface = l.interface) = some l := by
  induction lines with
  | nil => cases h
  | cons x xs ih =>
    rw [List.map_cons, List.nodup_cons] at hdistinct
    rcases List.mem_cons.mp h with rfl | hmem
    · rw [List.find?_cons_of_pos (by simp)]
    · have hne : x.interface ≠ l.interface := fun heq =>
        hdistinct.1 (heq ▸ List.mem_map_of_mem hmem)
      rw [List.find?_cons_of_neg (by simpa using hne), ih hdistinct.2 hmem]

/-- Every line is found under its interface. -/
theorem line_of_mem {c : Catalogues} {l : Line} (h : l ∈ c.lines) :
    c.line l.interface = some l :=
  find_of_mem c.distinct h

theorem find_setRules (lines : List Line) (interface k : String) (rules : Rules) :
    (setRules lines interface rules).find? (fun l => l.interface = k) =
      (lines.find? fun l => l.interface = k).map fun l =>
        if l.interface = interface then { l with rules } else l := by
  induction lines with
  | nil => rfl
  | cons l lines ih =>
    have hsame : (if l.interface = interface then { l with rules } else l).interface =
        l.interface := by
      split <;> rfl
    change List.find? _ ((if l.interface = interface then { l with rules } else l) ::
      setRules lines interface rules) = _
    by_cases hk : l.interface = k
    · rw [List.find?_cons_of_pos (by simpa [hsame] using hk),
        List.find?_cons_of_pos (by simpa using hk)]
      rfl
    · rw [List.find?_cons_of_neg (by simpa [hsame] using hk),
        List.find?_cons_of_neg (by simpa using hk), ih]

theorem take_line (c : Catalogues) (interface k : String) (assigned : Assignments) (rules : Rules) :
    (c.take interface assigned rules).line k = (c.line k).map fun l =>
      if k = interface then { l with rules } else l := by
  have hfind : (c.take interface assigned rules).line k = (c.line k).map fun l =>
      if l.interface = interface then { l with rules } else l :=
    find_setRules c.lines interface k rules
  rw [hfind]
  apply Option.map_congr
  intro l hl
  rw [interface_of_line hl]

theorem applyOne_line (c : Catalogues) (interface k : String) (update : Update) :
    (c.applyOne interface update).1.line k = (c.line k).map fun l =>
      if k = interface then l.updated update else l := by
  unfold applyOne
  cases hline : c.line interface with
  | none =>
    cases hk : c.line k with
    | none => rfl
    | some l =>
      have hne : k ≠ interface := by
        rintro rfl
        simp [hline] at hk
      rw [Option.map_some, if_neg hne]
  | some line =>
    cases update with
    | assigned sha catalogue => exact take_line c interface k _ _
    | cleared =>
      refine (take_line c interface k _ _).trans (Option.map_congr ?_)
      intro l hl
      -- `take` gives it the fallback of the line that was found, which is this one.
      by_cases hk : k = interface
      · rw [hk, hline] at hl
        rw [if_pos hk, if_pos hk, Option.some.inj hl]
        rfl
      · rw [if_neg hk, if_neg hk]
    | refused sha refusal =>
      change c.line k = _
      simp [Line.updated]

theorem applyAll_dir_disk (c : Catalogues) (updates : List (String × Update)) :
    (c.applyAll updates).1.dir = c.dir ∧ (c.applyAll updates).1.disk = c.disk := by
  induction updates generalizing c with
  | nil => exact ⟨rfl, rfl⟩
  | cons update rest ih =>
    obtain ⟨i, update⟩ := update
    have hone : (c.applyOne i update).1.dir = c.dir ∧ (c.applyOne i update).1.disk = c.disk := by
      unfold applyOne
      split
      · exact ⟨rfl, rfl⟩
      · cases update <;> exact ⟨rfl, rfl⟩
    obtain ⟨hdir, hdisk⟩ := ih (c.applyOne i update).1
    exact ⟨hdir.trans hone.1, hdisk.trans hone.2⟩

/-- Clearing lines one after another. -/
theorem applyAll_cleared (c : Catalogues) (interfaces : List String)
    (hlines : ∀ i ∈ interfaces, (c.line i).isSome) :
    let c' := (c.applyAll (interfaces.map fun i => (i, .cleared))).1
    c'.assigned = c.assigned.without interfaces ∧
      ∀ k, c'.line k = (c.line k).map fun l => if k ∈ interfaces then l.cleared else l := by
  induction interfaces generalizing c with
  | nil =>
    refine ⟨rfl, fun k => ?_⟩
    simp [applyAll]
  | cons i rest ih =>
    have hone : (c.applyOne i .cleared).1.assigned = c.assigned.erase i := by
      obtain ⟨line, hline⟩ := Option.isSome_iff_exists.mp (hlines i List.mem_cons_self)
      unfold applyOne
      rw [hline]
      rfl
    obtain ⟨hassigned, hline⟩ := ih (c.applyOne i .cleared).1 (by
      intro j hj
      rw [applyOne_line, Option.isSome_map]
      exact hlines j (List.mem_cons_of_mem i hj))
    refine ⟨?_, fun k => ?_⟩
    · rw [hone] at hassigned
      exact hassigned
    · refine (hline k).trans ?_
      rw [applyOne_line, Option.map_map]
      apply Option.map_congr
      intro l _
      dsimp only [Function.comp_apply]
      -- A line the list names twice is cleared twice, which is as good as once.
      by_cases hi : k = i
      · subst hi
        rw [if_pos rfl, if_pos List.mem_cons_self]
        split <;> rfl
      · rw [if_neg hi]
        simp [hi]

/-- `remember` leaves everything but the disk. -/
theorem remember_eq (c : Catalogues) : c.remember = { c with disk := c.remember.disk } := by
  unfold remember
  split
  · rfl
  · dsimp only
    split <;> rfl

theorem remember_assignments (c : Catalogues) :
    c.remember.disk.assignments =
      if c.dir = none ∨ (c.disk.failures.headD none).isSome then c.disk.assignments
      else some (toVecPretty c.assigned) := by
  unfold remember
  cases hd : c.dir with
  | none => simp
  | some dir => cases hf : c.disk.failures.headD none <;> simp

/-- An `apply`, as its parts are left by the updates and by the write. -/
theorem apply_spec (c : Catalogues) (updates : List (String × Update)) :
    let c' := c.apply updates
    c'.dir = c.dir ∧ c'.lines = (c.applyAll updates).1.lines ∧
      c'.assigned = (c.applyAll updates).1.assigned ∧
      c'.disk.assignments =
        if (c.applyAll updates).1.assigned = c.assigned ∨ c.dir = none ∨
          (c.disk.failures.headD none).isSome then c.disk.assignments
        else some (toVecPretty (c.applyAll updates).1.assigned) := by
  obtain ⟨hdir, hdisk⟩ := applyAll_dir_disk c updates
  unfold apply
  dsimp only
  split
  · rename_i heq
    refine ⟨hdir, rfl, rfl, ?_⟩
    rw [if_pos (Or.inl heq)]
    dsimp only
    rw [hdisk]
  · rename_i hne
    refine ⟨by rw [remember_eq]; exact hdir, by rw [remember_eq], by rw [remember_eq], ?_⟩
    rw [remember_assignments]
    dsimp only at hne ⊢
    rw [hdir, hdisk]
    exact if_congr (or_iff_right hne).symm rfl rfl

/-- The lines `owned_by` names exist. -/
theorem line_of_ownedBy {c : Catalogues} {database i : String} (h : i ∈ c.ownedBy database) :
    ∃ l, c.line i = some l ∧ l.database = database := by
  obtain ⟨l, hl, rfl⟩ := List.mem_map.mp h
  obtain ⟨hmem, hdb⟩ := List.mem_filter.mp hl
  exact ⟨l, line_of_mem hmem, by simpa using hdb⟩

theorem mem_ownedBy_iff {c : Catalogues} {database k : String} {l : Line}
    (h : c.line k = some l) : k ∈ c.ownedBy database ↔ l.database = database := by
  constructor
  · intro hk
    obtain ⟨l', hl', hdb⟩ := line_of_ownedBy hk
    rw [Option.some.inj (h.symm.trans hl')]
    exact hdb
  · intro hdb
    have hmem := List.mem_of_find?_eq_some h
    rw [← interface_of_line h]
    exact List.mem_map_of_mem (List.mem_filter.mpr ⟨hmem, by simpa using hdb⟩)

/-- Nothing assigned to the lines of `database`: what they frame with, and the file, afterwards. -/
theorem apply_cleared (c : Catalogues) (database : String) :
    let c' := c.apply ((c.ownedBy database).map fun i => (i, .cleared))
    (∀ k, c'.effective k = (c.line k).map fun l =>
      if l.database = database then fallback l.etc else l.rules) ∧
    c'.disk.assignments =
      if c.assigned.without (c.ownedBy database) = c.assigned ∨ c.dir = none ∨
        (c.disk.failures.headD none).isSome then c.disk.assignments
      else some (toVecPretty (c.assigned.without (c.ownedBy database))) := by
  have hlines : ∀ i ∈ c.ownedBy database, (c.line i).isSome := by
    intro i hi
    obtain ⟨l, hl, -⟩ := line_of_ownedBy hi
    rw [hl]
    rfl
  obtain ⟨hassigned, hline⟩ := applyAll_cleared c (c.ownedBy database) hlines
  obtain ⟨-, hsame, -, hfile⟩ := c.apply_spec ((c.ownedBy database).map fun i => (i, .cleared))
  rw [hassigned] at hfile
  refine ⟨fun k => ?_, hfile⟩
  rw [effective, line, hsame]
  change ((c.applyAll _).1.line k).map Line.rules = _
  rw [hline, Option.map_map]
  apply Option.map_congr
  intro l hl
  have hmem : k ∈ c.ownedBy database ↔ l.database = database := mem_ownedBy_iff hl
  dsimp only [Function.comp_apply]
  by_cases hdb : l.database = database
  · rw [if_pos (hmem.mpr hdb), if_pos hdb]
    rfl
  · rw [if_neg (fun hk => hdb (hmem.mp hk)), if_neg hdb]

/-! ### What a change stands for -/

/-- Nothing a `CATALOGUE_STATUS` reports differs. -/
structure SameStatus (c c' : Catalogues) : Prop where
  effective (k : String) : c'.effective k = c.effective k
  refused (k : String) : c'.refused.lookup k = c.refused.lookup k

namespace SameStatus

variable {c c₁ c₂ : Catalogues}

theorem refl (c : Catalogues) : SameStatus c c := ⟨fun _ => rfl, fun _ => rfl⟩

theorem trans (h : SameStatus c c₁) (h' : SameStatus c₁ c₂) : SameStatus c c₂ :=
  ⟨fun k => (h'.effective k).trans (h.effective k), fun k => (h'.refused k).trans (h.refused k)⟩

theorem of_eq (hlines : c₁.lines = c.lines) (hrefused : c₁.refused = c.refused) :
    SameStatus c c₁ := by
  refine ⟨fun k => ?_, fun k => by rw [hrefused]⟩
  rw [Catalogues.effective, line, hlines]
  rfl

theorem status (h : SameStatus c c₁) (devices : List Device) :
    c₁.status devices = c.status devices := by
  unfold Catalogues.status
  apply List.map_congr_left
  intro d _
  rw [h.effective, h.refused]

end SameStatus

theorem take_sameStatus {c : Catalogues} {interface : String} {l : Line} (assigned : Assignments)
    (hline : c.line interface = some l) (hrefused : c.refused.lookup interface = none) :
    SameStatus c (c.take interface assigned l.rules) := by
  constructor
  · intro k
    rw [effective, take_line, effective, Option.map_map]
    apply Option.map_congr
    intro x hx
    dsimp only [Function.comp_apply]
    split
    · rename_i hk
      rw [hk, hline] at hx
      rw [Option.some.inj hx]
    · rfl
  · intro k
    change (c.refused.erase interface).lookup k = _
    by_cases hk : k = interface
    · rw [hk, Finmap.lookup_erase, hrefused]
    · rw [Finmap.lookup_erase_ne hk]

/-- An update that counts as no change leaves the status. -/
theorem applyOne_sameStatus (c : Catalogues) (interface : String) (update : Update)
    (h : (c.applyOne interface update).2 = false) :
    SameStatus c (c.applyOne interface update).1 := by
  unfold applyOne at h ⊢
  cases hline : c.line interface with
  | none => exact SameStatus.refl c
  | some l =>
    rw [hline] at h
    cases update with
    | assigned sha catalogue =>
      simp only [Bool.or_eq_false_iff, bne_eq_false_iff_eq, Option.isSome_eq_false_iff,
        Option.isNone_iff_eq_none] at h
      dsimp only
      rw [← h.2]
      exact take_sameStatus _ hline h.1
    | cleared =>
      simp only [Bool.or_eq_false_iff, bne_eq_false_iff_eq, Option.isSome_eq_false_iff,
        Option.isNone_iff_eq_none] at h
      dsimp only
      rw [← h.2]
      exact take_sameStatus _ hline h.1
    | refused sha refusal =>
      simp only [bne_eq_false_iff_eq] at h
      refine ⟨fun _ => rfl, fun k => ?_⟩
      change (c.refused.insert interface (sha, refusal)).lookup k = _
      by_cases hk : k = interface
      · rw [hk, Finmap.lookup_insert, h]
      · rw [Finmap.lookup_insert_of_ne _ hk]

theorem applyAll_sameStatus (c : Catalogues) (updates : List (String × Update))
    (h : (c.applyAll updates).2 = false) : SameStatus c (c.applyAll updates).1 := by
  induction updates generalizing c with
  | nil => exact SameStatus.refl c
  | cons update rest ih =>
    obtain ⟨interface, update⟩ := update
    obtain ⟨hone, hrest⟩ := Bool.or_eq_false_iff.mp h
    exact (applyOne_sameStatus c interface update hone).trans (ih _ hrest)

theorem apply_changes (c : Catalogues) (updates : List (String × Update)) :
    (c.apply updates).changes =
      if (c.applyAll updates).2 then c.changes + 1 else c.changes := by
  unfold apply
  dsimp only
  split
  · rfl
  · rw [remember_eq]

/-- An `apply` either ticks or leaves the status. -/
theorem apply_sameStatus (c : Catalogues) (updates : List (String × Update))
    (h : (c.applyAll updates).2 = false) : SameStatus c (c.apply updates) := by
  have hall : SameStatus c { (c.applyAll updates).1 with
      changes := if (c.applyAll updates).2 then c.changes + 1 else c.changes } :=
    (applyAll_sameStatus c updates h).trans (SameStatus.of_eq rfl rfl)
  unfold apply
  dsimp only
  split
  · exact hall
  · rw [remember_eq]
    exact hall.trans (SameStatus.of_eq rfl rfl)

end Catalogues

end WireTap
