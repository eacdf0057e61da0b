import WireTap.Forward.Restart
import WireTap.Forward.Equiv.Catalogues

/-!
# Assignments survive a restart, unless a write was lost

`Filed.run_remembers`: after an `apply` during which `assignments.json` could be written, the file
has what is assigned and a restart with the gateway down gives every line the rules it had.  The
exception is an `apply` that assigns nothing otherwise (`Catalogues.Changes`) after a write that
failed: it skips the write, so the file stays as it was.

The invariant of every run is `Filed.Follows`: unless the last write that was tried failed, the file
is as that write, or the daemon's start, left the assignments (`Filed.Written`), and each line frames
with what it is assigned (`Catalogues.Framed`).
-/

namespace WireTap

/-! ### What `apply` leaves assigned -/

/-- What an update has to say of its interface's assignment. -/
def Update.assigns : Update → Option (Option String)
  | .assigned sha _ => some (some sha)
  | .cleared => some none
  | .refused _ _ => none

/-- What the updates want assigned to an interface: the last that says so decides. -/
def wanted (interface : String) : List (String × Update) → Option (Option String)
  | [] => none
  | (i, update) :: rest =>
    match wanted interface rest with
    | some assigned => some assigned
    | none => if i = interface then update.assigns else none

namespace Catalogues

theorem applyOne_assigned (c : Catalogues) (interface k : String) (update : Update) :
    (c.applyOne interface update).1.assigned.lookup k =
      if k = interface ∧ (c.line k).isSome then update.assigns.getD (c.assigned.lookup k)
      else c.assigned.lookup k := by
  unfold applyOne
  cases hline : c.line interface with
  | none =>
    have hnot : ¬ (k = interface ∧ (c.line k).isSome) := by
      rintro ⟨rfl, hsome⟩
      simp [hline] at hsome
    rw [if_neg hnot]
  | some line =>
    by_cases hk : k = interface
    · subst hk
      rw [if_pos ⟨rfl, by rw [hline]; rfl⟩]
      cases update with
      | assigned sha catalogue => exact Finmap.lookup_insert _
      | cleared => exact Finmap.lookup_erase _ _
      | refused sha refusal => rfl
    · rw [if_neg fun h => hk h.1]
      cases update with
      | assigned sha catalogue => exact Finmap.lookup_insert_of_ne _ hk
      | cleared => exact Finmap.lookup_erase_ne hk
      | refused sha refusal => rfl

theorem line_congr {c c' : Catalogues} (h : ∀ l, l ∈ c'.lines ↔ l ∈ c.lines) (k : String) :
    c'.line k = c.line k := by
  cases hk : c.line k with
  | none =>
    apply List.find?_eq_none.mpr
    intro l hl
    exact List.find?_eq_none.mp hk l ((h l).mp hl)
  | some l =>
    have hl := (h l).mpr (List.mem_of_find?_eq_some hk)
    rw [← interface_of_line hk]
    exact line_of_mem hl

theorem applyOne_isSome (c : Catalogues) (interface k : String) (update : Update) :
    ((c.applyOne interface update).1.line k).isSome = (c.line k).isSome := by
  rw [applyOne_line, Option.isSome_map]

theorem applyAll_assigned (c : Catalogues) (updates : List (String × Update)) (k : String) :
    (c.applyAll updates).1.assigned.lookup k =
      if (c.line k).isSome then (wanted k updates).getD (c.assigned.lookup k)
      else c.assigned.lookup k := by
  induction updates generalizing c with
  | nil => simp [applyAll, wanted]
  | cons update rest ih =>
    obtain ⟨i, update⟩ := update
    change ((c.applyOne i update).1.applyAll rest).1.assigned.lookup k = _
    rw [ih, applyOne_isSome, applyOne_assigned]
    -- What the rest wants overrides this update.
    by_cases hsome : (c.line k).isSome
    · rw [if_pos hsome, if_pos hsome]
      simp only [wanted]
      cases wanted k rest with
      | some assigned => rfl
      | none =>
        by_cases hi : i = k
        · subst hi
          simp [hsome]
        · rw [if_neg fun h => hi h.1.symm, if_neg hi]
    · rw [if_neg hsome, if_neg hsome, if_neg fun h => hsome h.2]

/-- Some line is to be assigned otherwise than it is. -/
def Changes (c : Catalogues) (updates : List (String × Update)) : Prop :=
  ∃ l ∈ c.lines, ∃ assigned ∈ wanted l.interface updates,
    assigned ≠ c.assigned.lookup l.interface

instance (c : Catalogues) (updates : List (String × Update)) : Decidable (c.Changes updates) :=
  inferInstanceAs (Decidable (∃ l ∈ c.lines, ∃ assigned ∈ wanted l.interface updates,
    assigned ≠ c.assigned.lookup l.interface))

/-- The map `apply` compares is another exactly if some line is assigned otherwise. -/
theorem applyAll_assigned_eq_iff (c : Catalogues) (updates : List (String × Update)) :
    (c.applyAll updates).1.assigned = c.assigned ↔ ¬ c.Changes updates := by
  constructor
  · rintro heq ⟨l, hl, assigned, hwanted, hne⟩
    have hlookup := applyAll_assigned c updates l.interface
    rw [heq, line_of_mem hl, Option.isSome_some, if_pos rfl, Option.mem_def.mp hwanted] at hlookup
    exact hne hlookup.symm
  · intro hnot
    apply Finmap.ext_lookup
    intro k
    rw [applyAll_assigned]
    split
    · rename_i hsome
      obtain ⟨l, hl⟩ := Option.isSome_iff_exists.mp hsome
      cases hwanted : wanted k updates with
      | none => rfl
      | some assigned =>
        by_contra hne
        have hk := interface_of_line hl
        exact hnot ⟨l, List.mem_of_find?_eq_some hl, assigned, by rw [hk]; exact hwanted,
          by rw [hk]; exact hne⟩
    · rfl

/-! ### What a line frames with -/

/-- Every line frames with what it is assigned, or with its `/etc` catalogue. -/
def Framed (c : Catalogues) : Prop :=
  ∀ k l, c.line k = some l →
    match c.assigned.lookup k with
    | none => l.rules = fallback l.etc
    | some sha => ∃ catalogue, l.rules = .gateway sha catalogue

theorem Framed.applyOne {c : Catalogues} (h : Framed c) (interface : String) (update : Update) :
    Framed (c.applyOne interface update).1 := by
  intro k l hl
  rw [applyOne_line] at hl
  obtain ⟨l₀, hl₀, rfl⟩ := Option.map_eq_some_iff.mp hl
  have hframed := h k l₀ hl₀
  rw [applyOne_assigned, hl₀, Option.isSome_some]
  by_cases hk : k = interface
  · rw [if_pos ⟨hk, rfl⟩, if_pos hk]
    cases update with
    | assigned sha catalogue => exact ⟨catalogue, rfl⟩
    | cleared => rfl
    | refused sha refusal => exact hframed
  · rw [if_neg fun h => hk h.1, if_neg hk]
    exact hframed

theorem Framed.applyAll {c : Catalogues} (h : Framed c) (updates : List (String × Update)) :
    Framed (c.applyAll updates).1 := by
  induction updates generalizing c with
  | nil => exact h
  | cons update rest ih => exact ih (h.applyOne update.1 update.2)

theorem Framed.apply {c : Catalogues} (h : Framed c) (updates : List (String × Update)) :
    Framed (c.apply updates) := by
  obtain ⟨-, hlines, hassigned, -⟩ := apply_spec c updates
  intro k l hl
  rw [hassigned]
  apply h.applyAll updates k l
  rw [line, ← hlines]
  exact hl

theorem not_canWrite_iff (c : Catalogues) :
    ¬ c.canWrite ↔ c.dir = none ∨ (c.disk.failures.headD none).isSome := by
  rw [canWrite, not_and_or, Bool.not_eq_true, Option.isSome_eq_false_iff, Option.isNone_iff_eq_none,
    Option.isSome_iff_ne_none]

section Format

variable [CatalogueFormat]

/-- What `store` leaves alone. -/
theorem store_same (c : Catalogues) (sha : String) (blob : List UInt8) :
    let c' := (c.store sha blob).2
    c'.dir = c.dir ∧ c'.lines = c.lines ∧ c'.assigned = c.assigned ∧
      c'.disk.assignments = c.disk.assignments := by
  unfold store
  dsimp only
  split
  · exact ⟨rfl, rfl, rfl, rfl⟩
  · split
    · exact ⟨rfl, rfl, rfl, rfl⟩
    · split <;> exact ⟨rfl, rfl, rfl, rfl⟩

theorem Framed.store {c : Catalogues} (h : Framed c) (sha : String) (blob : List UInt8) :
    Framed (c.store sha blob).2 := by
  obtain ⟨-, hlines, hassigned, -⟩ := store_same c sha blob
  intro k l hl
  rw [hassigned]
  apply h k l
  rw [line, ← hlines]
  exact hl

/-! ### `new` -/

variable {fromSlice : String → Except String Assignments}

theorem mem_addLine {c : Catalogues} {interface database : String} {etc : Option LineCatalogue}
    {l : Line} :
    l ∈ (c.addLine interface database etc).lines ↔
      l = ⟨interface, database, etc, c.rememberedRules interface etc⟩ ∨
        l ∈ c.lines ∧ l.interface ≠ interface := by
  unfold addLine
  rw [(insertLine_perm _ _).mem_iff, List.mem_cons, List.mem_filter]
  simp

/-- Only what is remembered decides what a line starts with. -/
theorem rememberedRules_congr {c c' : Catalogues} (hdir : c'.dir = c.dir) (hdisk : c'.disk = c.disk)
    (hassigned : c'.assigned = c.assigned) (interface : String) (etc : Option LineCatalogue) :
    c'.rememberedRules interface etc = c.rememberedRules interface etc := by
  have hcached : ∀ sha, c'.cached sha = c.cached sha := by
    intro sha
    unfold cached blobPath
    rw [hdir, hdisk]
  unfold rememberedRules
  rw [hassigned]
  cases c.assigned.lookup interface with
  | none => rfl
  | some sha =>
    dsimp only
    rw [hcached]

/-- The lines after some were added to `c`, where no two of them are on one interface. -/
theorem mem_addLines (c : Catalogues) (lines : List (String × String × Option LineCatalogue))
    (hdistinct : (lines.map Prod.fst).Nodup) (l : Line) :
    let c' := lines.foldl (fun c (interface, database, etc) => c.addLine interface database etc) c
    (c'.dir = c.dir ∧ c'.disk = c.disk ∧ c'.assigned = c.assigned) ∧
      (l ∈ c'.lines ↔
        (∃ x ∈ lines, l = ⟨x.1, x.2.1, x.2.2, c.rememberedRules x.1 x.2.2⟩) ∨
          l ∈ c.lines ∧ l.interface ∉ lines.map Prod.fst) := by
  induction lines generalizing c with
  | nil => simp
  | cons x rest ih =>
    obtain ⟨interface, database, etc⟩ := x
    rw [List.map_cons, List.nodup_cons] at hdistinct
    obtain ⟨⟨hdir, hdisk, hassigned⟩, hmem⟩ := ih (c.addLine interface database etc) hdistinct.2
    refine ⟨⟨hdir, hdisk, hassigned⟩, hmem.trans ?_⟩
    rw [mem_addLine]
    have hsame : ∀ i e, (c.addLine interface database etc).rememberedRules i e =
        c.rememberedRules i e := rememberedRules_congr rfl rfl rfl
    simp only [hsame]
    rw [List.exists_mem_cons_iff, List.map_cons, List.mem_cons, not_or]
    constructor
    · rintro (h | ⟨rfl | ⟨h₁, h₂⟩, h₃⟩)
      · exact .inl (.inr h)
      · exact .inl (.inl rfl)
      · exact .inr ⟨h₁, h₂, h₃⟩
    · rintro ((rfl | h) | ⟨h₁, h₂, h₃⟩)
      · exact .inr ⟨.inl rfl, hdistinct.1⟩
      · exact .inl h
      · exact .inr ⟨.inr ⟨h₁, h₂⟩, h₃⟩

/-- A line that was added starts with what is remembered for it. -/
theorem of_mem_addLines (c : Catalogues) (lines : List (String × String × Option LineCatalogue))
    {l : Line}
    (h : l ∈ (lines.foldl (fun c (interface, database, etc) => c.addLine interface database etc)
      c).lines) :
    l.rules = c.rememberedRules l.interface l.etc ∨ l ∈ c.lines := by
  induction lines generalizing c with
  | nil => exact .inr h
  | cons x rest ih =>
    obtain ⟨interface, database, etc⟩ := x
    have hsame : ∀ i e, (c.addLine interface database etc).rememberedRules i e =
        c.rememberedRules i e := rememberedRules_congr rfl rfl rfl
    rcases ih _ h with h | h
    · exact .inl (h.trans (hsame _ _))
    · rcases mem_addLine.mp h with rfl | ⟨h, -⟩
      · exact .inl rfl
      · exact .inr h

/-- The blob each line is assigned can be read. -/
def Readable (c : Catalogues) : Prop :=
  ∀ l ∈ c.lines, ∀ sha ∈ c.assigned.lookup l.interface, ∃ catalogue, c.cached sha = .ok catalogue

theorem new_same (fromSlice : String → Except String Assignments) (dir : Option String)
    (disk : StateDir) (lines : List (String × String × Option LineCatalogue)) :
    (new fromSlice dir disk lines).dir = dir ∧ (new fromSlice dir disk lines).disk = disk ∧
      (new fromSlice dir disk lines).assigned = (opened fromSlice dir disk).assigned := by
  unfold new
  generalize hc : opened fromSlice dir disk = c
  have hdir : c.dir = dir := by rw [← hc]; rfl
  have hdisk : c.disk = disk := by rw [← hc]; rfl
  clear hc
  induction lines generalizing c with
  | nil => exact ⟨hdir, hdisk, rfl⟩
  | cons x rest ih => exact ih (c.addLine x.1 x.2.1 x.2.2) hdir hdisk

theorem framed_new (dir : Option String) (disk : StateDir)
    (lines : List (String × String × Option LineCatalogue))
    (hreadable : (new fromSlice dir disk lines).Readable) :
    Framed (new fromSlice dir disk lines) := by
  obtain ⟨hdir, hdisk, hassigned⟩ := new_same fromSlice dir disk lines
  intro k l hl
  have hmem := List.mem_of_find?_eq_some hl
  have hk := interface_of_line hl
  subst hk
  have hrules : l.rules = (new fromSlice dir disk lines).rememberedRules l.interface l.etc := by
    rw [rememberedRules_congr (c := opened fromSlice dir disk) hdir hdisk hassigned]
    rcases of_mem_addLines _ lines hmem with h | h
    · exact h
    · cases h
  unfold rememberedRules at hrules
  cases hlookup : (new fromSlice dir disk lines).assigned.lookup l.interface with
  | none =>
    rw [hlookup] at hrules
    exact hrules
  | some sha =>
    -- `Readable`: what a line is assigned at the start is in the cache.
    obtain ⟨catalogue, hcached⟩ := hreadable l hmem sha hlookup
    rw [hlookup] at hrules
    dsimp only at hrules
    rw [hcached] at hrules
    exact ⟨catalogue, hrules⟩

/-! ### A restart -/

/-- Each catalogue a line has from the gateway is still in the cache. -/
def StillCached (c : Catalogues) : Prop :=
  ∀ l ∈ c.lines, ∀ sha catalogue, l.rules = .gateway sha catalogue → c.cached sha = .ok catalogue

theorem rememberedRules_framed {c : Catalogues} (hframed : Framed c) (hcached : c.StillCached)
    {l : Line} (hl : l ∈ c.lines) : c.rememberedRules l.interface l.etc = l.rules := by
  have hrules := hframed l.interface l (line_of_mem hl)
  unfold rememberedRules
  cases hlookup : c.assigned.lookup l.interface with
  | none =>
    rw [hlookup] at hrules
    exact hrules.symm
  | some sha =>
    rw [hlookup] at hrules
    obtain ⟨catalogue, hgateway⟩ := hrules
    dsimp only
    rw [hcached l hl sha catalogue hgateway, hgateway]

/-- With the file in step, a restart gives every line the rules it had. -/
theorem restarted_effective {c : Catalogues} (hdir : c.dir.isSome)
    (hremembered : remembered fromSlice c.disk = c.assigned) (hframed : Framed c)
    (hcached : c.StillCached) (k : String) :
    (restarted fromSlice c).effective k = c.effective k := by
  have hassigned : (opened fromSlice c.dir c.disk).assigned = c.assigned := by
    change (if c.dir.isSome then remembered fromSlice c.disk else ∅) = c.assigned
    rw [if_pos hdir, hremembered]
  have hdistinct :
      ((c.lines.map fun l => (l.interface, l.database, l.etc)).map Prod.fst).Nodup := by
    rw [List.map_map]
    exact c.distinct
  have hrules : ∀ l ∈ c.lines,
      (opened fromSlice c.dir c.disk).rememberedRules l.interface l.etc = l.rules := by
    intro l hl
    have hdir' : (opened fromSlice c.dir c.disk).dir = c.dir := rfl
    have hdisk' : (opened fromSlice c.dir c.disk).disk = c.disk := rfl
    rw [rememberedRules_congr hdir' hdisk' hassigned]
    exact rememberedRules_framed hframed hcached hl
  -- The lines may come in another order, and are the same lines.
  have hmem : ∀ l, l ∈ (restarted fromSlice c).lines ↔ l ∈ c.lines := by
    intro l
    refine (mem_addLines (opened fromSlice c.dir c.disk) _ hdistinct l).2.trans ?_
    constructor
    · rintro (⟨x, hx, rfl⟩ | ⟨h, -⟩)
      · obtain ⟨l₀, hl₀, rfl⟩ := List.mem_map.mp hx
        dsimp only
        rw [hrules l₀ hl₀]
        exact hl₀
      · cases h
    · intro hl
      refine .inl ⟨(l.interface, l.database, l.etc), List.mem_map_of_mem hl, ?_⟩
      dsimp only
      rw [hrules l hl]
  rw [effective, effective, line_congr hmem]

end Format

end Catalogues

/-! ### Runs -/

namespace Filed

/-- The file is as the last write left it, or as the daemon found it. -/
def Written (start c : Catalogues) : Prop :=
  c.disk.assignments = some (toVecPretty c.assigned) ∨
    c.disk.assignments = start.disk.assignments ∧ c.assigned = start.assigned

theorem Written.same {start c c' : Catalogues} (h : Written start c)
    (hfile : c'.disk.assignments = c.disk.assignments) (hassigned : c'.assigned = c.assigned) :
    Written start c' := by
  unfold Written
  rw [hfile, hassigned]
  exact h

/-- An `apply` that finds the file in step, or writes it, leaves it in step. -/
theorem Written.apply {start c : Catalogues} {updates : List (String × Update)}
    (h : ¬ c.Changes updates → Written start c) (hwrite : c.Changes updates → c.canWrite) :
    Written start (c.apply updates) := by
  obtain ⟨-, -, hassigned, hfile⟩ := c.apply_spec updates
  by_cases hchanges : c.Changes updates
  · have hne := mt (c.applyAll_assigned_eq_iff updates).mp (not_not.mpr hchanges)
    have hwritten : ¬ ((c.applyAll updates).1.assigned = c.assigned ∨ c.dir = none ∨
        (c.disk.failures.headD none).isSome) := by
      rw [or_iff_right hne, ← Catalogues.not_canWrite_iff, not_not]
      exact hwrite hchanges
    rw [if_neg hwritten] at hfile
    refine .inl ?_
    rw [hfile, hassigned]
  · have heq := (c.applyAll_assigned_eq_iff updates).mpr hchanges
    rw [if_pos (Or.inl heq)] at hfile
    exact (h hchanges).same hfile (hassigned.trans heq)

/-- What every run keeps: unless a write was lost, the file has what is assigned. -/
structure Follows (start : Catalogues) (f : Filed) : Prop where
  dir : f.catalogues.dir = start.dir
  framed : f.catalogues.Framed
  written : f.catalogues.dir.isSome → f.lost = false → Written start f.catalogues

variable [CatalogueFormat]

theorem Follows.store {start : Catalogues} {f : Filed} (h : Follows start f) (sha : String)
    (blob : List UInt8) :
    Follows start { f with catalogues := (f.catalogues.store sha blob).2 } := by
  obtain ⟨hdir, hlines, hassigned, hfile⟩ := f.catalogues.store_same sha blob
  refine ⟨hdir.trans h.dir, h.framed.store sha blob, fun hsome hlost => ?_⟩
  dsimp only at hsome
  rw [hdir] at hsome
  exact (h.written hsome hlost).same hfile hassigned

omit [CatalogueFormat] in
theorem Follows.apply {start : Catalogues} {f : Filed} (h : Follows start f)
    (updates : List (String × Update)) {lost : Bool}
    (hlost : f.catalogues.dir.isSome → lost = false →
      if f.catalogues.Changes updates then f.catalogues.canWrite else f.lost = false) :
    Follows start { catalogues := f.catalogues.apply updates, lost } := by
  obtain ⟨hdir, -⟩ := f.catalogues.apply_spec updates
  refine ⟨hdir.trans h.dir, h.framed.apply updates, fun hsome hkept => ?_⟩
  dsimp only at hsome hkept
  rw [hdir] at hsome
  have hthen := hlost hsome hkept
  apply Written.apply
  · intro hchanges
    rw [if_neg hchanges] at hthen
    exact h.written hsome hthen
  · intro hchanges
    rw [if_pos hchanges] at hthen
    exact hthen

theorem Follows.step {start : Catalogues} {f f' : Filed} {e : Elsewhere} (h : Follows start f)
    (hstep : f.step e = some f') : Follows start f' := by
  obtain rfl := Option.some.inj hstep
  cases e with
  | store sha blob => exact h.store sha blob
  | apply updates =>
    apply h.apply updates
    intro hsome hlost
    have hdir : f.catalogues.dir ≠ none := Option.isSome_iff_ne_none.mp hsome
    simp only [f.catalogues.applyAll_assigned_eq_iff, hdir, or_false, ite_not] at hlost
    split at hlost
    · rename_i hchanges
      rw [if_pos hchanges]
      exact ⟨hsome, by simpa using hlost⟩
    · rename_i hsame
      rw [if_neg hsame]
      exact hlost

/-- In every run of the sessions' steps on the catalogues, after an `apply` during which
`assignments.json` could be written, the file has what is assigned and a restart gives every line
the rules it had, unless an earlier write was lost and this `apply` assigns nothing otherwise. -/
theorem run_remembers (fromSlice : String → Except String Assignments) (dir : Option String)
    (disk : StateDir) (lines : List (String × String × Option LineCatalogue))
    (hreadable : (Catalogues.new fromSlice dir disk lines).Readable)
    (steps : List Elsewhere) (f : Filed) (updates : List (String × Update))
    (hrun : runs step { catalogues := .new fromSlice dir disk lines } steps = some f)
    (hcan : f.catalogues.canWrite) (hok : f.lost = false ∨ f.catalogues.Changes updates)
    (hfromSlice : fromSlice (toVecPretty (f.catalogues.apply updates).assigned) =
      .ok (f.catalogues.apply updates).assigned) :
    let c := f.catalogues.apply updates
    remembered fromSlice c.disk = c.assigned ∧
      (c.StillCached → ∀ interface, (c.restarted fromSlice).effective interface =
        c.effective interface) := by
  let start := Catalogues.new fromSlice dir disk lines
  have hfollows : Follows start f := by
    refine invariant_of_runs (fun h hstep => h.step hstep) ?_ hrun
    exact ⟨rfl, Catalogues.framed_new dir disk lines hreadable, fun _ _ => .inr ⟨rfl, rfl⟩⟩
  have hwritten : Written start (f.catalogues.apply updates) :=
    Written.apply (fun hsame => hfollows.written hcan.1 (hok.resolve_right hsame)) fun _ => hcan
  intro c
  obtain ⟨hdir, -⟩ := f.catalogues.apply_spec updates
  have hsome : c.dir.isSome := by
    rw [hdir]
    exact hcan.1
  have hremembered : remembered fromSlice c.disk = c.assigned := by
    rcases hwritten with hfile | ⟨hfile, hassigned⟩
    · unfold remembered
      rw [hfile]
      dsimp only
      rw [hfromSlice]
    · -- Never written: the file is the one the daemon read at its start.
      obtain ⟨hdir₀, hdisk₀, hassigned₀⟩ := Catalogues.new_same fromSlice dir disk lines
      have hsome₀ : dir.isSome := by
        rw [hdir, hfollows.dir, hdir₀] at hsome
        exact hsome
      rw [hassigned, hassigned₀]
      unfold remembered Catalogues.opened
      rw [hfile, hdisk₀, if_pos hsome₀]
      rfl
  exact ⟨hremembered, Catalogues.restarted_effective hsome hremembered
    (hfollows.framed.apply updates)⟩

end Filed

section Lost

def assignedBlob : Sha := ⟨List.replicate 20 7, List.length_replicate⟩

/-- Every blob hashes to the same and parses. -/
local instance anyBlob : CatalogueFormat where
  blobSha1 _ := assignedBlob
  parse path _ := .ok ⟨path, assignedBlob⟩

/-- A state directory with the blob in it, whose next write fails or not. -/
def oneBlob (failures : List (Option String)) : StateDir where
  blobs := Finmap.singleton (blobSha1Hex assignedBlob) []
  failures

def oneFramed (disk : StateDir) (fromSlice : String → Except String Assignments) : Filed where
  catalogues := .new fromSlice (some "/var/lib/wiretap") disk [("ser0", "site", none)]

def assignIt : List (String × Update) :=
  [("ser0", .assigned (blobSha1Hex assignedBlob)
    ⟨"/var/lib/wiretap/catalogs/" ++ blobSha1Hex assignedBlob ++ ".toml", assignedBlob⟩)]

/-- A reader that knows the one file written here. -/
def readsIt (json : String) : Except String Assignments :=
  let assigned := Finmap.singleton "ser0" (blobSha1Hex assignedBlob)
  if json = toVecPretty assigned then .ok assigned else .error "not this one"

theorem readsIt_toVecPretty {assigned : Assignments}
    (h : assigned = Finmap.singleton "ser0" (blobSha1Hex assignedBlob)) :
    readsIt (toVecPretty assigned) = .ok assigned := by
  subst h
  exact if_pos rfl

/-- The gateway assigns a blob and then assigns it again. -/
theorem run_remembers_again :
    ∃ f, runs Filed.step (oneFramed (oneBlob []) readsIt) [.apply assignIt] = some f ∧
      let c := f.catalogues.apply assignIt
      c.disk.assignments.isSome ∧ remembered readsIt c.disk = c.assigned ∧
        (c.StillCached → ∀ interface, (c.restarted readsIt).effective interface =
          c.effective interface) := by
  have hempty : (oneFramed (oneBlob []) readsIt).catalogues.assigned = ∅ := by decide +kernel
  have hreadable : (oneFramed (oneBlob []) readsIt).catalogues.Readable := by
    intro l _ sha hsha
    rw [hempty, Finmap.lookup_empty] at hsha
    cases hsha
  refine ⟨_, rfl, by decide +kernel, ?_⟩
  refine Filed.run_remembers readsIt _ _ _ hreadable [.apply assignIt] _ assignIt rfl
    (by decide +kernel) (by decide +kernel) ?_
  exact readsIt_toVecPretty (by decide +kernel)

/-- The write of the first assignment fails, and the second finds nothing to write. -/
theorem run_out_of_step :
    ∃ f, runs Filed.step (oneFramed (oneBlob [some "No space left on device"]) readsIt)
        [.apply assignIt] = some f ∧
      f.catalogues.canWrite ∧
      let c := f.catalogues.apply assignIt
      remembered readsIt c.disk ≠ c.assigned ∧
        (c.restarted readsIt).effective "ser0" ≠ c.effective "ser0" := by
  refine ⟨_, rfl, by decide +kernel, by decide +kernel, by decide +kernel⟩

end Lost

end WireTap
