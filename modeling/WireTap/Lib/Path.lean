import Mathlib.Data.List.DropRight

/-!
# Unix paths

A path is the text it is written as, split at the slashes into parts (`parts`).  It names a file by
its `components`: a part that is empty or `.` is passed over, unless it begins the path, so that two
spellings with the same components are one path.  `fileName` is the last component if that is a name,
`splitDot` has its stem and its extension, and `withFileName` puts another name in its place.

What a name put there, or a suffix written behind a path, does to the components is
`components_withFileName` and `components_append`.
-/

namespace WireTap.Lib.Path

/-- What a path is made of. -/
inductive Component where
  | root
  | current
  | parent
  | normal (name : List Char)
  deriving DecidableEq

def parts (path : List Char) : List (List Char) := path.splitOn '/'

/-- An empty part or a `.`. -/
def skipped (part : List Char) : Bool := part = [] || part = ['.']

def component (part : List Char) : Component := if part = ['.', '.'] then .parent else .normal part

/-- What the first part is; an empty one is the root if there is more. -/
def first (part : List Char) (more : Bool) : List Component :=
  if part = [] then (if more then [.root] else [])
  else if part = ['.'] then [.current]
  else [component part]

/-- What parts behind the first are. -/
def rest (parts : List (List Char)) : List Component :=
  (parts.filter (!skipped ·)).map component

/-- `Path::components`. -/
def components (path : List Char) : List Component :=
  match parts path with
  | [] => []
  | part :: more => first part (!more.isEmpty) ++ rest more

/-- `Path::file_name`. -/
def fileName (path : List Char) : Option (List Char) :=
  match (components path).getLast? with
  | some (.normal name) => some name
  | _ => none

/-- A file name cut at its last dot, if there is one and it does not begin the name: the stem and the
extension. -/
def splitDot (name : List Char) : List Char × Option (List Char) :=
  match name.reverse.dropWhile (· ≠ '.') with
  | [] => (name, none)
  | _ :: before =>
    if before = [] then (name, none)
    else (before.reverse, some (name.reverse.takeWhile (· ≠ '.')).reverse)

/-- `Path::file_stem`. -/
def fileStem (path : List Char) : Option (List Char) := (fileName path).map (splitDot · |>.1)

/-- `Path::extension`. -/
def extension (path : List Char) : Option (List Char) := (fileName path).bind (splitDot · |>.2)

/-- `PathBuf::push` of a name. -/
def push (path name : List Char) : List Char :=
  if path = [] ∨ path.getLast? = some '/' then path ++ name else path ++ '/' :: name

/-- The parts above a path's file name. -/
def above (path : List Char) : List (List Char) :=
  match parts path with
  | [] => []
  | part :: more =>
    let body := more.rdropWhile skipped
    if body = [] then [] else part :: body.dropLast.rdropWhile skipped

/-- `Path::with_file_name`. -/
def withFileName (path name : List Char) : List Char :=
  if (fileName path).isSome then ['/'].intercalate (above path ++ [name]) else push path name

/-- The part a path is written with last. -/
def lastPart (path : List Char) : List Char := (parts path).getLastD []

/-- The components a path's file name is put behind. -/
def directory (path : List Char) : List Component :=
  if (fileName path).isSome then (components path).dropLast else components path

/-- A part that is the name of a file. -/
structure IsName (name : List Char) : Prop where
  notSkipped : skipped name = false
  notParent : name ≠ ['.', '.']
  noSlash : '/' ∉ name

/-! ### Parts -/

theorem parts_ne_nil (path : List Char) : parts path ≠ [] := List.splitOn_ne_nil _ _

theorem parts_push_slash {path name : List Char} (h : '/' ∉ name) :
    parts (path ++ '/' :: name) = parts path ++ [name] := by
  unfold parts
  rw [List.splitOn_append_cons_self, List.splitOn_eq_singleton h]

/-- What is written behind a path is written behind its last part. -/
theorem parts_append (path : List Char) {suffix : List Char} (h : '/' ∉ suffix) :
    parts (path ++ suffix) = (parts path).dropLast ++ [lastPart path ++ suffix] := by
  unfold lastPart parts
  induction path with
  | nil => simp [List.splitOn_eq_singleton h]
  | cons c path ih =>
    have hne : path.splitOn '/' ≠ [] := List.splitOn_ne_nil _ _
    simp only [List.cons_append, List.splitOn_cons_eq_if_modifyHead, ih]
    generalize path.splitOn '/' = ps at hne
    obtain ⟨part, ps, rfl⟩ := List.exists_cons_of_ne_nil hne
    split_ifs <;> cases ps <;> simp

theorem noSlash_of_mem_parts {path part : List Char} (h : part ∈ parts path) : '/' ∉ part := by
  unfold parts at h
  induction path generalizing part with
  | nil => simp_all
  | cons c path ih =>
    rw [List.splitOn_cons_eq_if_modifyHead] at h
    split_ifs at h with hc
    · rcases List.mem_cons.mp h with rfl | h
      · exact List.not_mem_nil
      · exact ih h
    · have hne : path.splitOn '/' ≠ [] := List.splitOn_ne_nil _ _
      obtain ⟨head, tail, hps⟩ := List.exists_cons_of_ne_nil hne
      rw [hps] at h ih
      rcases List.mem_cons.mp h with rfl | h
      · intro hmem
        rcases List.mem_cons.mp hmem with hslash | hmem
        · simp [← hslash] at hc
        · exact ih List.mem_cons_self hmem
      · exact ih (List.mem_cons_of_mem _ h)

/-! ### Components -/

theorem first_of_isName {name : List Char} (h : IsName name) (more : Bool) :
    first name more = [.normal name] := by
  have hskipped := h.notSkipped
  unfold skipped at hskipped
  rw [Bool.or_eq_false_iff, decide_eq_false_iff_not, decide_eq_false_iff_not] at hskipped
  unfold first component
  rw [if_neg hskipped.1, if_neg hskipped.2, if_neg h.notParent]

theorem rest_append_skipped {parts : List (List Char)} {part : List Char}
    (h : skipped part = true) : rest (parts ++ [part]) = rest parts := by
  unfold rest
  rw [List.filter_append, List.filter_singleton, h]
  simp

theorem rest_append_kept {parts : List (List Char)} {part : List Char}
    (h : ¬ skipped part = true) : rest (parts ++ [part]) = rest parts ++ [component part] := by
  unfold rest
  rw [List.filter_append, List.map_append, List.filter_singleton]
  simp [h]

theorem rest_append_name {parts : List (List Char)} {name : List Char} (h : IsName name) :
    rest (parts ++ [name]) = rest parts ++ [.normal name] := by
  rw [rest_append_kept (by simp [h.notSkipped]), component, if_neg h.notParent]

theorem rest_rdropWhile (parts : List (List Char)) :
    rest (parts.rdropWhile skipped) = rest parts := by
  induction parts using List.reverseRecOn with
  | nil => rfl
  | append_singleton parts part ih =>
    rw [List.rdropWhile_concat]
    split_ifs with hpart
    · rw [ih, rest_append_skipped hpart]
    · rfl

/-- A path of these parts. -/
theorem components_of_parts {path part : List Char} {more : List (List Char)}
    (h : parts path = part :: more) : components path = first part (!more.isEmpty) ++ rest more := by
  unfold components
  rw [h]

/-- What is behind a path of these parts is behind their components. -/
theorem components_of_parts_append {path part name : List Char} {more : List (List Char)}
    (hname : IsName name) (h : parts path = part :: (more ++ [name])) :
    components path = first part true ++ rest more ++ [.normal name] := by
  have hmore : (!(more ++ [name]).isEmpty) = true := by simp
  rw [components_of_parts h, hmore, rest_append_name hname, List.append_assoc]

theorem components_of_name {path : List Char} (hname : IsName path) :
    components path = [.normal path] := by
  have hparts : parts path = [path] := List.splitOn_eq_singleton hname.noSlash
  rw [components_of_parts hparts, first_of_isName hname]
  rfl

theorem fileName_of_components {path name : List Char} {before : List Component}
    (h : components path = before ++ [.normal name]) : fileName path = some name := by
  unfold fileName
  rw [h, List.getLast?_concat]

theorem components_of_fileName {path name : List Char} (h : fileName path = some name) :
    components path = directory path ++ [.normal name] := by
  unfold directory
  rw [h, Option.isSome_some, if_pos rfl]
  unfold fileName at h
  split at h
  · rename_i last hlast
    obtain rfl := Option.some.inj h
    exact (List.dropLast_append_getLast? _ hlast).symm
  · cases h

/-! ### Another name -/

theorem first_eq_first {path part : List Char} {more : List (List Char)} (hpath : path ≠ [])
    (h : parts path = part :: more) : first part (!more.isEmpty) = first part true := by
  cases more with
  | cons part' more => rfl
  | nil =>
    have hpart : part = path := by
      have hjoin : ['/'].intercalate (path.splitOn '/') = path := List.intercalate_splitOn '/'
      unfold parts at h
      rw [h] at hjoin
      simpa using hjoin
    simp [first, hpart, hpath]

/-- What `push` leaves before the name. -/
theorem components_push {path name : List Char} (hname : IsName name) :
    components (push path name) = components path ++ [.normal name] := by
  unfold push
  split_ifs with hend
  · by_cases hpath : path = []
    · subst hpath
      rw [List.nil_append, components_of_name hname]
      rfl
    · obtain ⟨before, rfl⟩ : ∃ before, path = before ++ ['/'] :=
        ⟨path.dropLast, (List.dropLast_append_getLast? _ (hend.resolve_left hpath)).symm⟩
      obtain ⟨part, more, hparts⟩ := List.exists_cons_of_ne_nil (parts_ne_nil before)
      have hslash : parts (before ++ ['/']) = part :: (more ++ [[]]) := by
        rw [parts_push_slash List.not_mem_nil, hparts, List.cons_append]
      have hpushed : parts (before ++ ['/'] ++ name) = part :: (more ++ [name]) := by
        rw [List.append_assoc, List.singleton_append, parts_push_slash hname.noSlash, hparts,
          List.cons_append]
      have hmore : (!(more ++ [[]]).isEmpty) = true := by simp
      rw [components_of_parts_append hname hpushed, components_of_parts hslash, hmore,
        rest_append_skipped rfl]
  · have hpath : path ≠ [] := fun hnil => hend (.inl hnil)
    obtain ⟨part, more, hparts⟩ := List.exists_cons_of_ne_nil (parts_ne_nil path)
    have hpushed : parts (path ++ '/' :: name) = part :: (more ++ [name]) := by
      rw [parts_push_slash hname.noSlash, hparts, List.cons_append]
    rw [components_of_parts_append hname hpushed, components_of_parts hparts,
      first_eq_first hpath hparts]

theorem noSlash_of_mem_above {path part : List Char} (h : part ∈ above path) : '/' ∉ part := by
  unfold above at h
  split at h
  · cases h
  · rename_i head more hparts
    dsimp only at h
    split_ifs at h
    · cases h
    · have hsub : part ∈ parts path := by
        rw [hparts]
        rcases List.mem_cons.mp h with rfl | h
        · exact List.mem_cons_self
        · have hin := List.dropLast_subset _ ((List.rdropWhile_prefix _ _).subset h)
          exact List.mem_cons_of_mem _ ((List.rdropWhile_prefix _ _).subset hin)
      exact noSlash_of_mem_parts hsub

/-- A first part that is a name has nothing before it. -/
theorem eq_nil_of_first {part name : List Char} {more : Bool} {before : List Component}
    (h : first part more = before ++ [.normal name]) : before = [] := by
  unfold first at h
  split_ifs at h <;> cases before <;> simp_all

/-- What is above a file name are the components before it. -/
theorem components_above {path name new : List Char} (h : fileName path = some name)
    (hnew : IsName new) :
    components (['/'].intercalate (above path ++ [new])) = directory path ++ [.normal new] := by
  have hjoined : parts (['/'].intercalate (above path ++ [new])) = above path ++ [new] := by
    refine List.splitOn_intercalate '/' (fun part hpart => ?_) (by simp)
    rcases List.mem_append.mp hpart with hpart | hpart
    · exact noSlash_of_mem_above hpart
    · rw [List.mem_singleton.mp hpart]
      exact hnew.noSlash
  have hcomponents := components_of_fileName h
  obtain ⟨part, more, hsplit⟩ := List.exists_cons_of_ne_nil (parts_ne_nil path)
  rw [components_of_parts hsplit, ← rest_rdropWhile] at hcomponents
  have habove : above path = if more.rdropWhile skipped = [] then []
      else part :: (more.rdropWhile skipped).dropLast.rdropWhile skipped := by
    unfold above
    rw [hsplit]
  by_cases hbody : more.rdropWhile skipped = []
  · rw [if_pos hbody] at habove
    rw [hbody] at hcomponents
    have hdirectory : directory path = [] := by
      have hfirst : first part (!more.isEmpty) = directory path ++ [.normal name] := by
        rw [← hcomponents]
        exact (List.append_nil _).symm
      exact eq_nil_of_first hfirst
    rw [habove, List.nil_append] at hjoined ⊢
    rw [components_of_parts hjoined, first_of_isName hnew, hdirectory]
    rfl
  · rw [if_neg hbody] at habove
    have hlast := List.rdropWhile_last_not skipped more hbody
    have hmore : (!more.isEmpty) = true := by
      cases more with
      | nil => exact absurd rfl hbody
      | cons _ _ => rfl
    -- The last part that is not passed over is the file name.
    rw [hmore, ← List.dropLast_append_getLast hbody] at hcomponents
    rw [rest_append_kept hlast, ← List.append_assoc] at hcomponents
    obtain ⟨hdirectory, -⟩ := List.append_inj' hcomponents rfl
    rw [habove, List.cons_append] at hjoined
    rw [habove, List.cons_append, components_of_parts_append hnew hjoined, rest_rdropWhile,
      hdirectory]

theorem components_withFileName {path name : List Char} (hname : IsName name) :
    components (withFileName path name) = directory path ++ [.normal name] := by
  unfold withFileName
  split_ifs with hsome
  · obtain ⟨old, hold⟩ := Option.isSome_iff_exists.mp hsome
    exact components_above hold hname
  · rw [components_push hname]
    unfold directory
    rw [if_neg hsome]

theorem fileName_withFileName {path name : List Char} (hname : IsName name) :
    fileName (withFileName path name) = some name :=
  fileName_of_components (components_withFileName hname)

theorem directory_withFileName {path name : List Char} (hname : IsName name) :
    directory (withFileName path name) = directory path := by
  unfold directory
  rw [fileName_withFileName hname, Option.isSome_some, if_pos rfl, components_withFileName hname,
    List.dropLast_concat]
  rfl

theorem intercalate_append (parts : List (List Char)) (last suffix : List Char) :
    ['/'].intercalate (parts ++ [last]) ++ suffix = ['/'].intercalate (parts ++ [last ++ suffix]) := by
  induction parts with
  | nil => simp
  | cons part parts ih =>
    have hne (x : List Char) : parts ++ [x] ≠ [] := by simp
    rw [List.cons_append, List.cons_append, List.intercalate_cons_of_ne_nil (hne last),
      List.intercalate_cons_of_ne_nil (hne _), List.append_assoc, List.append_assoc, ih,
      List.append_assoc]

/-- A name with something behind it. -/
theorem withFileName_append (path name suffix : List Char) :
    withFileName path name ++ suffix = withFileName path (name ++ suffix) := by
  unfold withFileName
  split_ifs
  · exact intercalate_append _ _ _
  · unfold push
    split_ifs
    · rw [List.append_assoc]
    · rw [List.append_assoc, List.cons_append]

/-! ### A suffix -/

theorem not_skipped_of_mem_components {path name : List Char} (h : .normal name ∈ components path) :
    skipped name = false := by
  obtain ⟨part, more, hparts⟩ := List.exists_cons_of_ne_nil (parts_ne_nil path)
  rw [components_of_parts hparts] at h
  rcases List.mem_append.mp h with h | h
  · unfold first component at h
    split_ifs at h <;> simp_all [skipped]
  · obtain ⟨part', hpart', hname⟩ := List.mem_map.mp h
    unfold component at hname
    split_ifs at hname
    obtain rfl := Component.normal.inj hname
    simpa using (List.mem_filter.mp hpart').2

/-- A path's last component is its file name unless it is part of what a name is put behind. -/
theorem fileName_of_component {path part : List Char} {before : List Component}
    (h : components path = before ++ [component part]) (hdirectory : directory path = before) :
    fileName path = some part := by
  by_cases hparent : part = ['.', '.']
  · have hnone : fileName path = none := by
      unfold fileName
      rw [h, List.getLast?_concat, component, if_pos hparent]
    unfold directory at hdirectory
    rw [hnone, Option.isSome_none, if_neg Bool.false_ne_true, h] at hdirectory
    simp at hdirectory
  · unfold component at h
    rw [if_neg hparent] at h
    exact fileName_of_components h

/-- A path that a name is put behind whole has no file name. -/
theorem fileName_of_directory {path : List Char} (h : components path = directory path) :
    fileName path = none := by
  cases hfile : fileName path with
  | none => rfl
  | some name =>
    have hnormal := components_of_fileName hfile
    rw [h] at hnormal
    simp at hnormal

/-- A path with something behind it: the name is written in the path's directory if the path ends in
its file name, and else only where it has none and ends in a slash or a dot. -/
theorem components_append {path suffix : List Char} (hsuffix : '/' ∉ suffix)
    (hname : IsName (lastPart path ++ suffix)) :
    ∃ before, components (path ++ suffix) = before ++ [.normal (lastPart path ++ suffix)] ∧
      (before = directory path → fileName path = some (lastPart path) ∨
        (fileName path = none ∧ skipped (lastPart path) = true)) ∧
      (fileName path = some (lastPart path) → before = directory path) := by
  have happend := parts_append path hsuffix
  have hlastPart : lastPart path = (parts path).getLastD [] := rfl
  obtain ⟨part, more, hparts⟩ := List.exists_cons_of_ne_nil (parts_ne_nil path)
  have hcomponents := components_of_parts hparts
  rw [hparts] at happend hlastPart
  rcases List.eq_nil_or_concat more with rfl | ⟨more, last, rfl⟩
  · -- No slash: the first part is the last one, and nothing is before it.
    have hpart : lastPart path = part := hlastPart
    rw [hpart] at hname happend ⊢
    refine ⟨[], ?_, ?_, ?_⟩
    · rw [components_of_parts happend, first_of_isName hname]
      rfl
    · intro hdirectory
      by_cases hskipped : skipped part = true
      · refine .inr ⟨?_, hskipped⟩
        unfold fileName
        rw [hcomponents]
        simp only [skipped, Bool.or_eq_true, decide_eq_true_eq] at hskipped
        rcases hskipped with rfl | rfl <;> rfl
      · left
        have hcomponent : components path = [] ++ [component part] := by
          rw [hcomponents]
          simp only [skipped, Bool.or_eq_true, decide_eq_true_eq, not_or] at hskipped
          simp [first, rest, hskipped.1, hskipped.2]
        exact fileName_of_component hcomponent hdirectory.symm
    · intro hfile
      rw [components_of_fileName hfile] at hcomponents
      exact (eq_nil_of_first (hcomponents.trans (List.append_nil _)).symm).symm
  · rw [List.concat_eq_append] at hcomponents happend hlastPart
    have hlast : lastPart path = last := by
      rw [hlastPart, ← List.cons_append, List.getLastD_concat]
    have hmore : (!(more ++ [last]).isEmpty) = true := by simp
    have hdropped : (part :: (more ++ [last])).dropLast = part :: more := by
      rw [← List.cons_append, List.dropLast_concat]
    rw [hlast] at hname happend ⊢
    rw [hdropped, List.cons_append] at happend
    rw [hmore] at hcomponents
    refine ⟨first part true ++ rest more, components_of_parts_append hname happend, ?_, ?_⟩
    · intro hdirectory
      by_cases hskipped : skipped last = true
      · rw [rest_append_skipped hskipped] at hcomponents
        exact .inr ⟨fileName_of_directory (hcomponents.trans hdirectory), hskipped⟩
      · left
        rw [rest_append_kept hskipped, ← List.append_assoc] at hcomponents
        exact fileName_of_component hcomponents hdirectory.symm
    · intro hfile
      have hnormal := components_of_fileName hfile
      have hskipped : ¬ skipped last = true := by
        have hmem : .normal last ∈ components path := by
          rw [hnormal]
          exact List.mem_append_right _ (List.mem_singleton_self _)
        simp [not_skipped_of_mem_components hmem]
      rw [rest_append_kept hskipped, ← List.append_assoc] at hcomponents
      exact (List.append_inj' (hcomponents.symm.trans hnormal) rfl).1

theorem isName_of_fileName {path name : List Char} (h : fileName path = some name) :
    IsName name := by
  have hcomponents := components_of_fileName h
  have hmem : .normal name ∈ components path := by
    rw [hcomponents]
    exact List.mem_append_right _ (List.mem_singleton_self _)
  obtain ⟨part, more, hparts⟩ := List.exists_cons_of_ne_nil (parts_ne_nil path)
  rw [components_of_parts hparts] at hmem
  have hof : name ≠ ['.', '.'] ∧ name ∈ parts path := by
    rw [hparts]
    rcases List.mem_append.mp hmem with hmem | hmem
    · unfold first component at hmem
      split_ifs at hmem <;> simp_all
    · obtain ⟨part', hpart', hname⟩ := List.mem_map.mp hmem
      unfold component at hname
      split_ifs at hname with hparent
      obtain rfl := Component.normal.inj hname
      exact ⟨hparent, List.mem_cons_of_mem _ (List.mem_filter.mp hpart').1⟩
  have hmem : .normal name ∈ components path := by
    rw [hcomponents]
    exact List.mem_append_right _ (List.mem_singleton_self _)
  exact ⟨not_skipped_of_mem_components hmem, hof.1, noSlash_of_mem_parts hof.2⟩

/-! ### Stems and extensions -/

/-- A stem and an extension put together. -/
def rejoin (stem : List Char) (ext : Option (List Char)) : List Char :=
  stem ++ ext.elim [] ('.' :: ·)

theorem splitDot_dot {stem ext : List Char} (hstem : stem ≠ []) (hext : '.' ∉ ext) :
    splitDot (stem ++ '.' :: ext) = (stem, some ext) := by
  have hnot : ∀ c ∈ ext.reverse, decide (c ≠ '.') = true := by
    intro c hc
    rw [decide_eq_true_eq]
    rintro rfl
    exact hext (List.mem_reverse.mp hc)
  unfold splitDot
  rw [List.reverse_append, List.reverse_cons, List.append_assoc, List.singleton_append,
    List.dropWhile_append_of_pos hnot, List.takeWhile_append_of_pos hnot]
  simp [hstem]

theorem splitDot_plain {name : List Char} (h : '.' ∉ name) : splitDot name = (name, none) := by
  have hnot : ∀ c ∈ name.reverse, decide (c ≠ '.') = true := by
    intro c hc
    rw [decide_eq_true_eq]
    rintro rfl
    exact h (List.mem_reverse.mp hc)
  unfold splitDot
  rw [List.dropWhile_eq_nil_iff.mpr hnot]

theorem splitDot_hidden {after : List Char} (h : '.' ∉ after) :
    splitDot ('.' :: after) = ('.' :: after, none) := by
  have hnot : ∀ c ∈ after.reverse, decide (c ≠ '.') = true := by
    intro c hc
    rw [decide_eq_true_eq]
    rintro rfl
    exact h (List.mem_reverse.mp hc)
  unfold splitDot
  rw [List.reverse_cons, List.dropWhile_append_of_pos hnot]
  simp

/-- A name is cut at a dot that is not its first character, or not at all. -/
theorem splitDot_cases (name : List Char) :
    (splitDot name = (name, none) ∧
      ('.' ∉ name ∨ ∃ after, name = '.' :: after ∧ '.' ∉ after)) ∨
    ∃ stem ext, splitDot name = (stem, some ext) ∧ name = stem ++ '.' :: ext ∧ '.' ∉ ext ∧
      stem ≠ [] := by
  by_cases hdot : '.' ∈ name
  · obtain ⟨after, before, hrev, hafter⟩ :=
      List.eq_append_cons_of_mem (List.mem_reverse.mpr hdot)
    have hname : name = before.reverse ++ '.' :: after.reverse := by
      rw [← List.reverse_reverse name, hrev, List.reverse_append, List.reverse_cons,
        List.append_assoc, List.singleton_append]
    have hext : '.' ∉ after.reverse := fun h => hafter (List.mem_reverse.mp h)
    by_cases hstem : before.reverse = []
    · rw [hstem, List.nil_append] at hname
      rw [hname]
      exact .inl ⟨splitDot_hidden hext, .inr ⟨_, rfl, hext⟩⟩
    · refine .inr ⟨before.reverse, after.reverse, ?_, hname, hext, hstem⟩
      rw [hname]
      exact splitDot_dot hstem hext
  · exact .inl ⟨splitDot_plain hdot, .inl hdot⟩

/-- A name is its stem and its extension. -/
theorem rejoin_splitDot (name : List Char) : rejoin (splitDot name).1 (splitDot name).2 = name := by
  rcases splitDot_cases name with ⟨hsplit, -⟩ | ⟨stem, ext, hsplit, hname, -, -⟩
  · rw [hsplit]
    exact List.append_nil _
  · rw [hsplit, hname]
    rfl

/-- More behind the stem, without a dot, is more of the stem. -/
theorem splitDot_rejoin {name more : List Char} (h : '.' ∉ more) :
    splitDot (rejoin ((splitDot name).1 ++ more) (splitDot name).2) =
      ((splitDot name).1 ++ more, (splitDot name).2) := by
  have hmem {part : List Char} (hpart : '.' ∉ part) : '.' ∉ part ++ more := by
    rw [List.mem_append, not_or]
    exact ⟨hpart, h⟩
  rcases splitDot_cases name with ⟨hsplit, hplain | ⟨after, hname, hafter⟩⟩ |
    ⟨stem, ext, hsplit, -, hext, hstem⟩
  · rw [hsplit, rejoin, Option.elim_none, List.append_nil]
    exact splitDot_plain (hmem hplain)
  · rw [hsplit, rejoin, Option.elim_none, List.append_nil, hname, List.cons_append]
    exact splitDot_hidden (hmem hafter)
  · rw [hsplit]
    exact splitDot_dot (by simp [hstem]) hext

end WireTap.Lib.Path
