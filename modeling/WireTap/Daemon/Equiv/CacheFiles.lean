import Mathlib.Data.List.Nodup
import Mathlib.Data.List.Pairwise
import Mathlib.Tactic.SplitIfs
import WireTap.Daemon.CacheFiles
import WireTap.Daemon.Equiv.Databases

/-!
# Pipelines and their files

`caches_apart_iff`: no two of the caches the pipelines keep share a file, unless the default's cache
has no extension and a database beside it is called `wal` or `shm`, whose cache is then what SQLite
calls a file of the default's.

A cache is named by what is written behind the stem (`tag`): nothing, `-<db>`, `.dead-letter` or
both.  With an extension the last dot tells the tag from what SQLite writes behind the name; without
one the two meet (`tag_side`).
-/

namespace WireTap.Daemon

namespace CachePath

open Lib.Path

/-! ### Names -/

/-- What is written behind the stem, for the default's cache or another's. -/
def tag (database : Option (List Char)) (dead : Bool) : List Char :=
  database.elim [] ('-' :: ·) ++ (if dead then ".dead-letter".toList else [])

/-- Nothing, or what SQLite writes behind a name. -/
def IsSide (side : List Char) : Prop := side ∈ [[], "-wal".toList, "-shm".toList]

/-- A database's name has none of what a file's is put together with. -/
structure IsDatabase (database : List Char) : Prop where
  noDash : '-' ∉ database
  noDot : '.' ∉ database
  noSlash : '/' ∉ database

theorem IsSide.noDot {side : List Char} (h : IsSide side) : '.' ∉ side := by
  have hall : ∀ side ∈ [[], "-wal".toList, "-shm".toList], '.' ∉ side := by decide
  exact hall side h

theorem IsSide.noSlash {side : List Char} (h : IsSide side) : '/' ∉ side := by
  have hall : ∀ side ∈ [[], "-wal".toList, "-shm".toList], '/' ∉ side := by decide
  exact hall side h

/-- A side is nothing, or a dash and what a database could be called. -/
theorem IsSide.cases {side : List Char} (h : IsSide side) :
    side = [] ∨ ∃ word, side = '-' :: word ∧ word ∈ ["wal".toList, "shm".toList] := by
  rcases List.mem_cons.mp h with rfl | h
  · exact .inl rfl
  · rcases List.mem_cons.mp h with rfl | h
    · exact .inr ⟨"wal".toList, by decide, by decide⟩
    · obtain rfl := List.mem_singleton.mp h
      exact .inr ⟨"shm".toList, by decide, by decide⟩

/-- Two texts cut at their first separator. -/
theorem append_cons_inj {c : Char} {a a' b b' : List Char} (ha : c ∉ a) (ha' : c ∉ a')
    (h : a ++ c :: b = a' ++ c :: b') : a = a' ∧ b = b' := by
  induction a generalizing a' with
  | nil =>
    cases a' with
    | nil => exact ⟨rfl, (List.cons.inj h).2⟩
    | cons d a' => exact absurd (List.mem_cons.mpr (.inl (List.cons.inj h).1)) ha'
  | cons d a ih =>
    cases a' with
    | nil => exact absurd (List.mem_cons.mpr (.inl (List.cons.inj h).1.symm)) ha
    | cons d' a' =>
      obtain ⟨rfl, htail⟩ := List.cons.inj h
      rw [List.mem_cons, not_or] at ha ha'
      obtain ⟨rfl, rfl⟩ := ih ha.2 ha'.2 htail
      exact ⟨rfl, rfl⟩

/-- A database's name and what SQLite writes behind it. -/
theorem database_side {database database' side side' : List Char} (hdb : IsDatabase database)
    (hdb' : IsDatabase database') (hside : IsSide side) (hside' : IsSide side')
    (h : database ++ side = database' ++ side') : database = database' := by
  rcases hside.cases with rfl | ⟨word, rfl, -⟩ <;> rcases hside'.cases with rfl | ⟨word', rfl, -⟩
  · simpa using h
  · rw [List.append_nil] at h
    exact absurd (h ▸ List.mem_append_right _ List.mem_cons_self) hdb.noDash
  · rw [List.append_nil] at h
    exact absurd (h.symm ▸ List.mem_append_right _ List.mem_cons_self) hdb'.noDash
  · exact (append_cons_inj hdb.noDash hdb'.noDash h).1

/-- The default's cache and the one of a database that is called what SQLite calls a file of it. -/
def Spells (database database' : Option (List Char)) : Prop :=
  database = none ∧ ∃ word ∈ ["wal".toList, "shm".toList], database' = some word

theorem none_side {database side side' : List Char} (hside : IsSide side) (hside' : IsSide side')
    (h : side = '-' :: database ++ side') : database ∈ ["wal".toList, "shm".toList] := by
  rcases hside.cases with rfl | ⟨word, rfl, hword⟩
  · cases h
  · have hsame : word = database ++ side' := (List.cons.inj h).2
    rcases hside'.cases with rfl | ⟨word', rfl, -⟩
    · rw [List.append_nil] at hsame
      exact hsame ▸ hword
    · have hdash : '-' ∈ word := hsame ▸ List.mem_append_right _ List.mem_cons_self
      have hall : ∀ word ∈ ["wal".toList, "shm".toList], '-' ∉ word := by decide
      exact absurd hdash (hall word hword)

/-- Two tags that spell the same with what SQLite writes behind them. -/
theorem tag_side {database database' : Option (List Char)} {dead dead' : Bool}
    {side side' : List Char} (hdb : ∀ d ∈ database, IsDatabase d)
    (hdb' : ∀ d ∈ database', IsDatabase d) (hside : IsSide side) (hside' : IsSide side')
    (h : tag database dead ++ side = tag database' dead' ++ side') :
    (database = database' ∧ dead = dead') ∨
      (dead = false ∧ dead' = false ∧ (Spells database database' ∨ Spells database' database)) := by
  have hnoDot {database : Option (List Char)} (hdb : ∀ d ∈ database, IsDatabase d) :
      '.' ∉ database.elim [] ('-' :: ·) := by
    cases database with
    | none => exact List.not_mem_nil
    | some d =>
      rw [Option.elim_some, List.mem_cons, not_or]
      exact ⟨by decide, (hdb d rfl).noDot⟩
  unfold tag at h
  -- No database has a dot and no sidecar, so a dot tells a dead-letter cache.
  cases dead <;> cases dead'
  · -- Neither is of the dead-letter cache.
    simp only [Bool.false_eq_true, if_false, List.append_nil] at h
    cases database with
    | none =>
      cases database' with
      | none => exact .inl ⟨rfl, rfl⟩
      | some d' => exact .inr ⟨rfl, rfl, .inl ⟨rfl, d', none_side hside hside' h, rfl⟩⟩
    | some d =>
      cases database' with
      | none => exact .inr ⟨rfl, rfl, .inr ⟨rfl, d, none_side hside' hside h.symm, rfl⟩⟩
      | some d' =>
        have hsame := database_side (hdb d rfl) (hdb' d' rfl) hside hside' (List.cons.inj h).2
        exact .inl ⟨congrArg some hsame, rfl⟩
  · have hdot : '.' ∈ database.elim [] ('-' :: ·) ++ side := by
      rw [show database.elim [] ('-' :: ·) ++ side = _ by simpa using h]
      simp
    rcases List.mem_append.mp hdot with hdot | hdot
    · exact absurd hdot (hnoDot hdb)
    · exact absurd hdot hside.noDot
  · have hdot : '.' ∈ database'.elim [] ('-' :: ·) ++ side' := by
      rw [show database'.elim [] ('-' :: ·) ++ side' = _ by simpa using h.symm]
      simp
    rcases List.mem_append.mp hdot with hdot | hdot
    · exact absurd hdot (hnoDot hdb')
    · exact absurd hdot hside'.noDot
  · simp only [if_true, List.append_assoc] at h
    have hdead : ".dead-letter".toList = '.' :: "dead-letter".toList := by decide
    rw [hdead, List.cons_append, List.cons_append] at h
    have hsame := (append_cons_inj (hnoDot hdb) (hnoDot hdb') h).1
    left
    refine ⟨?_, rfl⟩
    cases database <;> cases database' <;> simp_all

/-! ### Paths -/

/-- The name that is cut into a stem and an extension. -/
def base (path : List Char) : List Char := (fileName path).getD "cache".toList

/-- The name of a cache beside `path`. -/
def nameOf (path : List Char) (database : Option (List Char)) (dead : Bool) : List Char :=
  rejoin ((splitDot (base path)).1 ++ tag database dead) (splitDot (base path)).2

/-- Where the cache of a database is, the default's at `path`. -/
def cacheOf (path : List Char) (database : Option (List Char)) (dead : Bool) : List Char :=
  let cache := database.elim path fun d => withStemSuffix path ('-' :: d)
  if dead then withStemSuffix cache ".dead-letter".toList else cache

theorem withStemSuffix_eq (path suffix : List Char) :
    withStemSuffix path suffix =
      withFileName path (rejoin ((splitDot (base path)).1 ++ suffix) (splitDot (base path)).2) := by
  have hcache : splitDot "cache".toList = ("cache".toList, none) := splitDot_plain (by decide)
  unfold withStemSuffix fileStem extension base
  cases fileName path with
  | none =>
    rw [Option.getD_none, hcache]
    dsimp only [Option.map_none, Option.bind_none, Option.getD_none]
    simp [rejoin]
  | some name =>
    dsimp only [Option.map_some, Option.bind_some, Option.getD_some]
    cases (splitDot name).2 with
    | none => simp [rejoin]
    | some ext => rfl

theorem noSlash_base (path : List Char) : '/' ∉ base path := by
  unfold base
  cases hfile : fileName path with
  | none => decide
  | some name => exact (isName_of_fileName hfile).noSlash

theorem noSlash_rejoin {path suffix : List Char} (h : '/' ∉ suffix) :
    '/' ∉ rejoin ((splitDot (base path)).1 ++ suffix) (splitDot (base path)).2 := by
  have hbase := noSlash_base path
  rw [← rejoin_splitDot (base path)] at hbase
  unfold rejoin at hbase ⊢
  simp only [List.mem_append, not_or] at hbase ⊢
  exact ⟨⟨hbase.1, h⟩, hbase.2⟩

/-- A name with a dash in it is the name of a file. -/
theorem isName_of_dash {name : List Char} (hdash : '-' ∈ name) (hslash : '/' ∉ name) :
    IsName name := by
  refine ⟨?_, ?_, hslash⟩
  · rw [skipped, Bool.or_eq_false_iff, decide_eq_false_iff_not, decide_eq_false_iff_not]
    constructor <;> rintro rfl <;> simp at hdash
  · rintro rfl
    simp at hdash

theorem noSlash_tag {database : Option (List Char)} (hdb : ∀ d ∈ database, IsDatabase d)
    (dead : Bool) : '/' ∉ tag database dead := by
  unfold tag
  rw [List.mem_append, not_or]
  constructor
  · cases database with
    | none => exact List.not_mem_nil
    | some d =>
      rw [Option.elim_some, List.mem_cons, not_or]
      exact ⟨by decide, (hdb d rfl).noSlash⟩
  · cases dead <;> decide

theorem dash_mem_tag {database : Option (List Char)} {dead : Bool}
    (h : database ≠ none ∨ dead = true) : '-' ∈ tag database dead := by
  unfold tag
  rw [List.mem_append]
  cases database with
  | some d => exact .inl List.mem_cons_self
  | none =>
    obtain rfl : dead = true := h.resolve_left fun hne => hne rfl
    exact .inr (by decide)

/-- A name with a tag is one, whatever SQLite writes behind it. -/
theorem isName_nameOf {path side : List Char} {database : Option (List Char)} {dead : Bool}
    (hdb : ∀ d ∈ database, IsDatabase d) (htag : database ≠ none ∨ dead = true)
    (hside : '/' ∉ side) : IsName (nameOf path database dead ++ side) := by
  refine isName_of_dash ?_ ?_
  · refine List.mem_append_left _ (List.mem_append_left _ (List.mem_append_right _ ?_))
    exact dash_mem_tag htag
  · rw [List.mem_append, not_or]
    exact ⟨noSlash_rejoin (noSlash_tag hdb dead), hside⟩

/-- What is written behind a stem with a tag is behind both. -/
theorem withStemSuffix_of_name {path cache suffix : List Char} {database : List Char}
    (hdb : IsDatabase database) (hcache : fileName cache = some (nameOf path (some database) false)) :
    withStemSuffix cache suffix =
      withFileName cache (rejoin ((splitDot (base path)).1 ++ ('-' :: database ++ suffix))
        (splitDot (base path)).2) := by
  have hbase : base cache = nameOf path (some database) false := by
    unfold base
    rw [hcache]
    rfl
  have hdot : '.' ∉ tag (some database) false := by
    show '.' ∉ '-' :: database ++ []
    rw [List.append_nil, List.mem_cons, not_or]
    exact ⟨by decide, hdb.noDot⟩
  rw [withStemSuffix_eq, hbase]
  unfold nameOf
  rw [splitDot_rejoin hdot]
  show withFileName cache (rejoin ((splitDot (base path)).1 ++ ('-' :: database ++ []) ++ suffix) _) = _
  rw [List.append_nil, List.append_assoc]

/-- A cache with a tag is beside the default's, under its name. -/
theorem components_cacheOf {path side : List Char} {database : Option (List Char)} {dead : Bool}
    (hdb : ∀ d ∈ database, IsDatabase d) (htag : database ≠ none ∨ dead = true)
    (hside : '/' ∉ side) :
    components (cacheOf path database dead ++ side) =
      directory path ++ [.normal (nameOf path database dead ++ side)] := by
  have hname {database : Option (List Char)} {dead : Bool} (hdb : ∀ d ∈ database, IsDatabase d)
      (htag : database ≠ none ∨ dead = true) := @isName_nameOf path side database dead hdb htag hside
  have hplain {database : List Char} (hd : IsDatabase database) :
      withStemSuffix path ('-' :: database) =
        withFileName path (nameOf path (some database) false) := by
    rw [withStemSuffix_eq]
    show _ = withFileName path (rejoin (_ ++ ('-' :: database ++ [])) _)
    rw [List.append_nil]
  cases database with
  | none =>
    obtain rfl : dead = true := htag.resolve_left fun hne => hne rfl
    show components (withStemSuffix path ".dead-letter".toList ++ side) = _
    rw [withStemSuffix_eq, withFileName_append]
    exact components_withFileName (hname hdb htag)
  | some d =>
    have hd : IsDatabase d := hdb d rfl
    cases dead with
    | false =>
      show components (withStemSuffix path ('-' :: d) ++ side) = _
      rw [hplain hd, withFileName_append]
      exact components_withFileName (hname hdb htag)
    | true =>
      show components
        (withStemSuffix (withStemSuffix path ('-' :: d)) ".dead-letter".toList ++ side) = _
      -- The dead letters are beside the database's own cache, which is beside the default's.
      have hsibling : IsName (nameOf path (some d) false) := by
        have := @isName_nameOf path [] (some d) false hdb (.inl nofun) List.not_mem_nil
        rwa [List.append_nil] at this
      have hfile : fileName (withStemSuffix path ('-' :: d)) = some (nameOf path (some d) false) := by
        rw [hplain hd]
        exact fileName_withFileName hsibling
      rw [withStemSuffix_of_name hd hfile, withFileName_append, components_withFileName]
      · rw [hplain hd, directory_withFileName hsibling]
        rfl
      · exact hname hdb htag

/-! ### Files in common -/

theorem nameOf_default (path : List Char) : nameOf path none false = base path := by
  show rejoin ((splitDot (base path)).1 ++ []) _ = _
  rw [List.append_nil, rejoin_splitDot]

theorem tag_injective {database database' : Option (List Char)} {dead dead' : Bool}
    (hdb : ∀ d ∈ database, IsDatabase d) (hdb' : ∀ d ∈ database', IsDatabase d)
    (h : tag database dead = tag database' dead') : database = database' ∧ dead = dead' := by
  have hnil : IsSide [] := List.mem_cons_self
  rcases tag_side hdb hdb' hnil hnil (by rw [h]) with hsame | ⟨rfl, rfl, hspells⟩
  · exact hsame
  · rcases hspells with ⟨rfl, word, -, rfl⟩ | ⟨rfl, word, -, rfl⟩ <;> cases h

/-- Two names that are one file's name. -/
theorem nameOf_side {path side side' : List Char} {database database' : Option (List Char)}
    {dead dead' : Bool} (hdb : ∀ d ∈ database, IsDatabase d)
    (hdb' : ∀ d ∈ database', IsDatabase d) (hside : IsSide side) (hside' : IsSide side')
    (h : nameOf path database dead ++ side = nameOf path database' dead' ++ side') :
    (database = database' ∧ dead = dead') ∨
      ((splitDot (base path)).2 = none ∧ dead = false ∧ dead' = false ∧
        (Spells database database' ∨ Spells database' database)) := by
  unfold nameOf at h
  rcases splitDot_cases (base path) with ⟨hsplit, -⟩ | ⟨stem, ext, hsplit, -, hext, hstem⟩
  · rw [hsplit] at h ⊢
    simp only [rejoin, Option.elim_none, List.append_nil, List.append_assoc] at h
    rcases tag_side hdb hdb' hside hside' (List.append_cancel_left h) with hsame | hspells
    · exact .inl hsame
    · exact .inr ⟨rfl, hspells⟩
  · rw [hsplit] at h
    simp only [rejoin, Option.elim_some, List.append_assoc, List.cons_append] at h
    rw [← List.append_assoc, ← List.append_assoc] at h
    -- The last dot is the one before the extension.
    have hnoDot {side : List Char} (hside : IsSide side) : '.' ∉ ext ++ side := by
      rw [List.mem_append, not_or]
      exact ⟨hext, hside.noDot⟩
    have hcut := congrArg (fun name => (splitDot name).1) h
    rw [splitDot_dot (by simp [hstem]) (hnoDot hside),
      splitDot_dot (by simp [hstem]) (hnoDot hside')] at hcut
    exact .inl (tag_injective hdb hdb' (List.append_cancel_left hcut))

theorem noSlash_lastPart (path : List Char) : '/' ∉ lastPart path := by
  obtain ⟨part, more, hparts⟩ := List.exists_cons_of_ne_nil (parts_ne_nil path)
  have hmem : lastPart path ∈ parts path := by
    unfold lastPart
    rw [hparts, List.getLastD_cons]
    exact List.getLastD_mem_cons
  exact noSlash_of_mem_parts hmem

/-- The default's own files, and one with a tag. -/
theorem default_shares {path side side' : List Char} {database : Option (List Char)} {dead : Bool}
    (hdb : ∀ d ∈ database, IsDatabase d) (htag : database ≠ none ∨ dead = true)
    (hside : IsSide side) (hside' : IsSide side')
    (h : components (path ++ side) =
      directory path ++ [.normal (nameOf path database dead ++ side')]) :
    fileName path = some (lastPart path) ∧ (splitDot (base path)).2 = none ∧ dead = false ∧
      Spells none database := by
  have hbase {name : List Char} (hfile : fileName path = some name) :
      nameOf path none false = name := by
    rw [nameOf_default]
    unfold base
    rw [hfile, Option.getD_some]
  have hnone : ∀ d ∈ (none : Option (List Char)), IsDatabase d := nofun
  rcases hside.cases with rfl | ⟨word, rfl, hword⟩
  · rw [List.append_nil] at h
    have hfile := fileName_of_components h
    -- A tag makes the name longer.
    have hlength := congrArg List.length (hbase hfile)
    have htag := List.length_pos_of_mem (dash_mem_tag htag)
    unfold nameOf rejoin at hlength
    simp only [List.length_append] at hlength
    have hzero : (tag none false).length = 0 := rfl
    omega
  · have hname : IsName (lastPart path ++ '-' :: word) := by
      refine isName_of_dash (List.mem_append_right _ List.mem_cons_self) ?_
      rw [List.mem_append, not_or]
      exact ⟨noSlash_lastPart path, hside.noSlash⟩
    obtain ⟨before, hcomponents, hends, -⟩ := components_append hside.noSlash hname
    obtain ⟨hbefore, hlast⟩ := List.append_inj' (hcomponents.symm.trans h) rfl
    have hlast := Component.normal.inj (List.cons.inj hlast).1
    rcases hends hbefore with hfile | ⟨hfile, hskipped⟩
    · rw [← hbase hfile] at hlast
      rcases nameOf_side hnone hdb hside hside' hlast with ⟨rfl, rfl⟩ | ⟨hext, -, hdead, hspells⟩
      · rcases htag with htag | htag
        · exact absurd rfl htag
        · cases htag
      · refine ⟨hfile, hext, hdead, hspells.resolve_right ?_⟩
        rintro ⟨-, word, -, hword⟩
        cases hword
    · -- A directory: what is beside it is called `cache`.
      have hcache : splitDot (base path) = ("cache".toList, none) := by
        unfold base
        rw [hfile, Option.getD_none]
        exact splitDot_plain (by decide)
      unfold nameOf at hlast
      rw [hcache] at hlast
      simp only [skipped, Bool.or_eq_true, decide_eq_true_eq] at hskipped
      rcases hskipped with hskipped | hskipped <;> rw [hskipped] at hlast <;> cases hlast

/-- The default's file that a database's cache is called. -/
theorem spells_shares {path word : List Char} (hfile : fileName path = some (lastPart path))
    (hext : (splitDot (base path)).2 = none) (hword : word ∈ ["wal".toList, "shm".toList]) :
    IsSide ('-' :: word) ∧
      components (path ++ '-' :: word) = components (cacheOf path (some word) false ++ []) := by
  have hall : ∀ word ∈ ["wal".toList, "shm".toList], IsSide ('-' :: word) ∧ '-' ∉ word ∧
      '.' ∉ word ∧ '/' ∉ word := by
    unfold IsSide
    decide
  obtain ⟨hside, hdash, hdot, hslash⟩ := hall word hword
  have hdb : ∀ d ∈ some word, IsDatabase d := by
    rintro d hd
    obtain rfl := Option.some.inj hd
    exact ⟨hdash, hdot, hslash⟩
  have hname : IsName (lastPart path ++ '-' :: word) := by
    refine isName_of_dash (List.mem_append_right _ List.mem_cons_self) ?_
    rw [List.mem_append, not_or]
    exact ⟨noSlash_lastPart path, hside.noSlash⟩
  obtain ⟨before, hcomponents, -, hbefore⟩ := components_append hside.noSlash hname
  refine ⟨hside, ?_⟩
  rw [hcomponents, hbefore hfile, components_cacheOf hdb (.inl nofun) List.not_mem_nil]
  have hbase : base path = lastPart path := by
    unfold base
    rw [hfile, Option.getD_some]
  have hstem : (splitDot (base path)).1 = lastPart path := by
    have hjoin := rejoin_splitDot (base path)
    rw [hext, rejoin, Option.elim_none, List.append_nil, hbase] at hjoin
    rw [hbase]
    exact hjoin
  unfold nameOf tag
  rw [hstem, hext]
  simp [rejoin]

/-- The two caches are the default's and one that is called what SQLite calls a file of it. -/
def Clash (path : List Char) (database database' : Option (List Char)) (dead dead' : Bool) : Prop :=
  fileName path = some (lastPart path) ∧ (splitDot (base path)).2 = none ∧ dead = false ∧
    dead' = false ∧ (Spells database database' ∨ Spells database' database)

/-- Two caches have a file in common exactly if they clash. -/
theorem shares_iff_clash {path : List Char} {database database' : Option (List Char)}
    {dead dead' : Bool} (hdb : ∀ d ∈ database, IsDatabase d) (hdb' : ∀ d ∈ database', IsDatabase d)
    (hne : ¬ (database = database' ∧ dead = dead')) :
    (∃ side side', IsSide side ∧ IsSide side' ∧
      components (cacheOf path database dead ++ side) =
        components (cacheOf path database' dead' ++ side')) ↔
      Clash path database database' dead dead' := by
  have htagged {database : Option (List Char)} {dead : Bool} :
      (database = none ∧ dead = false) ∨ (database ≠ none ∨ dead = true) := by
    cases database <;> cases dead <;> simp
  constructor
  · rintro ⟨side, side', hside, hside', hshared⟩
    rcases @htagged database dead with ⟨rfl, rfl⟩ | htag <;>
      rcases @htagged database' dead' with ⟨rfl, rfl⟩ | htag'
    · exact absurd ⟨rfl, rfl⟩ hne
    · rw [components_cacheOf hdb' htag' hside'.noSlash] at hshared
      obtain ⟨hfile, hext, hdead, hspells⟩ := default_shares hdb' htag' hside hside' hshared
      exact ⟨hfile, hext, rfl, hdead, .inl hspells⟩
    · rw [components_cacheOf hdb htag hside.noSlash] at hshared
      obtain ⟨hfile, hext, hdead, hspells⟩ := default_shares hdb htag hside' hside hshared.symm
      exact ⟨hfile, hext, hdead, rfl, .inr hspells⟩
    · rw [components_cacheOf hdb htag hside.noSlash, components_cacheOf hdb' htag' hside'.noSlash]
        at hshared
      have hnames := (List.append_inj' hshared rfl).2
      rcases nameOf_side hdb hdb' hside hside' (Component.normal.inj (List.cons.inj hnames).1) with
        hsame | ⟨-, rfl, rfl, hspells⟩
      · exact absurd hsame hne
      · rcases hspells with ⟨rfl, -⟩ | ⟨rfl, -⟩
        · simp at htag
        · simp at htag'
  · rintro ⟨hfile, hext, rfl, rfl, hspells⟩
    have hnil : IsSide [] := List.mem_cons_self
    rcases hspells with ⟨rfl, word, hword, rfl⟩ | ⟨rfl, word, hword, rfl⟩
    · obtain ⟨hside, hshared⟩ := spells_shares hfile hext hword
      exact ⟨_, [], hside, hnil, hshared⟩
    · obtain ⟨hside, hshared⟩ := spells_shares hfile hext hword
      exact ⟨[], _, hnil, hside, hshared.symm⟩

/-! ### One file under two paths -/

end CachePath

/-! ### The pipelines' caches -/

open CachePath Lib.Path

theorem mem_cacheFiles {path a : String} :
    a ∈ cacheFiles path ↔ ∃ side, IsSide side ∧ a.toList = path.toList ++ side := by
  unfold cacheFiles sidecars IsSide
  simp [← String.toList_inj]

theorem apart_iff {p q : String} :
    Apart p q ↔ ¬ ∃ side side', IsSide side ∧ IsSide side' ∧
      components (p.toList ++ side) = components (q.toList ++ side') := by
  constructor
  · rintro hapart ⟨side, side', hside, hside', hshared⟩
    refine hapart (String.ofList (p.toList ++ side)) ?_ (String.ofList (q.toList ++ side')) ?_ ?_
    · exact mem_cacheFiles.mpr ⟨side, hside, String.toList_ofList⟩
    · exact mem_cacheFiles.mpr ⟨side', hside', String.toList_ofList⟩
    · unfold SamePath
      rw [String.toList_ofList, String.toList_ofList]
      exact hshared
  · intro hnone a ha b hb hsame
    obtain ⟨side, hside, ha⟩ := mem_cacheFiles.mp ha
    obtain ⟨side', hside', hb⟩ := mem_cacheFiles.mp hb
    unfold SamePath at hsame
    rw [ha, hb] at hsame
    exact hnone ⟨side, side', hside, hside', hsame⟩

/-- What is behind the stem for a database: nothing for the default. -/
def keyOf (f : Forward) (database : String) : Option (List Char) :=
  if database = f.database then none else some database.toList

theorem toList_cachePath {lib : SettingsLib} (hlib : lib.sibling = siblingCache) (f : Forward)
    (database : String) (dead : Bool) :
    (if dead then deadLetterPath (Settings.forDatabase lib f database).batching.cachePath
      else (Settings.forDatabase lib f database).batching.cachePath).toList =
      cacheOf f.batching.cachePath.toList (keyOf f database) dead := by
  unfold Settings.forDatabase keyOf cacheOf
  split_ifs
  all_goals
    simp only [Option.elim_none, Option.elim_some, deadLetterPath, hlib, siblingCache,
      String.toList_ofList]

theorem keyOf_injective {f : Forward} {database database' : String}
    (h : keyOf f database = keyOf f database') : database = database' := by
  unfold keyOf at h
  split_ifs at h with h₁ h₂ h₂
  · exact h₁.trans h₂.symm
  · exact String.toList_inj.mp (Option.some.inj h)

theorem isDatabase_keyOf {lib : SettingsLib} {f : Forward} {database : String}
    (hnames : ∀ name, lib.validDatabaseName name = true →
      name.toList.all fun c => c.isLower || c.isDigit || c = '_')
    (hvalid : validDatabase lib database = true) : ∀ d ∈ keyOf f database, IsDatabase d := by
  intro d hd
  unfold keyOf at hd
  split_ifs at hd
  · cases hd
  · obtain rfl := Option.some.inj hd
    have hall : database.toList.all fun c => c.isLower || c.isDigit || c = '_' := by
      rcases Bool.or_eq_true_iff.mp hvalid with hempty | hname
      · rw [String.isEmpty_iff.mp hempty]
        rfl
      · exact hnames database hname
    rw [List.all_eq_true] at hall
    refine ⟨?_, ?_, ?_⟩ <;> intro hmem <;> exact absurd (hall _ hmem) (by decide)

/-- The default's cache has no extension, and a database beside it is called what SQLite calls a file
of the cache. -/
def SpellsSidecar (s : Settings) (f : Forward) : Prop :=
  fileName f.batching.cachePath.toList = some (lastPart f.batching.cachePath.toList) ∧
    extension f.batching.cachePath.toList = none ∧ f.database ∈ s.databases ∧
    ∃ word ∈ ["wal", "shm"], word ∈ s.databases ∧ word ≠ f.database

/-- Caches of two pipelines, or the two of one, that have a file in common spell a sidecar. -/
theorem apart_of_not_spells {lib : SettingsLib} (hlib : lib.sibling = siblingCache)
    (hnames : ∀ name, lib.validDatabaseName name = true →
      name.toList.all fun c => c.isLower || c.isDigit || c = '_') {s : Settings} {f : Forward}
    (hvalid : ∀ db ∈ s.databases, validDatabase lib db = true) (hspells : ¬ SpellsSidecar s f)
    {db db' : String} (hdb : db ∈ s.databases) (hdb' : db' ∈ s.databases) {dead dead' : Bool}
    (hne : ¬ (db = db' ∧ dead = dead')) :
    Apart
      (if dead then deadLetterPath (Settings.forDatabase lib f db).batching.cachePath
        else (Settings.forDatabase lib f db).batching.cachePath)
      (if dead' then deadLetterPath (Settings.forDatabase lib f db').batching.cachePath
        else (Settings.forDatabase lib f db').batching.cachePath) := by
  have hword {db : String} {word : List Char} (hmem : db ∈ s.databases)
      (hword : word ∈ ["wal".toList, "shm".toList]) (hkey : keyOf f db = some word) :
      ∃ word ∈ ["wal", "shm"], word ∈ s.databases ∧ word ≠ f.database := by
    unfold keyOf at hkey
    split_ifs at hkey with hdefault
    have hname := Option.some.inj hkey
    refine ⟨db, ?_, hmem, hdefault⟩
    rw [← hname, List.mem_pair, String.toList_inj, String.toList_inj] at hword
    exact List.mem_pair.mpr hword
  have hdefault {db : String} (hmem : db ∈ s.databases) (hkey : keyOf f db = none) :
      f.database ∈ s.databases := by
    unfold keyOf at hkey
    split_ifs at hkey with hdefault
    exact hdefault ▸ hmem
  rw [apart_iff, toList_cachePath hlib, toList_cachePath hlib,
    shares_iff_clash (isDatabase_keyOf hnames (hvalid db hdb))
      (isDatabase_keyOf hnames (hvalid db' hdb')) fun hsame => hne ⟨keyOf_injective hsame.1, hsame.2⟩]
  rintro ⟨hfile, hext, -, -, hwhich⟩
  have hextension : extension f.batching.cachePath.toList = none := by
    unfold extension
    unfold base at hext
    rw [hfile] at hext ⊢
    exact hext
  rcases hwhich with ⟨hnone, word, hmem, hkey⟩ | ⟨hnone, word, hmem, hkey⟩
  · exact hspells ⟨hfile, hextension, hdefault hdb hnone, hword hdb' hmem hkey⟩
  · exact hspells ⟨hfile, hextension, hdefault hdb' hnone, hword hdb hmem hkey⟩

/-- A cache and the dead letters beside it have no file in common. -/
theorem apart_deadLetterPath (path : String) : Apart path (deadLetterPath path) := by
  have hcache : path.toList = cacheOf path.toList none false := rfl
  have hdead : (deadLetterPath path).toList = cacheOf path.toList none true := String.toList_ofList
  have hnone : ∀ d ∈ (none : Option (List Char)), IsDatabase d := fun _ hd => absurd hd (by simp)
  rw [apart_iff, hdead]
  nth_rewrite 1 [hcache]
  rw [shares_iff_clash hnone hnone (by simp)]
  rintro ⟨-, -, -, hfalse, -⟩
  cases hfalse

/-- The caches of a single pipeline. -/
theorem caches_apart_of_single (f : Forward) : (caches [f]).Pairwise Apart := by
  unfold caches
  rw [List.flatMap_singleton, List.pairwise_pair]
  exact apart_deadLetterPath _

theorem Apart.symm {p q : String} (h : Apart p q) : Apart q p :=
  fun a ha b hb hsame => h b hb a ha (Eq.symm hsame)

theorem caches_forwards {lib : SettingsLib} {s : Settings} {f : Forward} (hf : s.forward = some f) :
    caches (s.forwards lib) = s.databases.flatMap fun db =>
      [(Settings.forDatabase lib f db).batching.cachePath,
        deadLetterPath (Settings.forDatabase lib f db).batching.cachePath] := by
  unfold caches Settings.forwards
  rw [hf]
  exact List.flatMap_map _ _ _

theorem caches_apart_iff {lib : SettingsLib} (hlib : lib.sibling = siblingCache)
    (hnames : ∀ name, lib.validDatabaseName name = true →
      name.toList.all fun c => c.isLower || c.isDigit || c = '_') {cli : Cli}
    {file : Option FileConfig} {ui : Option UiConfig} {env : Env} {r : Resolved}
    (h : Settings.resolve lib cli file ui env = .ok r) {f : Forward}
    (hf : r.settings.forward = some f) :
    (caches (r.settings.forwards lib)).Pairwise Apart ↔ ¬ SpellsSidecar r.settings f := by
  have hvalid : ∀ db ∈ r.settings.databases, validDatabase lib db = true :=
    fun db hdb => Settings.valid_of_mem_databases h hf hdb
  rw [caches_forwards hf, List.pairwise_flatMap]
  constructor
  · -- The default's cache and the one of the sidecar's name clash.
    rintro ⟨-, hpairs⟩ ⟨hfile, hextension, hdefault, word, hword, hmem, hne⟩
    have hsymm : Std.Symm fun db db' : String =>
        ∀ x ∈ [(Settings.forDatabase lib f db).batching.cachePath,
          deadLetterPath (Settings.forDatabase lib f db).batching.cachePath],
        ∀ y ∈ [(Settings.forDatabase lib f db').batching.cachePath,
          deadLetterPath (Settings.forDatabase lib f db').batching.cachePath], Apart x y :=
      ⟨fun _ _ hpair y hy x hx => (hpair x hx y hy).symm⟩
    have hapart := hpairs.forall hdefault hmem hne.symm _ List.mem_cons_self _ List.mem_cons_self
    have hclash : Clash f.batching.cachePath.toList (keyOf f f.database) (keyOf f word) false
        false := by
      unfold keyOf
      rw [if_pos rfl, if_neg hne]
      refine ⟨hfile, ?_, rfl, rfl, .inl ⟨rfl, word.toList, ?_, rfl⟩⟩
      · unfold extension at hextension
        unfold base
        rw [hfile] at hextension ⊢
        exact hextension
      · rw [List.mem_pair, String.toList_inj, String.toList_inj]
        exact List.mem_pair.mp hword
    rw [apart_iff] at hapart
    have hfirst := toList_cachePath hlib f f.database false
    have hsecond := toList_cachePath hlib f word false
    rw [if_neg Bool.false_ne_true] at hfirst hsecond
    rw [hfirst, hsecond, shares_iff_clash (isDatabase_keyOf hnames (hvalid _ hdefault))
      (isDatabase_keyOf hnames (hvalid _ hmem)) fun hsame => hne (keyOf_injective hsame.1).symm]
      at hapart
    exact hapart hclash
  · intro hspells
    have happly := @apart_of_not_spells lib hlib hnames r.settings f hvalid hspells
    constructor
    · intro db _
      rw [List.pairwise_pair]
      exact apart_deadLetterPath _
    · refine r.settings.nodup_databases.pairwise_of_forall_ne fun db hdb db' hdb' hne => ?_
      have hpair (dead dead' : Bool) := @happly db db' hdb hdb' dead dead' fun hsame => hne hsame.1
      intro x hx y hy
      rw [List.mem_pair] at hx hy
      rcases hx with rfl | rfl <;> rcases hy with rfl | rfl
      · exact hpair false false
      · exact hpair false true
      · exact hpair true false
      · exact hpair true true

/-- The gateway's rules, and caches beside each other. -/
def SettingsLib.onDisk : SettingsLib := { SettingsLib.bare with sibling := siblingCache }

/-- `can0` to the default, `can1` to a database of its own. -/
def twoDatabases (database : String) : FileConfig :=
  { (default : FileConfig) with
    device :=
      [{ (default : DeviceSection) with kind := some "can", interface := some "can0" },
        { (default : DeviceSection) with
          kind := some "can"
          interface := some "can1"
          database := some database }] }

/-- A gateway, and a cache path. -/
def cachedCli (path : String) : Cli :=
  { Cli.defaults with
    forwardEnable := true
    pgCachePath := some path
    given := ["forward_enable", "pg_cache_path"] }

/-- The cache of `wal` is the write-ahead log of the default's. -/
theorem caches_share_wal :
    ∃ r f, Settings.resolve .onDisk (cachedCli "/var/lib/wiretap/cache") (some (twoDatabases "wal"))
        none benchEnv = .ok r ∧
      r.settings.forward = some f ∧ r.settings.databases = ["", "wal"] ∧
      (caches (r.settings.forwards .onDisk))[2]? = some "/var/lib/wiretap/cache-wal" ∧
      ¬ (caches (r.settings.forwards .onDisk)).Pairwise Apart := by
  obtain ⟨r, hr⟩ : ∃ r, Settings.resolve .onDisk (cachedCli "/var/lib/wiretap/cache")
      (some (twoDatabases "wal")) none benchEnv = .ok r := ⟨_, rfl⟩
  obtain ⟨f, hf⟩ : ∃ f, r.settings.forward = some f := by
    obtain rfl := Except.ok.inj hr
    exact ⟨_, rfl⟩
  have hdatabases : r.settings.databases = ["", "wal"] := by
    obtain rfl := Except.ok.inj hr
    decide +kernel
  have hcaches : caches (r.settings.forwards .onDisk) =
      ["/var/lib/wiretap/cache", "/var/lib/wiretap/cache.dead-letter", "/var/lib/wiretap/cache-wal",
        "/var/lib/wiretap/cache-wal.dead-letter"] := by
    obtain rfl := Except.ok.inj hr
    decide +kernel
  refine ⟨r, f, hr, hf, hdatabases, ?_, ?_⟩
  · rw [hcaches]
    rfl
  · rw [hcaches]
    intro hapart
    have hpair := (List.pairwise_cons.mp hapart).1 "/var/lib/wiretap/cache-wal" (by simp)
    have hwal : "/var/lib/wiretap/cache-wal" ∈ cacheFiles "/var/lib/wiretap/cache" := by
      simp [cacheFiles, sidecars]
    exact hpair _ hwal _ List.mem_cons_self rfl

theorem caches_apart_fleet :
    ∃ r f, Settings.resolve .onDisk (cachedCli "/var/lib/wiretap/cache.db")
        (some (twoDatabases "fleet")) none benchEnv = .ok r ∧
      r.settings.forward = some f ∧ (caches (r.settings.forwards .onDisk)).Pairwise Apart := by
  obtain ⟨r, hr⟩ : ∃ r, Settings.resolve .onDisk (cachedCli "/var/lib/wiretap/cache.db")
      (some (twoDatabases "fleet")) none benchEnv = .ok r := ⟨_, rfl⟩
  obtain ⟨f, hf⟩ : ∃ f, r.settings.forward = some f := by
    obtain rfl := Except.ok.inj hr
    exact ⟨_, rfl⟩
  refine ⟨r, f, hr, hf, (caches_apart_iff rfl ?_ hr hf).mpr ?_⟩
  · intro name hname
    simp only [SettingsLib.onDisk, SettingsLib.bare, Bool.and_eq_true] at hname
    exact hname.2
  · rintro ⟨-, hextension, -⟩
    have hpath : f.batching.cachePath = "/var/lib/wiretap/cache.db" := by
      obtain rfl := Except.ok.inj hr
      exact (congrArg (·.batching.cachePath) (Option.some.inj hf)).symm
    rw [hpath] at hextension
    exact absurd hextension (by decide +kernel)

end WireTap.Daemon
