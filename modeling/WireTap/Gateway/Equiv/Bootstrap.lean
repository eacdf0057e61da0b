import Mathlib.Data.List.Nodup
import WireTap.Lib.Run
import WireTap.Gateway.Bootstrap

/-!
# The history of the bootstrap admin key

* `run_history`: for every sequence of starts, rotations, crashes and changes of the key file, the
  rows have one current key at most, a retired key is never honoured after a later start, and a start
  with the key file honours the key the file holds unless that key is retired.
* `rotation_failed_iff`: a rotation that fails leaves the keys honoured as they were, now and after a
  restart, exactly if it failed before the rename of the key file and its commit took no effect.

Everything rests on what the rows are (`WellFormed`) and on how they grow (`Extends`): `settle_spec`
says what a start makes of them, `rotate_cases` what a rotation does, and each law is an induction
over these two.
-/

namespace WireTap.Gateway

/-! ### The rows -/

/-- The hashes that have a row. -/
def rowHashes (rows : List BootstrapRow) : List Hash := rows.map (·.keyHash)

/-- What the statements of `bootstrap` and of a rotation keep: one row a hash, and one current row
once there is any. -/
structure WellFormed (rows : List BootstrapRow) : Prop where
  hashes : (rowHashes rows).Nodup
  current : rows ≠ [] → ∃ r ∈ rows, r.retired = false
  unique : ∀ r ∈ rows, ∀ r' ∈ rows, r.retired = false → r'.retired = false → r = r'

/-- The history only grows: a hash keeps its row, and a retired one stays retired. -/
structure Extends (rows rows' : List BootstrapRow) : Prop where
  hashes : ∀ h ∈ rowHashes rows, h ∈ rowHashes rows'
  retired : ∀ h, ⟨h, true⟩ ∈ rows → ⟨h, true⟩ ∈ rows'

variable {rows rows' : List BootstrapRow} {outgoing : Option Hash} {hash h : Hash}

theorem Extends.refl (rows : List BootstrapRow) : Extends rows rows :=
  ⟨fun _ h => h, fun _ h => h⟩

theorem mem_rowHashes {r : BootstrapRow} (h : r ∈ rows) : r.keyHash ∈ rowHashes rows :=
  List.mem_map_of_mem h

/-- A hash that has a row is current or retired. -/
theorem mem_rows_of_mem_rowHashes (hh : h ∈ rowHashes rows) :
    ⟨h, false⟩ ∈ rows ∨ ⟨h, true⟩ ∈ rows := by
  obtain ⟨⟨_, retired⟩, hr, rfl⟩ := List.mem_map.mp hh
  cases retired with
  | false => exact .inl hr
  | true => exact .inr hr

/-- One row a hash. -/
theorem WellFormed.eq_of_keyHash (hw : WellFormed rows) {r r' : BootstrapRow} (hr : r ∈ rows)
    (hr' : r' ∈ rows) (heq : r.keyHash = r'.keyHash) : r = r' :=
  List.inj_on_of_nodup_map hw.hashes hr hr' heq

theorem WellFormed.not_retired_of_current (hw : WellFormed rows) (hh : ⟨h, false⟩ ∈ rows) :
    ⟨h, true⟩ ∉ rows := by
  intro hretired
  have heq : (⟨h, false⟩ : BootstrapRow) = ⟨h, true⟩ := hw.eq_of_keyHash hh hretired rfl
  cases heq

/-! ### `make_current` -/

theorem retired_of_mem_retireAll {r : BootstrapRow} (hr : r ∈ retireAll rows) :
    r.retired = true := by
  obtain ⟨_, -, rfl⟩ := List.mem_map.mp hr
  rfl

theorem retired_of_mem_retireCurrent {r : BootstrapRow} (hr : r ∈ retireCurrent rows outgoing) :
    r.retired = true := by
  unfold retireCurrent at hr
  split at hr
  · exact retired_of_mem_retireAll hr
  · split_ifs at hr with hrow
    · exact retired_of_mem_retireAll hr
    · rcases List.mem_append.mp hr with hr | hr
      · exact retired_of_mem_retireAll hr
      · rw [List.mem_singleton.mp hr]

@[simp] theorem rowHashes_append (rows rows' : List BootstrapRow) :
    rowHashes (rows ++ rows') = rowHashes rows ++ rowHashes rows' := List.map_append

/-- Retiring a row does not change whose it is. -/
@[simp] theorem rowHashes_retireAll (rows : List BootstrapRow) :
    rowHashes (retireAll rows) = rowHashes rows := by
  simp [rowHashes, retireAll]

theorem rowHashes_retireCurrent (rows : List BootstrapRow) (outgoing : Option Hash) :
    rowHashes (retireCurrent rows outgoing) =
      rowHashes rows ++ outgoing.toList.filter (· ∉ rowHashes rows) := by
  cases outgoing with
  | none => simp [retireCurrent]
  | some outgoing =>
    change rowHashes (if outgoing ∈ rowHashes (retireAll rows) then _ else _) = _
    rw [rowHashes_retireAll]
    split_ifs with hrow
    · simp [hrow]
    · have hnew : (some outgoing).toList.filter (· ∉ rowHashes rows) = [outgoing] := by
        simp [hrow]
      rw [rowHashes_append, rowHashes_retireAll, hnew]
      rfl

theorem extends_retireCurrent : Extends rows (retireCurrent rows outgoing) := by
  have hhashes : ∀ h ∈ rowHashes rows, h ∈ rowHashes (retireCurrent rows outgoing) := by
    intro h hh
    rw [rowHashes_retireCurrent]
    exact List.mem_append_left _ hh
  refine ⟨hhashes, ?_⟩
  intro h hh
  rcases mem_rows_of_mem_rowHashes (hhashes h (mem_rowHashes hh)) with hrow | hrow
  · cases retired_of_mem_retireCurrent hrow
  · exact hrow

/-- Every row there was is retired. -/
theorem retired_retireCurrent (hh : h ∈ rowHashes rows) :
    ⟨h, true⟩ ∈ retireCurrent rows outgoing := by
  rcases mem_rows_of_mem_rowHashes (extends_retireCurrent.hashes h hh) with hrow | hrow
  · cases retired_of_mem_retireCurrent hrow
  · exact hrow

theorem nodup_retireCurrent (hw : WellFormed rows) :
    (rowHashes (retireCurrent rows outgoing)).Nodup := by
  rw [rowHashes_retireCurrent]
  refine List.Nodup.append hw.hashes ?_ ?_
  · cases outgoing <;> simp [List.filter_cons]
    split <;> simp
  · intro h hh hout
    have hnew := (List.mem_filter.mp hout).2
    exact (of_decide_eq_true hnew) hh

/-- What `make_current` did if it succeeded. -/
theorem makeCurrent_eq_some :
    makeCurrent rows outgoing hash = some rows' ↔
      hash ∉ rowHashes (retireCurrent rows outgoing) ∧
        rows' = retireCurrent rows outgoing ++ [⟨hash, false⟩] := by
  unfold makeCurrent
  change (if hash ∈ rowHashes (retireCurrent rows outgoing) then none else _) = some rows' ↔ _
  split_ifs with hrow
  · simp [hrow]
  · simp [hrow, eq_comm]

/-- The rows `make_current` leaves are well formed, and extend those it found. -/
theorem WellFormed.makeCurrent (hw : WellFormed rows)
    (hmade : makeCurrent rows outgoing hash = some rows') : WellFormed rows' := by
  obtain ⟨hnew, rfl⟩ := makeCurrent_eq_some.mp hmade
  have hcurrent : ∀ r ∈ retireCurrent rows outgoing ++ [⟨hash, false⟩], r.retired = false →
      r = ⟨hash, false⟩ := by
    intro r hr hretired
    rcases List.mem_append.mp hr with hr | hr
    · rw [retired_of_mem_retireCurrent hr] at hretired
      cases hretired
    · exact List.mem_singleton.mp hr
  refine ⟨?_, ?_, ?_⟩
  · rw [rowHashes_append]
    refine List.Nodup.append (nodup_retireCurrent hw) (List.nodup_singleton _) ?_
    intro h hh heq
    rw [List.mem_singleton.mp heq] at hh
    exact hnew hh
  · intro _
    exact ⟨⟨hash, false⟩, List.mem_append_right _ (List.mem_singleton_self _), rfl⟩
  · intro r hr r' hr' hretired hretired'
    rw [hcurrent r hr hretired, hcurrent r' hr' hretired']

theorem extends_makeCurrent (hmade : makeCurrent rows outgoing hash = some rows') :
    Extends rows rows' := by
  obtain ⟨-, rfl⟩ := makeCurrent_eq_some.mp hmade
  refine ⟨?_, ?_⟩
  · intro h hh
    rw [rowHashes_append]
    exact List.mem_append_left _ (extends_retireCurrent.hashes h hh)
  · intro h hh
    exact List.mem_append_left _ (extends_retireCurrent.retired h hh)

/-- The hash made current had no row. -/
theorem not_mem_of_makeCurrent (hmade : makeCurrent rows outgoing hash = some rows') :
    hash ∉ rowHashes rows :=
  fun hh => (makeCurrent_eq_some.mp hmade).1 (extends_retireCurrent.hashes hash hh)

theorem current_of_makeCurrent (hmade : makeCurrent rows outgoing hash = some rows') :
    ⟨hash, false⟩ ∈ rows' := by
  obtain ⟨-, rfl⟩ := makeCurrent_eq_some.mp hmade
  exact List.mem_append_right _ (List.mem_singleton_self _)

/-- Every hash that had a row is retired by it. -/
theorem retired_of_makeCurrent (hmade : makeCurrent rows outgoing hash = some rows')
    (hh : h ∈ rowHashes rows) : ⟨h, true⟩ ∈ rows' := by
  obtain ⟨-, rfl⟩ := makeCurrent_eq_some.mp hmade
  exact List.mem_append_left _ (retired_retireCurrent hh)

/-- A hash that has no row can always be made current by a start. -/
theorem makeCurrent_of_not_mem (hh : hash ∉ rowHashes rows) :
    ∃ rows', makeCurrent rows none hash = some rows' := by
  refine ⟨_, makeCurrent_eq_some.mpr ⟨?_, rfl⟩⟩
  rw [rowHashes_retireCurrent]
  simpa using hh

/-! ### `standing` -/

/-- A search that only one element can end finds it. -/
theorem find?_of_unique {α : Type} {p : α → Bool} {xs : List α} {x : α} (hx : x ∈ xs) (hp : p x)
    (hunique : ∀ y ∈ xs, p y → y = x) : xs.find? p = some x := by
  obtain ⟨y, hfound⟩ := Option.isSome_iff_exists.mp (List.find?_isSome.mpr ⟨x, hx, hp⟩)
  rw [hfound, hunique y (List.mem_of_find?_eq_some hfound) (List.find?_some hfound)]

theorem find_row (hw : WellFormed rows) {r : BootstrapRow} (hr : r ∈ rows) :
    (asked r.keyHash rows).find? (fun r' => r'.keyHash = r.keyHash) = some r := by
  refine find?_of_unique (List.mem_filter.mpr ⟨hr, by simp⟩) (by simp) ?_
  intro r' hr' heq
  exact hw.eq_of_keyHash (List.mem_filter.mp hr').1 hr (of_decide_eq_true heq)

theorem find_current (hw : WellFormed rows) {c : Hash} (hc : ⟨c, false⟩ ∈ rows) :
    (asked h rows).find? (fun r => !r.retired) = some ⟨c, false⟩ := by
  refine find?_of_unique (List.mem_filter.mpr ⟨hc, by simp⟩) rfl ?_
  intro r' hr' hcurrent
  exact hw.unique r' (List.mem_filter.mp hr').1 _ hc (by simpa using hcurrent) rfl

theorem standing_current (hw : WellFormed rows) (hh : ⟨h, false⟩ ∈ rows) :
    standing h (asked h rows) = .current := by
  simp only [standing, find_row hw hh]

theorem standing_retired (hw : WellFormed rows) {c : Hash} (hh : ⟨h, true⟩ ∈ rows)
    (hc : ⟨c, false⟩ ∈ rows) : standing h (asked h rows) = .retired (some c) := by
  simp only [standing, find_row hw hh, find_current hw hc, Option.map_some]

theorem standing_unknown (hh : h ∉ rowHashes rows) : standing h (asked h rows) = .unknown := by
  have hnone : (asked h rows).find? (fun r => r.keyHash = h) = none := by
    refine List.find?_eq_none.mpr ?_
    intro r hr heq
    have hmem := mem_rowHashes (List.mem_filter.mp hr).1
    rw [of_decide_eq_true heq] at hmem
    exact hh hmem
  simp only [standing, hnone]

namespace AdminKey

variable {hashKey : String → Hash} {s s' : AdminKey} {p : KeyProcess} {configured : Option Hash}
  {honoured : Option Hash}

/-! ### A start -/

theorem configured_env (s : AdminKey) (key : String) :
    s.configured (.env key) = some (some key) := rfl

theorem settle_current {m : Start} (hw : WellFormed rows) (hquery : m.query)
    (hh : ⟨h, false⟩ ∈ rows) : settle rows (some h) m = some (rows, some h) := by
  simp [settle, hquery, standing_current hw hh]

theorem settle_retired {m : Start} {c : Hash} (hw : WellFormed rows) (hquery : m.query)
    (hh : ⟨h, true⟩ ∈ rows) (hc : ⟨c, false⟩ ∈ rows) :
    settle rows (some h) m = some (rows, some c) := by
  simp [settle, hquery, standing_retired hw hh hc]

theorem settle_unknown {m : Start} (hquery : m.query) (hh : h ∉ rowHashes rows) :
    settle rows (some h) m =
      if m.makeCurrent then (makeCurrent rows none h).map fun rows => (rows, some h) else none := by
  simp only [settle, hquery, standing_unknown hh]
  cases m.makeCurrent <;> rfl

/-- What a start made of the rows, and what it honours. -/
structure Settled (rows : List BootstrapRow) (configured : Option Hash) (rows' : List BootstrapRow)
    (honoured : Option Hash) : Prop where
  wellFormed : WellFormed rows'
  history : Extends rows rows'
  /-- The configured key has a row. -/
  recorded : ∀ h ∈ configured, h ∈ rowHashes rows'
  /-- What is honoured is the current row's, and nothing if no key is configured. -/
  live : ∀ c ∈ honoured, ⟨c, false⟩ ∈ rows'
  unset : configured = none → honoured = none
  /-- The configured key is honoured, unless it was retired. -/
  taken : ∀ h ∈ configured, ⟨h, true⟩ ∉ rows → honoured = some h
  replaced : ∀ h ∈ configured, ⟨h, true⟩ ∈ rows → ∃ c, ⟨c, false⟩ ∈ rows ∧ honoured = some c

theorem settled_current (hw : WellFormed rows) (hh : ⟨h, false⟩ ∈ rows) :
    Settled rows (some h) rows (some h) where
  wellFormed := hw
  history := .refl rows
  recorded := by simpa using mem_rowHashes hh
  live := by simpa using hh
  unset := by simp
  taken := by simp
  replaced := by simpa using fun hretired => absurd hretired (hw.not_retired_of_current hh)

theorem settled_retired {c : Hash} (hw : WellFormed rows) (hh : ⟨h, true⟩ ∈ rows)
    (hc : ⟨c, false⟩ ∈ rows) : Settled rows (some h) rows (some c) where
  wellFormed := hw
  history := .refl rows
  recorded := by simpa using mem_rowHashes hh
  live := by simpa using hc
  unset := by simp
  taken := by simpa using fun hlive => absurd hh hlive
  replaced := by simpa using fun _ => hc

theorem settled_unknown (hw : WellFormed rows) (hh : h ∉ rowHashes rows)
    (hmade : makeCurrent rows none h = some rows') : Settled rows (some h) rows' (some h) where
  wellFormed := hw.makeCurrent hmade
  history := extends_makeCurrent hmade
  recorded := by simpa using mem_rowHashes (current_of_makeCurrent hmade)
  live := by simpa using current_of_makeCurrent hmade
  unset := by simp
  taken := by simp
  replaced := by simpa using fun hretired => absurd (mem_rowHashes hretired) hh

theorem settle_spec {m : Start} (hw : WellFormed rows)
    (hsettle : settle rows configured m = some (rows', honoured)) :
    Settled rows configured rows' honoured := by
  cases configured with
  | none =>
    obtain ⟨rfl, rfl⟩ := Prod.mk.inj (Option.some.inj hsettle)
    exact ⟨hw, .refl _, by simp, by simp, fun _ => rfl, by simp, by simp⟩
  | some h =>
    have hquery : m.query := by
      by_contra hquery
      simp [settle, hquery] at hsettle
    -- The key is the current row's, or a retired row's, or new.
    by_cases hrow : h ∈ rowHashes rows
    · rcases mem_rows_of_mem_rowHashes hrow with hh | hh
      · rw [settle_current hw hquery hh] at hsettle
        obtain ⟨rfl, rfl⟩ := Prod.mk.inj (Option.some.inj hsettle)
        exact settled_current hw hh
      · obtain ⟨⟨c, _⟩, hc, rfl⟩ := hw.current (List.ne_nil_of_mem hh)
        rw [settle_retired hw hquery hh hc] at hsettle
        obtain ⟨rfl, rfl⟩ := Prod.mk.inj (Option.some.inj hsettle)
        exact settled_retired hw hh hc
    · rw [settle_unknown hquery hrow] at hsettle
      split_ifs at hsettle
      obtain ⟨rows'', hmade, heq⟩ := Option.map_eq_some_iff.mp hsettle
      obtain ⟨rfl, rfl⟩ := Prod.mk.inj heq
      exact settled_unknown hw hrow hmade

/-- A start whose statements all succeed settles. -/
theorem exists_settle (hw : WellFormed rows) (configured : Option Hash) :
    ∃ rows' honoured, settle rows configured {} = some (rows', honoured) := by
  cases configured with
  | none => exact ⟨rows, none, rfl⟩
  | some h =>
    by_cases hrow : h ∈ rowHashes rows
    · rcases mem_rows_of_mem_rowHashes hrow with hh | hh
      · exact ⟨_, _, settle_current hw rfl hh⟩
      · obtain ⟨⟨c, _⟩, hc, rfl⟩ := hw.current (List.ne_nil_of_mem hh)
        exact ⟨_, _, settle_retired hw rfl hh hc⟩
    · obtain ⟨rows', hmade⟩ := makeCurrent_of_not_mem hrow
      refine ⟨rows', some h, ?_⟩
      rw [settle_unknown rfl hrow, hmade]
      rfl

/-- What a start did: nothing, or it settled the rows and is up or not. -/
theorem start_cases (hashKey : String → Hash) (s : AdminKey) (source : KeySource) (m : Start) :
    s.start hashKey source m = { s with process := none } ∨
      ∃ key rows honoured process, s.configured source = some key ∧
        settle s.rows (key.map hashKey) m = some (rows, honoured) ∧
        s.start hashKey source m = { s with rows, process } ∧
        ∀ p ∈ process, p = ⟨source, ⟨key.map hashKey, honoured⟩⟩ := by
  have hkey : ({ s with process := none } : AdminKey).configured source = s.configured source := by
    cases source <;> rfl
  unfold start
  simp only [hkey]
  cases s.configured source with
  | none => exact .inl rfl
  | some key =>
    dsimp only
    split
    · exact .inl rfl
    · cases hsettle : settle s.rows (key.map hashKey) m with
      | none => exact .inl rfl
      | some settled =>
        obtain ⟨rows, honoured⟩ := settled
        -- From here on the rows may be written, whether or not the process comes up.
        cases m.commit with
        | refused => exact .inl rfl
        | unanswered => exact .inr ⟨key, rows, honoured, none, rfl, hsettle, rfl, by simp⟩
        | ok =>
          dsimp only
          split_ifs
          · exact .inr ⟨key, rows, honoured, _, rfl, hsettle, rfl, by simp⟩
          · exact .inr ⟨key, rows, honoured, none, rfl, hsettle, rfl, by simp⟩

/-! ### A rotation -/

section Rotation

variable (hashKey) (s) (p) (key : String) (m : Rotation)

/-- The rotation gets as far as the new row: `make_current` succeeds. -/
def Makes : Prop :=
  p.bootstrap.configured ≠ none ∧ m.connect ∧ m.transaction ∧ m.makeCurrent ∧
    (makeCurrent s.rows p.bootstrap.current (hashKey key)).isSome

/-- It renames the new key over the key file. -/
def Renames : Prop := s.Makes hashKey p key m ∧ p.saves ∧ m.persist ≠ .unmoved

/-- Its commit takes effect. -/
def Applies : Prop :=
  s.Makes hashKey p key m ∧ (p.saves → m.persist = .moved) ∧ m.commit ≠ .refused

instance : Decidable (s.Makes hashKey p key m) := inferInstanceAs (Decidable (_ ∧ _))

instance : Decidable (s.Renames hashKey p key m) := inferInstanceAs (Decidable (_ ∧ _))

instance : Decidable (s.Applies hashKey p key m) := inferInstanceAs (Decidable (_ ∧ _))

/-- What the key file holds once the new key is saved. -/
def saved : Option String := if p.saves then some key else s.file

end Rotation

/-- A rotation that fails before the new row changes nothing. -/
theorem rotate_of_not_makes {key : String} {m : Rotation} (h : ¬ s.Makes hashKey p key m) :
    (s.rotateBootstrapKey hashKey p key m).2 = s := by
  unfold rotateBootstrapKey
  split_ifs with hconfigured hconnect htransaction hmake
  · rfl
  · rfl
  · rfl
  · rfl
  · cases hmade : makeCurrent s.rows p.bootstrap.current (hashKey key) with
    | none => rfl
    | some rows =>
      simp only [Bool.not_eq_true', Bool.not_eq_false] at hconnect htransaction hmake
      exact absurd ⟨hconfigured, hconnect, htransaction, hmake, by simp [hmade]⟩ h

/-- One that gets as far has the file and the commit before it. -/
theorem rotate_of_makes {key : String} {m : Rotation} (h : s.Makes hashKey p key m)
    (hmade : makeCurrent s.rows p.bootstrap.current (hashKey key) = some rows) :
    s.rotateBootstrapKey hashKey p key m = persistRotation hashKey s p rows key m := by
  obtain ⟨hconfigured, hconnect, htransaction, hmake, -⟩ := h
  simp [rotateBootstrapKey, hconfigured, hconnect, htransaction, hmake, hmade]

/-- What a rotation did: nothing, the rename alone, all that lasts and an error, or all of it. -/
inductive Rotated (hashKey : String → Hash) (s : AdminKey) (p : KeyProcess) (key : String)
    (m : Rotation) : Except RotationError (Option String) × AdminKey → Prop where
  | nothing {answer : Except RotationError (Option String)}
    (hkept : ¬ s.Renames hashKey p key m) (hopen : ¬ s.Applies hashKey p key m) :
    Rotated hashKey s p key m (answer, s)
  | renamed {e : RotationError} {rows : List BootstrapRow}
    (hmade : makeCurrent s.rows p.bootstrap.current (hashKey key) = some rows)
    (hsaves : p.saves) (hrenames : s.Renames hashKey p key m)
    (hopen : ¬ s.Applies hashKey p key m) :
    Rotated hashKey s p key m (.error e, { s with file := some key })
  | unanswered {rows : List BootstrapRow}
    (hmade : makeCurrent s.rows p.bootstrap.current (hashKey key) = some rows)
    (happlies : s.Applies hashKey p key m) :
    Rotated hashKey s p key m (.error .commit, { s with file := s.saved p key, rows })
  | done {rows : List BootstrapRow}
    (hmade : makeCurrent s.rows p.bootstrap.current (hashKey key) = some rows) :
    Rotated hashKey s p key m (.ok (some key),
      { s with file := s.saved p key, rows, process := some (p.takeUp (hashKey key)) })

/-- What the commit of a rotation did whose key is saved. -/
theorem rotated_commit {key : String} {m : Rotation} (hmakes : s.Makes hashKey p key m)
    (hmade : makeCurrent s.rows p.bootstrap.current (hashKey key) = some rows)
    (hsaved : p.saves → m.persist = .moved) :
    Rotated hashKey s p key m
      (commitRotation hashKey { s with file := s.saved p key } p rows key m) := by
  unfold commitRotation
  cases hcommit : m.commit with
  | refused =>
    have hopen : ¬ s.Applies hashKey p key m := fun h => h.2.2 hcommit
    by_cases hsaves : p.saves
    · simp only [saved, hsaves, if_true]
      exact .renamed hmade hsaves ⟨hmakes, hsaves, by simp [hsaved hsaves]⟩ hopen
    · simp only [saved, hsaves]
      exact .nothing (fun h => hsaves h.2.1) hopen
  | unanswered => exact .unanswered hmade ⟨hmakes, hsaved, by simp [hcommit]⟩
  | ok => exact .done hmade

theorem rotate_cases (hashKey : String → Hash) (s : AdminKey) (p : KeyProcess) (key : String)
    (m : Rotation) : Rotated hashKey s p key m (s.rotateBootstrapKey hashKey p key m) := by
  by_cases hmakes : s.Makes hashKey p key m
  · obtain ⟨rows, hmade⟩ := Option.isSome_iff_exists.mp hmakes.2.2.2.2
    have hcommit := rotated_commit hmakes hmade
    rw [rotate_of_makes hmakes hmade]
    unfold persistRotation
    split_ifs with hsaves
    · simp only [saved, hsaves, if_true, forall_const] at hcommit
      cases hpersist : m.persist with
      | unmoved =>
        refine .nothing (fun h => h.2.2 hpersist) fun h => ?_
        have hmoved := h.2.1 hsaves
        rw [hpersist] at hmoved
        cases hmoved
      | unsynced =>
        refine .renamed hmade hsaves ⟨hmakes, hsaves, by simp [hpersist]⟩ fun h => ?_
        have hmoved := h.2.1 hsaves
        rw [hpersist] at hmoved
        cases hmoved
      | moved => exact hcommit hpersist
    · simp only [saved, hsaves] at hcommit
      exact hcommit (by simp)
  · have hsame : s.rotateBootstrapKey hashKey p key m =
        ((s.rotateBootstrapKey hashKey p key m).1, s) := Prod.ext rfl (rotate_of_not_makes hmakes)
    rw [hsame]
    exact .nothing (fun h => hmakes h.1) fun h => hmakes h.1

/-! ### What every run keeps -/

/-- The rows are well formed, and a process knows where its key came from: one from the environment
has a row, and one that was given none has none configured. -/
structure Invariant (hashKey : String → Hash) (s : AdminKey) : Prop where
  wellFormed : WellFormed s.rows
  recorded : ∀ p ∈ s.process, ∀ key, p.source = .env key → hashKey key ∈ rowHashes s.rows
  unset : ∀ p ∈ s.process, p.source = .unset → p.bootstrap.configured = none

theorem init_invariant (file : Option String) : (init file).Invariant hashKey where
  wellFormed := ⟨List.nodup_nil, fun h => absurd rfl h, by simp [init]⟩
  recorded := by simp [init]
  unset := by simp [init]

/-- Nobody is served. -/
theorem Invariant.down (h : s.Invariant hashKey) :
    ({ s with process := none } : AdminKey).Invariant hashKey :=
  ⟨h.wellFormed, by simp, by simp⟩

theorem Invariant.start (h : s.Invariant hashKey) (source : KeySource) (m : Start) :
    (s.start hashKey source m).Invariant hashKey := by
  rcases start_cases hashKey s source m with
    hstart | ⟨key, rows, honoured, process, hkey, hsettle, hstart, hprocess⟩
  · rw [hstart]
    exact h.down
  · have hsettled := settle_spec h.wellFormed hsettle
    rw [hstart]
    refine ⟨hsettled.wellFormed, ?_, ?_⟩
    · intro p hp env hsource
      obtain rfl := hprocess p hp
      dsimp only at hsource
      subst hsource
      obtain rfl : some env = key := Option.some.inj hkey
      exact hsettled.recorded _ rfl
    · intro p hp hsource
      obtain rfl := hprocess p hp
      dsimp only at hsource
      subst hsource
      obtain rfl : none = key := Option.some.inj hkey
      rfl

theorem Invariant.rotate (h : s.Invariant hashKey) (hp : s.process = some p) (key : String)
    (m : Rotation) : (s.rotateBootstrapKey hashKey p key m).2.Invariant hashKey := by
  have hrotated := rotate_cases hashKey s p key m
  generalize s.rotateBootstrapKey hashKey p key m = r at hrotated ⊢
  cases hrotated with
  | nothing => exact h
  | renamed => exact ⟨h.wellFormed, h.recorded, h.unset⟩
  | unanswered hmade =>
    refine ⟨h.wellFormed.makeCurrent hmade, ?_, h.unset⟩
    intro q hq env hsource
    exact (extends_makeCurrent hmade).hashes _ (h.recorded q hq env hsource)
  | done hmade =>
    refine ⟨h.wellFormed.makeCurrent hmade, ?_, ?_⟩
    · intro q hq env hsource
      obtain rfl := Option.some.inj hq
      exact (extends_makeCurrent hmade).hashes _ (h.recorded p hp env hsource)
    · intro q hq hsource
      obtain rfl := Option.some.inj hq
      change p.source = .unset at hsource
      simp [KeyProcess.takeUp, KeyProcess.saves, hsource, h.unset p hp hsource]

theorem step_invariant {e : AdminKeyEvent} (h : s.Invariant hashKey)
    (hstep : s.step hashKey e = some s') : s'.Invariant hashKey := by
  cases e with
  | start source m =>
    cases hstep
    exact h.start source m
  | rotate key m =>
    obtain ⟨p, hp, rfl⟩ := Option.map_eq_some_iff.mp hstep
    exact h.rotate hp key m
  | crash =>
    cases hstep
    exact h.down
  | edit file =>
    cases hstep
    exact ⟨h.wellFormed, h.recorded, h.unset⟩

/-! ### A retired key -/

/-- `key_hash` has a row, and it is retired. -/
def Retired (s : AdminKey) (h : Hash) : Prop := ⟨h, true⟩ ∈ s.rows

instance (s : AdminKey) (h : Hash) : Decidable (s.Retired h) :=
  inferInstanceAs (Decidable (_ ∈ _))

/-- The key is retired, and the process that is up does not honour it. -/
structure Dead (s : AdminKey) (h : Hash) : Prop where
  retired : s.Retired h
  refused : ∀ p ∈ s.process, p.bootstrap.current ≠ some h

/-- A start honours no retired key. -/
theorem dead_start (hs : s.Invariant hashKey) (h : s.Retired hash) (source : KeySource)
    (m : Start) : (s.start hashKey source m).Dead hash := by
  rcases start_cases hashKey s source m with
    hstart | ⟨key, rows, honoured, process, -, hsettle, hstart, hprocess⟩
  · rw [hstart]
    exact ⟨h, by simp⟩
  · have hsettled := settle_spec hs.wellFormed hsettle
    have hretired : ⟨hash, true⟩ ∈ rows := hsettled.history.retired hash h
    rw [hstart]
    refine ⟨hretired, ?_⟩
    intro p hp hcurrent
    obtain rfl := hprocess p hp
    exact hsettled.wellFormed.not_retired_of_current (hsettled.live hash hcurrent) hretired

/-- A rotation makes no retired key current. -/
theorem Dead.rotate (h : s.Dead hash) (p : KeyProcess) (key : String) (m : Rotation) :
    (s.rotateBootstrapKey hashKey p key m).2.Dead hash := by
  have hrotated := rotate_cases hashKey s p key m
  generalize s.rotateBootstrapKey hashKey p key m = r at hrotated ⊢
  cases hrotated with
  | nothing => exact h
  | renamed => exact ⟨h.retired, h.refused⟩
  | unanswered hmade => exact ⟨(extends_makeCurrent hmade).retired hash h.retired, h.refused⟩
  | done hmade =>
    refine ⟨(extends_makeCurrent hmade).retired hash h.retired, ?_⟩
    intro q hq hcurrent
    obtain rfl := Option.some.inj hq
    -- The new hash had no row.
    obtain rfl := Option.some.inj hcurrent
    exact not_mem_of_makeCurrent hmade (mem_rowHashes h.retired)

theorem step_dead {e : AdminKeyEvent} (h : s.Invariant hashKey ∧ s.Dead hash)
    (hstep : s.step hashKey e = some s') : s'.Invariant hashKey ∧ s'.Dead hash := by
  refine ⟨step_invariant h.1 hstep, ?_⟩
  cases e with
  | start source m =>
    cases hstep
    exact dead_start h.1 h.2.retired source m
  | rotate key m =>
    obtain ⟨p, -, rfl⟩ := Option.map_eq_some_iff.mp hstep
    exact h.2.rotate p key m
  | crash =>
    cases hstep
    exact ⟨h.2.retired, by simp⟩
  | edit file =>
    cases hstep
    exact ⟨h.2.retired, h.2.refused⟩

/-! ### The key file -/

/-- Every start reads the key from its file, and only rotations write it. -/
def ByFile (_ : AdminKey) : AdminKeyEvent → Prop
  | .start source _ => source = .file
  | .edit _ => False
  | _ => True

instance (s : AdminKey) (e : AdminKeyEvent) : Decidable (s.ByFile e) := by
  cases e <;> unfold ByFile <;> infer_instance

/-- The key in the file is not a retired one, and a process saves its key there. -/
structure FileLive (hashKey : String → Hash) (s : AdminKey) : Prop where
  live : ∀ key ∈ s.file, ¬ s.Retired (hashKey key)
  source : ∀ p ∈ s.process, p.source = .file

/-- A start with the key in the file makes it current, if it is not already. -/
theorem FileLive.start (h : s.FileLive hashKey) (hs : s.Invariant hashKey) (m : Start) :
    (s.start hashKey .file m).FileLive hashKey := by
  rcases start_cases hashKey s .file m with
    hstart | ⟨key, rows, honoured, process, hkey, hsettle, hstart, hprocess⟩
  · rw [hstart]
    exact ⟨h.live, by simp⟩
  · have hsettled := settle_spec hs.wellFormed hsettle
    rw [hstart]
    refine ⟨?_, fun p hp => by rw [hprocess p hp]⟩
    intro key' hkey' hretired
    rw [configured, Option.mem_def.mp hkey'] at hkey
    obtain rfl := Option.some.inj hkey
    have hhonoured := hsettled.taken _ rfl (h.live key' hkey')
    exact hsettled.wellFormed.not_retired_of_current (hsettled.live _ hhonoured) hretired

/-- The key a rotation saves is one that had no row, and is current if its commit took effect. -/
theorem FileLive.rotate (h : s.FileLive hashKey) (hs : s.Invariant hashKey)
    (hp : s.process = some p) (key : String) (m : Rotation) :
    (s.rotateBootstrapKey hashKey p key m).2.FileLive hashKey := by
  have hsaved : s.saved p key = some key := by
    simp [saved, KeyProcess.saves, h.source p hp]
  have hlive : ∀ {rows}, makeCurrent s.rows p.bootstrap.current (hashKey key) = some rows →
      ∀ key' ∈ s.saved p key, ⟨hashKey key', true⟩ ∉ rows := by
    intro rows hmade key' hkey'
    rw [hsaved] at hkey'
    obtain rfl := Option.some.inj hkey'
    exact (hs.wellFormed.makeCurrent hmade).not_retired_of_current (current_of_makeCurrent hmade)
  have hrotated := rotate_cases hashKey s p key m
  generalize s.rotateBootstrapKey hashKey p key m = r at hrotated ⊢
  cases hrotated with
  | nothing => exact h
  | renamed hmade =>
    -- The file already has the new key, which has no row yet.
    refine ⟨?_, h.source⟩
    intro key' hkey' hretired
    obtain rfl := Option.some.inj hkey'
    exact not_mem_of_makeCurrent hmade (mem_rowHashes hretired)
  | unanswered hmade => exact ⟨hlive hmade, h.source⟩
  | done hmade =>
    refine ⟨hlive hmade, ?_⟩
    intro q hq
    obtain rfl := Option.some.inj hq
    exact h.source p hp

theorem step_fileLive {e : AdminKeyEvent} (h : s.Invariant hashKey ∧ s.FileLive hashKey)
    (hfile : s.ByFile e) (hstep : s.step hashKey e = some s') :
    s'.Invariant hashKey ∧ s'.FileLive hashKey := by
  refine ⟨step_invariant h.1 hstep, ?_⟩
  cases e with
  | start source m =>
    cases hstep
    obtain rfl : source = .file := hfile
    exact h.2.start h.1 m
  | rotate key m =>
    obtain ⟨p, hp, rfl⟩ := Option.map_eq_some_iff.mp hstep
    exact h.2.rotate h.1 hp key m
  | crash =>
    cases hstep
    exact ⟨h.2.live, by simp⟩
  | edit file => exact hfile.elim

/-! ### What a start honours -/

/-- A process that is up settled the key it was configured with. -/
theorem start_up {source : KeySource} {m : Start} (hs : s.Invariant hashKey)
    (hup : (s.start hashKey source m).process.isSome) :
    ∃ key rows honoured, s.configured source = some key ∧
      Settled s.rows (key.map hashKey) rows honoured ∧
      ∀ k, (s.start hashKey source m).honours hashKey k ↔ honoured = some (hashKey k) := by
  rcases start_cases hashKey s source m with
    hstart | ⟨key, rows, honoured, process, hkey, hsettle, hstart, hprocess⟩
  · rw [hstart] at hup
    cases hup
  · rw [hstart] at hup ⊢
    obtain ⟨p, hp⟩ := Option.isSome_iff_exists.mp hup
    dsimp only at hp
    obtain rfl := hprocess p hp
    refine ⟨key, rows, honoured, hkey, settle_spec hs.wellFormed hsettle, ?_⟩
    intro k
    simp [honours, hp]

/-- With a key configured that is not retired, that key. -/
theorem honours_start {source : KeySource} {m : Start} {key : String} (hs : s.Invariant hashKey)
    (hkey : s.configured source = some (some key))
    (hup : (s.start hashKey source m).process.isSome) (hlive : ¬ s.Retired (hashKey key))
    (k : String) : (s.start hashKey source m).honours hashKey k ↔ hashKey k = hashKey key := by
  obtain ⟨key', rows, honoured, hkey', hsettled, hhonours⟩ := start_up hs hup
  obtain rfl : key' = some key := Option.some.inj (hkey'.symm.trans hkey)
  rw [hhonours, hsettled.taken (hashKey key) rfl hlive]
  simp [eq_comm]

/-- With a key configured that is retired, the current row's. -/
theorem honours_start_of_retired {source : KeySource} {m : Start} {key : String}
    (hs : s.Invariant hashKey) (hkey : s.configured source = some (some key))
    (hup : (s.start hashKey source m).process.isSome) (hretired : s.Retired (hashKey key)) :
    ∃ c, ⟨c, false⟩ ∈ s.rows ∧
      ∀ k, (s.start hashKey source m).honours hashKey k ↔ hashKey k = c := by
  obtain ⟨key', rows, honoured, hkey', hsettled, hhonours⟩ := start_up hs hup
  obtain rfl : key' = some key := Option.some.inj (hkey'.symm.trans hkey)
  obtain ⟨c, hc, rfl⟩ := hsettled.replaced (hashKey key) rfl hretired
  refine ⟨c, hc, ?_⟩
  intro k
  rw [hhonours]
  simp [eq_comm]

/-- A start that meets no failure is up, unless the key file cannot be read. -/
theorem start_isSome {source : KeySource} {key : Option String} (hs : s.Invariant hashKey)
    (hkey : s.configured source = some key) : (s.start hashKey source {}).process.isSome := by
  obtain ⟨rows, honoured, hsettle⟩ := exists_settle hs.wellFormed (key.map hashKey)
  have hkey' : ({ s with process := none } : AdminKey).configured source = some key := by
    rw [← hkey]
    cases source <;> rfl
  simp [start, hkey', hsettle]

/-! ### Runs -/

/-- There is one row not retired at most, and one once there is any row. -/
def OneCurrent (s : AdminKey) : Prop :=
  (s.rows.filter fun r => !r.retired).length ≤ 1 ∧
    (s.rows ≠ [] → (s.rows.filter fun r => !r.retired).length = 1)

instance (s : AdminKey) : Decidable s.OneCurrent := inferInstanceAs (Decidable (_ ∧ _))

theorem oneCurrent_of_wellFormed (hw : WellFormed s.rows) : s.OneCurrent := by
  have hmem : ∀ r ∈ s.rows.filter fun r => !r.retired, r ∈ s.rows ∧ r.retired = false := by
    intro r hr
    simpa using hr
  have hle : (s.rows.filter fun r => !r.retired).length ≤ 1 := by
    have hnodup : (s.rows.filter fun r => !r.retired).Nodup :=
      (List.Nodup.of_map _ hw.hashes).filter _
    match hrows : s.rows.filter fun r => !r.retired with
    | [] => simp [hrows]
    | [_] => simp [hrows]
    | r :: r' :: rest =>
      rw [hrows] at hmem hnodup
      obtain ⟨hr, hcurrent⟩ := hmem r (by simp)
      obtain ⟨hr', hcurrent'⟩ := hmem r' (by simp)
      have heq := hw.unique r hr r' hr' hcurrent hcurrent'
      simp [heq] at hnodup
  refine ⟨hle, ?_⟩
  intro hrows
  obtain ⟨r, hr, hcurrent⟩ := hw.current hrows
  have hpos : 0 < (s.rows.filter fun r => !r.retired).length :=
    List.length_pos_of_mem (List.mem_filter.mpr ⟨hr, by simp [hcurrent]⟩)
  omega

/-- For every sequence of starts, rotations, crashes and changes of the key file: one row at most is
not retired, and one once there is any; a retired key is not honoured after any later start; a start
with the key file honours the key the file holds, unless that key is retired, in which case it
honours the current row's; and if every start reads the file and only rotations write it, a start
honours the key the file holds. -/
theorem run_history (hashKey : String → Hash) (hinjective : Function.Injective hashKey)
    (file : Option String) (events : List AdminKeyEvent) (s : AdminKey)
    (hrun : runs (step hashKey) (init file) events = some s) :
    s.OneCurrent ∧
      (∀ key, s.Retired (hashKey key) → ∀ source m later s',
        runs (step hashKey) s (.start source m :: later) = some s' → ¬ s'.honours hashKey key) ∧
      (∀ m key, s.file = some key → (s.start hashKey .file m).process.isSome →
        (¬ s.Retired (hashKey key) → ∀ k, (s.start hashKey .file m).honours hashKey k ↔ k = key) ∧
        (s.Retired (hashKey key) → ∃ r ∈ s.rows, r.retired = false ∧
          ∀ k, (s.start hashKey .file m).honours hashKey k ↔ hashKey k = r.keyHash)) ∧
      (Along (step hashKey) ByFile (init file) events →
        ∀ m key, s.file = some key → (s.start hashKey .file m).process.isSome →
          ∀ k, (s.start hashKey .file m).honours hashKey k ↔ k = key) := by
  have hs : s.Invariant hashKey := invariant_of_runs step_invariant (init_invariant file) hrun
  have hfile : ∀ m key, s.file = some key → (s.start hashKey .file m).process.isSome →
      ¬ s.Retired (hashKey key) → ∀ k, (s.start hashKey .file m).honours hashKey k ↔ k = key := by
    intro m key hkey hup hlive k
    rw [honours_start hs (by rw [configured, hkey]; rfl) hup hlive, hinjective.eq_iff]
  refine ⟨oneCurrent_of_wellFormed hs.wellFormed, ?_, ?_, ?_⟩
  · intro key hretired source m later s' hlater hhonours
    -- A start forgets the key the process still honoured, and no later step brings it back.
    obtain ⟨t, hstart, hrest⟩ := runs_cons.mp hlater
    obtain rfl := Option.some.inj hstart
    have hdead : s'.Dead (hashKey key) :=
      (invariant_of_runs step_dead ⟨hs.start source m, dead_start hs hretired source m⟩ hrest).2
    obtain ⟨p, hp, hcurrent⟩ := Option.bind_eq_some_iff.mp hhonours
    exact hdead.refused p hp hcurrent
  · intro m key hkey hup
    refine ⟨hfile m key hkey hup, ?_⟩
    intro hretired
    obtain ⟨c, hc, hhonours⟩ :=
      honours_start_of_retired hs (by rw [configured, hkey]; rfl) hup hretired
    exact ⟨⟨c, false⟩, hc, rfl, hhonours⟩
  · intro hbyFile m key hkey hup
    have hlive : s.FileLive hashKey :=
      (Along.invariant step_fileLive ⟨init_invariant file, by simp [init, Retired], by simp [init]⟩
        hbyFile hrun).2
    exact hfile m key hkey hup (hlive.live key hkey)

/-- A rotation whose commit fails after the file was written, a restart, and another rotation. -/
theorem run_history_refused :
    let events : List AdminKeyEvent :=
      [.start .file {}, .rotate "b" { commit := .refused }, .crash, .start .file {}, .rotate "c" {}]
    ∃ s, runs (step id) (init (some "a")) events = some s ∧ s.Retired "a" ∧
      ∀ k, (s.start id .file {}).honours id k ↔ k = "c" := by
  have hrun : runs (step id) (init (some "a"))
      [.start .file {}, .rotate "b" { commit := .refused }, .crash, .start .file {},
        .rotate "c" {}] =
      some ⟨[⟨"a", true⟩, ⟨"b", true⟩, ⟨"c", false⟩], some "c",
        some ⟨.file, ⟨some "c", some "c"⟩⟩⟩ := by
    decide +kernel
  refine ⟨_, hrun, by decide +kernel, ?_⟩
  exact (run_history id Function.injective_id (some "a") _ _ hrun).2.2.2 (by decide +kernel) {} "c"
    rfl (by decide +kernel)

/-- A start from the environment in between retires the key in the file: the next start with the
file honours another. -/
theorem run_file_retired :
    ∃ s, runs (step id) (init (some "f"))
        [.start (.env "a") {}, .start .file {}, .start (.env "b") {}, .start .file {}] = some s ∧
      s.file = some "f" ∧ ¬ s.honours id "f" ∧ s.honours id "b" :=
  ⟨⟨[⟨"a", true⟩, ⟨"f", true⟩, ⟨"b", false⟩], some "f", some ⟨.file, ⟨some "f", some "b"⟩⟩⟩,
    by decide +kernel⟩

/-! ### A rotation that fails -/

/-- What a restart with the key file honours is the new key's hash alone exactly if the file held it
already. -/
theorem restart_file_iff {key : String} (hs : s.Invariant hashKey)
    (hnew : hashKey key ∉ rowHashes s.rows) :
    (∀ k, hashKey k = hashKey key ↔ (s.start hashKey .file {}).honours hashKey k) ↔
      s.file.map hashKey = some (hashKey key) := by
  cases hfile : s.file with
  | none =>
    have hdown : s.start hashKey .file {} = { s with process := none } := by
      simp [start, configured, hfile]
    simp only [hdown, Option.map_none, reduceCtorEq, iff_false]
    intro h
    cases (h key).mp rfl
  | some held =>
    have hkey : s.configured .file = some (some held) := by
      rw [configured, hfile]
      rfl
    have hup := start_isSome hs hkey
    simp only [Option.map_some, Option.some.injEq]
    by_cases hretired : s.Retired (hashKey held)
    -- The file has a retired key: the start honours the current row's, which is not the new one.
    · obtain ⟨c, hc, hhonours⟩ := honours_start_of_retired hs hkey hup hretired
      constructor
      · intro h
        rw [← (hhonours key).mp ((h key).mp rfl)] at hc
        exact absurd (mem_rowHashes hc) hnew
      · intro heq
        rw [heq] at hretired
        exact absurd (mem_rowHashes hretired) hnew
    · simp only [honours_start hs hkey hup hretired]
      constructor
      · intro h
        exact ((h key).mp rfl).symm
      · intro heq k
        rw [heq]

/-- With the new key in the file, and not retired, a restart honours what it would have honoured
exactly if the file held the new key already. -/
theorem restart_saved_iff {key : String} (hs : s.Invariant hashKey) (hs' : s'.Invariant hashKey)
    (hnew : hashKey key ∉ rowHashes s.rows) (hfile : s'.file = some key)
    (hlive : ¬ s'.Retired (hashKey key)) :
    (∀ k, (s'.start hashKey .file {}).honours hashKey k ↔
        (s.start hashKey .file {}).honours hashKey k) ↔
      s.file.map hashKey = some (hashKey key) := by
  have hkey : s'.configured .file = some (some key) := by
    rw [configured, hfile]
    rfl
  simp only [honours_start hs' hkey (start_isSome hs' hkey) hlive]
  exact restart_file_iff hs hnew

/-- With the key from the environment a restart honours a hash that has a row. -/
theorem honours_restart_env {held key : String} (hs : s.Invariant hashKey)
    (hrow : hashKey held ∈ rowHashes s.rows)
    (h : (s.start hashKey (.env held) {}).honours hashKey key) : hashKey key ∈ rowHashes s.rows := by
  have hup := start_isSome hs (configured_env s held)
  by_cases hretired : s.Retired (hashKey held)
  · obtain ⟨c, hc, hhonours⟩ := honours_start_of_retired hs rfl hup hretired
    rw [(hhonours key).mp h]
    exact mem_rowHashes hc
  · rw [(honours_start hs rfl hup hretired key).mp h]
    exact hrow

/-- A rotation that fails keeps the keys honoured, now and after a restart with the same
configuration, exactly if it failed before it renamed the key file and its commit took no effect, or
the file held the new key already. -/
theorem rotation_failed_iff (hashKey : String → Hash) (file : Option String)
    (events : List AdminKeyEvent) (s : AdminKey)
    (hrun : runs (step hashKey) (init file) events = some s) (p : KeyProcess)
    (hp : s.process = some p) (key : String) (m : Rotation) (e : RotationError) (s' : AdminKey)
    (hrotate : s.rotateBootstrapKey hashKey p key m = (.error e, s')) :
    ((∀ k, s'.honours hashKey k ↔ s.honours hashKey k) ∧
        ∀ k, (s'.start hashKey p.source {}).honours hashKey k ↔
          (s.start hashKey p.source {}).honours hashKey k) ↔
      (¬ s.Renames hashKey p key m ∧ ¬ s.Applies hashKey p key m) ∨
        (p.saves ∧ s.file.map hashKey = some (hashKey key)) := by
  have hs : s.Invariant hashKey := invariant_of_runs step_invariant (init_invariant file) hrun
  have hs' : s'.Invariant hashKey := by
    have h := hs.rotate hp key m
    rwa [hrotate] at h
  have hrotated := rotate_cases hashKey s p key m
  rw [hrotate] at hrotated
  cases hrotated with
  | nothing hkept hopen => exact iff_of_true ⟨fun _ => .rfl, fun _ => .rfl⟩ (.inl ⟨hkept, hopen⟩)
  | renamed hmade hsaves hrenames hopen =>
    have hnew := not_mem_of_makeCurrent hmade
    have hsource : p.source = .file := of_decide_eq_true hsaves
    have hrestart := restart_saved_iff hs hs' hnew rfl fun h => hnew (mem_rowHashes h)
    rw [hsource, hrestart]
    simp [hrenames, hsaves, honours]
  | unanswered hmade happlies =>
    have hnew := not_mem_of_makeCurrent hmade
    have hlive := hs'.wellFormed.not_retired_of_current (current_of_makeCurrent hmade)
    cases hsource : p.source with
    | unset => exact absurd (hs.unset p hp hsource) happlies.1.1
    | file =>
      have hsaves : p.saves := by simp [KeyProcess.saves, hsource]
      have hrestart := restart_saved_iff hs hs' hnew (by simp [saved, hsaves]) hlive
      rw [hrestart]
      simp [happlies, hsaves, honours]
    | env held =>
      -- The key of the environment is retired, and a restart honours the new one.
      have hsaves : ¬ p.saves := by simp [KeyProcess.saves, hsource]
      have hrow := hs.recorded p hp held hsource
      have hup := start_isSome hs' (configured_env _ held)
      obtain ⟨c, hc, hhonours⟩ :=
        honours_start_of_retired hs' rfl hup (retired_of_makeCurrent hmade hrow)
      have hcurrent := hs'.wellFormed.unique _ hc _ (current_of_makeCurrent hmade) rfl rfl
      refine iff_of_false ?_ (by simp [happlies, hsaves])
      rintro ⟨-, hsame⟩
      refine hnew (honours_restart_env hs hrow ((hsame key).mp ((hhonours key).mpr ?_)))
      exact (congrArg BootstrapRow.keyHash hcurrent).symm

/-- The new row is made, and the key file cannot be replaced. -/
theorem rotation_failed_unmoved :
    ∃ s p s', runs (step id) (init (some "a")) [.start .file {}] = some s ∧ s.process = some p ∧
      (makeCurrent s.rows p.bootstrap.current "b").isSome ∧
      s.rotateBootstrapKey id p "b" { persist := .unmoved } = (.error .persist, s') ∧
      (∀ k, s'.honours id k ↔ s.honours id k) ∧
      ∀ k, (s'.start id p.source {}).honours id k ↔ (s.start id p.source {}).honours id k := by
  have hrun : runs (step id) (init (some "a")) [.start .file {}] =
      some ⟨[⟨"a", false⟩], some "a", some ⟨.file, ⟨some "a", some "a"⟩⟩⟩ := by
    decide +kernel
  refine ⟨_, _, _, hrun, rfl, by decide +kernel, rfl, ?_⟩
  exact (rotation_failed_iff id (some "a") _ _ hrun _ rfl "b" { persist := .unmoved } .persist _
    rfl).mpr (.inl (by decide +kernel))

/-- A commit that took effect and whose reply was lost: the process honours the old key and, after a
restart with it, only the new one, which nobody was told. -/
theorem rotation_unanswered_locks_out :
    ∃ s p s', runs (step id) (init none) [.start (.env "a") {}] = some s ∧ s.process = some p ∧
      s.rotateBootstrapKey id p "b" { commit := .unanswered } = (.error .commit, s') ∧
      (s.start id p.source {}).honours id "a" ∧ ¬ (s'.start id p.source {}).honours id "a" ∧
      (s'.start id p.source {}).honours id "b" :=
  ⟨⟨[⟨"a", false⟩], none, some ⟨.env "a", ⟨some "a", some "a"⟩⟩⟩, ⟨.env "a", ⟨some "a", some "a"⟩⟩,
    ⟨[⟨"a", true⟩, ⟨"b", false⟩], none, some ⟨.env "a", ⟨some "a", some "a"⟩⟩⟩, by decide +kernel⟩

end AdminKey

end WireTap.Gateway
