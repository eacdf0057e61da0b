import Mathlib.Data.List.Nodup
import WireTap.Gateway.Keys

/-!
# The table of keys, statement by statement

What one statement does to a row, and what it leaves of a key: a hash that no enabled row has is
`Gone`, one that no row has is `Lost`, and one that only a row has is `Held` by it.  Keys are made
new, so each of them stays, but that enabling its row brings back a hash that is only gone.
-/

namespace WireTap.Gateway

/-! ### The statements, one after another -/

namespace KeyTable

/-- The table after a statement; one that fails changes nothing. -/
def next (t : KeyTable) (st : Statement) : KeyTable := (t.exec st).getD t

/-- The table after these statements. -/
def after (t : KeyTable) (log : List Statement) : KeyTable := log.foldl next t

theorem after_append (t : KeyTable) (log log' : List Statement) :
    t.after (log ++ log') = (t.after log).after log' := List.foldl_append

theorem exec_eq_some {t t' : KeyTable} {st : Statement} (h : t.exec st = some t') :
    t'.rows = st.rows t ∧ t'.nextId = st.nextId t := by
  unfold exec at h
  split at h
  · cases h
    exact ⟨rfl, rfl⟩
  · cases h

/-- A statement leaves the table as it was, or has the effect it should have. -/
theorem next_cases (t : KeyTable) (st : Statement) :
    t.next st = t ∨ (t.next st).rows = st.rows t ∧ (t.next st).nextId = st.nextId t := by
  unfold next
  cases h : t.exec st with
  | none => exact .inl rfl
  | some t' => exact .inr (exec_eq_some h)

/-- What a fold of inserts leaves in the map was in it before or is one of the rows'. -/
theorem mem_insertAll {rows : List KeyRow} {map : KeyMap} {x : Hash × KeyInfo}
    (hx : x ∈ rows.foldl (fun map r => (r.keyHash, r.info) :: map) map) :
    x ∈ map ∨ ∃ r ∈ rows, x = (r.keyHash, r.info) := by
  induction rows generalizing map with
  | nil => exact .inl hx
  | cons r rows ih =>
    rcases ih hx with hx | ⟨r', hr', rfl⟩
    · rcases List.mem_cons.mp hx with rfl | hx
      · exact .inr ⟨r, List.mem_cons_self, rfl⟩
      · exact .inl hx
    · exact .inr ⟨r', List.mem_cons_of_mem _ hr', rfl⟩

/-- What is in the map is an enabled row. -/
theorem load_lookup {t : KeyTable} {h : Hash} {info : KeyInfo} (hl : t.load.lookup h = some info) :
    ∃ r ∈ t.rows, r.disabled = false ∧ r.keyHash = h ∧ info = r.info := by
  obtain ⟨l₁, l₂, hsplit, -⟩ := List.lookup_eq_some_iff.mp hl
  have hin : (h, info) ∈ t.load := by
    rw [hsplit]
    simp
  rcases mem_insertAll hin with hnil | ⟨r, hr, heq⟩
  · cases hnil
  · cases heq
    obtain ⟨hr, henabled⟩ := List.mem_filter.mp hr
    exact ⟨r, hr, by simpa using henabled, rfl, rfl⟩

end KeyTable

namespace Statement

/-- A row a statement leaves is a row there was, updated, or the row it creates. -/
theorem mem_rows {st : Statement} {t : KeyTable} {r : KeyRow} (hr : r ∈ st.rows t) :
    (∃ r₀ ∈ t.rows, r = st.update r₀ ∧ st ≠ .delete r₀.id) ∨
      ∃ name keyHash role databasePin, st = .create name keyHash role databasePin ∧
        r = ⟨t.nextId, name, keyHash, role, databasePin, false⟩ := by
  have hupdated (hne : ∀ id, st ≠ .delete id) (hr : r ∈ t.rows.map st.update) :
      ∃ r₀ ∈ t.rows, r = st.update r₀ ∧ st ≠ .delete r₀.id := by
    obtain ⟨r₀, hr₀, rfl⟩ := List.mem_map.mp hr
    exact ⟨r₀, hr₀, rfl, hne _⟩
  cases st with
  | create name keyHash role databasePin =>
    rcases List.mem_append.mp hr with h | h
    · exact .inl ⟨r, h, rfl, by simp⟩
    · exact .inr ⟨name, keyHash, role, databasePin, rfl, List.mem_singleton.mp h⟩
  | delete id =>
    obtain ⟨hmem, hne⟩ := List.mem_filter.mp hr
    refine .inl ⟨r, hmem, rfl, ?_⟩
    rintro ⟨⟩
    simp at hne
  | setDisabled id disabled => exact .inl (hupdated (by simp) hr)
  | rotate id keyHash => exact .inl (hupdated (by simp) hr)
  | edit id name pin => exact .inl (hupdated (by simp) hr)

/-- What an `UPDATE` does to a row it matches. -/
theorem update_cases (st : Statement) (r : KeyRow) :
    st.update r = r ∨
    (∃ disabled, st = .setDisabled r.id disabled ∧ r.disabled = !disabled ∧
      st.update r = { r with disabled }) ∨
    (∃ keyHash, st = .rotate r.id keyHash ∧ r.disabled = false ∧
      st.update r = { r with keyHash }) ∨
    ∃ name pin, st = .edit r.id name pin ∧
      st.update r = { r with name := name.getD r.name, databasePin := pin.getD r.databasePin } := by
  cases st with
  | create => exact .inl rfl
  | delete => exact .inl rfl
  | setDisabled id disabled =>
    by_cases h : r.id = id ∧ r.disabled = !disabled
    · obtain ⟨rfl, hd⟩ := h
      exact .inr (.inl ⟨disabled, rfl, hd, if_pos ⟨rfl, hd⟩⟩)
    · exact .inl (if_neg h)
  | rotate id keyHash =>
    by_cases h : r.id = id ∧ r.disabled = false
    · obtain ⟨rfl, hd⟩ := h
      exact .inr (.inr (.inl ⟨keyHash, rfl, hd, if_pos ⟨rfl, hd⟩⟩))
    · exact .inl (if_neg h)
  | edit id name pin =>
    by_cases h : r.id = id
    · obtain rfl := h
      exact .inr (.inr (.inr ⟨name, pin, rfl, if_pos rfl⟩))
    · exact .inl (if_neg h)

/-- A row keeps its hash, or has the one of the key just made. -/
theorem mem_rows_hash {st : Statement} {t : KeyTable} {r : KeyRow} (hr : r ∈ st.rows t) :
    (∃ r₀ ∈ t.rows, r = st.update r₀ ∧ st ≠ .delete r₀.id ∧ r.keyHash = r₀.keyHash) ∨
      st.newHash = some r.keyHash := by
  rcases mem_rows hr with ⟨r₀, hr₀, rfl, hne⟩ | ⟨name, keyHash, role, pin, rfl, rfl⟩
  · rcases st.update_cases r₀ with h | ⟨d, -, -, h⟩ | ⟨keyHash, rfl, -, h⟩ | ⟨name, pin, -, h⟩
    · exact .inl ⟨r₀, hr₀, rfl, hne, by rw [h]⟩
    · exact .inl ⟨r₀, hr₀, rfl, hne, by rw [h]⟩
    · exact .inr (by rw [h]; rfl)
    · exact .inl ⟨r₀, hr₀, rfl, hne, by rw [h]⟩
  · exact .inr rfl

end Statement

/-- A table's hashes are among the used ones. -/
theorem mem_usedHashes {t : KeyTable} {log : List Statement} {r : KeyRow}
    (hr : r ∈ (t.after log).rows) : r.keyHash ∈ usedHashes t log := by
  induction log generalizing t with
  | nil => exact List.mem_append_left _ (List.mem_map_of_mem hr)
  | cons st log ih =>
    have hused := ih (t := t.next st) hr
    unfold usedHashes at hused ⊢
    rw [List.filterMap_cons]
    rcases List.mem_append.mp hused with h | h
    · obtain ⟨r', hr', heq⟩ := List.mem_map.mp h
      rcases t.next_cases st with hsame | ⟨hrows, -⟩
      · rw [hsame] at hr'
        exact List.mem_append_left _ (heq ▸ List.mem_map_of_mem hr')
      · rw [hrows] at hr'
        rcases Statement.mem_rows_hash hr' with ⟨r₀, hr₀, -, -, hhash⟩ | hnew
        · rw [← heq, hhash]
          exact List.mem_append_left _ (List.mem_map_of_mem hr₀)
        · rw [hnew, ← heq]
          exact List.mem_append_right _ List.mem_cons_self
    · refine List.mem_append_right _ ?_
      cases st.newHash with
      | none => exact h
      | some h' => exact List.mem_cons_of_mem _ h

/-! ### A revoked key -/

/-- No enabled row has the hash, and only the row `id` has it at all. -/
def Gone (h : Hash) (id : Nat) (t : KeyTable) : Prop :=
  ∀ r ∈ t.rows, r.keyHash = h → r.id = id ∧ r.disabled = true

namespace Gone

/-- Only making the same key again or enabling the row brings a revoked key back. -/
theorem next {h : Hash} {id : Nat} {t : KeyTable} {st : Statement} (hgone : Gone h id t)
    (hnew : st.newHash ≠ some h) (henable : st ≠ .setDisabled id false) :
    Gone h id (t.next st) := by
  rcases t.next_cases st with hsame | ⟨hrows, -⟩
  · rw [hsame]
    exact hgone
  · intro r hr hh
    rw [hrows] at hr
    rcases Statement.mem_rows_hash hr with ⟨r₀, hr₀, rfl, -, hhash⟩ | hmade
    · obtain ⟨hid, hdisabled⟩ := hgone r₀ hr₀ (hhash.symm.trans hh)
      rcases st.update_cases r₀ with
        hu | ⟨d, rfl, hd, hu⟩ | ⟨keyHash, rfl, hd, hu⟩ | ⟨name, pin, -, hu⟩
      · rw [hu]
        exact ⟨hid, hdisabled⟩
      · -- A disabled row is matched only by its enabling.
        rw [hdisabled] at hd
        obtain rfl : d = false := by simpa using hd.symm
        exact absurd (hid ▸ rfl) henable
      · rw [hdisabled] at hd
        cases hd
      · rw [hu]
        exact ⟨hid, hdisabled⟩
    · exact absurd (hh ▸ hmade) hnew

/-- A key that is gone is not in the map. -/
theorem lookup_load {h : Hash} {id : Nat} {t : KeyTable} (hgone : Gone h id t) :
    t.load.lookup h = none := by
  cases hl : t.load.lookup h with
  | none => rfl
  | some info =>
    obtain ⟨r, hr, henabled, hhash, -⟩ := KeyTable.load_lookup hl
    rw [(hgone r hr hhash).2] at henabled
    cases henabled

end Gone

/-- No row has the hash. -/
def Lost (h : Hash) (t : KeyTable) : Prop := ∀ r ∈ t.rows, r.keyHash ≠ h

theorem Lost.next {h : Hash} {t : KeyTable} {st : Statement} (hlost : Lost h t)
    (hnew : st.newHash ≠ some h) : Lost h (t.next st) := by
  rcases t.next_cases st with hsame | ⟨hrows, -⟩
  · rw [hsame]
    exact hlost
  · intro r hr hh
    rw [hrows] at hr
    rcases Statement.mem_rows_hash hr with ⟨r₀, hr₀, -, -, hhash⟩ | hmade
    · exact hlost r₀ hr₀ (hhash.symm.trans hh)
    · exact hnew (hh ▸ hmade)

/-- What is lost is gone, of every row. -/
theorem Lost.gone {h : Hash} {t : KeyTable} (hlost : Lost h t) (id : Nat) : Gone h id t :=
  fun r hr hh => absurd hh (hlost r hr)

/-- Only the row `id` has the hash. -/
def Held (h : Hash) (id : Nat) (t : KeyTable) : Prop := ∀ r ∈ t.rows, r.keyHash = h → r.id = id

namespace Held

theorem next {h : Hash} {id : Nat} {t : KeyTable} {st : Statement} (hheld : Held h id t)
    (hnew : st.newHash ≠ some h) : Held h id (t.next st) := by
  rcases t.next_cases st with hsame | ⟨hrows, -⟩
  · rw [hsame]
    exact hheld
  · intro r hr hh
    rw [hrows] at hr
    rcases Statement.mem_rows_hash hr with ⟨r₀, hr₀, rfl, -, hhash⟩ | hmade
    · rw [Statement.update_id]
      exact hheld r₀ hr₀ (hhash.symm.trans hh)
    · exact absurd (hh ▸ hmade) hnew

/-- Disabling the row leaves no enabled row with the hash. -/
theorem disable {h : Hash} {id : Nat} {t t' : KeyTable} (hheld : Held h id t)
    (hexec : t.exec (.setDisabled id true) = some t') : Gone h id t' := by
  intro r hr hh
  rw [(KeyTable.exec_eq_some hexec).1] at hr
  obtain ⟨r₀, hr₀, rfl⟩ := List.mem_map.mp hr
  have hhash : (Statement.update (.setDisabled id true) r₀).keyHash = r₀.keyHash := by
    simp only [Statement.update]
    split <;> rfl
  have hid : r₀.id = id := hheld r₀ hr₀ (hhash.symm.trans hh)
  refine ⟨(Statement.update_id _ r₀).trans hid, ?_⟩
  cases hdisabled : r₀.disabled <;> simp [Statement.update, hid, hdisabled]

end Held

/-- The statement takes the hash `h` from the key `id`, or the key's access: it disables, rotates or
deletes the row, and changes it. -/
def Revokes (st : Statement) (t : KeyTable) (h : Hash) (id : Nat) : Prop :=
  (∃ r ∈ t.rows, r.id = id ∧ r.keyHash = h ∧
    (r.disabled = false ∧ (st = .setDisabled id true ∨ ∃ keyHash, st = .rotate id keyHash) ∨
      st = .delete id))

/-- The hash is the row's, as hashes are unique. -/
theorem Revokes.held {st : Statement} {t : KeyTable} {h : Hash} {id : Nat}
    (hrevokes : Revokes st t h id) : Held h id t := by
  obtain ⟨r, hr, rfl, rfl, -⟩ := hrevokes
  intro r' hr' hh
  rw [List.inj_on_of_nodup_map t.hashes hr' hr hh]

/-- A key rotated or deleted is lost. -/
theorem Revokes.lost {st : Statement} {t t' : KeyTable} {h : Hash} {id : Nat}
    (hrevokes : Revokes st t h id) (hst : st ≠ .setDisabled id true) (hnew : st.newHash ≠ some h)
    (hexec : t.exec st = some t') : Lost h t' := by
  obtain ⟨r, hr, rfl, rfl, hkind⟩ := hrevokes
  intro r' hr' hh
  rw [(KeyTable.exec_eq_some hexec).1] at hr'
  rcases Statement.mem_rows_hash hr' with ⟨r₀, hr₀, rfl, hne, hhash⟩ | hmade
  · -- `key_hash` is unique, so the row is the one the statement was for.
    obtain rfl : r₀ = r := List.inj_on_of_nodup_map t.hashes hr₀ hr (hhash.symm.trans hh)
    rcases hkind with ⟨henabled, rfl | ⟨keyHash, rfl⟩⟩ | rfl
    · exact hst rfl
    · simp only [Statement.update, henabled, and_self, if_true] at hh
      exact hnew (congrArg some hh)
    · exact hne rfl
  · exact hnew (hh ▸ hmade)

/-! ### A key's role and pin -/

namespace Statement

/-- The pin the statement gives the key. -/
def pinOf (id : Nat) : Statement → Option (Option String)
  | edit id' _ pin => if id' = id then pin else none
  | _ => none

theorem update_role (st : Statement) (r : KeyRow) : (st.update r).role = r.role := by
  unfold update
  split <;> try split
  all_goals rfl

/-- A row's pin is that of the edit, if it is one of the row. -/
theorem update_pin (st : Statement) (r : KeyRow) :
    (st.update r).databasePin = (st.pinOf r.id).getD r.databasePin := by
  cases st with
  | edit id name pin =>
    by_cases h : r.id = id
    · obtain rfl := h
      simp [update, pinOf]
    · simp [update, pinOf, h, Ne.symm h]
  | setDisabled id disabled =>
    simp only [update, pinOf]
    split <;> rfl
  | rotate id keyHash =>
    simp only [update, pinOf]
    split <;> rfl
  | create | delete => rfl

theorem le_nextId (st : Statement) (t : KeyTable) : t.nextId ≤ st.nextId t := by
  cases st <;> first | exact Nat.le_refl _ | exact Nat.le_succ _

end Statement

theorem KeyTable.le_nextId_next (t : KeyTable) (st : Statement) :
    t.nextId ≤ (t.next st).nextId := by
  rcases t.next_cases st with hsame | ⟨-, hnext⟩
  · exact Nat.le_of_eq (congrArg KeyTable.nextId hsame.symm)
  · rw [hnext]
    exact st.le_nextId t

end WireTap.Gateway
