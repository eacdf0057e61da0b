import Mathlib.Data.List.AList

/-!
# Tables with a primary key

A table as the rows by their key.  `upsert` is `INSERT .. ON CONFLICT .. DO UPDATE`, which takes its
rows together: two of them with one key, and it takes none.  `lookup_upsert` and `lookup_deleteAll`
say what is then under a key.
-/

namespace WireTap.Lib

abbrev Keyed (κ β : Type) := AList fun _ : κ => β

variable {κ β γ : Type} [DecidableEq κ]

/-- What comes to be the row under a key: `put` of the row there is and the one that comes. -/
def upsert (put : Option β → γ → β) (t : Keyed κ β) (rows : List (κ × γ)) : Option (Keyed κ β) :=
  if (rows.map (·.1)).Nodup then
    some (rows.foldl (fun t r => t.insert r.1 (put (t.lookup r.1) r.2)) t)
  else none

/-- `DELETE`, of the rows under these keys. -/
def deleteAll (t : Keyed κ β) (keys : List κ) : Keyed κ β := keys.foldl (fun t k => t.erase k) t

theorem upsert_eq_some {put : Option β → γ → β} {t t' : Keyed κ β} {rows : List (κ × γ)}
    (h : upsert put t rows = some t') :
    (rows.map (·.1)).Nodup ∧
      t' = rows.foldl (fun t r => t.insert r.1 (put (t.lookup r.1) r.2)) t := by
  unfold upsert at h
  split at h
  · rename_i hkeys
    exact ⟨hkeys, (Option.some.inj h).symm⟩
  · cases h

theorem upsert_eq_none {put : Option β → γ → β} {t : Keyed κ β} {rows : List (κ × γ)} :
    upsert put t rows = none ↔ ¬ (rows.map (·.1)).Nodup := by
  unfold upsert
  split <;> simp_all

/-- The rows that are not among those that come stay as they are. -/
theorem lookup_upsert {put : Option β → γ → β} {t t' : Keyed κ β} {rows : List (κ × γ)}
    (h : upsert put t rows = some t') (k : κ) :
    t'.lookup k =
      match rows.find? fun r => r.1 = k with
      | some r => some (put (t.lookup k) r.2)
      | none => t.lookup k := by
  obtain ⟨hkeys, rfl⟩ := upsert_eq_some h
  clear h
  induction rows generalizing t with
  | nil => rfl
  | cons r rest ih =>
    rw [List.map_cons, List.nodup_cons] at hkeys
    have hrest := ih (t := t.insert r.1 (put (t.lookup r.1) r.2)) hkeys.2
    rw [List.foldl_cons, hrest]
    by_cases hk : r.1 = k
    · subst hk
      have hnone : rest.find? (fun r' => r'.1 = r.1) = none := by
        rw [List.find?_eq_none]
        intro r' hr'
        have hne : r'.1 ≠ r.1 := fun heq => hkeys.1 (heq ▸ List.mem_map_of_mem hr')
        simpa using hne
      rw [hnone, List.find?_cons_of_pos (by simp)]
      exact AList.lookup_insert t
    · rw [List.find?_cons_of_neg (by simpa using hk), AList.lookup_insert_ne (Ne.symm hk)]

theorem lookup_deleteAll (t : Keyed κ β) (keys : List κ) (k : κ) :
    (deleteAll t keys).lookup k = if k ∈ keys then none else t.lookup k := by
  induction keys generalizing t with
  | nil =>
    rw [if_neg List.not_mem_nil]
    rfl
  | cons k' rest ih =>
    have hrest := ih (t.erase k')
    rw [deleteAll, List.foldl_cons]
    refine hrest.trans ?_
    by_cases hk : k = k'
    · subst hk
      simp
    · rw [AList.lookup_erase_ne hk]
      simp [hk]

end WireTap.Lib
