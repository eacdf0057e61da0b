import Mathlib.Data.List.Basic
import WireTap.Lib.Group

/-!
# What a `SELECT` may answer

Pieces of SQL over lists of rows that `Lib.Group` does not have: `ORDER BY`, which leaves rows with
equal keys in any order (`Arranged`), `LIMIT` over it (`Limited`), and the window function `LAG`.
`Arranged.unique`: where no two keys are equal, there is one order.
-/

namespace WireTap.Lib

/-! ### Orders -/

section Orders

variable {κ ρ σ : Type*} {le : κ → κ → Prop} {keyed : List (κ × ρ)} {rows rows' : List ρ} {n : Nat}

/-- `ORDER BY`, of rows that stand beside what they are sorted by. -/
def Arranged (le : κ → κ → Prop) (keyed : List (κ × ρ)) (rows : List ρ) : Prop :=
  ∃ sorted : List (κ × ρ), sorted.Perm keyed ∧ sorted.Pairwise (fun a b => le a.1 b.1) ∧
    rows = sorted.map (·.2)

/-- `ORDER BY .. LIMIT n`. -/
def Limited (le : κ → κ → Prop) (n : Nat) (keyed : List (κ × ρ)) (rows : List ρ) : Prop :=
  ∃ all, Arranged le keyed all ∧ rows = all.take n

theorem Arranged.perm (h : Arranged le keyed rows) : rows.Perm (keyed.map (·.2)) := by
  obtain ⟨sorted, hperm, -, rfl⟩ := h
  exact hperm.map _

theorem Limited.mem (h : Limited le n keyed rows) {row : ρ} (hrow : row ∈ rows) :
    ∃ k, (k, row) ∈ keyed := by
  obtain ⟨all, hall, rfl⟩ := h
  have hmem : row ∈ keyed.map (·.2) := hall.perm.mem_iff.mp (List.mem_of_mem_take hrow)
  obtain ⟨⟨k, _⟩, hk, rfl⟩ := List.mem_map.mp hmem
  exact ⟨k, hk⟩

theorem Limited.eq_nil_iff (h : Limited le n keyed rows) (hn : 0 < n) :
    rows = [] ↔ keyed = [] := by
  obtain ⟨all, hall, rfl⟩ := h
  have hempty : all = [] ↔ keyed = [] := by
    rw [← List.length_eq_zero_iff, hall.perm.length_eq, List.length_map, List.length_eq_zero_iff]
  rw [List.take_eq_nil_iff, hempty]
  exact or_iff_right (Nat.ne_of_gt hn)

/-- There is an answer wherever the order is one that sorting can follow. -/
theorem arranged_mergeSort {le : κ → κ → Bool} (trans : ∀ a b c, le a b → le b c → le a c)
    (total : ∀ a b, le a b || le b a) (keyed : List (κ × ρ)) :
    Arranged (fun a b => le a b) keyed
      ((keyed.mergeSort fun a b => le a.1 b.1).map (·.2)) := by
  refine ⟨_, List.mergeSort_perm _ _, ?_, rfl⟩
  apply List.pairwise_mergeSort
  · intro a b c
    exact trans a.1 b.1 c.1
  · intro a b
    exact total a.1 b.1

/-- Distinct keys leave the rows no choice of order. -/
theorem Arranged.unique (antisymm : ∀ a b, le a b → le b a → a = b)
    (hkeys : (keyed.map (·.1)).Nodup) (h : Arranged le keyed rows)
    (h' : Arranged le keyed rows') : rows = rows' := by
  obtain ⟨sorted, hperm, hsorted, rfl⟩ := h
  obtain ⟨sorted', hperm', hsorted', rfl⟩ := h'
  have hinj : ∀ a ∈ keyed, ∀ b ∈ keyed, a.1 = b.1 → a = b := fun a ha b hb =>
    List.inj_on_of_nodup_map hkeys ha hb
  have heq : sorted = sorted' := by
    refine List.Perm.eq_of_pairwise (fun a b ha hb hab hba => ?_) hsorted hsorted'
      (hperm.trans hperm'.symm)
    exact hinj a (hperm.subset ha) b (hperm'.subset hb) (antisymm a.1 b.1 hab hba)
  rw [heq]

/-- Rows that stand in order already stay where they are. -/
theorem Arranged.of_pairwise (h : keyed.Pairwise fun a b => le a.1 b.1) :
    Arranged le keyed (keyed.map (·.2)) :=
  ⟨keyed, List.Perm.refl keyed, h, rfl⟩

theorem Arranged.reverse (h : Arranged le keyed rows) :
    Arranged (fun a b => le b a) keyed rows.reverse := by
  obtain ⟨sorted, hperm, hsorted, rfl⟩ := h
  refine ⟨sorted.reverse, (List.reverse_perm sorted).trans hperm, ?_, List.map_reverse.symm⟩
  rw [List.pairwise_reverse]
  exact hsorted

/-- What is read of every row is sorted as the rows are. -/
theorem Arranged.map (f : ρ → σ) (h : Arranged le keyed rows) :
    Arranged le (keyed.map fun r => (r.1, f r.2)) (rows.map f) := by
  obtain ⟨sorted, hperm, hsorted, rfl⟩ := h
  refine ⟨sorted.map fun r => (r.1, f r.2), hperm.map _, ?_, ?_⟩
  · rw [List.pairwise_map]
    exact hsorted
  · rw [List.map_map, List.map_map]
    rfl

theorem exists_map_of_perm (f : ρ → σ) {l k : List σ} (h : l.Perm k) :
    ∀ rows : List ρ, k = rows.map f → ∃ rows' : List ρ, rows'.Perm rows ∧ l = rows'.map f := by
  induction h with
  | nil =>
    intro rows hrows
    exact ⟨rows, List.Perm.refl rows, hrows⟩
  | cons x _ ih =>
    intro rows hrows
    obtain ⟨row, rest, rfl, rfl, hrest⟩ := List.map_eq_cons_iff.mp hrows.symm
    obtain ⟨rest', hperm, rfl⟩ := ih rest hrest.symm
    exact ⟨row :: rest', hperm.cons row, rfl⟩
  | swap x y _ =>
    intro rows hrows
    obtain ⟨row, rest, rfl, rfl, hrest⟩ := List.map_eq_cons_iff.mp hrows.symm
    obtain ⟨row', rest', rfl, rfl, rfl⟩ := List.map_eq_cons_iff.mp hrest
    exact ⟨row' :: row :: rest', List.Perm.swap row row' rest', rfl⟩
  | trans _ _ ih ih' =>
    intro rows hrows
    obtain ⟨rows', hperm', hk⟩ := ih' rows hrows
    obtain ⟨rows'', hperm'', hl⟩ := ih rows' hk
    exact ⟨rows'', hperm''.trans hperm', hl⟩

/-- Sorting what is read of every row sorts the rows. -/
theorem Arranged.of_map (f : ρ → σ) {read : List σ}
    (h : Arranged le (keyed.map fun r => (r.1, f r.2)) read) :
    ∃ rows, Arranged le keyed rows ∧ read = rows.map f := by
  obtain ⟨sorted, hperm, hsorted, rfl⟩ := h
  obtain ⟨sorted', hperm', rfl⟩ := exists_map_of_perm (fun r => (r.1, f r.2)) hperm keyed rfl
  rw [List.pairwise_map] at hsorted
  refine ⟨sorted'.map (·.2), ⟨sorted', hperm', hsorted, rfl⟩, ?_⟩
  rw [List.map_map, List.map_map]
  rfl

/-- The rows of a list in order, and no two of them at the same place. -/
theorem Limited.eq_take (antisymm : ∀ a b, le a b → le b a → a = b)
    (hkeys : (keyed.map (·.1)).Nodup) (hsorted : keyed.Pairwise fun a b => le a.1 b.1)
    (h : Limited le n keyed rows) : rows = (keyed.map (·.2)).take n := by
  obtain ⟨all, hall, rfl⟩ := h
  rw [Arranged.unique antisymm hkeys hall (Arranged.of_pairwise hsorted)]

end Orders

/-! ### `LAG` -/

/-- `LAG(..) OVER (ORDER BY ..)`: every row of an ordered list with the one before it. -/
def lag {ρ : Type*} (rows : List ρ) : List (Option ρ × ρ) := (none :: rows.map some).zip rows

section Lag

variable {ρ σ : Type*}

theorem map_snd_lag (rows : List ρ) : (lag rows).map (·.2) = rows := by
  refine List.map_snd_zip ?_
  rw [List.length_cons, List.length_map]
  omega

theorem lag_map (f : ρ → σ) (rows : List ρ) :
    lag (rows.map f) = (lag rows).map fun r => (r.1.map f, f r.2) := by
  have hsome : (none : Option σ) :: (rows.map f).map some =
      (none :: rows.map some).map (Option.map f) := by
    rw [List.map_cons, List.map_map, List.map_map]
    rfl
  rw [lag, lag, hsome, List.zip_map]
  rfl

/-- Where the first row gives nothing, what is left are the rows with those before them. -/
theorem filterMap_lag {g : Option ρ × ρ → Option σ} (hfirst : ∀ row, g (none, row) = none)
    (rows : List ρ) :
    (lag rows).filterMap g = (rows.zip rows.tail).filterMap fun r => g (some r.1, r.2) := by
  cases rows with
  | nil => rfl
  | cons row rows =>
    have hzip : lag (row :: rows) =
        (none, row) :: ((row :: rows).zip rows).map fun r => (some r.1, r.2) := by
      show (none, row) :: ((row :: rows).map some).zip rows = _
      rw [List.zip_map_left]
      rfl
    rw [hzip, List.filterMap_cons_none (hfirst row), List.filterMap_map]
    rfl

end Lag

end WireTap.Lib
