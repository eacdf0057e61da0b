import Mathlib.Algebra.BigOperators.Group.List.Lemmas
import Mathlib.Algebra.Ring.Nat
import Mathlib.Data.List.Dedup
import Mathlib.Data.List.Sort

/-!
# Grouping rows, and grouping them again

`GROUP BY` over lists of rows: the distinct keys, each with the rows that have it.  A relation
grouped finely and then coarsely must come to what one coarse grouping gives.  For counts this is
`sum_length_regroup`; for least and greatest values, `Extremum.regroup`, stated once for any
aggregate that picks the extreme element of an order.  `orderedKeys` is `ORDER BY` on the distinct
keys, which depends on nothing but which keys there are (`orderedKeys_congr`).
-/

namespace WireTap.Lib

variable {ρ κ α : Type*} [DecidableEq κ]

/-- The rows with one key. -/
def group (key : ρ → κ) (rows : List ρ) (k : κ) : List ρ := rows.filter fun r => key r = k

/-- `GROUP BY`: the distinct keys and their rows, in no particular order of the keys. -/
def groupBy (key : ρ → κ) (rows : List ρ) : List (κ × List ρ) :=
  (rows.map key).dedup.map fun k => (k, group key rows k)

theorem mem_group {key : ρ → κ} {rows : List ρ} {k : κ} {r : ρ} :
    r ∈ group key rows k ↔ r ∈ rows ∧ key r = k := by
  simp [group]

theorem mem_groupBy {key : ρ → κ} {rows : List ρ} {g : κ × List ρ} :
    g ∈ groupBy key rows ↔ (∃ r ∈ rows, key r = g.1) ∧ g.2 = group key rows g.1 := by
  simp only [groupBy, List.mem_map, List.mem_dedup]
  constructor
  · rintro ⟨k, hk, rfl⟩
    exact ⟨hk, rfl⟩
  · rintro ⟨hk, hg⟩
    exact ⟨g.1, hk, Prod.ext rfl hg.symm⟩

/-- The sizes of the groups whose keys are asked for add up to the rows that have them. -/
theorem sum_length_regroup (key : ρ → κ) (rows : List ρ) (q : κ → Bool) :
    (((groupBy key rows).filter fun g => q g.1).map (·.2.length)).sum =
      (rows.filter fun r => q (key r)).length := by
  have hcount : ∀ k, (group key rows k).length = (rows.map key).count k := by
    intro k
    rw [group, ← List.countP_eq_length_filter, List.count, List.countP_map]
    rfl
  rw [groupBy, List.filter_map, List.map_map, ← List.countP_eq_length_filter]
  calc ((((rows.map key).dedup.filter ((fun g => q g.1) ∘ fun k => (k, group key rows k))).map
        ((·.2.length) ∘ fun k => (k, group key rows k))).sum)
      = (((rows.map key).dedup.filter q).map fun k => (rows.map key).count k).sum := by
        congr 1
        exact List.map_congr_left fun k _ => hcount k
    _ = (rows.map key).countP q := List.sum_map_count_dedup_filter_eq_countP q _
    _ = rows.countP fun r => q (key r) := by
        rw [List.countP_map]
        rfl

/-! ### Least and greatest -/

/-- An aggregate that picks the element of a list that stands in `r` to all of them. -/
structure Extremum (r : α → α → Prop) (best : List α → Option α) : Prop where
  some_iff : ∀ {xs : List α} {a : α}, best xs = some a ↔ a ∈ xs ∧ ∀ b ∈ xs, r a b
  none_iff : ∀ {xs : List α}, best xs = none ↔ xs = []
  trans : ∀ {a b c : α}, r a b → r b c → r a c
  antisymm : ∀ {a b : α}, r a b → r b a → a = b

theorem extremum_min? : Extremum (α := Int) (· ≤ ·) List.min? where
  some_iff := List.min?_eq_some_iff
  none_iff := List.min?_eq_none_iff
  trans := le_trans
  antisymm := le_antisymm

theorem extremum_max? : Extremum (α := Int) (· ≥ ·) List.max? where
  some_iff := List.max?_eq_some_iff
  none_iff := List.max?_eq_none_iff
  trans := ge_trans
  antisymm := ge_antisymm

namespace Extremum

variable {r : α → α → Prop} {best : List α → Option α}

/-- An extremum depends only on which elements there are. -/
theorem congr (h : Extremum r best) {xs ys : List α} (hmem : ∀ x, x ∈ xs ↔ x ∈ ys) :
    best xs = best ys := by
  ext a
  rw [h.some_iff, h.some_iff, hmem]
  simp only [hmem]

/-- Leaving elements out keeps the extremum exactly where one that stands in `r` to each of them is
left. -/
theorem eq_iff_of_subset (h : Extremum r best) {xs ys : List α} (hsub : ∀ a ∈ ys, a ∈ xs) :
    best ys = best xs ↔ ∀ x ∈ xs, ∃ a ∈ ys, r a x := by
  constructor
  · intro heq x hx
    obtain ⟨m, hm⟩ := Option.ne_none_iff_exists'.mp fun hnone =>
      List.ne_nil_of_mem hx (h.none_iff.mp hnone)
    exact ⟨m, (h.some_iff.mp (heq.trans hm)).1, (h.some_iff.mp hm).2 x hx⟩
  · intro hall
    ext a
    rw [h.some_iff, h.some_iff]
    constructor
    · rintro ⟨ha, hys⟩
      refine ⟨hsub a ha, ?_⟩
      intro x hx
      obtain ⟨b, hb, hbx⟩ := hall x hx
      exact h.trans (hys b hb) hbx
    · rintro ⟨ha, hxs⟩
      obtain ⟨b, hb, hba⟩ := hall a ha
      rw [h.antisymm (hxs b (hsub b hb)) hba]
      refine ⟨hb, ?_⟩
      intro c hc
      exact h.trans hba (hxs c (hsub c hc))

/-- The extremum of the groups' extrema is the extremum of their rows. -/
theorem regroup (h : Extremum r best) (f : ρ → α) (key : ρ → κ) (rows : List ρ) (q : κ → Bool) :
    best (((groupBy key rows).filter fun g => q g.1).filterMap fun g => best (g.2.map f)) =
      best ((rows.filter fun x => q (key x)).map f) := by
  -- Every row asked for has a group, whose extremum stands in `r` to it.
  have hgroup : ∀ x ∈ rows, q (key x) → ∃ m, r m (f x) ∧
      m ∈ ((groupBy key rows).filter fun g => q g.1).filterMap fun g => best (g.2.map f) := by
    intro x hx hq
    have hxs : f x ∈ (group key rows (key x)).map f :=
      List.mem_map_of_mem (mem_group.mpr ⟨hx, rfl⟩)
    obtain ⟨m, hm⟩ := Option.ne_none_iff_exists'.mp fun hnone =>
      List.ne_nil_of_mem hxs (h.none_iff.mp hnone)
    refine ⟨m, (h.some_iff.mp hm).2 _ hxs, ?_⟩
    refine List.mem_filterMap.mpr ⟨(key x, group key rows (key x)), ?_, hm⟩
    exact List.mem_filter.mpr ⟨mem_groupBy.mpr ⟨⟨x, hx, rfl⟩, rfl⟩, hq⟩
  -- And the extremum of a group is one of its rows.
  have hrow : ∀ m ∈ ((groupBy key rows).filter fun g => q g.1).filterMap
      (fun g => best (g.2.map f)), m ∈ (rows.filter fun x => q (key x)).map f := by
    intro m hm
    obtain ⟨g, hg, hbest⟩ := List.mem_filterMap.mp hm
    obtain ⟨hg, hq⟩ := List.mem_filter.mp hg
    obtain ⟨x, hx, rfl⟩ := List.mem_map.mp (h.some_iff.mp hbest).1
    rw [(mem_groupBy.mp hg).2, mem_group] at hx
    exact List.mem_map_of_mem (List.mem_filter.mpr ⟨hx.1, hx.2 ▸ hq⟩)
  ext a
  rw [h.some_iff, h.some_iff]
  constructor
  · rintro ⟨ha, hall⟩
    refine ⟨hrow a ha, ?_⟩
    intro b hb
    obtain ⟨x, hx, rfl⟩ := List.mem_map.mp hb
    obtain ⟨hx, hq⟩ := List.mem_filter.mp hx
    obtain ⟨m, hmx, hm⟩ := hgroup x hx hq
    exact h.trans (hall m hm) hmx
  · rintro ⟨ha, hall⟩
    refine ⟨?_, fun b hb => hall b (hrow b hb)⟩
    obtain ⟨x, hx, rfl⟩ := List.mem_map.mp ha
    obtain ⟨hx, hq⟩ := List.mem_filter.mp hx
    obtain ⟨m, hmx, hm⟩ := hgroup x hx hq
    rwa [h.antisymm (hall m (hrow m hm)) hmx]

end Extremum

/-! ### The order of the keys -/

/-- The distinct keys in the order `ORDER BY` asks for. -/
def orderedKeys (le : κ → κ → Bool) (keys : List κ) : List κ := keys.dedup.mergeSort le

theorem orderedKeys_congr {le : κ → κ → Bool} {xs ys : List κ}
    (trans : ∀ a b c, le a b → le b c → le a c) (total : ∀ a b, le a b || le b a)
    (antisymm : ∀ a b, le a b → le b a → a = b) (hmem : ∀ k, k ∈ xs ↔ k ∈ ys) :
    orderedKeys le xs = orderedKeys le ys := by
  have hdedup : xs.dedup.Perm ys.dedup := by
    rw [List.perm_ext_iff_of_nodup (List.nodup_dedup _) (List.nodup_dedup _)]
    intro k
    rw [List.mem_dedup, List.mem_dedup, hmem]
  have hperm : (orderedKeys le xs).Perm (orderedKeys le ys) :=
    (List.mergeSort_perm _ _).trans (hdedup.trans (List.mergeSort_perm _ _).symm)
  exact hperm.eq_of_pairwise (fun a b _ _ hab hba => antisymm a b hab hba)
    (List.pairwise_mergeSort trans total _) (List.pairwise_mergeSort trans total _)

end WireTap.Lib
