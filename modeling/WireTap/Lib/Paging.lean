import Mathlib.Data.List.Induction
import Mathlib.Data.List.Sort

/-!
# Places in a sorted list named by key and count

A reader that pages through sorted rows without a unique key says where it stopped by the last key
it saw and how many rows of that key it has seen.  `Mark keys p key seen` is that name for the place
`p`: it can be turned back into the place (`Mark.position`), and a page read from the place is named
by counting its own trailing ties and, where it ends in the key it began in, the count carried over
(`Mark.next` with `Mark.count_take`).
-/

namespace WireTap.Lib

variable {α ρ : Type*} [LinearOrder α]

/-- The place `p` in `keys`, by the key before it and how often that key stands before it. -/
structure Mark (keys : List α) (p : Nat) (key : α) (seen : Nat) : Prop where
  le : p ≤ keys.length
  last : (keys.take p).getLast? = some key
  seen : seen = (keys.take p).count key

/-! ### Sorted lists -/

/-- The rows from a key on are what is left after the rows below it. -/
theorem filter_le_eq_drop (key : ρ → α) {rows : List ρ} (c : α)
    (h : rows.Pairwise fun a b => key a ≤ key b) :
    rows.filter (fun r => c ≤ key r) = rows.drop (rows.countP fun r => key r < c) := by
  induction rows with
  | nil => rfl
  | cons r rows ih =>
    rw [List.pairwise_cons] at h
    by_cases hr : key r < c
    · rw [List.filter_cons_of_neg (by simpa using hr), List.countP_cons_of_pos (by simpa using hr),
        List.drop_succ_cons, ih h.2]
    · -- The first row is not below the key, so no later one is.
      have hall : ∀ x ∈ r :: rows, c ≤ key x := by
        intro x hx
        rcases List.mem_cons.mp hx with rfl | hx
        · exact not_lt.mp hr
        · exact le_trans (not_lt.mp hr) (h.1 x hx)
      have hcount : (r :: rows).countP (fun x => key x < c) = 0 := by
        rw [List.countP_eq_zero]
        intro x hx
        simpa using hall x hx
      rw [hcount, List.drop_zero, List.filter_eq_self]
      intro x hx
      simpa using hall x hx

/-- A list bounded by a key has the elements below it and its copies. -/
theorem length_eq_countP_add_count {xs : List α} {key : α} (h : ∀ x ∈ xs, x ≤ key) :
    xs.length = xs.countP (· < key) + xs.count key := by
  rw [List.length_eq_countP_add_countP (fun x => decide (x < key)), List.count]
  congr 1
  apply List.countP_congr
  intro x hx
  have hle := h x hx
  simp only [decide_eq_true_eq, not_lt, beq_iff_eq]
  exact ⟨fun hge => le_antisymm hle hge, fun heq => heq ▸ le_refl _⟩

/-- Every element of a sorted list is at most its last. -/
theorem le_getLast {xs : List α} {last : α} (h : xs.Pairwise (· ≤ ·))
    (hlast : xs.getLast? = some last) : ∀ x ∈ xs, x ≤ last := by
  intro x hx
  obtain ⟨front, rfl⟩ := List.getLast?_eq_some_iff.mp hlast
  rcases List.mem_append.mp hx with hx | hx
  · exact (List.pairwise_append.mp h).2.2 x hx last (List.mem_singleton.mpr rfl)
  · exact (List.mem_singleton.mp hx).le

/-- The copies of the last key of a sorted list stand together at its end. -/
theorem length_takeWhile_reverse {xs : List α} {last : α} (h : xs.Pairwise (· ≤ ·))
    (hlast : xs.getLast? = some last) :
    (xs.reverse.takeWhile (· = last)).length = xs.count last := by
  have hle := le_getLast h hlast
  clear hlast
  -- From the back: the copies come first, and below the first other element there are none.
  induction xs using List.reverseRecOn with
  | nil => rfl
  | append_singleton xs x ih =>
    rw [List.pairwise_append] at h
    rw [List.reverse_append, List.reverse_singleton, List.singleton_append, List.count_append]
    by_cases hx : x = last
    · subst hx
      have ih := ih h.1 fun y hy => hle y (List.mem_append_left _ hy)
      rw [List.takeWhile_cons_of_pos (by simp), List.length_cons, ih, List.count_singleton_self]
    · have hlt : x < last := lt_of_le_of_ne (hle x (by simp)) hx
      have hnone : last ∉ xs := fun hmem =>
        absurd (h.2.2 last hmem x (List.mem_singleton.mpr rfl)) (not_le.mpr hlt)
      rw [List.takeWhile_cons_of_neg (by simpa using hx), List.count_eq_zero.mpr hnone,
        List.count_singleton, if_neg (by simpa using hx)]
      rfl

/-! ### Marks -/

namespace Mark

variable {keys : List α} {p : Nat} {key : α} {seen : Nat}

/-- What stands before a place is at most what stands after it. -/
theorem take_le_drop (h : keys.Pairwise (· ≤ ·)) {x y : α} (hx : x ∈ keys.take p)
    (hy : y ∈ keys.drop p) : x ≤ y := by
  rw [← List.take_append_drop p keys] at h
  exact (List.pairwise_append.mp h).2.2 x hx y hy

/-- A mark names its place: the rows below the key, and those seen of it. -/
theorem position (hm : Mark keys p key seen) (h : keys.Pairwise (· ≤ ·)) :
    keys.countP (· < key) + seen = p := by
  have hbelow : (keys.drop p).countP (· < key) = 0 := by
    rw [List.countP_eq_zero]
    intro y hy
    have hkey : key ∈ keys.take p := List.mem_of_getLast? hm.last
    simpa using take_le_drop h hkey hy
  have hsplit := length_eq_countP_add_count (le_getLast (h.sublist (List.take_sublist p _)) hm.last)
  calc keys.countP (· < key) + seen
      = (keys.take p).countP (· < key) + (keys.drop p).countP (· < key) + seen := by
        rw [← List.countP_append, List.take_append_drop]
    _ = (keys.take p).countP (· < key) + (keys.take p).count key := by
        rw [hbelow, hm.seen, Nat.add_zero]
    _ = p := by rw [← hsplit, List.length_take, Nat.min_eq_left hm.le]

/-- How often a key after the place stands before it. -/
theorem count_take (hm : Mark keys p key seen) (h : keys.Pairwise (· ≤ ·)) {last : α}
    (hlast : last ∈ keys.drop p) :
    (keys.take p).count last = if key = last then seen else 0 := by
  split
  · rename_i heq
    rw [hm.seen, heq]
  · rename_i hne
    rw [List.count_eq_zero]
    intro hmem
    have hkey := take_le_drop h (List.mem_of_getLast? hm.last) hlast
    exact hne (le_antisymm hkey (le_getLast (h.sublist (List.take_sublist p _)) hm.last _ hmem))

/-- The place after a page, by the page's last key. -/
theorem next {n : Nat} {last : α} (hp : p ≤ keys.length)
    (hlast : ((keys.drop p).take n).getLast? = some last) :
    Mark keys (p + ((keys.drop p).take n).length) last
      (((keys.drop p).take n).count last + (keys.take p).count last) := by
  have htake : keys.take (p + ((keys.drop p).take n).length) =
      keys.take p ++ (keys.drop p).take n := by
    rw [List.take_add, List.length_take, List.take_eq_take_min (i := n)]
  refine ⟨?_, ?_, ?_⟩
  · rw [List.length_take, List.length_drop]
    omega
  · rw [htake, List.getLast?_append, hlast]
    rfl
  · rw [htake, List.count_append, Nat.add_comm]

end Mark

end WireTap.Lib
