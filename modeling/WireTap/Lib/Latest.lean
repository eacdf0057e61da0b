import Mathlib.Data.Nat.Find
import WireTap.Lib.Paging

/-!
# The latest of a number of events

Events are numbered in the order they take effect, and come to be known in another.
`exists_last` is the last moment before one at which something held; `getLast?_filterMap_eq` says
when the last of the known events that matter is the last of all that do: when those that matter
become known in order, and the last of all is among them.
-/

namespace WireTap.Lib

/-- What holds at `i` and no longer at `k` has held for the last time in between. -/
theorem exists_last {p : Nat → Prop} {i k : Nat} (hik : i ≤ k) (hi : p i) (hk : ¬p k) :
    ∃ m, i ≤ m ∧ m < k ∧ p m ∧ ∀ n, m < n → n ≤ k → ¬p n := by
  classical
  obtain ⟨hle, hspec, hlast⟩ :=
    Nat.findGreatest_eq_iff.mp (rfl : Nat.findGreatest p k = Nat.findGreatest p k)
  have him : i ≤ Nat.findGreatest p k := by
    by_contra hlt
    exact hlast (by omega) hik hi
  have hm : p (Nat.findGreatest p k) := Nat.findGreatest_spec hik hi
  refine ⟨Nat.findGreatest p k, him, ?_, hm, fun n hn hnk => hlast hn hnk⟩
  refine Nat.lt_of_le_of_ne hle ?_
  intro heq
  exact hk (heq ▸ hm)

/-- The last value is that of the last element that has one. -/
theorem getLast?_filterMap_eq_bind {α β : Type} (f : α → Option β) (xs : List α) :
    (xs.filterMap f).getLast? = (xs.filter fun x => (f x).isSome).getLast?.bind f := by
  induction xs using List.reverseRecOn with
  | nil => rfl
  | append_singleton xs x ih =>
    rw [List.filterMap_append, List.filter_append]
    cases hx : f x with
    | none => simpa [hx] using ih
    | some b => simp [hx]

/-- `xs` are events in order, and `ys` those of them that are known.  If the known ones with a value
are in order, and the last one with a value is known, the last values are the same. -/
theorem getLast?_filterMap_eq {β : Type} {f : Nat → Option β} {xs ys : List Nat}
    (hxs : xs.Pairwise (· ≤ ·)) (hys : (ys.filter fun y => (f y).isSome).Pairwise (· ≤ ·))
    (hsub : ∀ y ∈ ys, (f y).isSome → y ∈ xs)
    (hlast : ∀ x ∈ xs, (f x).isSome → (∀ x' ∈ xs, (f x').isSome → x' ≤ x) → x ∈ ys) :
    (xs.filterMap f).getLast? = (ys.filterMap f).getLast? := by
  rw [getLast?_filterMap_eq_bind, getLast?_filterMap_eq_bind]
  congr 1
  have hle : ∀ {last}, (xs.filter fun x => (f x).isSome).getLast? = some last →
      ∀ x ∈ xs, (f x).isSome → x ≤ last := by
    intro last h x hx hvalue
    exact le_getLast (hxs.filter _) h x (List.mem_filter.mpr ⟨hx, hvalue⟩)
  cases hx : (xs.filter fun x => (f x).isSome).getLast? with
  | none =>
    have hnil := List.getLast?_eq_none_iff.mp hx
    have hempty : ys.filter (fun y => (f y).isSome) = [] := by
      refine List.filter_eq_nil_iff.mpr ?_
      intro y hy hvalue
      exact List.filter_eq_nil_iff.mp hnil y (hsub y hy hvalue) hvalue
    rw [hempty]
    rfl
  | some x =>
    obtain ⟨hxs', hvalue⟩ := List.mem_filter.mp (List.mem_of_getLast? hx)
    have hxy : x ∈ ys.filter fun y => (f y).isSome :=
      List.mem_filter.mpr ⟨hlast x hxs' hvalue (hle hx), hvalue⟩
    cases hy : (ys.filter fun y => (f y).isSome).getLast? with
    | none =>
      rw [List.getLast?_eq_none_iff.mp hy] at hxy
      cases hxy
    | some y =>
      obtain ⟨hys', hvalue'⟩ := List.mem_filter.mp (List.mem_of_getLast? hy)
      have hyx : y ≤ x := hle hx y (hsub y hys' hvalue') hvalue'
      have hxley : x ≤ y := le_getLast hys hy x hxy
      rw [Nat.le_antisymm hxley hyx]

end WireTap.Lib
