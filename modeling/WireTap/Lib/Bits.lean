import Mathlib.Data.Nat.Basic

/-!
# The first bits of a word

`leading n x` keeps the first `n` bits of `x`, counted from the most significant one, and clears the
others; two shifts make it.  It is told by its bits (`getMsbD_leading`), so what it equals is told by
which bits agree (`leading_eq_iff`, `leading_eq_self_iff`).  `setWidth_leading` is the same word
inside a wider one, where the two shifts are by as much.
-/

namespace WireTap.Lib

variable {w v n : Nat}

/-- The first `n` bits. -/
def leading (n : Nat) (x : BitVec w) : BitVec w := x >>> (w - n) <<< (w - n)

theorem getMsbD_leading (hn : n ≤ w) (x : BitVec w) (i : Nat) :
    (leading n x).getMsbD i = (decide (i < n) && x.getMsbD i) := by
  rw [leading, BitVec.getMsbD_shiftLeft, BitVec.getMsbD_ushiftRight]
  have hsub : i + (w - n) - (w - n) = i := by omega
  have hge : ¬ i + (w - n) < w - n := by omega
  have hlt : i + (w - n) < w ↔ i < n := by omega
  simp only [hsub, hge, hlt, decide_false, Bool.not_false, Bool.true_and]

theorem leading_eq_iff (hn : n ≤ w) {x y : BitVec w} :
    leading n x = y ↔
      (∀ i < n, x.getMsbD i = y.getMsbD i) ∧ ∀ i, n ≤ i → y.getMsbD i = false := by
  constructor
  · rintro rfl
    refine ⟨fun i hi => ?_, fun i hi => ?_⟩
    · simp [getMsbD_leading hn, hi]
    · simp [getMsbD_leading hn, Nat.not_lt.mpr hi]
  · rintro ⟨hfirst, hrest⟩
    apply BitVec.eq_of_getMsbD_eq
    intro i _
    rw [getMsbD_leading hn]
    by_cases hi : i < n
    · simp [hi, hfirst i hi]
    · simp [hi, hrest i (Nat.not_lt.mp hi)]

theorem leading_eq_self_iff (hn : n ≤ w) {x : BitVec w} :
    leading n x = x ↔ ∀ i, n ≤ i → x.getMsbD i = false := by
  rw [leading_eq_iff hn]
  exact and_iff_right fun _ _ => rfl

theorem setWidth_injective (hw : w ≤ v) {x y : BitVec w} (h : x.setWidth v = y.setWidth v) :
    x = y := by
  have hnat := congrArg BitVec.toNat h
  have hx : x.toNat < 2 ^ v := Nat.lt_of_lt_of_le x.isLt (Nat.pow_le_pow_right (by omega) hw)
  have hy : y.toNat < 2 ^ v := Nat.lt_of_lt_of_le y.isLt (Nat.pow_le_pow_right (by omega) hw)
  rw [BitVec.toNat_setWidth, BitVec.toNat_setWidth, Nat.mod_eq_of_lt hx, Nat.mod_eq_of_lt hy]
    at hnat
  exact BitVec.eq_of_toNat_eq hnat

/-- In a wider word the same shifts keep the same bits. -/
theorem setWidth_leading (x : BitVec w) :
    (leading n x).setWidth v = x.setWidth v >>> (w - n) <<< (w - n) := by
  apply BitVec.eq_of_getLsbD_eq
  intro i hi
  simp only [leading, BitVec.getLsbD_setWidth, BitVec.getLsbD_shiftLeft, BitVec.getLsbD_ushiftRight]
  by_cases hlow : i < w - n
  · simp [hlow]
  · have hadd : w - n + (i - (w - n)) = i := by omega
    by_cases hiw : i < w
    · simp [hlow, hadd, hi, hiw]
    · have hout : x.getLsbD i = false := BitVec.getLsbD_of_ge x i (by omega)
      simp [hadd, hout]

end WireTap.Lib
