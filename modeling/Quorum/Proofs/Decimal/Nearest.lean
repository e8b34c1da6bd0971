/-
  Quorum/Proofs/Decimal/Nearest.lean
  ==================================
  **The nearest whole number.**

  Time stamps are rationals rounded to whole microseconds.  The rounded number is at most
  one half away (`roundRat_near`), and so rounding keeps the order of what it rounds
  (`roundRat_mono`): whichever way ties go, they go the same way for equal numbers.
-/
import Mathlib.Algebra.Order.Ring.Abs
import Mathlib.Algebra.Order.Ring.Rat
import Mathlib.Tactic.Linarith
import Quorum.Decimal.Shortest

namespace Quorum.Decimal

theorem roundQuotient_near (n : Nat) {k : Nat} (hk : 0 < k) :
    2 * n ≤ 2 * (roundQuotient n k * k) + k ∧ 2 * (roundQuotient n k * k) ≤ 2 * n + k := by
  have hdivision : n / k * k + n % k = n := Nat.div_add_mod' n k
  have hrest : n % k < k := Nat.mod_lt n hk
  have hnext : (n / k + 1) * k = n / k * k + k := Nat.succ_mul _ _
  unfold roundQuotient
  split
  · rename_i hbelow
    rw [Nat.compare_eq_lt] at hbelow
    omega
  · rename_i habove
    rw [Nat.compare_eq_gt] at habove
    omega
  · -- a tie: half of the unit is missing whichever neighbour is taken
    rename_i htie
    rw [Nat.compare_eq_eq] at htie
    split <;> omega

theorem natAbs_num_eq (r : Rat) : (r.num.natAbs : Rat) = |r| * r.den := by
  have hden : (0 : Rat) ≤ r.den := by exact_mod_cast r.den_pos.le
  calc (r.num.natAbs : Rat) = |(r.num : Rat)| := by rw [Nat.cast_natAbs, Int.cast_abs]
    _ = |r * r.den| := by rw [Rat.mul_den_eq_num]
    _ = |r| * r.den := by rw [abs_mul, abs_of_nonneg hden]

/-- The distance to the nearest whole number is at most one half. -/
theorem roundRat_near (r : Rat) :
    2 * r - 1 ≤ 2 * (roundRat r : Rat) ∧ 2 * (roundRat r : Rat) ≤ 2 * r + 1 := by
  have hden : (0 : Rat) < r.den := by exact_mod_cast r.den_pos
  obtain ⟨hlow, hhigh⟩ := roundQuotient_near r.num.natAbs r.den_pos
  generalize hq : roundQuotient r.num.natAbs r.den = q at hlow hhigh
  have hlow' : 2 * |r| ≤ 2 * (q : Rat) + 1 := by
    refine le_of_mul_le_mul_right ?_ hden
    have hcast : (2 : Rat) * r.num.natAbs ≤ 2 * (q * r.den) + r.den := by exact_mod_cast hlow
    rw [natAbs_num_eq] at hcast
    linarith
  have hhigh' : 2 * (q : Rat) ≤ 2 * |r| + 1 := by
    refine le_of_mul_le_mul_right ?_ hden
    have hcast : (2 : Rat) * (q * r.den) ≤ 2 * r.num.natAbs + r.den := by exact_mod_cast hhigh
    rw [natAbs_num_eq] at hcast
    linarith
  unfold roundRat
  simp only [hq]
  split
  · rename_i hnegative
    rw [abs_of_neg (Rat.num_neg.mp hnegative)] at hlow' hhigh'
    push_cast
    constructor <;> linarith
  · rename_i hnonnegative
    rw [abs_of_nonneg (Rat.num_nonneg.mp (Int.not_lt.mp hnonnegative))] at hlow' hhigh'
    push_cast
    constructor <;> linarith

theorem roundRat_mono {r s : Rat} (h : r ≤ s) : roundRat r ≤ roundRat s := by
  by_contra hlt
  have hstep : roundRat s + 1 ≤ roundRat r := by omega
  have hstep' : (roundRat s : Rat) + 1 ≤ roundRat r := by exact_mod_cast hstep
  have hr := (roundRat_near r).2
  have hs := (roundRat_near s).1
  -- both numbers would lie half way between the same neighbours
  have heq : r = s := by linarith
  exact hlt (heq ▸ le_refl _)

end Quorum.Decimal
