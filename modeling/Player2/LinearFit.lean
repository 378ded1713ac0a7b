import Mathlib.Algebra.Order.BigOperators.Group.List
import Mathlib.Algebra.Order.Ring.Abs
import Mathlib.Tactic.Linarith
import Mathlib.Tactic.Ring

/-! # The straight line through points

The line `y = a + b * x` that fits a list of points best has a gradient and an intercept that are fractions of
sums over the points, with one denominator (`bottom`). -/

namespace LinearFit

section Sums
variable {R : Type*} [CommRing R]

/-- The sum of the abscissas. -/
def sumX (points : List (R × R)) : R := (points.map fun p => p.1).sum

/-- The sum of the ordinates. -/
def sumY (points : List (R × R)) : R := (points.map fun p => p.2).sum

/-- The sum of the products. -/
def sumYX (points : List (R × R)) : R := (points.map fun p => p.2 * p.1).sum

/-- The sum of the squared abscissas. -/
def sumXX (points : List (R × R)) : R := (points.map fun p => p.1 * p.1).sum

/-- The numerator of the gradient. -/
def gradientTop (points : List (R × R)) : R := sumY points * sumX points - points.length * sumYX points

/-- The numerator of the intercept. -/
def interceptTop (points : List (R × R)) : R := sumX points * sumYX points - sumY points * sumXX points

/-- The denominator of both. -/
def bottom (points : List (R × R)) : R := sumX points * sumX points - points.length * sumXX points

/-! ### One more point -/

variable (points : List (R × R)) (p : R × R)

theorem sumX_concat : sumX (points ++ [p]) = sumX points + p.1 := by simp [sumX]

theorem sumY_concat : sumY (points ++ [p]) = sumY points + p.2 := by simp [sumY]

theorem sumYX_concat : sumYX (points ++ [p]) = sumYX points + p.2 * p.1 := by simp [sumYX]

theorem sumXX_concat : sumXX (points ++ [p]) = sumXX points + p.1 * p.1 := by simp [sumXX]

end Sums

theorem abs_sum_le {R : Type*} [CommRing R] [LinearOrder R] [IsStrictOrderedRing R] {c : R} {zs : List R}
    (h : ∀ z ∈ zs, |z| ≤ c) : |zs.sum| ≤ zs.length * c := by
  induction zs with
  | nil => simp
  | cons z zs ih =>
    have hz := h z (by simp)
    have hzs := ih fun w hw => h w (by simp [hw])
    have hadd := abs_add_le z zs.sum
    rw [List.sum_cons, List.length_cons, Nat.cast_succ, add_mul, one_mul]
    linarith

end LinearFit
