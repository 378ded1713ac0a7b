import Mathlib.Algebra.Field.Basic
import Mathlib.Algebra.Order.Ring.Abs
import Mathlib.Tactic.Linarith
import Mathlib.Tactic.Ring

/-! # Sign and magnitude

A number that is kept as a sign and a magnitude.  Zero has two of these forms, so what looks at the signs
first has to treat it apart: numbers of different signs are equal when both are zero (`withSign_inj`), and a
number with the sign is as large as one without only then (`withSign_le_withSign`).

Sums of such numbers add the magnitudes or subtract one from the other, whichever way round
(`withSign_add_other`, `withSign_add_other'`). -/

namespace SignMagnitude

section Ring
variable {K : Type*} [CommRing K]

/-- The number with a sign and a magnitude. -/
def withSign (negative : Bool) (m : K) : K := if negative then -m else m

@[simp] theorem withSign_false (m : K) : withSign false m = m := rfl

@[simp] theorem withSign_true (m : K) : withSign true m = -m := rfl

@[simp] theorem withSign_zero (negative : Bool) : withSign negative (0 : K) = 0 := by
  cases negative <;> simp

theorem withSign_not (negative : Bool) (m : K) : withSign (!negative) m = -withSign negative m := by
  cases negative <;> simp

theorem withSign_add (negative : Bool) (x y : K) :
    withSign negative (x + y) = withSign negative x + withSign negative y := by
  cases negative
  · simp
  · simp only [withSign_true]
    ring

theorem withSign_sub (negative : Bool) (x y : K) :
    withSign negative (x - y) = withSign negative x - withSign negative y := by
  cases negative
  · simp
  · simp only [withSign_true]
    ring

theorem withSign_mul (a b : Bool) (x y : K) : withSign (a ^^ b) (x * y) = withSign a x * withSign b y := by
  cases a <;> cases b <;> simp

theorem withSign_of_ne {a b : Bool} (h : a ≠ b) (m : K) : withSign b m = -withSign a m := by
  cases a <;> cases b <;> simp_all

theorem withSign_add_other {a b : Bool} (h : a ≠ b) (x y : K) : withSign a x + withSign b y = withSign a (x - y) := by
  rw [withSign_of_ne h, withSign_sub, sub_eq_add_neg]

theorem withSign_add_other' {a b : Bool} (h : a ≠ b) (x y : K) :
    withSign a x + withSign b y = withSign (!a) (y - x) := by
  rw [withSign_add_other h, withSign_not, ← neg_sub y x, ← zero_sub (y - x), withSign_sub, withSign_zero, zero_sub]

end Ring

theorem natAbs_withSign (negative : Bool) (m : ℕ) : (withSign negative (m : ℤ)).natAbs = m := by
  cases negative
  · exact Int.natAbs_natCast m
  · exact (Int.natAbs_neg _).trans (Int.natAbs_natCast m)

theorem withSign_inv {K : Type*} [Field K] (negative : Bool) (m : K) :
    (withSign negative m)⁻¹ = withSign negative m⁻¹ := by
  cases negative
  · rfl
  · exact inv_neg

section Ordered
variable {K : Type*} [CommRing K] [LinearOrder K] [IsStrictOrderedRing K] {a b : Bool} {x y : K}

theorem abs_withSign (negative : Bool) (hx : 0 ≤ x) : |withSign negative x| = x := by
  cases negative
  · simpa using hx
  · simpa using hx

theorem withSign_le_withSign (hx : 0 ≤ x) (hy : 0 ≤ y) :
    withSign a x ≤ withSign b y ↔
      match a, b with
      | false, false => x ≤ y
      | false, true => x = 0 ∧ y = 0
      | true, false => True
      | true, true => y ≤ x := by
  cases a <;> cases b
  · simp
  · simp only [withSign_false, withSign_true]
    constructor
    · intro h
      constructor <;> linarith
    · rintro ⟨rfl, rfl⟩
      simp
  · simp only [withSign_false, withSign_true, iff_true]
    linarith
  · simp

theorem withSign_inj (hx : 0 ≤ x) (hy : 0 ≤ y) :
    withSign a x = withSign b y ↔ x = y ∧ (a = b ∨ x = 0) := by
  cases a <;> cases b
  · simp
  · simp only [withSign_false, withSign_true]
    constructor
    · intro h
      exact ⟨by linarith, Or.inr (by linarith)⟩
    · rintro ⟨rfl, h⟩
      simp_all
  · simp only [withSign_false, withSign_true]
    constructor
    · intro h
      exact ⟨by linarith, Or.inr (by linarith)⟩
    · rintro ⟨rfl, h⟩
      simp_all
  · simp

end Ordered

end SignMagnitude
