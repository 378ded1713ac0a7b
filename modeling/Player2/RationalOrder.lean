import Player2.RationalValue
import Player2.SignMagnitude

/-! # The order of the rationals on words

The operators compare the cross products once they know the signs.  `operator>=`, and `operator<`, which is
its negation, give the order of the numbers, zero with a minus included.  `operator==` does not know that the
two zeros are equal, and `operator>` confuses the case of a negative number on the right with that of a
negative number on the left: no such comparison is right.  `operator<=` is the negation of `operator>`.
`compares_iff` says which numbers all six compare as they should. -/

namespace Player2.Rational

open SignMagnitude

theorem value_eq_withSign (r : Rational) :
    r.value = withSign r.negative ((r.numerator.toNat : ℚ) / r.denominator.toNat) := by
  unfold value sign
  cases r.negative <;> simp

/-- The cross products of two numbers fit a word. -/
structure CrossFits (r f : Rational) : Prop where
  left : r.numerator.toNat * f.denominator.toNat < 2 ^ 64
  right : f.numerator.toNat * r.denominator.toNat < 2 ^ 64

theorem CrossFits.symm {r f : Rational} (h : CrossFits r f) : CrossFits f r := ⟨h.right, h.left⟩

section
variable {r f : Rational}

theorem toNat_cross (h : r.numerator.toNat * f.denominator.toNat < 2 ^ 64) :
    (r.numerator * f.denominator).toNat = r.numerator.toNat * f.denominator.toNat := by
  rw [UInt64.toNat_mul, Nat.mod_eq_of_lt h]

theorem cross_le_iff (hr : r.denominator ≠ 0) (hf : f.denominator ≠ 0) (h : CrossFits r f) :
    r.numerator * f.denominator ≤ f.numerator * r.denominator ↔
      (r.numerator.toNat : ℚ) / r.denominator.toNat ≤ f.numerator.toNat / f.denominator.toNat := by
  have hr' : (0 : ℚ) < r.denominator.toNat := by exact_mod_cast toNat_pos hr
  have hf' : (0 : ℚ) < f.denominator.toNat := by exact_mod_cast toNat_pos hf
  rw [UInt64.le_iff_toNat_le, toNat_cross h.left, toNat_cross h.right, div_le_div_iff₀ hr' hf']
  exact_mod_cast Iff.rfl

theorem cross_eq_iff (hr : r.denominator ≠ 0) (hf : f.denominator ≠ 0) (h : CrossFits r f) :
    r.numerator * f.denominator = f.numerator * r.denominator ↔
      (r.numerator.toNat : ℚ) / r.denominator.toNat = f.numerator.toNat / f.denominator.toNat := by
  have hr' : (r.denominator.toNat : ℚ) ≠ 0 := by exact_mod_cast (toNat_pos hr).ne'
  have hf' : (f.denominator.toNat : ℚ) ≠ 0 := by exact_mod_cast (toNat_pos hf).ne'
  rw [← UInt64.toNat_inj, toNat_cross h.left, toNat_cross h.right, div_eq_div_iff hr' hf']
  exact_mod_cast Iff.rfl

theorem magnitude_eq_zero_iff (hr : r.denominator ≠ 0) :
    (r.numerator.toNat : ℚ) / r.denominator.toNat = 0 ↔ r.numerator = 0 := by
  have hr' : (r.denominator.toNat : ℚ) ≠ 0 := by exact_mod_cast (toNat_pos hr).ne'
  rw [div_eq_zero_iff, or_iff_left hr', Nat.cast_eq_zero, ← UInt64.toNat_inj]
  simp

/-! ### The operators -/

theorem ge_iff_value (hr : r.denominator ≠ 0) (hf : f.denominator ≠ 0) (h : CrossFits r f) :
    r.ge f = true ↔ f.value ≤ r.value := by
  have hcross := cross_le_iff hr hf h
  have hcross' := cross_le_iff hf hr h.symm
  rw [value_eq_withSign, value_eq_withSign, withSign_le_withSign (by positivity) (by positivity), magnitude_eq_zero_iff hf,
    magnitude_eq_zero_iff hr]
  unfold ge
  cases hneg : r.negative <;> cases hneg' : f.negative
  · simpa using hcross'
  · simp
  · simp [and_comm]
  · simpa using hcross

theorem lt_iff_value (hr : r.denominator ≠ 0) (hf : f.denominator ≠ 0) (h : CrossFits r f) :
    r.lt f = true ↔ r.value < f.value := by
  unfold lt
  rw [← not_le, ← ge_iff_value hr hf h]
  simp

theorem equals_iff_value (hr : r.denominator ≠ 0) (hf : f.denominator ≠ 0) (h : CrossFits r f) :
    r.equals f = true ↔ r.value = f.value ∧ r.negative = f.negative := by
  unfold equals
  rw [Bool.and_eq_true, beq_iff_eq, beq_iff_eq, cross_eq_iff hr hf h, value_eq_withSign, value_eq_withSign,
    withSign_inj (by positivity) (by positivity)]
  constructor
  · rintro ⟨hneg, heq⟩
    exact ⟨⟨heq, Or.inl hneg⟩, hneg⟩
  · rintro ⟨⟨heq, -⟩, hneg⟩
    exact ⟨hneg, heq⟩

theorem ne_eq_not_equals (r f : Rational) : r.ne f = !r.equals f := by
  unfold ne equals
  cases r.negative <;> cases f.negative <;> simp [bne]

theorem gt_iff_value (hr : r.denominator ≠ 0) (hf : f.denominator ≠ 0) (h : CrossFits r f)
    (hsign : r.negative = f.negative ∨ r.negative = true) : r.gt f = true ↔ f.value < r.value := by
  have hcross := cross_le_iff hr hf h
  have hcross' := cross_le_iff hf hr h.symm
  rw [← not_le, value_eq_withSign, value_eq_withSign, withSign_le_withSign (by positivity) (by positivity)]
  unfold gt
  cases hneg : r.negative <;> cases hneg' : f.negative
  · simpa using not_congr hcross
  · simp [hneg, hneg'] at hsign
  · simp
  · simpa using not_congr hcross'

theorem not_gt_iff_value (hr : r.denominator ≠ 0) (hf : f.denominator ≠ 0) (hneg : r.negative = false)
    (hneg' : f.negative = true) : ¬ (r.gt f = true ↔ f.value < r.value) := by
  rw [← not_le, value_eq_withSign, value_eq_withSign, withSign_le_withSign (by positivity) (by positivity),
    magnitude_eq_zero_iff hr, magnitude_eq_zero_iff hf]
  unfold gt
  simp only [hneg, hneg', Bool.false_eq_true, if_false, if_true, decide_eq_true_eq]
  tauto

/-! ### All of them -/

/-- The six operators compare the numbers, of which one is less, equal or greater. -/
structure Compares (r f : Rational) : Prop where
  equals : r.equals f = true ↔ r.value = f.value
  ne : r.ne f = true ↔ r.value ≠ f.value
  gt : r.gt f = true ↔ r.value > f.value
  ge : r.ge f = true ↔ r.value ≥ f.value
  lt : r.lt f = true ↔ r.value < f.value
  le : r.le f = true ↔ r.value ≤ f.value
  exactlyOne : ((r.lt f).toNat + (r.equals f).toNat + (r.gt f).toNat) = 1

/-- Two numbers have the same sign, or only the first is negative and not both are zero. -/
def Comparable (r f : Rational) : Prop :=
  r.negative = f.negative ∨
    r.negative = true ∧ f.negative = false ∧ ¬ (r.numerator = 0 ∧ f.numerator = 0)

/-- **The order**: the operators compare two numbers as they should, and exactly one of `<`, `==` and `>` holds,
if and only if they are comparable. -/
theorem compares_iff (hr : r.denominator ≠ 0) (hf : f.denominator ≠ 0) (h : CrossFits r f) :
    Compares r f ↔ Comparable r f := by
  have hequals := equals_iff_value hr hf h
  constructor
  · intro hall
    by_cases hneg : r.negative = f.negative
    · exact Or.inl hneg
    · right
      have hminus : r.negative = true := by
        by_contra hplus
        rw [Bool.not_eq_true] at hplus
        exact not_gt_iff_value hr hf hplus (by simp_all) hall.gt
      refine ⟨hminus, by simp_all, ?_⟩
      rintro ⟨hzero, hzero'⟩
      have hvalue : r.value = f.value := by
        rw [value_eq_withSign, value_eq_withSign, (magnitude_eq_zero_iff hr).mpr hzero,
          (magnitude_eq_zero_iff hf).mpr hzero', withSign_zero, withSign_zero]
      exact hneg (hequals.mp (hall.equals.mpr hvalue)).2
  · intro hsign
    have hgt := gt_iff_value hr hf h (hsign.imp_right fun h => h.1)
    have hlt := lt_iff_value hr hf h
    have heq : r.equals f = true ↔ r.value = f.value := by
      rw [hequals, and_iff_left_iff_imp, value_eq_withSign, value_eq_withSign,
        withSign_inj (by positivity) (by positivity), magnitude_eq_zero_iff hr]
      rintro ⟨hmagnitude, hneg | hzero⟩
      · exact hneg
      · refine hsign.elim id fun hsign => absurd ⟨hzero, ?_⟩ hsign.2.2
        rw [← magnitude_eq_zero_iff hf, ← hmagnitude]
        exact (magnitude_eq_zero_iff hr).mpr hzero
    refine ⟨heq, ?_, hgt, ge_iff_value hr hf h, hlt, ?_, ?_⟩
    · rw [ne_eq_not_equals, Ne, ← heq]
      simp
    · unfold le
      rw [← not_lt, ← hgt]
      simp
    · rcases lt_trichotomy r.value f.value with hless | hsame | hmore
      · rw [hlt.mpr hless, Bool.eq_false_iff.mpr fun h => hless.ne (heq.mp h),
          Bool.eq_false_iff.mpr fun h => hless.not_gt (hgt.mp h)]
        rfl
      · rw [heq.mpr hsame, Bool.eq_false_iff.mpr fun h => hsame.not_lt (hlt.mp h),
          Bool.eq_false_iff.mpr fun h => hsame.not_gt (hgt.mp h)]
        rfl
      · rw [hgt.mpr hmore, Bool.eq_false_iff.mpr fun h => hmore.ne' (heq.mp h),
          Bool.eq_false_iff.mpr fun h => hmore.not_gt (hlt.mp h)]
        rfl

theorem compares_iff_halves : Compares ⟨true, 1, 2⟩ ⟨false, 1, 2⟩ ↔ Comparable ⟨true, 1, 2⟩ ⟨false, 1, 2⟩ :=
  compares_iff (by decide) (by decide) ⟨by decide, by decide⟩

/-- Five is not greater than minus three. -/
theorem not_compares : ¬ ∀ r f : Rational, r.denominator ≠ 0 → f.denominator ≠ 0 → CrossFits r f →
    Compares r f := by
  intro hall
  have hgt := (hall ⟨false, 5, 1⟩ ⟨true, 3, 1⟩ (by decide) (by decide) ⟨by decide, by decide⟩).gt
  exact not_gt_iff_value (by decide) (by decide) rfl rfl hgt

end

end Player2.Rational
