import Player2.RationalRestrict

/-! # The terms of a rational after an assignment

An assignment leaves terms of at most `2 ^ 32`, whatever they were (`restrict_le`).  Where the terms of the
operands are that small, comparison and multiplication do what they say; `IntegerPart` of a number that is
not negative is its floor (`toInt_integerPart_floor`). -/

namespace Player2.Rational

open OutputCoordinator (signed signed_eq toInt_intOf_of_fits)

/-! ### Bounds -/

theorem numerator_reduceByTen_le (n : ℕ) (r : Rational) :
    (reduceByTen n r).numerator.toNat ≤ r.numerator.toNat := by
  induction n generalizing r with
  | zero => exact Nat.le_refl _
  | succ n ih =>
    unfold reduceByTen
    split
    · refine (ih _).trans ?_
      exact Nat.div_le_self _ _
    · exact Nat.le_refl _

theorem numerator_reduced_le (r : Rational) : r.reduced.numerator.toNat ≤ r.numerator.toNat := by
  unfold reduced
  split
  · split
    · exact Nat.div_le_self _ _
    · split
      · exact Nat.div_le_self _ _
      · exact numerator_reduceByTen_le 20 r
  · exact Nat.le_refl _

theorem negative_reduceByTen (n : ℕ) (r : Rational) : (reduceByTen n r).negative = r.negative := by
  induction n generalizing r with
  | zero => rfl
  | succ n ih =>
    unfold reduceByTen
    split
    · exact ih _
    · rfl

theorem negative_reduced (r : Rational) : r.reduced.negative = r.negative := by
  unfold reduced
  split
  · split
    · rfl
    · split
      · rfl
      · exact negative_reduceByTen 20 r
  · rfl

theorem negative_restrict (r : Rational) : r.restrict.negative = r.negative := by
  have hscaled : ∀ shift, (r.scaled shift).negative = r.negative := by
    intro shift
    unfold scaled
    dsimp only
    split <;> rfl
  have hshifted (t : Rational) (shift : UInt64) : (t.shifted shift).negative = t.negative := rfl
  unfold restrict
  dsimp only
  split
  · rw [negative_reduced, hshifted, hscaled]
  · exact negative_reduced r

theorem shifted_le {x shift : UInt64} (hshift : shift.toNat ≤ 31) (hx : x.toNat < 2 ^ (33 + shift.toNat)) :
    ((x + wordOf (intOf (1 <<< shift))) >>> (shift + 1)).toNat ≤ 2 ^ 32 := by
  have hsucc : (shift + 1).toNat = shift.toNat + 1 := by
    have h1 : (1 : UInt64).toNat = 1 := rfl
    rw [UInt64.toNat_add, h1]
    exact Nat.mod_eq_of_lt (by omega)
  rw [UInt64.toNat_shiftRight, hsucc, Nat.mod_eq_of_lt (by omega : shift.toNat + 1 < 64),
    Nat.shiftRight_eq_div_pow]
  have hc := Nat.two_pow_pos (shift.toNat + 1)
  refine Nat.le_of_lt_succ ((Nat.div_lt_iff_lt_mul hc).mpr ?_)
  rcases Nat.lt_or_ge shift.toNat 31 with hlt | hge
  · have hhalf := toNat_half (Nat.le_of_lt_succ hlt)
    have hpow : 2 ^ (33 + shift.toNat) = 2 ^ 32 * 2 ^ (shift.toNat + 1) := by
      rw [← Nat.pow_add]
      congr 1
      omega
    have hsum : (x + wordOf (intOf (1 <<< shift))).toNat ≤ x.toNat + 2 ^ shift.toNat := by
      rw [UInt64.toNat_add, hhalf]
      exact Nat.mod_le _ _
    omega
  · have hall := (x + wordOf (intOf (1 <<< shift))).toNat_lt
    have h31 : shift.toNat = 31 := by omega
    rw [h31]
    omega

theorem scaled_le {r : Rational} {shift : UInt64} (hshift : shift.toNat ≤ 31)
    (hn : r.numerator.toNat < 2 ^ (33 + shift.toNat)) :
    (r.scaled shift).numerator.toNat ≤ r.numerator.toNat ∧
      (r.scaled shift).denominator.toNat ≤ r.denominator.toNat := by
  unfold scaled
  dsimp only
  split
  next hspare =>
    have hmask : ∀ m : UInt64, (r.denominator &&& m).toNat ≤ r.denominator.toNat := by
      intro m
      exact Nat.and_le_left
    refine ⟨?_, hmask _⟩
    generalize (0xffffffff <<< (shift + 1)) &&& 0xffffffff = m
    have hfits : r.numerator.toNat * (r.denominator &&& m).toNat < 2 ^ 64 := by
      have hsub : (31 - shift).toNat = 31 - shift.toNat := UInt64.toNat_sub_of_le _ _ hshift
      have hone : ((1 : UInt64) <<< (31 - shift)).toNat ≤ 2 ^ (31 - shift.toNat) := by
        rw [UInt64.toNat_shiftLeft, hsub, Nat.mod_eq_of_lt (by omega : 31 - shift.toNat < 64),
          Nat.shiftLeft_eq]
        exact (Nat.mod_le _ _).trans_eq (Nat.one_mul _)
      have hden : (r.denominator &&& m).toNat < 2 ^ (31 - shift.toNat) :=
        (hmask m).trans_lt ((UInt64.lt_iff_toNat_lt.mp hspare).trans_le hone)
      have hpow : 2 ^ (33 + shift.toNat) * 2 ^ (31 - shift.toNat) = 2 ^ 64 := by
        rw [← Nat.pow_add]
        congr 1
        omega
      exact (Nat.mul_lt_mul'' hn hden).trans_eq hpow
    rw [UInt64.toNat_div, UInt64.toNat_mul, Nat.mod_eq_of_lt hfits]
    refine Nat.div_le_of_le_mul ?_
    rw [Nat.mul_comm r.denominator.toNat]
    exact Nat.mul_le_mul_left _ (hmask m)
  next => exact ⟨Nat.le_refl _, Nat.le_refl _⟩

/-- **Terms**: an assignment leaves terms of at most `2 ^ 32`. -/
theorem restrict_le (r : Rational) :
    r.restrict.numerator.toNat ≤ 2 ^ 32 ∧ r.restrict.denominator.toNat ≤ 2 ^ 32 := by
  have htmp := toNat_or_shiftRight r.numerator r.denominator
  have hn : r.numerator.toNat / 2 ^ 32 ≤ ((r.numerator ||| r.denominator) >>> 32).toNat := by
    rw [htmp]
    exact Nat.left_le_or
  have hd : r.denominator.toNat / 2 ^ 32 ≤ ((r.numerator ||| r.denominator) >>> 32).toNat := by
    rw [htmp]
    exact Nat.right_le_or
  have hreduced : ∀ t : Rational, t.numerator.toNat ≤ 2 ^ 32 → t.denominator.toNat ≤ 2 ^ 32 →
      t.reduced.numerator.toNat ≤ 2 ^ 32 ∧ t.reduced.denominator.toNat ≤ 2 ^ 32 := fun t h h' =>
    ⟨(numerator_reduced_le t).trans h, (denominator_reduced_le t).trans h'⟩
  unfold restrict
  dsimp only
  split
  next hne =>
    obtain ⟨hle, hupper, -⟩ := highestIn_shiftOf hne (toNat_or_shiftRight_lt _ _)
    generalize shiftOf ((r.numerator ||| r.denominator) >>> 32) = shift at hle hupper ⊢
    have hpow : 2 ^ (33 + shift.toNat) = 2 ^ 32 * 2 ^ (shift.toNat + 1) := by
      rw [← Nat.pow_add]
      congr 1
      omega
    have hn' : r.numerator.toNat < 2 ^ (33 + shift.toNat) := by
      omega
    have hd' : r.denominator.toNat < 2 ^ (33 + shift.toNat) := by
      omega
    have hscaled := scaled_le (by omega) hn'
    exact hreduced _ (shifted_le (by omega) (hscaled.1.trans_lt hn'))
      (shifted_le (by omega) (hscaled.2.trans_lt hd'))
  next heq =>
    rw [not_not.mp heq, UInt64.toNat_zero] at hn hd
    exact hreduced r (by omega) (by omega)

/-! ### Numbers that are not negative -/

variable {r f : Rational}

theorem negative_ofFactor (n d factor : UInt64) (negative : Bool) :
    (ofFactor n d factor negative).negative = negative := by
  unfold ofFactor
  split <;> rfl

theorem negative_mulInt {v : Int32} (hv : 0 ≤ v.toInt) (r : Rational) :
    (r.mulInt v).negative = r.negative := by
  have hnot : ¬ v < 0 := by
    rw [Int32.lt_iff_toInt_lt]
    exact not_lt.mpr hv
  unfold mulInt
  rw [negative_ofFactor, decide_eq_false hnot, Bool.false_xor]

theorem negative_divInt {v : Int32} (hv : 0 ≤ v.toInt) (r : Rational) :
    (r.divInt v).negative = r.negative := by
  have hnot : ¬ v < 0 := by
    rw [Int32.lt_iff_toInt_lt]
    exact not_lt.mpr hv
  unfold divInt
  rw [negative_ofFactor, decide_eq_false hnot, Bool.false_xor]

theorem negative_div (r f : Rational) : (r.div f).negative = (r.negative ^^ f.negative) :=
  negative_ofFactor ..

theorem value_of_nonneg (h : r.negative = false) :
    r.value = (r.numerator.toNat : ℚ) / r.denominator.toNat := by
  rw [value, sign, h, if_neg Bool.false_ne_true, one_mul]

theorem value_nonneg (h : r.negative = false) : 0 ≤ r.value := by
  rw [value_of_nonneg h]
  positivity

theorem denominator_pos (h : r.denominator ≠ 0) : (0 : ℚ) < r.denominator.toNat := by
  exact_mod_cast toNat_pos h

theorem gt_iff (hr : r.negative = false) (hf : f.negative = false) (hrd : r.denominator ≠ 0)
    (hfd : f.denominator ≠ 0) (h : r.numerator.toNat * f.denominator.toNat < 2 ^ 64)
    (h' : f.numerator.toNat * r.denominator.toNat < 2 ^ 64) : r.gt f = true ↔ f.value < r.value := by
  unfold gt
  rw [hr, hf, if_neg Bool.false_ne_true, if_neg Bool.false_ne_true, decide_eq_true_eq, gt_iff_lt,
    UInt64.lt_iff_toNat_lt, UInt64.toNat_mul, UInt64.toNat_mul, Nat.mod_eq_of_lt h, Nat.mod_eq_of_lt h',
    value_of_nonneg hr, value_of_nonneg hf, div_lt_div_iff₀ (denominator_pos hfd) (denominator_pos hrd)]
  exact_mod_cast Iff.rfl

theorem toInt_integerPart_floor (hr : r.negative = false) (hlt : r.value < 2 ^ 31) :
    r.integerPart.toInt = ⌊r.value⌋ := by
  have hpart : ((r.numerator / r.denominator).toNat : ℤ) = ⌊r.value⌋ := by
    rw [UInt64.toNat_div, value_of_nonneg hr, Rat.floor_natCast_div_natCast]
    rfl
  have hsmall : ((r.numerator / r.denominator).toNat : ℤ) < 2 ^ 31 := by
    rw [hpart, Int.floor_lt]
    exact_mod_cast hlt
  have hsigned : signed (r.numerator / r.denominator) = ⌊r.value⌋ := by
    rw [signed_eq, if_pos (by omega), hpart]
  unfold integerPart
  rw [hr, if_neg Bool.false_ne_true, ← hsigned]
  refine toInt_intOf_of_fits ?_ ?_
  · omega
  · omega

theorem value_div (hrd : r.denominator ≠ 0) (hf : f.numerator ≠ 0)
    (h : r.numerator.toNat * f.denominator.toNat < 2 ^ 64)
    (h' : r.denominator.toNat * f.numerator.toNat < 2 ^ 64) (hr : r.negative = false)
    (hfn : f.negative = false) : (r.div f).value = r.value / f.value ∧ (r.div f).denominator ≠ 0 := by
  have hden : (r.denominator * f.numerator).toNat = r.denominator.toNat * f.numerator.toNat := by
    rw [UInt64.toNat_mul, Nat.mod_eq_of_lt h']
  have hne : r.denominator * f.numerator ≠ 0 := by
    intro h0
    rw [h0, UInt64.toNat_zero] at hden
    have hpos := Nat.mul_pos (toNat_pos hrd) (toNat_pos hf)
    omega
  refine ⟨((value_ofFactor _ _ hne).1).trans ?_, (value_ofFactor _ _ hne).2⟩
  rw [hden, UInt64.toNat_mul, Nat.mod_eq_of_lt h, hr, hfn, value_of_nonneg hr, value_of_nonneg hfn,
    div_div_div_eq]
  push_cast
  exact one_mul _

theorem div_le (r f : Rational) :
    (r.div f).numerator.toNat ≤ r.numerator.toNat * f.denominator.toNat ∧
      (r.div f).denominator.toNat ≤ r.denominator.toNat * f.numerator.toNat := by
  have hle := ofFactor_le (r.numerator * f.denominator) (r.denominator * f.numerator)
    (if r.numerator = f.numerator then r.numerator
      else if r.denominator = f.denominator then r.denominator else 10) (r.negative ^^ f.negative)
  exact ⟨hle.1.trans (Nat.mod_le _ _), hle.2.trans (Nat.mod_le _ _)⟩

theorem divInt_le {v : Int32} (hd : r.denominator ≠ 0) (hv : 0 < v.toInt)
    (h : r.denominator.toNat * v.toInt < 2 ^ 64) :
    (r.divInt v).numerator.toNat ≤ r.numerator.toNat ∧
      ((r.divInt v).denominator.toNat : ℤ) ≤ r.denominator.toNat * v.toInt ∧
      (r.divInt v).denominator ≠ 0 := by
  have habs : ((absolute v).toNat : ℤ) = v.toInt := by
    rw [toNat_absolute (by omega), abs_of_pos hv]
  have hden : ((r.denominator * absolute v).toNat : ℤ) = r.denominator.toNat * v.toInt := by
    rw [UInt64.toNat_mul, Nat.mod_eq_of_lt (by zify; rwa [habs]), Nat.cast_mul, habs]
  have hne : r.denominator * absolute v ≠ 0 := by
    intro h0
    rw [h0, UInt64.toNat_zero] at hden
    have hpos := mul_pos (Int.natCast_pos.mpr (toNat_pos hd)) hv
    omega
  have hle := ofFactor_le r.numerator (r.denominator * absolute v) (absolute v)
    ((v < 0 : Bool) ^^ r.negative)
  refine ⟨hle.1, ?_, (value_ofFactor _ _ hne).2⟩
  rw [← hden]
  exact_mod_cast hle.2

theorem toInt_toInt32 {count : UInt32} (h : count.toNat < 2 ^ 31) : count.toInt32.toInt = count.toNat :=
  BitVec.toInt_eq_toNat_of_lt (by
    show 2 * count.toNat < 2 ^ 32
    omega)

/-! ### Sums and remainders -/

theorem value_add (hr : r.negative = false) (hf : f.negative = false) (hrd : r.denominator ≠ 0)
    (hfd : f.denominator ≠ 0)
    (hnum : r.numerator.toNat * f.denominator.toNat + f.numerator.toNat * r.denominator.toNat < 2 ^ 64)
    (hden : r.denominator.toNat * f.denominator.toNat < 2 ^ 64) :
    (r.add f).value = r.value + f.value ∧ (r.add f).denominator ≠ 0 := by
  have hden' : (r.denominator * f.denominator).toNat = r.denominator.toNat * f.denominator.toNat := by
    rw [UInt64.toNat_mul, Nat.mod_eq_of_lt hden]
  have hne : r.denominator * f.denominator ≠ 0 := by
    intro h0
    rw [h0, UInt64.toNat_zero] at hden'
    have hpos := Nat.mul_pos (toNat_pos hrd) (toNat_pos hfd)
    omega
  have hnum' : (r.numerator * f.denominator + f.numerator * r.denominator).toNat =
      r.numerator.toNat * f.denominator.toNat + f.numerator.toNat * r.denominator.toNat := by
    have h := Nat.lt_of_le_of_lt (Nat.le_add_right _ _) hnum
    have h' := Nat.lt_of_le_of_lt (Nat.le_add_left _ _) hnum
    rw [UInt64.toNat_add, UInt64.toNat_mul, UInt64.toNat_mul, Nat.mod_eq_of_lt h, Nat.mod_eq_of_lt h',
      Nat.mod_eq_of_lt hnum]
  unfold add
  rw [hr, hf, Bool.xor_false, if_neg Bool.false_ne_true]
  refine ⟨((value_ofFactor _ _ hne).1).trans ?_, (value_ofFactor _ _ hne).2⟩
  have hr0 := (denominator_pos hrd).ne'
  have hf0 := (denominator_pos hfd).ne'
  rw [hnum', hden', sign, if_neg Bool.false_ne_true, one_mul, value_of_nonneg hr, value_of_nonneg hf,
    div_add_div _ _ hr0 hf0]
  push_cast
  congr 1
  ring

theorem negative_add (hr : r.negative = false) (hf : f.negative = false) : (r.add f).negative = false := by
  unfold add
  rw [hr, hf, Bool.xor_false, if_neg Bool.false_ne_true]
  exact negative_ofFactor ..

theorem negative_remainder (r : Rational) : r.remainder.negative = r.negative := negative_ofFactor ..

theorem value_remainder (hr : r.negative = false) (hd : r.denominator ≠ 0) :
    r.remainder.value = Int.fract r.value ∧ r.remainder.denominator ≠ 0 := by
  have hle : (r.denominator * (r.numerator / r.denominator)).toNat =
      r.denominator.toNat * (r.numerator.toNat / r.denominator.toNat) := by
    exact Nat.mod_eq_of_lt (Nat.lt_of_le_of_lt (Nat.mul_div_le _ _) r.numerator.toNat_lt)
  have hnum : (r.numerator - r.denominator * (r.numerator / r.denominator)).toNat =
      r.numerator.toNat % r.denominator.toNat := by
    have hmod := Nat.div_add_mod r.numerator.toNat r.denominator.toNat
    rw [UInt64.toNat_sub_of_le _ _ (UInt64.le_iff_toNat_le.mpr (by rw [hle]; exact Nat.mul_div_le _ _)), hle]
    omega
  refine ⟨((value_ofFactor _ _ hd).1).trans ?_, (value_ofFactor _ _ hd).2⟩
  rw [hnum, hr, sign, if_neg Bool.false_ne_true, one_mul, value_of_nonneg hr,
    Int.fract_div_natCast_eq_div_natCast_mod]

theorem remainder_le (r : Rational) :
    r.remainder.numerator.toNat ≤ r.numerator.toNat ∧ r.remainder.denominator.toNat ≤ r.denominator.toNat := by
  have hle := ofFactor_le (r.numerator - r.denominator * (r.numerator / r.denominator)) r.denominator 3 r.negative
  refine ⟨hle.1.trans ?_, hle.2⟩
  have hdiv : r.denominator * (r.numerator / r.denominator) ≤ r.numerator := by
    exact (Nat.mod_le _ _).trans (Nat.mul_div_le _ _)
  rw [UInt64.toNat_sub_of_le _ _ hdiv]
  exact Nat.sub_le _ _

/-! ### Plain numbers -/

/-- A number that is not negative, with terms of 32 bits. -/
structure Plain (r : Rational) : Prop where
  nonneg : r.negative = false
  denominator_ne : r.denominator ≠ 0
  numerator_lt : r.numerator.toNat < 2 ^ 32
  denominator_lt : r.denominator.toNat < 2 ^ 32

theorem Plain.restrict (h : Plain r) : Plain r.restrict := by
  have hkeeps := keeps_restrict h.denominator_ne h.numerator_lt h.denominator_lt
  refine ⟨(negative_restrict r).trans h.nonneg, hkeeps.denominator,
    hkeeps.numerator.trans_lt h.numerator_lt, ?_⟩
  rw [restrict_of_lt h.numerator_lt h.denominator_lt]
  exact (denominator_reduced_le r).trans_lt h.denominator_lt

theorem Plain.remainder (h : Plain r) : Plain r.remainder := by
  have hle := remainder_le r
  exact ⟨(negative_remainder r).trans h.nonneg, (value_remainder h.nonneg h.denominator_ne).2,
    hle.1.trans_lt h.numerator_lt, hle.2.trans_lt h.denominator_lt⟩

theorem Plain.value_restrict (h : Plain r) : r.restrict.value = r.value :=
  (keeps_restrict h.denominator_ne h.numerator_lt h.denominator_lt).value

end Player2.Rational
