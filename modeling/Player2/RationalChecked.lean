import Player2.RationalBounds

/-! # Checked operators on rationals

The operators of `Rational_c` with a check of what they divide by: an operand has to have a
denominator, and a divisor a numerator as well.  Where a check fails there is no result.  The result
of an operator has a denominator when its operands have one; an assignment keeps it when the
numerator has 32 bits (`denominator_restrict_ne_zero`), but not always. -/

namespace Player2.Rational

/-! ### The operators -/

namespace Checked

/-- An operand. -/
def operand (r : Rational) : Option Rational := if r.denominator = 0 then none else some r

/-- A divisor. -/
def divisor (r : Rational) : Option Rational := if r.numerator = 0 then none else operand r

/-- `Rational_c(long long N, long long D)`. -/
def ofIntegers (n d : ℤ) : Option Rational := operand (Rational.ofIntegers n d)

/-- `operator=`. -/
def assign (r : Rational) : Option Rational := do
  let r ← operand r
  return r.restrict

/-- `operator!=`. -/
def ne (r f : Rational) : Option Bool := do
  let r ← operand r
  let f ← operand f
  return r.ne f

/-- `operator*`, with an `int`. -/
def mulInt (r : Rational) (v : Int32) : Option Rational := do
  let r ← operand r
  return r.mulInt v

/-- `operator/`, with an `int` on the left. -/
def intDiv (v : Int32) (f : Rational) : Option Rational := do
  let f ← divisor f
  return Rational.intDiv v f

def longLongIntegerPart (r : Rational) : Option UInt64 := do
  let r ← operand r
  return r.longLongIntegerPart

def roundedLongLongIntegerPart (r : Rational) : Option UInt64 := do
  let r ← operand r
  return r.roundedLongLongIntegerPart

def integerPart (r : Rational) : Option Int32 := do
  let r ← operand r
  return r.integerPart

def remainderDecimal (r : Rational) (places : UInt32) : Option Int32 := do
  let r ← operand r
  let _ ← operand r.remainder
  return r.remainderDecimal places

/-! ### What they compute -/

variable {r f : Rational}

@[simp] theorem operand_eq (hr : r.denominator ≠ 0) : operand r = some r := if_neg hr

theorem operand_eq_none (hr : r.denominator = 0) : operand r = none := if_pos hr

theorem divisor_eq (hn : r.numerator ≠ 0) (hr : r.denominator ≠ 0) : divisor r = some r := by
  rw [divisor, if_neg hn, operand_eq hr]

theorem divisor_isSome_iff : (divisor r).isSome ↔ r.numerator ≠ 0 ∧ r.denominator ≠ 0 := by
  unfold divisor operand
  by_cases hn : r.numerator = 0 <;> by_cases hd : r.denominator = 0 <;> simp [hn, hd]

theorem assign_eq (hr : r.denominator ≠ 0) : assign r = some r.restrict := by
  simp [assign, hr]

theorem ne_eq (hr : r.denominator ≠ 0) (hf : f.denominator ≠ 0) : ne r f = some (r.ne f) := by
  simp [ne, hr, hf]

theorem mulInt_eq (v : Int32) (hr : r.denominator ≠ 0) : mulInt r v = some (r.mulInt v) := by
  simp [mulInt, hr]

theorem intDiv_eq (v : Int32) (hn : f.numerator ≠ 0) (hf : f.denominator ≠ 0) :
    intDiv v f = some (Rational.intDiv v f) := by
  simp [intDiv, divisor_eq hn hf]

theorem longLongIntegerPart_eq (hr : r.denominator ≠ 0) :
    longLongIntegerPart r = some r.longLongIntegerPart := by
  simp [longLongIntegerPart, hr]

theorem roundedLongLongIntegerPart_eq (hr : r.denominator ≠ 0) :
    roundedLongLongIntegerPart r = some r.roundedLongLongIntegerPart := by
  simp [roundedLongLongIntegerPart, hr]

theorem integerPart_eq (hr : r.denominator ≠ 0) : integerPart r = some r.integerPart := by
  simp [integerPart, hr]

end Checked

/-! ### Denominators -/

variable {r f : Rational}

theorem denominator_mulInt (v : Int32) (hr : r.denominator ≠ 0) : (r.mulInt v).denominator ≠ 0 :=
  (value_ofFactor _ _ hr).2

theorem denominator_remainder (hr : r.denominator ≠ 0) : r.remainder.denominator ≠ 0 :=
  (value_ofFactor _ _ hr).2

theorem denominator_intDiv (v : Int32) (hf : f.numerator ≠ 0) :
    (Rational.intDiv v f).denominator ≠ 0 := by
  refine (value_ofFactor _ _ ?_).2
  rw [show (ofInt v).denominator = 1 from rfl, UInt64.one_mul]
  exact hf

theorem Checked.remainderDecimal_eq (places : UInt32) (hr : r.denominator ≠ 0) :
    Checked.remainderDecimal r places = some (r.remainderDecimal places) := by
  simp [Checked.remainderDecimal, hr, denominator_remainder hr]

theorem shifted_ne_zero {x shift : UInt64} (hshift : shift.toNat ≤ 31)
    (hle : 2 ^ 32 * 2 ^ shift.toNat ≤ x.toNat) (hlt : x.toNat < 2 ^ (33 + shift.toNat)) :
    (x + wordOf (intOf (1 <<< shift))) >>> (shift + 1) ≠ 0 := by
  intro h0
  have hzero := congrArg UInt64.toNat h0
  rcases Nat.lt_or_ge shift.toNat 31 with hlow | hhigh
  · have hsucc := toNat_succ (Nat.le_of_lt_succ hlow)
    have hbound : 2 ^ (33 + shift.toNat) ≤ 2 ^ 63 := Nat.pow_le_pow_right (by decide) (by omega)
    have hsum : (x + wordOf (intOf (1 <<< shift))).toNat = x.toNat + 2 ^ shift.toNat := by
      rw [UInt64.toNat_add, toNat_half (Nat.le_of_lt_succ hlow), Nat.mod_eq_of_lt]
      omega
    rw [UInt64.toNat_shiftRight, hsucc, hsum, Nat.mod_eq_of_lt (by omega : shift.toNat + 1 < 64),
      Nat.shiftRight_eq_div_pow, UInt64.toNat_zero, Nat.pow_succ] at hzero
    have hdiv := (Nat.div_eq_zero_iff_lt (Nat.mul_pos (Nat.two_pow_pos _) (by decide))).mp hzero
    omega
  · -- `1 << Shift` is negative here
    have h31 : shift = 31 := by
      rw [← UInt64.toNat_inj]
      change shift.toNat = 31
      omega
    subst h31
    have hhalf : (wordOf (intOf (1 <<< (31 : UInt64)))).toNat = 2 ^ 64 - 2 ^ 31 := by decide
    have hsucc : ((31 : UInt64) + 1).toNat % 64 = 32 := by decide
    have hx := x.toNat_lt
    have hle : 2 ^ 63 ≤ x.toNat := hle
    rw [UInt64.toNat_shiftRight, hsucc, UInt64.toNat_add, hhalf, Nat.shiftRight_eq_div_pow,
      UInt64.toNat_zero] at hzero
    omega

theorem shifted_lt {x shift : UInt64} (hshift : shift.toNat ≤ 31) (hx : x.toNat < 2 ^ 31) :
    ((x + wordOf (intOf (1 <<< shift))) >>> (shift + 1)).toNat < 2 ^ 32 := by
  rcases Nat.lt_or_ge shift.toNat 31 with hlow | hhigh
  · have hhalf := toNat_half (Nat.le_of_lt_succ hlow)
    have hpow : 2 ^ shift.toNat < 2 ^ 31 := Nat.pow_lt_pow_right (by decide) hlow
    have hsum : (x + wordOf (intOf (1 <<< shift))).toNat = x.toNat + 2 ^ shift.toNat := by
      rw [UInt64.toNat_add, hhalf, Nat.mod_eq_of_lt]
      omega
    rw [UInt64.toNat_shiftRight, Nat.shiftRight_eq_div_pow, hsum]
    refine lt_of_le_of_lt (Nat.div_le_self _ _) ?_
    omega
  · have hsucc : (shift + 1).toNat % 64 = 32 := by
      have h31 : shift = 31 := by
        rw [← UInt64.toNat_inj]
        change shift.toNat = 31
        omega
      rw [h31]
      decide
    have hall := (x + wordOf (intOf (1 <<< shift))).toNat_lt
    rw [UInt64.toNat_shiftRight, hsucc, Nat.shiftRight_eq_div_pow]
    omega

theorem numerator_restrict_lt (hn : r.numerator.toNat < 2 ^ 31) :
    r.restrict.numerator.toNat < 2 ^ 32 := by
  unfold restrict
  dsimp only
  split
  next hne =>
    obtain ⟨hle, -, -⟩ := highestIn_shiftOf hne (toNat_or_shiftRight_lt _ _)
    generalize shiftOf ((r.numerator ||| r.denominator) >>> 32) = shift at hle ⊢
    have hpow : 2 ^ 31 ≤ 2 ^ (33 + shift.toNat) := Nat.pow_le_pow_right (by decide) (by omega)
    have hscaled : (r.scaled shift).numerator.toNat ≤ _ := (scaled_le (by omega) (by omega)).1
    exact lt_of_le_of_lt (numerator_reduced_le _) (shifted_lt (by omega) (by omega))
  next =>
    exact lt_of_le_of_lt (numerator_reduced_le r) (by omega)

theorem denominator_restrict_ne_zero (hd : r.denominator ≠ 0) (hn : r.numerator.toNat < 2 ^ 32) :
    r.restrict.denominator ≠ 0 := by
  rcases Nat.lt_or_ge r.denominator.toNat (2 ^ 32) with hsmall | hlarge
  · rw [restrict_of_lt hn hsmall]
    exact (keeps_reduced hd).denominator
  · have htmp : ((r.numerator ||| r.denominator) >>> 32).toNat = r.denominator.toNat / 2 ^ 32 := by
      rw [toNat_or_shiftRight, Nat.div_eq_of_lt hn, Nat.zero_or]
    have hdlt := r.denominator.toNat_lt
    have hne : (r.numerator ||| r.denominator) >>> 32 ≠ 0 := by
      intro h0
      rw [h0, UInt64.toNat_zero] at htmp
      omega
    have hhigh := highestIn_shiftOf hne (by omega)
    unfold restrict
    dsimp only
    rw [if_pos hne]
    generalize shiftOf ((r.numerator ||| r.denominator) >>> 32) = shift at hhigh
    obtain ⟨hle, hupper, hlower⟩ := hhigh
    have hspare : ¬ r.denominator < 1 <<< (31 - shift) := by
      have hpow : 2 ^ (31 - shift.toNat) ≤ 2 ^ 31 := Nat.pow_le_pow_right (by decide) (by omega)
      rw [UInt64.lt_iff_toNat_lt, toNat_spare (by omega)]
      omega
    have hscaled : r.scaled shift = r := by
      unfold scaled
      rw [if_neg hspare]
    rw [hscaled]
    refine (keeps_reduced ?_).denominator
    apply shifted_ne_zero
    · omega
    · have h := (Nat.le_div_iff_mul_le (by decide)).mp hlower
      omega
    · have h := (Nat.div_lt_iff_lt_mul (by decide)).mp hupper
      have hpow : 2 ^ (33 + shift.toNat) = 2 ^ (shift.toNat + 1) * 2 ^ 32 := by
        rw [← Nat.pow_add]
        congr 1
        omega
      omega

end Player2.Rational
