import Mathlib.Data.Rat.Floor
import Mathlib.Tactic.FieldSimp
import Mathlib.Tactic.Positivity
import Player2.CoordinatorTranslation
import Player2.Rounding

/-! # What the rationals on words stand for

Each operation on `Rational` computes the operation on the numbers, as long as no product of numerators
and denominators overflows.  An assignment (`restrict`) leaves the number alone when both terms have 32
bits, as the division by a common factor does. -/

namespace Player2.Rational

open OutputCoordinator (signed signed_eq)
open Rounding

/-- The sign of a number. -/
def sign (negative : Bool) : ℚ := if negative then -1 else 1

/-- The number. -/
def value (r : Rational) : ℚ := sign r.negative * (r.numerator.toNat / r.denominator.toNat)

theorem sign_mul_sign (a b : Bool) : sign (a ^^ b) = sign a * sign b := by
  cases a <;> cases b <;> norm_num [sign]

variable {a f n d : UInt64}

theorem toNat_pos (h : a ≠ 0) : 0 < a.toNat := by
  rcases Nat.eq_zero_or_pos a.toNat with h0 | h0
  · exact absurd (UInt64.toNat_inj.mp h0) h
  · exact h0

/-! ### Integers -/

theorem toNat_ofInt (v : Int32) : ((Rational.ofInt v).numerator.toNat : ℤ) = |v.toInt| := by
  have hs : signed (wordOf v) = v.toInt := Int32.toInt_toInt64 v
  have hl := (wordOf v).toNat_lt
  have hv1 := v.toInt_lt
  have hv2 := v.le_toInt
  rw [signed_eq] at hs
  unfold ofInt
  split
  next h =>
    have hv : v.toInt < 0 := by simpa [Int32.lt_iff_toInt_lt] using h
    rw [abs_of_neg hv, UInt64.toNat_neg]
    have h64 : UInt64.size = 2 ^ 64 := rfl
    rw [h64]
    split at hs <;> omega
  next h =>
    have hv : 0 ≤ v.toInt := by simpa [Int32.lt_iff_toInt_lt] using h
    rw [abs_of_nonneg hv]
    split at hs <;> omega

variable {v : Int32}

theorem toNat_absolute (h : -2 ^ 31 < v.toInt) : ((absolute v).toNat : ℤ) = |v.toInt| := by
  have hneg : (if v < 0 then -v else v).toInt = |v.toInt| := by
    split
    next hv =>
      have hv : v.toInt < 0 := by simpa [Int32.lt_iff_toInt_lt] using hv
      rw [abs_of_neg hv, Int32.toInt_neg]
      exact Int.bmod_eq_of_le (by omega) (by omega)
    next hv =>
      have hv : 0 ≤ v.toInt := by simpa [Int32.lt_iff_toInt_lt] using hv
      rw [abs_of_nonneg hv]
  have hs : signed (absolute v) = (if v < 0 then -v else v).toInt := Int32.toInt_toInt64 _
  rw [hneg, signed_eq] at hs
  have hl := (absolute v).toNat_lt
  have hpos := abs_nonneg v.toInt
  generalize |v.toInt| = a at hs hpos
  split at hs <;> omega

theorem sign_mul_abs (v : Int32) : sign (v < 0) * (|v.toInt| : ℤ) = v.toInt := by
  have hiff : v < 0 ↔ v.toInt < 0 := by rw [Int32.lt_iff_toInt_lt]; rfl
  unfold sign
  rcases lt_or_ge v.toInt 0 with h | h
  · rw [if_pos (by simpa using hiff.mpr h), abs_of_neg h]
    push_cast
    ring
  · have hv : ¬ v < 0 := fun hv => absurd (hiff.mp hv) (not_lt.mpr h)
    rw [if_neg (by simpa using hv), abs_of_nonneg h, one_mul]

/-! ### Operators -/

theorem mul_div_eq_iff : f * (a / f) = a ↔ f.toNat ∣ a.toNat := by
  have htoNat : (f * (a / f)).toNat = f.toNat * (a.toNat / f.toNat) := by
    exact Nat.mod_eq_of_lt (Nat.lt_of_le_of_lt (Nat.mul_div_le _ _) a.toNat_lt)
  constructor
  · intro h
    exact Dvd.intro _ (htoNat.symm.trans (congrArg UInt64.toNat h))
  · intro h
    exact UInt64.toNat_inj.mp (htoNat.trans (Nat.mul_div_cancel' h))

theorem value_divide (negative : Bool) (hf : f ≠ 0) (hn : f * (n / f) = n)
    (hd' : f * (d / f) = d) (hd : d ≠ 0) :
    (Rational.mk negative (n / f) (d / f)).value = sign negative * (n.toNat / d.toNat) ∧ d / f ≠ 0 ∧
      (n / f).toNat ≤ n.toNat := by
  have hexact : ∀ a : UInt64, f * (a / f) = a → a.toNat = f.toNat * (a / f).toNat := by
    intro a ha
    rw [UInt64.toNat_div, Nat.mul_div_cancel' (mul_div_eq_iff.mp ha)]
  have hf0 : (f.toNat : ℚ) ≠ 0 := by exact_mod_cast (toNat_pos hf).ne'
  refine ⟨?_, ?_, ?_⟩
  · unfold value
    rw [hexact n hn, hexact d hd']
    push_cast
    rw [mul_div_mul_left _ _ hf0]
  · intro h0
    rw [h0, UInt64.mul_zero] at hd'
    exact hd hd'.symm
  · exact Nat.div_le_self _ _

theorem value_ofFactor (f : UInt64) (negative : Bool) (hd : d ≠ 0) :
    (ofFactor n d f negative).value = sign negative * (n.toNat / d.toNat) ∧
      (ofFactor n d f negative).denominator ≠ 0 := by
  unfold ofFactor
  split
  next h =>
    obtain ⟨hvalue, hne, -⟩ := value_divide negative h.1 h.2.1 h.2.2 hd
    exact ⟨hvalue, hne⟩
  next => exact ⟨rfl, hd⟩

theorem ofFactor_le (n d f : UInt64) (negative : Bool) :
    (ofFactor n d f negative).numerator.toNat ≤ n.toNat ∧
      (ofFactor n d f negative).denominator.toNat ≤ d.toNat := by
  unfold ofFactor
  split
  · exact ⟨Nat.div_le_self _ _, Nat.div_le_self _ _⟩
  · exact ⟨Nat.le_refl _, Nat.le_refl _⟩

variable {r : Rational}

theorem value_intDiv (hr : r.numerator ≠ 0)
    (hfit : |v.toInt| * r.denominator.toNat < 2 ^ 64) :
    (intDiv v r).value = v.toInt / r.value ∧ (intDiv v r).denominator ≠ 0 := by
  have hden : (ofInt v).denominator * r.numerator = r.numerator := by
    have h1 : (ofInt v).denominator = 1 := rfl
    rw [h1, UInt64.one_mul]
  have hnum : (((ofInt v).numerator * r.denominator).toNat : ℚ) = (|v.toInt| : ℤ) * r.denominator.toNat := by
    have h := toNat_ofInt v
    rw [UInt64.toNat_mul, Nat.mod_eq_of_lt (by zify; rw [h]; exact hfit)]
    rw [Nat.cast_mul, ← h]
    rfl
  unfold intDiv div
  rw [hden]
  refine ⟨((value_ofFactor _ _ hr).1).trans ?_, (value_ofFactor _ _ hr).2⟩
  have hsign : sign r.negative * sign r.negative = 1 := by
    cases r.negative <;> norm_num [sign]
  have hinv : (sign r.negative)⁻¹ = sign r.negative := inv_eq_of_mul_eq_one_left hsign
  rw [hnum, sign_mul_sign, ← sign_mul_abs v]
  unfold value
  rw [div_mul_eq_div_div, div_eq_mul_inv _ (sign r.negative), hinv, div_div_eq_mul_div]
  show sign (decide (v < 0)) * sign r.negative * _ = _
  ring

theorem intDiv_le (hfit : |v.toInt| * r.denominator.toNat < 2 ^ 64) :
    ((intDiv v r).numerator.toNat : ℤ) ≤ |v.toInt| * r.denominator.toNat ∧
      (intDiv v r).denominator.toNat ≤ r.numerator.toNat := by
  have hden : (ofInt v).denominator * r.numerator = r.numerator := by
    have h1 : (ofInt v).denominator = 1 := rfl
    rw [h1, UInt64.one_mul]
  have hnum : (((ofInt v).numerator * r.denominator).toNat : ℤ) = |v.toInt| * r.denominator.toNat := by
    have h := toNat_ofInt v
    rw [UInt64.toNat_mul, Nat.mod_eq_of_lt (by zify; rw [h]; exact hfit), Nat.cast_mul, h]
  unfold intDiv div
  rw [hden, ← hnum]
  exact ⟨by exact_mod_cast (ofFactor_le _ _ _ _).1, (ofFactor_le _ _ _ _).2⟩

/-- The terms of the quotient of an integer with the absolute value `n` by the fraction `num / den`, after
the division by the factor that `operator/` tries. -/
def quotientTerms (n num den : ℕ) : ℕ × ℕ :=
  let f := if n = num then n else if den = 1 then 1 else 10
  if f ∣ n * den ∧ f ∣ num then (n * den / f, num / f) else (n * den, num)

theorem intDiv_terms (hr : r.numerator ≠ 0)
    (hfit : |v.toInt| * r.denominator.toNat < 2 ^ 64) :
    ((intDiv v r).numerator.toNat, (intDiv v r).denominator.toNat) =
      quotientTerms v.toInt.natAbs r.numerator.toNat r.denominator.toNat := by
  have habs : (ofInt v).numerator.toNat = v.toInt.natAbs := by
    have h := toNat_ofInt v
    rw [Int.abs_eq_natAbs] at h
    exact_mod_cast h
  have hnum : ((ofInt v).numerator * r.denominator).toNat = v.toInt.natAbs * r.denominator.toNat := by
    rw [UInt64.toNat_mul, habs]
    refine Nat.mod_eq_of_lt ?_
    zify
    exact hfit
  have hden : (ofInt v).denominator * r.numerator = r.numerator := by
    have h1 : (ofInt v).denominator = 1 := rfl
    rw [h1, UInt64.one_mul]
  let f : UInt64 :=
    if (ofInt v).numerator = r.numerator then (ofInt v).numerator
    else if (ofInt v).denominator = r.denominator then (ofInt v).denominator
    else 10
  have hfactor : f.toNat =
      if v.toInt.natAbs = r.numerator.toNat then v.toInt.natAbs else if r.denominator.toNat = 1 then 1 else 10 := by
    have h1 : (ofInt v).numerator = r.numerator ↔ v.toInt.natAbs = r.numerator.toNat := by
      rw [← UInt64.toNat_inj, habs]
    have h2 : (ofInt v).denominator = r.denominator ↔ r.denominator.toNat = 1 := by
      rw [← UInt64.toNat_inj, eq_comm]
      rfl
    simp only [f, h1, h2, apply_ite UInt64.toNat, habs]
    rfl
  have hf : f ≠ 0 := by
    intro h0
    have hpos := toNat_pos hr
    rw [h0, UInt64.toNat_zero] at hfactor
    split at hfactor
    · omega
    · split at hfactor <;> omega
  have hcond : (f ≠ 0 ∧ f * ((ofInt v).numerator * r.denominator / f) = (ofInt v).numerator * r.denominator ∧
      f * (r.numerator / f) = r.numerator) ↔
      f.toNat ∣ v.toInt.natAbs * r.denominator.toNat ∧ f.toNat ∣ r.numerator.toNat := by
    rw [mul_div_eq_iff, mul_div_eq_iff, hnum]
    exact and_iff_right hf
  unfold intDiv div
  rw [hden]
  unfold ofFactor quotientTerms
  rw [← hfactor]
  by_cases h : f.toNat ∣ v.toInt.natAbs * r.denominator.toNat ∧ f.toNat ∣ r.numerator.toNat
  · rw [if_pos (hcond.mpr h), if_pos h, UInt64.toNat_div, UInt64.toNat_div, hnum]
  · rw [if_neg fun hc => h (hcond.mp hc), if_neg h, hnum]

theorem value_mulInt (hr : r.denominator ≠ 0) (hv : -2 ^ 31 < v.toInt)
    (hfit : r.numerator.toNat * |v.toInt| < 2 ^ 64) :
    (r.mulInt v).value = r.value * v.toInt ∧ (r.mulInt v).denominator ≠ 0 := by
  have hnum : ((r.numerator * absolute v).toNat : ℚ) = r.numerator.toNat * (|v.toInt| : ℤ) := by
    have h := toNat_absolute hv
    rw [UInt64.toNat_mul, Nat.mod_eq_of_lt (by zify; rw [h]; exact hfit)]
    rw [Nat.cast_mul, ← h]
    rfl
  refine ⟨((value_ofFactor _ _ hr).1).trans ?_, (value_ofFactor _ _ hr).2⟩
  rw [hnum, sign_mul_sign, ← sign_mul_abs v]
  unfold value
  ring

theorem mulInt_le (hv : -2 ^ 31 < v.toInt)
    (hfit : r.numerator.toNat * |v.toInt| < 2 ^ 64) :
    ((r.mulInt v).numerator.toNat : ℤ) ≤ r.numerator.toNat * |v.toInt| ∧
      (r.mulInt v).denominator.toNat ≤ r.denominator.toNat := by
  have hnum : ((r.numerator * absolute v).toNat : ℤ) = r.numerator.toNat * |v.toInt| := by
    have h := toNat_absolute hv
    rw [UInt64.toNat_mul, Nat.mod_eq_of_lt (by zify; rw [h]; exact hfit), Nat.cast_mul, h]
  rw [← hnum]
  exact ⟨by exact_mod_cast (ofFactor_le _ _ _ _).1, (ofFactor_le _ _ _ _).2⟩

/-! ### Extraction -/

theorem signed_of_sign {f : ℚ → ℤ} (hf : f 0 = 0) {q : ℚ} (hq : 0 ≤ q) {p : UInt64} (hp : p.toNat = f q)
    (hlt : p.toNat < 2 ^ 63) (negative : Bool) :
    signed (if negative then -p else p) = symmetric f (sign negative * q) := by
  cases negative with
  | false =>
    rw [sign, if_neg Bool.false_ne_true, if_neg Bool.false_ne_true, one_mul, symmetric_of_nonneg hq, ← hp,
      signed_eq, if_pos hlt]
  | true =>
    rw [sign, if_pos rfl, if_pos rfl, neg_one_mul, symmetric_neg hf, symmetric_of_nonneg hq, ← hp, signed_eq,
      UInt64.toNat_neg]
    have hs : UInt64.size = 2 ^ 64 := rfl
    rw [hs]
    split <;> omega

theorem signed_longLongIntegerPart (hd : r.denominator ≠ 0) (hlt : r.numerator.toNat < 2 ^ 63) :
    signed r.longLongIntegerPart = towardZero r.value := by
  unfold longLongIntegerPart
  rw [if_neg hd]
  have hpart : ((r.numerator / r.denominator).toNat : ℤ) =
      ⌊(r.numerator.toNat : ℚ) / (r.denominator.toNat : ℚ)⌋ := by
    rw [UInt64.toNat_div, Rat.floor_natCast_div_natCast]
    rfl
  refine signed_of_sign Int.floor_zero (by positivity) hpart ?_ r.negative
  exact Nat.lt_of_le_of_lt (Nat.div_le_self _ _) hlt

theorem round_div (n : ℕ) {d : ℕ} (hd : 0 < d) : round ((n : ℚ) / d) = ((n + d / 2) / d : ℕ) := by
  have h1 := Nat.div_mul_le_self (n + d / 2) d
  have h2 : n + d / 2 < (n + d / 2) / d * d + d := Nat.lt_div_mul_add hd
  generalize (n + d / 2) / d = k at h1 h2
  have hlow : 2 * (k * d) ≤ 2 * n + d := by omega
  have hhigh : 2 * n < 2 * (k * d) + d := by omega
  have hd' : (0 : ℚ) < d := by exact_mod_cast hd
  refine round_eq_iff.mpr ⟨?_, ?_⟩
  · rw [le_div_iff₀ hd']
    have h : (2 : ℚ) * (k * d) ≤ 2 * n + d := by exact_mod_cast hlow
    push_cast
    linarith
  · rw [div_lt_iff₀ hd']
    have h : (2 : ℚ) * n < 2 * (k * d) + d := by exact_mod_cast hhigh
    push_cast
    linarith

theorem signed_roundedLongLongIntegerPart (hd : r.denominator ≠ 0)
    (hsum : r.numerator.toNat + r.denominator.toNat / 2 < 2 ^ 64) (hlt : |r.value| < 2 ^ 62) :
    signed r.roundedLongLongIntegerPart = nearest r.value := by
  have h2 : (2 : UInt64).toNat = 2 := rfl
  have hpart : ((r.numerator + r.denominator / 2) / r.denominator).toNat =
      (r.numerator.toNat + r.denominator.toNat / 2) / r.denominator.toNat := by
    rw [UInt64.toNat_div, UInt64.toNat_add, UInt64.toNat_div, h2, Nat.mod_eq_of_lt (by omega)]
  refine signed_of_sign round_zero (by positivity) ?_ ?_ r.negative
  · rw [hpart, round_div _ (toNat_pos hd)]
  · have habs : |r.value| = r.numerator.toNat / r.denominator.toNat := by
      unfold value sign
      rw [abs_mul, abs_of_nonneg (by positivity : (0 : ℚ) ≤ r.numerator.toNat / r.denominator.toNat)]
      split <;> simp
    have hround := round_le_add_half ((r.numerator.toNat : ℚ) / r.denominator.toNat)
    rw [round_div _ (toNat_pos hd), ← hpart] at hround
    have hlt' : ((((r.numerator + r.denominator / 2) / r.denominator).toNat : ℤ) : ℚ) < 2 ^ 63 := by
      linarith
    exact_mod_cast hlt'

/-! ### Assignment -/

/-- What a step of `Restrict` keeps. -/
structure Keeps (r r' : Rational) : Prop where
  value : r'.value = r.value
  denominator : r'.denominator ≠ 0
  numerator : r'.numerator.toNat ≤ r.numerator.toNat

theorem keeps_divide (hf : f ≠ 0) (hn : f * (r.numerator / f) = r.numerator)
    (hd' : f * (r.denominator / f) = r.denominator) (hd : r.denominator ≠ 0) :
    Keeps r ⟨r.negative, r.numerator / f, r.denominator / f⟩ :=
  have h := value_divide r.negative hf hn hd' hd
  ⟨h.1, h.2.1, h.2.2⟩

theorem keeps_reduceByTen (n : ℕ) (hd : r.denominator ≠ 0) : Keeps r (reduceByTen n r) := by
  induction n generalizing r with
  | zero => exact ⟨rfl, hd, Nat.le_refl _⟩
  | succ n ih =>
    unfold reduceByTen
    split
    next h =>
      have hstep := keeps_divide (by decide) h.1 h.2 hd
      have hrest := ih hstep.denominator
      exact ⟨hrest.value.trans hstep.value, hrest.denominator,
        Nat.le_trans hrest.numerator hstep.numerator⟩
    next => exact ⟨rfl, hd, Nat.le_refl _⟩

theorem keeps_reduced (hd : r.denominator ≠ 0) : Keeps r r.reduced := by
  have hself : ∀ a : UInt64, a ≠ 0 → a / a = 1 := by
    intro a ha
    apply UInt64.toNat_inj.mp
    rw [UInt64.toNat_div, Nat.div_self (toNat_pos ha)]
    rfl
  unfold reduced
  split
  next =>
    split
    next hn =>
      have h := keeps_divide hd hn (by rw [hself _ hd, UInt64.mul_one]) hd
      rwa [hself _ hd] at h
    next =>
      split
      next hd' =>
        have hn : r.numerator ≠ 0 := by
          intro h0
          rw [h0, UInt64.zero_mul] at hd'
          exact hd hd'.symm
        exact keeps_divide hn (by rw [hself _ hn, UInt64.mul_one]) hd' hd
      next => exact keeps_reduceByTen 20 hd
  next => exact ⟨rfl, hd, Nat.le_refl _⟩

theorem toNat_or_shiftRight (a b : UInt64) :
    ((a ||| b) >>> 32).toNat = a.toNat / 2 ^ 32 ||| b.toNat / 2 ^ 32 := by
  have h32 : (32 : UInt64).toNat % 64 = 32 := rfl
  rw [UInt64.toNat_shiftRight, UInt64.toNat_or, h32, Nat.shiftRight_or_distrib, Nat.shiftRight_eq_div_pow,
    Nat.shiftRight_eq_div_pow]

theorem toNat_or_shiftRight_lt (a b : UInt64) : ((a ||| b) >>> 32).toNat < 2 ^ 32 := by
  have ha := a.toNat_lt
  have hb := b.toNat_lt
  rw [toNat_or_shiftRight]
  exact Nat.or_lt_two_pow (by omega) (by omega)

theorem restrict_of_lt (hn : r.numerator.toNat < 2 ^ 32) (hd : r.denominator.toNat < 2 ^ 32) :
    r.restrict = r.reduced := by
  have htmp : (r.numerator ||| r.denominator) >>> 32 = 0 := by
    apply UInt64.toNat_inj.mp
    rw [toNat_or_shiftRight, Nat.div_eq_of_lt hn, Nat.div_eq_of_lt hd]
    rfl
  unfold restrict
  rw [htmp, if_neg (not_not.mpr rfl)]

theorem keeps_restrict (hd : r.denominator ≠ 0) (hn : r.numerator.toNat < 2 ^ 32)
    (hd' : r.denominator.toNat < 2 ^ 32) : Keeps r r.restrict := by
  rw [restrict_of_lt hn hd']
  exact keeps_reduced hd

end Player2.Rational
