import Mathlib.Tactic.Linarith
import Player2.Alignment
import Player2.CoordinatorAffine

/-! # How near an assignment keeps a number

When a term has more than 32 bits, `Restrict` finds its highest bit (`shiftOf`), scales both terms so that
the denominator has no bits that the shift would lose, and shifts them with rounding.  As long as the
product of the terms is below `2 ^ 63` and the number below `2 ^ 31`, the scaling does not overflow and
the number changes by at most a `2 ^ 30`th of itself (`nearly_restrict`). -/

namespace Player2.Rational

open OutputCoordinator (signed signed_eq toInt_intOf_of_fits)
open Rounding

/-! ### The highest bit -/

/-- The highest bit of a word is one of the `k` from bit `shift` on. -/
structure HighestFrom (tmp shift : UInt64) (k : ℕ) : Prop where
  le : shift.toNat + k ≤ 64
  lt : tmp.toNat < 2 ^ (shift.toNat + k)
  ge : 2 ^ shift.toNat ≤ tmp.toNat

variable {tmp shift : UInt64}

theorem HighestFrom.halve (k mask : UInt64) (hk : 0 < k.toNat)
    (h : HighestFrom tmp shift (2 * k.toNat)) (hmask : mask.toNat = (2 ^ k.toNat - 1) <<< k.toNat) :
    HighestFrom tmp (shift + if (tmp >>> shift) &&& mask ≠ 0 then k else 0) k.toNat ∧
      (shift + if (tmp >>> shift) &&& mask ≠ 0 then k else 0).toNat ≤ shift.toNat + k.toNat := by
  have hle := h.le
  have hdiv : tmp.toNat / 2 ^ shift.toNat / 2 ^ k.toNat = tmp.toNat / 2 ^ (shift.toNat + k.toNat) := by
    rw [Nat.div_div_eq_div_mul, ← Nat.pow_add]
  have hhigh : tmp.toNat / 2 ^ (shift.toNat + k.toNat) < 2 ^ k.toNat := by
    rw [Nat.div_lt_iff_lt_mul (Nat.two_pow_pos _), ← Nat.pow_add]
    refine h.lt.trans_eq ?_
    congr 1
    omega
  have hmasked : ((tmp >>> shift) &&& mask).toNat = tmp.toNat / 2 ^ (shift.toNat + k.toNat) * 2 ^ k.toNat := by
    rw [UInt64.toNat_and, hmask, Alignment.and_shiftLeft_mask, UInt64.toNat_shiftRight,
      Nat.mod_eq_of_lt (by omega : shift.toNat < 64), Nat.shiftRight_eq_div_pow, Nat.shiftRight_eq_div_pow, hdiv,
      Nat.mod_eq_of_lt hhigh, Nat.shiftLeft_eq]
  have hzero : (tmp >>> shift) &&& mask = 0 ↔ tmp.toNat < 2 ^ (shift.toNat + k.toNat) := by
    rw [← UInt64.toNat_inj, hmasked, UInt64.toNat_zero, Nat.mul_eq_zero, Nat.div_eq_zero_iff]
    have h1 := Nat.two_pow_pos k.toNat
    have h2 := Nat.two_pow_pos (shift.toNat + k.toNat)
    omega
  by_cases hbits : (tmp >>> shift) &&& mask = 0
  · rw [if_neg (not_not.mpr hbits), UInt64.add_zero]
    exact ⟨⟨by omega, hzero.mp hbits, h.ge⟩, by omega⟩
  · have hsum : (shift + k).toNat = shift.toNat + k.toNat := by
      rw [UInt64.toNat_add]
      exact Nat.mod_eq_of_lt (by omega)
    rw [if_pos hbits]
    refine ⟨⟨?_, ?_, ?_⟩, hsum.le⟩
    · omega
    · rw [hsum, Nat.add_assoc, ← Nat.two_mul]
      exact h.lt
    · rw [hsum]
      exact Nat.not_lt.mp fun hlt => hbits (hzero.mpr hlt)

/-- The highest bit of a word is one of the `k` from bit `shift` on, below bit 32. -/
structure HighestIn (tmp shift : UInt64) (k : ℕ) : Prop where
  le : shift.toNat + k ≤ 32
  lt : tmp.toNat < 2 ^ (shift.toNat + k)
  ge : 2 ^ shift.toNat ≤ tmp.toNat

theorem HighestIn.halve (k mask : UInt64) (hk : 0 < k.toNat)
    (h : HighestIn tmp shift (2 * k.toNat)) (hmask : mask.toNat = (2 ^ k.toNat - 1) <<< k.toNat) :
    HighestIn tmp (shift + if (tmp >>> shift) &&& mask ≠ 0 then k else 0) k.toNat := by
  have hle := h.le
  obtain ⟨hfrom, hshift⟩ := HighestFrom.halve k mask hk ⟨by omega, h.lt, h.ge⟩ hmask
  exact ⟨by omega, hfrom.lt, hfrom.ge⟩

theorem highestIn_shiftOf (h : tmp ≠ 0) (hlt : tmp.toNat < 2 ^ 32) :
    HighestIn tmp (shiftOf tmp) 1 := by
  have h32 : HighestIn tmp 0 (2 * (16 : UInt64).toNat) := ⟨by decide, hlt, toNat_pos h⟩
  have h16 := HighestIn.halve 16 0xffff0000 (by decide) h32 (by decide)
  rw [UInt64.shiftRight_zero, UInt64.zero_add] at h16
  have h8 := HighestIn.halve 8 0x0000ff00 (by decide) h16 (by decide)
  have h4 := HighestIn.halve 4 0x000000f0 (by decide) h8 (by decide)
  have h2 := HighestIn.halve 2 0x0000000c (by decide) h4 (by decide)
  exact HighestIn.halve 1 0x00000002 (by decide) h2 (by decide)

/-! ### Scaling and shifting -/

theorem toNat_half (h : shift.toNat ≤ 30) :
    (wordOf (intOf (1 <<< shift))).toNat = 2 ^ shift.toNat := by
  have hlt : 2 ^ shift.toNat < 2 ^ 31 := Nat.pow_lt_pow_right (by decide) (by omega)
  have hword : ((1 : UInt64) <<< shift).toNat = 2 ^ shift.toNat := by
    rw [UInt64.toNat_shiftLeft, Nat.mod_eq_of_lt (by omega : shift.toNat < 64), Nat.shiftLeft_eq]
    show 1 * 2 ^ shift.toNat % 2 ^ 64 = _
    rw [Nat.one_mul]
    exact Nat.mod_eq_of_lt (by omega)
  have hsigned : signed ((1 : UInt64) <<< shift) = 2 ^ shift.toNat := by
    rw [signed_eq, hword, if_pos (by omega)]
    rfl
  have hlt' : (2 : ℤ) ^ shift.toNat < 2 ^ 31 := by exact_mod_cast hlt
  have hpos : (0 : ℤ) < 2 ^ shift.toNat := by positivity
  have hint := toInt_intOf_of_fits (t := 1 <<< shift) (by omega) (by omega)
  have hback : signed (wordOf (intOf (1 <<< shift))) = 2 ^ shift.toNat :=
    (Int32.toInt_toInt64 _).trans (hint.trans hsigned)
  rw [signed_eq] at hback
  split at hback
  · exact_mod_cast hback
  · have := (wordOf (intOf (1 <<< shift))).toNat_lt
    omega

theorem toNat_succ (h : shift.toNat ≤ 30) : (shift + 1).toNat = shift.toNat + 1 := by
  have h1 : (1 : UInt64).toNat = 1 := rfl
  rw [UInt64.toNat_add, h1]
  exact Nat.mod_eq_of_lt (by omega)

theorem toNat_spare (h : shift.toNat ≤ 31) :
    ((1 : UInt64) <<< (31 - shift)).toNat = 2 ^ (31 - shift.toNat) := by
  have h31 : (31 : UInt64).toNat = 31 := rfl
  have hsub : (31 - shift).toNat = 31 - shift.toNat :=
    UInt64.toNat_sub_of_le _ _ (UInt64.le_iff_toNat_le.mpr (by omega))
  have hlt : 2 ^ (31 - shift.toNat) < 2 ^ 64 := Nat.pow_lt_pow_right (by decide) (by omega)
  rw [UInt64.toNat_shiftLeft, hsub, Nat.mod_eq_of_lt (by omega : 31 - shift.toNat < 64), Nat.shiftLeft_eq]
  show 1 * 2 ^ (31 - shift.toNat) % 2 ^ 64 = _
  rw [Nat.one_mul]
  exact Nat.mod_eq_of_lt hlt

theorem toNat_newDenominator {d shift : UInt64} (hshift : shift.toNat ≤ 30) (hd : d.toNat < 2 ^ 32) :
    (d &&& ((0xffffffff <<< (shift + 1)) &&& 0xffffffff)).toNat =
      d.toNat / 2 ^ (shift.toNat + 1) * 2 ^ (shift.toNat + 1) := by
  have hsum := toNat_succ hshift
  have hf : (0xffffffff : UInt64).toNat = 2 ^ 32 - 1 := rfl
  have hbound : (2 ^ 32 - 1) * 2 ^ (shift.toNat + 1) < 2 ^ 64 := by
    have h : 2 ^ (shift.toNat + 1) ≤ 2 ^ 31 := Nat.pow_le_pow_right (by decide) (by omega)
    omega
  have hlow : d.toNat &&& (2 ^ 32 - 1) = d.toNat := by
    rw [Nat.and_two_pow_sub_one_eq_mod, Nat.mod_eq_of_lt hd]
  have hdiv : d.toNat / 2 ^ (shift.toNat + 1) < 2 ^ 32 := Nat.lt_of_le_of_lt (Nat.div_le_self _ _) hd
  rw [UInt64.toNat_and, UInt64.toNat_and, UInt64.toNat_shiftLeft, hsum, hf,
    Nat.mod_eq_of_lt (by omega : shift.toNat + 1 < 64), Nat.shiftLeft_eq, Nat.mod_eq_of_lt hbound,
    Nat.and_comm _ (2 ^ 32 - 1), ← Nat.and_assoc, hlow, ← Nat.shiftLeft_eq, Alignment.and_shiftLeft_mask,
    Nat.shiftRight_eq_div_pow, Nat.mod_eq_of_lt hdiv, Nat.shiftLeft_eq]

variable {r r' : Rational}

theorem toNat_shifted_scaled
    (hn : r.numerator.toNat < 2 ^ (33 + shift.toNat)) (hd0 : r.denominator ≠ 0)
    (hd : r.denominator.toNat < 2 ^ (31 - shift.toNat)) :
    let c := 2 ^ (shift.toNat + 1)
    let e := r.denominator.toNat / c
    ((r.scaled shift).shifted shift).numerator.toNat =
        (r.numerator.toNat * (e * c) / r.denominator.toNat + 2 ^ shift.toNat) / c ∧
      ((r.scaled shift).shifted shift).denominator.toNat = (e * c + 2 ^ shift.toNat) / c := by
  intro c e
  have hpos := toNat_pos hd0
  have hshift : shift.toNat ≤ 30 := by
    by_contra hgt
    rw [show 31 - shift.toNat = 0 by omega] at hd
    omega
  have hsum := toNat_succ hshift
  have hd32 : r.denominator.toNat < 2 ^ 31 :=
    hd.trans_le (Nat.pow_le_pow_right (by decide) (Nat.sub_le _ _))
  have hspare := toNat_spare (by omega : shift.toNat ≤ 31)
  have hcond : r.denominator < 1 <<< (31 - shift) := by
    rw [UInt64.lt_iff_toNat_lt, hspare]
    exact hd
  have hnew := toNat_newDenominator hshift (hd32.trans (by decide))
  have hle : e * c ≤ r.denominator.toNat := Nat.div_mul_le_self _ _
  have hproduct : r.numerator.toNat * (e * c) < 2 ^ 64 := by
    have h : 2 ^ (33 + shift.toNat) * 2 ^ (31 - shift.toNat) = 2 ^ 64 := by
      rw [← Nat.pow_add]
      congr 1
      omega
    rw [← h]
    exact Nat.mul_lt_mul_of_lt_of_le hn (hle.trans hd.le) (Nat.two_pow_pos _)
  have hhalf := toNat_half hshift
  have hhalf' : 2 ^ shift.toNat ≤ 2 ^ 30 := Nat.pow_le_pow_right (by decide) hshift
  have hquotient : r.numerator.toNat * (e * c) / r.denominator.toNat < 2 ^ 63 := by
    have h63 : 2 ^ (33 + shift.toNat) ≤ 2 ^ 63 := Nat.pow_le_pow_right (by decide) (by omega)
    refine Nat.lt_of_le_of_lt (Nat.div_le_of_le_mul ?_) (hn.trans_le h63)
    rw [Nat.mul_comm r.denominator.toNat]
    exact Nat.mul_le_mul_left _ hle
  have hshr : ∀ x : UInt64, x.toNat + 2 ^ shift.toNat < 2 ^ 64 →
      ((x + wordOf (intOf (1 <<< shift))) >>> (shift + 1)).toNat = (x.toNat + 2 ^ shift.toNat) / c := by
    intro x hx
    rw [UInt64.toNat_shiftRight, hsum, Nat.mod_eq_of_lt (by omega : shift.toNat + 1 < 64),
      Nat.shiftRight_eq_div_pow, UInt64.toNat_add, hhalf, Nat.mod_eq_of_lt hx]
  have hnum : (r.numerator * (r.denominator &&& ((0xffffffff <<< (shift + 1)) &&& 0xffffffff)) /
      r.denominator).toNat = r.numerator.toNat * (e * c) / r.denominator.toNat := by
    rw [UInt64.toNat_div, UInt64.toNat_mul, hnew, Nat.mod_eq_of_lt hproduct]
  rw [scaled, if_pos hcond]
  constructor
  · refine (hshr _ ?_).trans ?_
    · rw [hnum]
      omega
    · rw [hnum]
  · refine (hshr _ ?_).trans ?_
    · rw [hnew]
      exact (Nat.add_le_add hle hhalf').trans_lt (by omega)
    · rw [hnew]

/-! ### The change -/

section
variable {n d h : ℕ}

theorem shifted_denominator (hh : 0 < h) (e : ℕ) : (e * (2 * h) + h) / (2 * h) = e := by
  rw [Nat.mul_comm e, Nat.mul_add_div (by omega), Nat.div_eq_of_lt (by omega : h < 2 * h), Nat.add_zero]

/-- The numerator `n` is scaled by `e * (2 * h) / d` and shifted with rounding: the cross products of the
fractions before and after differ by at most `d`. -/
theorem cross_products (hh : 0 < h) (hd : 0 < d) (e : ℕ) :
    (n * (e * (2 * h)) / d + h) / (2 * h) * d ≤ n * e + d ∧
      n * e ≤ (n * (e * (2 * h)) / d + h) / (2 * h) * d + d := by
  have ha1 := Nat.div_mul_le_self (n * (e * (2 * h))) d
  have ha2 := Nat.lt_div_mul_add (a := n * (e * (2 * h))) hd
  generalize n * (e * (2 * h)) / d = a at ha1 ha2
  have hb1 := Nat.div_mul_le_self (a + h) (2 * h)
  have hb2 := Nat.lt_div_mul_add (a := a + h) (by omega : 0 < 2 * h)
  generalize (a + h) / (2 * h) = b at hb1 hb2
  have hhd : d ≤ h * d := Nat.le_mul_of_pos_left d hh
  constructor
  · refine Nat.le_of_mul_le_mul_left (c := 2 * h) ?_ (by omega)
    calc 2 * h * (b * d) = b * (2 * h) * d := by ring
      _ ≤ (a + h) * d := Nat.mul_le_mul_right d hb1
      _ = a * d + h * d := Nat.add_mul a h d
      _ ≤ n * (e * (2 * h)) + h * d := Nat.add_le_add_right ha1 _
      _ ≤ n * (e * (2 * h)) + 2 * (h * d) := by omega
      _ = 2 * h * (n * e + d) := by ring
  · refine Nat.le_of_mul_le_mul_left (c := 2 * h) ?_ (by omega)
    calc 2 * h * (n * e) = n * (e * (2 * h)) := by ring
      _ ≤ a * d + d := ha2.le
      _ ≤ (b * (2 * h) + h) * d + d := by
        refine Nat.add_le_add_right (Nat.mul_le_mul_right d ?_) d
        omega
      _ = 2 * h * (b * d) + h * d + d := by ring
      _ ≤ 2 * h * (b * d) + h * d + h * d := Nat.add_le_add_left hhd _
      _ = 2 * h * (b * d + d) := by ring

theorem near_scaled (hh : 0 < h) (hn : 2 ^ 32 * h ≤ n) (hlt : n < 2 ^ 31 * d) :
    0 < d / (2 * h) ∧
      |(((n * (d / (2 * h) * (2 * h)) / d + h) / (2 * h) : ℕ) : ℚ) / (d / (2 * h) : ℕ) - n / d| ≤
        (n : ℚ) / d / 2 ^ 30 := by
  have hd : 0 < d := by omega
  have hlarge : 2 * h ≤ d := by omega
  have he : 0 < d / (2 * h) := Nat.div_pos hlarge (by omega)
  obtain ⟨hcross1, hcross2⟩ := cross_products (n := n) hh hd (d / (2 * h))
  have hde := Nat.lt_div_mul_add (a := d) (by omega : 0 < 2 * h)
  generalize d / (2 * h) = e at he hcross1 hcross2 hde ⊢
  generalize (n * (e * (2 * h)) / d + h) / (2 * h) = b at hcross1 hcross2
  have hsmall : 2 ^ 30 * d ≤ n * e := by
    have h1 : 2 * h ≤ e * (2 * h) := Nat.le_mul_of_pos_left _ he
    calc 2 ^ 30 * d ≤ 2 ^ 30 * (2 * (e * (2 * h))) := Nat.mul_le_mul_left _ (by omega)
      _ = 2 ^ 32 * h * e := by ring
      _ ≤ n * e := Nat.mul_le_mul_right e hn
  refine ⟨he, ?_⟩
  have he' : (0 : ℚ) < e := by exact_mod_cast he
  have hd' : (0 : ℚ) < d := by exact_mod_cast hd
  have h1 : (b : ℚ) * d ≤ n * e + d := by exact_mod_cast hcross1
  have h2 : (n : ℚ) * e ≤ b * d + d := by exact_mod_cast hcross2
  have h3 : (2 : ℚ) ^ 30 * d ≤ n * e := by exact_mod_cast hsmall
  have hdiff : (b : ℚ) / e - n / d = (b * d - n * e) / (e * d) := by
    field_simp
  have hright : (n : ℚ) / d / 2 ^ 30 = n * e / 2 ^ 30 / (e * d) := by
    field_simp
  rw [hdiff, hright, abs_div, abs_of_pos (mul_pos he' hd')]
  gcongr
  rw [abs_le]
  constructor <;> linarith

end

/-- What an assignment of a number that is not too large keeps. -/
structure Nearly (r r' : Rational) : Prop where
  value : |r'.value - r.value| ≤ |r.value| / 2 ^ 30
  denominator : r'.denominator ≠ 0
  numerator : r'.numerator.toNat ≤ r.numerator.toNat

theorem Keeps.nearly (h : Keeps r r') : Nearly r r' where
  value := by
    rw [h.value, sub_self, abs_zero]
    positivity
  denominator := h.denominator
  numerator := h.numerator

theorem Nearly.trans_keeps {r r' r'' : Rational} (h : Nearly r r') (h' : Keeps r' r'') : Nearly r r'' where
  value := h'.value ▸ h.value
  denominator := h'.denominator
  numerator := Nat.le_trans h'.numerator h.numerator

theorem abs_value_sub (h : r'.negative = r.negative) :
    |r'.value - r.value| =
      |(r'.numerator.toNat : ℚ) / r'.denominator.toNat - r.numerator.toNat / r.denominator.toNat| := by
  have hsign : |sign r.negative| = 1 := by
    unfold sign
    split <;> norm_num
  rw [value, value, h, ← mul_sub, abs_mul, hsign, one_mul]

theorem abs_value (r : Rational) : |r.value| = (r.numerator.toNat : ℚ) / r.denominator.toNat := by
  unfold value sign
  rw [abs_mul, abs_of_nonneg (by positivity : (0 : ℚ) ≤ r.numerator.toNat / r.denominator.toNat)]
  split <;> simp

theorem nearly_shifted (hn : 2 ^ 32 * 2 ^ shift.toNat ≤ r.numerator.toNat)
    (hn' : r.numerator.toNat < 2 ^ (33 + shift.toNat)) (hd0 : r.denominator ≠ 0)
    (hd : r.denominator.toNat < 2 ^ (31 - shift.toNat))
    (hlt : r.numerator.toNat < 2 ^ 31 * r.denominator.toNat) :
    Nearly r ((r.scaled shift).shifted shift) := by
  have hh := Nat.two_pow_pos shift.toNat
  obtain ⟨enum, eden⟩ := toNat_shifted_scaled hn' hd0 hd
  have hc : 2 ^ (shift.toNat + 1) = 2 * 2 ^ shift.toNat := by
    rw [Nat.pow_succ, Nat.mul_comm]
  rw [hc] at enum eden
  rw [shifted_denominator hh] at eden
  obtain ⟨hpos, hnear⟩ := near_scaled hh hn hlt
  refine ⟨?_, ?_, ?_⟩
  · have hnegative : ((r.scaled shift).shifted shift).negative = r.negative := by
      unfold scaled
      dsimp only
      split <;> rfl
    rw [abs_value_sub hnegative, abs_value, enum, eden]
    exact hnear
  · intro h0
    rw [h0, UInt64.toNat_zero] at eden
    omega
  · rw [enum]
    have hle : r.numerator.toNat * (r.denominator.toNat / (2 * 2 ^ shift.toNat) * (2 * 2 ^ shift.toNat)) /
        r.denominator.toNat ≤ r.numerator.toNat := by
      refine Nat.div_le_of_le_mul ?_
      rw [Nat.mul_comm r.denominator.toNat]
      exact Nat.mul_le_mul_left _ (Nat.div_mul_le_self _ _)
    refine Nat.div_le_of_le_mul (Nat.le_trans (Nat.add_le_add_right hle _) ?_)
    have h1 : r.numerator.toNat * 1 ≤ r.numerator.toNat * 2 ^ shift.toNat := Nat.mul_le_mul_left _ hh
    have h2 : 2 * 2 ^ shift.toNat * r.numerator.toNat = 2 * (r.numerator.toNat * 2 ^ shift.toNat) := by ring
    omega

theorem nearly_restrict (hd : r.denominator ≠ 0) (hd32 : r.denominator.toNat < 2 ^ 32)
    (hfit : r.numerator.toNat * r.denominator.toNat < 2 ^ 63)
    (hlt : r.numerator.toNat < 2 ^ 31 * r.denominator.toNat) : Nearly r r.restrict := by
  rcases Nat.lt_or_ge r.numerator.toNat (2 ^ 32) with hsmall | hlarge
  · exact (keeps_restrict hd hsmall hd32).nearly
  · have htmp : ((r.numerator ||| r.denominator) >>> 32).toNat = r.numerator.toNat / 2 ^ 32 := by
      rw [toNat_or_shiftRight, Nat.div_eq_of_lt hd32, Nat.or_zero]
    have hnlt := r.numerator.toNat_lt
    have hne : (r.numerator ||| r.denominator) >>> 32 ≠ 0 := by
      intro h0
      rw [h0, UInt64.toNat_zero] at htmp
      omega
    have hhigh := highestIn_shiftOf hne (by omega)
    unfold restrict
    rw [if_pos hne]
    generalize shiftOf ((r.numerator ||| r.denominator) >>> 32) = shift at hhigh
    obtain ⟨hle, hupper, hlower⟩ := hhigh
    rw [htmp] at hupper hlower
    have hn : 2 ^ 32 * 2 ^ shift.toNat ≤ r.numerator.toNat := by
      rw [Nat.mul_comm]
      exact (Nat.le_div_iff_mul_le (by decide)).mp hlower
    have hn' : r.numerator.toNat < 2 ^ (33 + shift.toNat) := by
      have h := (Nat.div_lt_iff_lt_mul (by decide)).mp hupper
      rw [← Nat.pow_add] at h
      refine h.trans_eq ?_
      congr 1
      omega
    have hspare : r.denominator.toNat < 2 ^ (31 - shift.toNat) := by
      by_contra hge
      have h63 : 2 ^ 32 * 2 ^ shift.toNat * 2 ^ (31 - shift.toNat) = 2 ^ 63 := by
        rw [← Nat.pow_add, ← Nat.pow_add]
        congr 1
        omega
      have hproduct := Nat.mul_le_mul hn (Nat.not_lt.mp hge)
      omega
    have hshifted := nearly_shifted hn hn' hd hspare hlt
    exact hshifted.trans_keeps (keeps_reduced hshifted.denominator)

/-! ### The denominator -/

theorem denominator_reduceByTen_le (n : ℕ) (r : Rational) :
    (reduceByTen n r).denominator.toNat ≤ r.denominator.toNat := by
  induction n generalizing r with
  | zero => exact Nat.le_refl _
  | succ n ih =>
    unfold reduceByTen
    split
    · refine (ih _).trans ?_
      exact Nat.div_le_self _ _
    · exact Nat.le_refl _

theorem denominator_reduced_le (r : Rational) : r.reduced.denominator.toNat ≤ r.denominator.toNat := by
  unfold reduced
  split
  next h =>
    split
    · exact toNat_pos h.2.2
    · split
      · exact Nat.div_le_self _ _
      · exact denominator_reduceByTen_le 20 r
  next => exact Nat.le_refl _

theorem terms_of_value_pos (h : 0 < r.value) : r.negative = false ∧ r.numerator ≠ 0 := by
  constructor
  · by_contra hneg
    rw [Bool.not_eq_false] at hneg
    rw [value, sign, if_pos hneg, neg_one_mul] at h
    have hterms : (0 : ℚ) ≤ r.numerator.toNat / r.denominator.toNat := by positivity
    linarith
  · intro h0
    rw [value, h0, UInt64.toNat_zero, Nat.cast_zero, zero_div, mul_zero] at h
    exact lt_irrefl _ h

/-! ### Truncation -/

theorem toInt_integerPart (hlt : |r.value| < 2 ^ 31 - 1) :
    r.integerPart.toInt = towardZero r.value := by
  have hpart : ((r.numerator / r.denominator).toNat : ℤ) =
      ⌊(r.numerator.toNat : ℚ) / (r.denominator.toNat : ℚ)⌋ := by
    rw [UInt64.toNat_div, Rat.floor_natCast_div_natCast]
    rfl
  have hsmall : (r.numerator / r.denominator).toNat < 2 ^ 63 := by
    have h : ((r.numerator / r.denominator).toNat : ℤ) < 2 ^ 31 := by
      rw [hpart, Int.floor_lt]
      rw [abs_value] at hlt
      linarith
    omega
  have hword := signed_of_sign (f := Int.floor) Int.floor_zero (by positivity) hpart hsmall r.negative
  have htrunc := (abs_lt.mp ((abs_towardZero_le r.value).trans_lt hlt))
  have hlow : -(2 ^ 31 - 1 : ℤ) < towardZero r.value := by exact_mod_cast htrunc.1
  have hhigh : towardZero r.value < (2 ^ 31 - 1 : ℤ) := by exact_mod_cast htrunc.2
  have hsigned : signed (if r.negative then -(r.numerator / r.denominator) else r.numerator / r.denominator) =
      towardZero r.value := hword
  refine (toInt_intOf_of_fits ?_ ?_).trans hsigned
  · omega
  · omega

end Player2.Rational
