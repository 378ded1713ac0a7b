import Mathlib.Data.Nat.Size
import Player2.RationalRestrict
import Player2.SignMagnitude

/-! # Integers of 96 bits

`LongLongLong_c`: a sign and a magnitude, the upper part of which has a word of 64 bits and the lower 32 bits
another word.  Sums carry from the lower part into the upper one, differences borrow, and a product collects
the four products of the parts.  As long as the lower part keeps to its 32 bits and the result has no more than
96, all three are exact (`denotes_add`, `denotes_sub`, `denotes_mul`).

`Get` gives the 63 leading bits, and how far it had to shift for that (`denotes_get`).

The magnitude of a `long long` is taken before it is widened, so the least one, the negative of which a
`long long` cannot hold, does not come through the constructor (`denotes_ofLong_iff`). -/

namespace Player2

/-- `LongLongLong_c`. -/
structure LongLongLong where
  negative : Bool
  upper64 : UInt64
  lower32 : UInt64
deriving DecidableEq, Repr

namespace LongLongLong

open SignMagnitude

/-! ### The class -/

/-- `Abs(Value)` of a `long long`. -/
def absolute (v : Int64) : Int64 := if v < 0 then -v else v

/-- `LongLongLong_c(long long Value)`. -/
def ofLong (v : Int64) : LongLongLong where
  negative := v < 0
  upper64 := (absolute v >>> 32).toUInt64
  lower32 := (absolute v &&& 0xffffffff).toUInt64

/-- The sum of the magnitudes, which carries into the upper part. -/
def combine (a f : LongLongLong) : LongLongLong :=
  let lower32 := a.lower32 + f.lower32
  let upper64 := a.upper64 + f.upper64
  { negative := a.negative, upper64 := upper64 + (lower32 >>> 32), lower32 := lower32 &&& 0xffffffff }

/-- The difference of the magnitudes, which borrows from the upper part. -/
def difference (negative : Bool) (a f : LongLongLong) : LongLongLong :=
  let lower32 := a.lower32 - f.lower32
  let upper64 := a.upper64 - f.upper64
  if lower32 > 0xffffffff then
    { negative, upper64 := upper64 - 1, lower32 := lower32 + 0x100000000 }
  else { negative, upper64, lower32 }

/-- The larger magnitude less the smaller one. -/
def separate (a f : LongLongLong) : LongLongLong :=
  if a.upper64 > f.upper64 ∨ a.upper64 = f.upper64 ∧ a.lower32 > f.lower32 then difference a.negative a f
  else difference (!a.negative) f a

/-- `operator+`. -/
def add (a f : LongLongLong) : LongLongLong :=
  if a.negative ≠ f.negative then a.separate { f with negative := a.negative } else a.combine f

/-- `operator+`, with a `long long` on the right. -/
def addLong (a : LongLongLong) (i : Int64) : LongLongLong := a.add (ofLong i)

/-- `operator-`. -/
def sub (a f : LongLongLong) : LongLongLong :=
  if a.negative ≠ f.negative then a.combine { f with negative := a.negative } else a.separate f

/-- `operator*`. -/
def mul (a f : LongLongLong) : LongLongLong :=
  let lower32 := a.lower32 * f.lower32
  let upper64 := a.lower32 * f.upper64 + a.upper64 * f.lower32 + ((a.upper64 * f.upper64) <<< 32)
  { negative := a.negative ^^ f.negative, upper64 := upper64 + (lower32 >>> 32), lower32 := lower32 &&& 0xffffffff }

/-- `operator*`, with a `long long` on the left. -/
def longMul (v : Int64) (f : LongLongLong) : LongLongLong := (ofLong v).mul f

/-- The bits of the upper part. -/
def upperBits (upper64 : UInt64) : UInt64 :=
  if upper64 ≠ 0 then
    let bits : UInt64 := if upper64 &&& 0xffffffff00000000 ≠ 0 then 32 else 0
    let bits := bits + if (upper64 >>> bits) &&& 0xffff0000 ≠ 0 then 16 else 0
    let bits := bits + if (upper64 >>> bits) &&& 0x0000ff00 ≠ 0 then 8 else 0
    let bits := bits + if (upper64 >>> bits) &&& 0x000000f0 ≠ 0 then 4 else 0
    let bits := bits + if (upper64 >>> bits) &&& 0x0000000c ≠ 0 then 2 else 0
    let bits := bits + if (upper64 >>> bits) &&& 0x00000002 ≠ 0 then 1 else 0
    bits + 1
  else 0

/-- How far `Get` shifts. -/
def shift (a : LongLongLong) : UInt64 :=
  if upperBits a.upper64 > 31 then upperBits a.upper64 - 31 else 0

/-- The leading bits. -/
def leading (a : LongLongLong) : UInt64 :=
  (if a.shift > 31 then a.upper64 >>> (a.shift - 32) else a.upper64 <<< (32 - a.shift)) ||| (a.lower32 >>> a.shift)

/-- `Get`: the value, and how far it was shifted. -/
def get (a : LongLongLong) : Int64 × UInt64 :=
  let val := a.leading.toInt64
  (if a.negative then -val else val, a.shift)

/-! ### The number -/

/-- The magnitude. -/
def magnitude (a : LongLongLong) : ℕ := a.upper64.toNat * 2 ^ 32 + a.lower32.toNat

/-- The number. -/
def toInt (a : LongLongLong) : ℤ := withSign a.negative (a.magnitude : ℤ)

/-- The lower part has no more than 32 bits. -/
def WellFormed (a : LongLongLong) : Prop := a.lower32.toNat < 2 ^ 32

/-- A well-formed value stands for a number. -/
structure Denotes (a : LongLongLong) (z : ℤ) : Prop where
  wellFormed : a.WellFormed
  toInt_eq : a.toInt = z

section
variable {a f : LongLongLong}

theorem natAbs_toInt (a : LongLongLong) : a.toInt.natAbs = a.magnitude := natAbs_withSign _ _

/-! ### Sums and differences -/

theorem toNat_and_low (x : UInt64) : (x &&& 0xffffffff).toNat = x.toNat % 2 ^ 32 := by
  exact Nat.and_two_pow_sub_one_eq_mod _ 32

theorem toNat_shiftRight_low (x : UInt64) : (x >>> 32).toNat = x.toNat / 2 ^ 32 := by
  exact Nat.shiftRight_eq_div_pow _ 32

theorem magnitude_combine (ha : a.WellFormed) (hf : f.WellFormed) (h : a.magnitude + f.magnitude < 2 ^ 96) :
    (a.combine f).WellFormed ∧ (a.combine f).magnitude = a.magnitude + f.magnitude := by
  unfold WellFormed at ha hf
  unfold magnitude at h
  have hlow : (a.lower32 + f.lower32).toNat = a.lower32.toNat + f.lower32.toNat := by
    rw [UInt64.toNat_add]
    exact Nat.mod_eq_of_lt (by omega)
  unfold combine WellFormed magnitude
  rw [toNat_and_low, UInt64.toNat_add (a.upper64 + f.upper64), UInt64.toNat_add a.upper64, toNat_shiftRight_low, hlow]
  constructor
  · exact Nat.mod_lt _ (by decide)
  · omega

theorem magnitude_difference (negative : Bool) (ha : a.WellFormed) (hf : f.WellFormed)
    (h : f.magnitude ≤ a.magnitude) :
    (difference negative a f).WellFormed ∧ (difference negative a f).magnitude = a.magnitude - f.magnitude := by
  unfold WellFormed at ha hf
  unfold magnitude at h
  have hlow : (a.lower32 - f.lower32).toNat = (2 ^ 64 - f.lower32.toNat + a.lower32.toNat) % 2 ^ 64 :=
    UInt64.toNat_sub ..
  have hup : (a.upper64 - f.upper64).toNat = a.upper64.toNat - f.upper64.toNat :=
    UInt64.toNat_sub_of_le _ _ (UInt64.le_iff_toNat_le.mpr (by omega))
  have hmask : (0xffffffff : UInt64).toNat = 2 ^ 32 - 1 := rfl
  unfold difference WellFormed magnitude
  dsimp only
  split
  next hborrow =>
    rw [gt_iff_lt, UInt64.lt_iff_toNat_lt, hmask, hlow] at hborrow
    have hone : (1 : UInt64).toNat = 1 := rfl
    have hunit : (0x100000000 : UInt64).toNat = 2 ^ 32 := rfl
    have hdown : (a.upper64 - f.upper64 - 1).toNat = a.upper64.toNat - f.upper64.toNat - 1 := by
      rw [UInt64.toNat_sub_of_le _ _ (UInt64.le_iff_toNat_le.mpr (by omega)), hup, hone]
    rw [hdown, UInt64.toNat_add, hlow, hunit]
    constructor <;> omega
  next hfits =>
    rw [gt_iff_lt, UInt64.lt_iff_toNat_lt, hmask, hlow] at hfits
    rw [hup, hlow]
    constructor <;> omega

theorem toInt_combine (ha : a.WellFormed) (hf : f.WellFormed) (h : a.magnitude + f.magnitude < 2 ^ 96) :
    Denotes (a.combine f) (a.toInt + withSign a.negative (f.magnitude : ℤ)) := by
  obtain ⟨hwell, hmagnitude⟩ := magnitude_combine ha hf h
  refine ⟨hwell, ?_⟩
  unfold toInt
  rw [hmagnitude, ← withSign_add]
  rfl

theorem negative_difference (negative : Bool) (a f : LongLongLong) : (difference negative a f).negative = negative := by
  unfold difference
  dsimp only
  split <;> rfl

theorem toInt_separate (ha : a.WellFormed) (hf : f.WellFormed) :
    Denotes (a.separate f) (a.toInt - withSign a.negative (f.magnitude : ℤ)) := by
  have hgt : a.upper64 > f.upper64 ∨ a.upper64 = f.upper64 ∧ a.lower32 > f.lower32 ↔ f.magnitude < a.magnitude := by
    rw [gt_iff_lt, gt_iff_lt, UInt64.lt_iff_toNat_lt, UInt64.lt_iff_toNat_lt, ← UInt64.toNat_inj]
    unfold WellFormed at ha hf
    unfold magnitude
    omega
  unfold separate
  split
  next hlarger =>
    have hle := (hgt.mp hlarger).le
    obtain ⟨hwell, hmagnitude⟩ := magnitude_difference a.negative ha hf hle
    refine ⟨hwell, ?_⟩
    unfold toInt
    rw [negative_difference, hmagnitude, ← withSign_sub, Nat.cast_sub hle]
  next hnot =>
    have hle := not_lt.mp fun h => hnot (hgt.mpr h)
    obtain ⟨hwell, hmagnitude⟩ := magnitude_difference (!a.negative) hf ha hle
    refine ⟨hwell, ?_⟩
    unfold toInt
    rw [negative_difference, hmagnitude, withSign_not, Nat.cast_sub hle, withSign_sub, neg_sub]

theorem denotes_add {x y : ℤ} (ha : Denotes a x) (hf : Denotes f y) (h : |x + y| < 2 ^ 96) :
    Denotes (a.add f) (x + y) := by
  obtain ⟨ha, rfl⟩ := ha
  obtain ⟨hf, rfl⟩ := hf
  unfold add
  split
  next hne =>
    have hsum : a.toInt + f.toInt = a.toInt - withSign a.negative (f.magnitude : ℤ) := by
      unfold toInt
      rw [withSign_of_ne hne, sub_eq_add_neg]
    rw [hsum]
    exact toInt_separate (f := { f with negative := a.negative }) ha hf
  next heq =>
    have heq := not_not.mp heq
    have hsum : a.toInt + f.toInt = withSign a.negative ((a.magnitude : ℤ) + f.magnitude) := by
      unfold toInt
      rw [heq, withSign_add]
    have hfits : a.magnitude + f.magnitude < 2 ^ 96 := by
      rw [hsum, abs_withSign _ (by positivity)] at h
      exact_mod_cast h
    rw [hsum, withSign_add]
    exact toInt_combine ha hf hfits

theorem denotes_sub {x y : ℤ} (ha : Denotes a x) (hf : Denotes f y) (h : |x - y| < 2 ^ 96) :
    Denotes (a.sub f) (x - y) := by
  obtain ⟨ha, rfl⟩ := ha
  obtain ⟨hf, rfl⟩ := hf
  unfold sub
  split
  next hne =>
    have hdiff : a.toInt - f.toInt = withSign a.negative ((a.magnitude : ℤ) + f.magnitude) := by
      unfold toInt
      rw [withSign_of_ne hne, sub_neg_eq_add, withSign_add]
    have hfits : a.magnitude + f.magnitude < 2 ^ 96 := by
      rw [hdiff, abs_withSign _ (by positivity)] at h
      exact_mod_cast h
    rw [hdiff, withSign_add]
    exact toInt_combine (f := { f with negative := a.negative }) ha hf hfits
  next heq =>
    have heq := not_not.mp heq
    have hdiff : a.toInt - f.toInt = a.toInt - withSign a.negative (f.magnitude : ℤ) := by
      unfold toInt
      rw [heq]
    rw [hdiff]
    exact toInt_separate ha hf

/-! ### Products -/

theorem magnitude_mul (ha : a.WellFormed) (hf : f.WellFormed) (h : a.magnitude * f.magnitude < 2 ^ 96) :
    (a.mul f).WellFormed ∧ (a.mul f).magnitude = a.magnitude * f.magnitude := by
  have hproduct : a.magnitude * f.magnitude =
      (a.lower32.toNat * f.upper64.toNat + a.upper64.toNat * f.lower32.toNat +
        a.upper64.toNat * f.upper64.toNat * 2 ^ 32) * 2 ^ 32 + a.lower32.toNat * f.lower32.toNat := by
    unfold magnitude
    ring
  have hlow : (a.lower32 * f.lower32).toNat = a.lower32.toNat * f.lower32.toNat := by
    exact Nat.mod_eq_of_lt ((Nat.mul_lt_mul'' ha hf).trans_eq (by norm_num))
  have hhigh : ((a.upper64 * f.upper64) <<< 32).toNat = a.upper64.toNat * f.upper64.toNat * 2 ^ 32 % 2 ^ 64 := by
    have h32 : (32 : UInt64).toNat % 64 = 32 := rfl
    rw [UInt64.toNat_shiftLeft, h32, Nat.shiftLeft_eq, UInt64.toNat_mul, Nat.mod_mul_mod]
  unfold mul WellFormed
  rw [hproduct] at h ⊢
  unfold magnitude
  rw [toNat_and_low, UInt64.toNat_add, UInt64.toNat_add, UInt64.toNat_add, toNat_shiftRight_low, hhigh, hlow,
    UInt64.toNat_mul a.lower32 f.upper64, UInt64.toNat_mul a.upper64 f.lower32]
  generalize a.lower32.toNat * f.upper64.toNat = p at h ⊢
  generalize a.upper64.toNat * f.lower32.toNat = q at h ⊢
  generalize a.upper64.toNat * f.upper64.toNat = t at h ⊢
  generalize a.lower32.toNat * f.lower32.toNat = u at h ⊢
  constructor
  · exact Nat.mod_lt _ (by decide)
  · omega

theorem denotes_mul {x y : ℤ} (ha : Denotes a x) (hf : Denotes f y) (h : |x * y| < 2 ^ 96) :
    Denotes (a.mul f) (x * y) := by
  obtain ⟨ha, rfl⟩ := ha
  obtain ⟨hf, rfl⟩ := hf
  have hfits : a.magnitude * f.magnitude < 2 ^ 96 := by
    rw [Int.abs_eq_natAbs, Int.natAbs_mul, natAbs_toInt, natAbs_toInt] at h
    exact_mod_cast h
  obtain ⟨hwell, hmagnitude⟩ := magnitude_mul ha hf hfits
  refine ⟨hwell, ?_⟩
  have hnegative : (a.mul f).negative = (a.negative ^^ f.negative) := rfl
  unfold toInt
  rw [hnegative, hmagnitude, Nat.cast_mul, withSign_mul]

/-! ### The constructor -/

variable {v : Int64}

theorem toInt_lt_zero_iff : v < 0 ↔ v.toInt < 0 := Int64.lt_iff_toInt_lt

theorem toInt_absolute (h : -2 ^ 63 < v.toInt) : (absolute v).toInt = |v.toInt| := by
  have hlt := v.toInt_lt
  unfold absolute
  split
  next hneg =>
    have hneg := toInt_lt_zero_iff.mp hneg
    rw [Int64.toInt_neg, abs_of_neg hneg]
    exact Int.bmod_eq_of_le (by omega) (by omega)
  next hpos => exact (abs_of_nonneg (not_lt.mp fun h => hpos (toInt_lt_zero_iff.mpr h))).symm

theorem toNat_toUInt64 (h : 0 ≤ v.toInt) : (v.toUInt64.toNat : ℤ) = v.toInt := by
  have hle : 0 ≤ v := Int64.le_iff_toInt_le.mpr h
  rw [Int64.toNat_toUInt64_of_le hle]
  exact Int.toNat_of_nonneg h

theorem toInt_shiftRight_low (v : Int64) : (v >>> 32).toInt = v.toInt / 2 ^ 32 := by
  have h : (v >>> 32).toInt = v.toBitVec.toInt >>> (32 : ℕ) := BitVec.toInt_sshiftRight
  rw [h, Int.shiftRight_eq_div_pow]
  rfl

theorem denotes_ofLong_iff : Denotes (ofLong v) v.toInt ↔ v.toInt ≠ -2 ^ 63 := by
  have hle := v.le_toInt
  constructor
  · rintro ⟨-, heq⟩ hleast
    obtain rfl : v = Int64.minValue := Int64.toInt_inj.mp hleast
    have hmagnitude : (ofLong Int64.minValue).magnitude = 2 ^ 96 - 2 ^ 63 := by decide
    have habs := congrArg Int.natAbs heq
    exact absurd habs (by decide)
  · intro hleast
    have habs := toInt_absolute (v := v) (by omega)
    have hnonneg : 0 ≤ (absolute v).toInt := habs ▸ abs_nonneg _
    have hword := toNat_toUInt64 hnonneg
    have hupper : ((absolute v >>> 32).toUInt64.toNat : ℤ) = |v.toInt| / 2 ^ 32 := by
      have hshift := toInt_shiftRight_low (absolute v)
      rw [toNat_toUInt64 (by omega), hshift, habs]
    have hlower : (absolute v &&& 0xffffffff).toUInt64.toNat = (absolute v).toUInt64.toNat % 2 ^ 32 := toNat_and_low _
    refine ⟨?_, ?_⟩
    · show (absolute v &&& 0xffffffff).toUInt64.toNat < _
      rw [hlower]
      exact Nat.mod_lt _ (by decide)
    · have hmagnitude : ((ofLong v).magnitude : ℤ) = |v.toInt| := by
        show (((absolute v >>> 32).toUInt64.toNat * 2 ^ 32 + (absolute v &&& 0xffffffff).toUInt64.toNat : ℕ) : ℤ) = _
        push_cast
        rw [hupper, hlower]
        push_cast
        omega
      unfold toInt
      rw [hmagnitude]
      show withSign (v < 0 : Bool) |v.toInt| = _
      by_cases hneg : v.toInt < 0
      · rw [decide_eq_true (toInt_lt_zero_iff.mpr hneg), withSign_true, abs_of_neg hneg, neg_neg]
      · rw [decide_eq_false fun h => hneg (toInt_lt_zero_iff.mp h), withSign_false, abs_of_nonneg (not_lt.mp hneg)]

/-! ### Extraction -/

open Rational (HighestFrom toNat_pos)

theorem toNat_upperBits (u : UInt64) : (upperBits u).toNat = Nat.size u.toNat := by
  by_cases h0 : u = 0
  · subst h0
    decide
  have h64 : HighestFrom u 0 (2 * (32 : UInt64).toNat) := ⟨by decide, u.toNat_lt, toNat_pos h0⟩
  have h32 := (HighestFrom.halve 32 0xffffffff00000000 (by decide) h64 (by decide)).1
  rw [UInt64.shiftRight_zero, UInt64.zero_add] at h32
  have h16 := (HighestFrom.halve 16 0xffff0000 (by decide) h32 (by decide)).1
  have h8 := (HighestFrom.halve 8 0x0000ff00 (by decide) h16 (by decide)).1
  have h4 := (HighestFrom.halve 4 0x000000f0 (by decide) h8 (by decide)).1
  have h2 := (HighestFrom.halve 2 0x0000000c (by decide) h4 (by decide)).1
  have h1 := (HighestFrom.halve 1 0x00000002 (by decide) h2 (by decide)).1
  unfold upperBits
  rw [if_pos h0]
  dsimp only
  generalize (_ + if (u >>> _) &&& 0x00000002 ≠ 0 then (1 : UInt64) else 0) = bits at h1 ⊢
  obtain ⟨hle, hlt, hge⟩ := h1
  have hone : (1 : UInt64).toNat = 1 := rfl
  have hsum : (bits + 1).toNat = bits.toNat + 1 := by
    rw [UInt64.toNat_add, hone]
    exact Nat.mod_eq_of_lt (by omega)
  have hupper := Nat.size_le.mpr hlt
  have hlower := Nat.lt_size.mpr hge
  omega

/-- How many bits of a magnitude are beyond the 63 that a `long long` has for it. -/
def excess (m : ℕ) : ℕ := Nat.size m - 63

theorem size_magnitude (ha : a.WellFormed) (h : a.upper64 ≠ 0) :
    Nat.size a.magnitude = 32 + Nat.size a.upper64.toNat := by
  have hsize : 0 < Nat.size a.upper64.toNat := Nat.size_pos.mpr (toNat_pos h)
  have hlow := Nat.lt_size.mp (Nat.pred_lt hsize.ne')
  have hhigh := Nat.lt_size_self a.upper64.toNat
  unfold WellFormed at ha
  have hpow := Nat.pow_add 2 32 (Nat.size a.upper64.toNat)
  have hpow' := Nat.pow_add 2 32 (Nat.size a.upper64.toNat).pred
  have hupper : Nat.size a.magnitude ≤ 32 + Nat.size a.upper64.toNat := by
    rw [Nat.size_le]
    unfold magnitude
    omega
  have hlower : 32 + (Nat.size a.upper64.toNat).pred < Nat.size a.magnitude := by
    rw [Nat.lt_size]
    unfold magnitude
    omega
  have hpred := Nat.succ_pred_eq_of_pos hsize
  omega

theorem toNat_shift_eq (a : LongLongLong) : a.shift.toNat = Nat.size a.upper64.toNat - 31 := by
  have hbits := toNat_upperBits a.upper64
  have h31 : (31 : UInt64).toNat = 31 := rfl
  unfold shift
  split
  next hlt =>
    rw [gt_iff_lt, UInt64.lt_iff_toNat_lt, h31, hbits] at hlt
    rw [UInt64.toNat_sub_of_le _ _ (UInt64.le_iff_toNat_le.mpr (by omega)), hbits, h31]
  next hge =>
    rw [gt_iff_lt, UInt64.lt_iff_toNat_lt, h31, hbits] at hge
    rw [UInt64.toNat_zero]
    omega

theorem toNat_shift (ha : a.WellFormed) : a.shift.toNat = excess a.magnitude := by
  rw [toNat_shift_eq]
  unfold excess
  by_cases h0 : a.upper64 = 0
  · have hsmall : Nat.size a.magnitude ≤ 32 := by
      unfold WellFormed at ha
      rw [Nat.size_le]
      unfold magnitude
      rw [h0, UInt64.toNat_zero]
      omega
    rw [h0, UInt64.toNat_zero, Nat.size_zero]
    omega
  · rw [size_magnitude ha h0]
    omega

theorem toNat_leading (ha : a.WellFormed) : a.leading.toNat = a.magnitude / 2 ^ a.shift.toNat := by
  have hsize := Nat.size_le.mpr a.upper64.toNat_lt
  have hshift := toNat_shift_eq a
  have hlt : a.upper64.toNat < 2 ^ (31 + a.shift.toNat) := Nat.size_le.mp (by omega)
  have hshift : a.shift.toNat ≤ 33 := by omega
  have h31 : (31 : UInt64).toNat = 31 := rfl
  have h32 : (32 : UInt64).toNat = 32 := rfl
  have hlower : (a.lower32 >>> a.shift).toNat = a.lower32.toNat / 2 ^ a.shift.toNat := by
    rw [UInt64.toNat_shiftRight, Nat.mod_eq_of_lt (by omega), Nat.shiftRight_eq_div_pow]
  unfold leading magnitude
  rw [UInt64.toNat_or, hlower]
  generalize a.shift = k at hlt hshift ⊢
  split
  next hlarge =>
    rw [gt_iff_lt, UInt64.lt_iff_toNat_lt, h31] at hlarge
    have hsub : (k - 32).toNat = k.toNat - 32 :=
      UInt64.toNat_sub_of_le _ _ (UInt64.le_iff_toNat_le.mpr (by omega))
    have hpow : 2 ^ k.toNat = 2 ^ 32 * 2 ^ (k.toNat - 32) := by
      rw [← Nat.pow_add]
      congr 1
      omega
    have hnone : a.lower32.toNat / 2 ^ k.toNat = 0 :=
      Nat.div_eq_of_lt (ha.trans_le (Nat.pow_le_pow_right (by decide) (by omega)))
    rw [UInt64.toNat_shiftRight, hsub, Nat.mod_eq_of_lt (by omega), Nat.shiftRight_eq_div_pow, hnone, Nat.or_zero,
      hpow, ← Nat.div_div_eq_div_mul, Nat.mul_comm, Nat.mul_add_div (by decide), Nat.div_eq_of_lt ha, Nat.add_zero]
  next hsmall =>
    rw [gt_iff_lt, UInt64.lt_iff_toNat_lt, h31] at hsmall
    have hsub : (32 - k).toNat = 32 - k.toNat :=
      UInt64.toNat_sub_of_le _ _ (UInt64.le_iff_toNat_le.mpr (by omega))
    have hpow : 2 ^ 32 = 2 ^ k.toNat * 2 ^ (32 - k.toNat) := by
      rw [← Nat.pow_add]
      congr 1
      omega
    have hfits : a.upper64.toNat * 2 ^ (32 - k.toNat) < 2 ^ 64 := by
      have h := Nat.mul_lt_mul_of_pos_right hlt (Nat.two_pow_pos (32 - k.toNat))
      rw [← Nat.pow_add] at h
      exact h.trans_le (Nat.pow_le_pow_right (by decide) (by omega))
    have hrest : a.lower32.toNat / 2 ^ k.toNat < 2 ^ (32 - k.toNat) := by
      rw [Nat.div_lt_iff_lt_mul (Nat.two_pow_pos _), Nat.mul_comm, ← hpow]
      exact ha
    rw [UInt64.toNat_shiftLeft, hsub, Nat.mod_eq_of_lt (by omega : 32 - k.toNat < 64), Nat.shiftLeft_eq,
      Nat.mod_eq_of_lt hfits,
      ← Nat.shiftLeft_eq, ← Nat.shiftLeft_add_eq_or_of_lt hrest, Nat.shiftLeft_eq]
    have hmove : a.upper64.toNat * 2 ^ 32 = 2 ^ k.toNat * (a.upper64.toNat * 2 ^ (32 - k.toNat)) := by
      rw [hpow]
      ring
    rw [hmove, Nat.mul_add_div (Nat.two_pow_pos _)]

theorem lt_two_pow_excess (m : ℕ) : m / 2 ^ excess m < 2 ^ 63 := by
  have hlt := Nat.lt_size_self m
  rw [Nat.div_lt_iff_lt_mul (Nat.two_pow_pos _), ← Nat.pow_add]
  refine hlt.trans_le (Nat.pow_le_pow_right (by decide) ?_)
  unfold excess
  omega

theorem le_of_lt_excess {m k : ℕ} (h : k < excess m) : 2 ^ 63 ≤ m / 2 ^ k := by
  unfold excess at h
  have hge : 2 ^ (63 + k) ≤ m := Nat.lt_size.mp (by omega)
  rw [Nat.le_div_iff_mul_le (Nat.two_pow_pos _), ← Nat.pow_add]
  exact hge

theorem withSign_tdiv (negative : Bool) (m k : ℕ) :
    (withSign negative (m : ℤ)).tdiv k = withSign negative ((m / k : ℕ) : ℤ) := by
  cases negative
  · exact (Int.ofNat_tdiv m k).symm
  · simp only [withSign_true, Int.neg_tdiv]
    rw [Int.ofNat_tdiv]

theorem get_eq (ha : a.WellFormed) :
    a.get.1.toInt = a.toInt.tdiv (2 ^ excess a.magnitude) ∧ a.get.2.toNat = excess a.magnitude := by
  have hleading := toNat_leading ha
  have hshift := toNat_shift ha
  have hsmall := lt_two_pow_excess a.magnitude
  rw [hshift] at hleading
  have hval : a.leading.toInt64.toInt = (a.magnitude / 2 ^ excess a.magnitude : ℕ) := by
    rw [← hleading]
    exact BitVec.toInt_eq_toNat_of_lt (by
      show 2 * a.leading.toNat < 2 ^ 64
      omega)
  have hdiv : a.toInt.tdiv (2 ^ excess a.magnitude) =
      withSign a.negative ((a.magnitude / 2 ^ excess a.magnitude : ℕ) : ℤ) := by
    rw [← withSign_tdiv]
    rfl
  refine ⟨?_, hshift⟩
  rw [hdiv]
  unfold get
  dsimp only
  generalize a.magnitude / 2 ^ excess a.magnitude = q at hval hsmall ⊢
  cases a.negative with
  | false => exact hval
  | true =>
    rw [if_pos rfl, Int64.toInt_neg, hval, withSign_true]
    exact Int.bmod_eq_of_le (by omega) (by omega)

/-- What a `long long` holds. -/
def FitsLong (z : ℤ) : Prop := -2 ^ 63 ≤ z ∧ z < 2 ^ 63

/-- A number was read out with a shift: the value has the sign and the leading bits, and with a smaller shift only
the least `long long` would fit. -/
structure Reads (z : ℤ) (value : Int64) (shift : ℕ) : Prop where
  value : value.toInt = z.sign * (z.natAbs / 2 ^ shift : ℕ)
  minimal : ∀ k < shift, FitsLong (z.sign * (z.natAbs / 2 ^ k : ℕ)) → z.sign * (z.natAbs / 2 ^ k : ℕ) = -2 ^ 63

theorem tdiv_eq_sign_mul (z : ℤ) (k : ℕ) : z.tdiv k = z.sign * (z.natAbs / k : ℕ) := by
  rcases Int.natAbs_eq z with h | h
  · rcases Nat.eq_zero_or_pos z.natAbs with h0 | hpos
    · rw [h, h0]
      simp
    · rw [Int.sign_eq_one_of_pos (by omega), one_mul]
      conv_lhs => rw [h]
      exact (Int.ofNat_tdiv _ _).symm
  · rcases Nat.eq_zero_or_pos z.natAbs with h0 | hpos
    · rw [h, h0]
      simp
    · rw [Int.sign_eq_neg_one_of_neg (by omega), neg_one_mul]
      conv_lhs => rw [h, Int.neg_tdiv]
      rw [Int.ofNat_tdiv]

theorem reads_get {z : ℤ} (h : Denotes a z) : Reads z a.get.1 a.get.2.toNat := by
  obtain ⟨ha, rfl⟩ := h
  obtain ⟨hval, hshift⟩ := get_eq ha
  rw [hshift]
  refine ⟨?_, fun k hk hfits => ?_⟩
  · rw [hval, natAbs_toInt, ← natAbs_toInt, ← Nat.cast_ofNat, ← Nat.cast_pow, tdiv_eq_sign_mul]
  · have hge := le_of_lt_excess hk
    have hmagnitude := hge.trans (Nat.div_le_self _ _)
    rw [natAbs_toInt] at hfits ⊢
    unfold FitsLong at hfits
    rcases lt_trichotomy a.toInt 0 with hneg | hzero | hpos
    · rw [Int.sign_eq_neg_one_of_neg hneg] at hfits ⊢
      omega
    · have habs := natAbs_toInt a
      omega
    · rw [Int.sign_eq_one_of_pos hpos] at hfits
      omega

/-- Every operator is exact on two values where the result has 96 bits, and `Get` reads the first one out. -/
structure Exact (a f : LongLongLong) : Prop where
  add : |a.toInt + f.toInt| < 2 ^ 96 → Denotes (a.add f) (a.toInt + f.toInt)
  sub : |a.toInt - f.toInt| < 2 ^ 96 → Denotes (a.sub f) (a.toInt - f.toInt)
  mul : |a.toInt * f.toInt| < 2 ^ 96 → Denotes (a.mul f) (a.toInt * f.toInt)
  get : Reads a.toInt a.get.1 a.get.2.toNat

theorem exact_of_wellFormed (ha : a.WellFormed) (hf : f.WellFormed) : Exact a f where
  add := denotes_add ⟨ha, rfl⟩ ⟨hf, rfl⟩
  sub := denotes_sub ⟨ha, rfl⟩ ⟨hf, rfl⟩
  mul := denotes_mul ⟨ha, rfl⟩ ⟨hf, rfl⟩
  get := reads_get ⟨ha, rfl⟩

end

end LongLongLong

end Player2
