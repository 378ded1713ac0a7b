import Player2.CoordinatorAffine
import Player2.RationalOrder

/-! # Exact arithmetic on the rationals

An operator denotes the sum, difference, product or quotient of the numbers as long as the products and sums
that it forms fit a word, and the integer parts round the number as their names say.  Two things limit this.
`Abs` negates an `int` before it is widened, so the least one stays negative and becomes a word next to
`2 ^ 64`; where an integer stands on the left it goes through the constructor, which widens first.  And three of
the integer parts are an `int`, into which not every number of 32 bits fits.

`operators_exact_iff` says which numbers and integers all operators are right about, for products and sums of 32 bits. -/

namespace Player2.Rational

open OutputCoordinator (signed signed_eq toInt_intOf)
open SignMagnitude Rounding

/-- A rational stands for a number. -/
structure Denotes (r : Rational) (q : ℚ) : Prop where
  value : r.value = q
  denominator_ne : r.denominator ≠ 0

/-- The least `int`. -/
def leastInt : Int32 := -2 ^ 31

section
variable {r f : Rational} {n d : UInt64} {v : Int32}

theorem denotes_ofFactor (factor : UInt64) (negative : Bool) (hd : d ≠ 0) :
    Denotes (ofFactor n d factor negative) (withSign negative ((n.toNat : ℚ) / d.toNat)) := by
  obtain ⟨hvalue, hne⟩ := value_ofFactor factor negative hd (n := n)
  refine ⟨hvalue.trans ?_, hne⟩
  unfold sign
  cases negative <;> simp

theorem toNat_mul_of_fits {a b : UInt64} (h : a.toNat * b.toNat < 2 ^ 64) :
    (a * b).toNat = a.toNat * b.toNat := by
  rw [UInt64.toNat_mul, Nat.mod_eq_of_lt h]

theorem mul_ne_zero_of_fits {a b : UInt64} (ha : a ≠ 0) (hb : b ≠ 0) (h : a.toNat * b.toNat < 2 ^ 64) :
    a * b ≠ 0 := by
  intro h0
  have hprod := toNat_mul_of_fits h
  rw [h0] at hprod
  exact (Nat.mul_pos (toNat_pos ha) (toNat_pos hb)).ne hprod

/-! ### Operators between rationals -/

/-- `operator+`, where the products fit, and the sum of them when it is formed. -/
theorem denotes_add (hr : r.denominator ≠ 0) (hf : f.denominator ≠ 0) (hcross : CrossFits r f)
    (hden : r.denominator.toNat * f.denominator.toNat < 2 ^ 64)
    (hsum : r.negative = f.negative →
      r.numerator.toNat * f.denominator.toNat + f.numerator.toNat * r.denominator.toNat < 2 ^ 64) :
    Denotes (r.add f) (r.value + f.value) := by
  have hr0 : (r.denominator.toNat : ℚ) ≠ 0 := by exact_mod_cast (toNat_pos hr).ne'
  have hf0 : (f.denominator.toNat : ℚ) ≠ 0 := by exact_mod_cast (toNat_pos hf).ne'
  have hne := mul_ne_zero_of_fits hr hf hden
  have ha := toNat_mul_of_fits hcross.left
  have hb := toNat_mul_of_fits hcross.right
  have hd := toNat_mul_of_fits hden
  have hminus : (r.numerator.toNat : ℚ) / r.denominator.toNat - f.numerator.toNat / f.denominator.toNat =
      ((r.numerator * f.denominator).toNat - (f.numerator * r.denominator).toNat) /
        (r.denominator * f.denominator).toNat := by
    rw [ha, hb, hd, div_sub_div _ _ hr0 hf0]
    push_cast
    ring
  rw [value_eq_withSign r, value_eq_withSign f]
  unfold add
  by_cases hsign : r.negative = f.negative
  · rw [hsign, Bool.xor_self, if_neg Bool.false_ne_true, ← withSign_add]
    refine ⟨(denotes_ofFactor _ _ hne).value.trans ?_, (denotes_ofFactor _ _ hne).denominator_ne⟩
    congr 1
    rw [UInt64.toNat_add, ha, hb, hd, Nat.mod_eq_of_lt (hsum hsign), div_add_div _ _ hr0 hf0]
    push_cast
    ring
  · have hxor : (r.negative ^^ f.negative) = true := by
      cases h1 : r.negative <;> cases h2 : f.negative <;> simp_all
    rw [hxor, if_pos rfl]
    split
    next hgt =>
      have hle := UInt64.le_iff_toNat_le.mp (UInt64.le_of_lt hgt)
      rw [withSign_add_other hsign, hminus, ← Nat.cast_sub hle, ← UInt64.toNat_sub_of_le _ _ (UInt64.le_of_lt hgt)]
      exact denotes_ofFactor _ _ hne
    next hle =>
      have hle := UInt64.not_lt.mp hle
      have hback : (f.numerator.toNat : ℚ) / f.denominator.toNat - r.numerator.toNat / r.denominator.toNat =
          ((f.numerator * r.denominator).toNat - (r.numerator * f.denominator).toNat) /
            (r.denominator * f.denominator).toNat := by
        rw [← neg_sub, hminus, ← neg_div, neg_sub]
      rw [withSign_add_other' hsign, hback, ← Nat.cast_sub (UInt64.le_iff_toNat_le.mp hle),
        ← UInt64.toNat_sub_of_le _ _ hle]
      exact denotes_ofFactor _ _ hne

/-- The number with the other sign. -/
def negate (r : Rational) : Rational := { r with negative := !r.negative }

theorem value_negate (r : Rational) : r.negate.value = -r.value := by
  rw [value_eq_withSign, value_eq_withSign, ← withSign_not]
  rfl

theorem sub_eq_add_negate (r f : Rational) : r.sub f = r.add f.negate := by
  unfold sub add negate
  cases r.negative <;> cases f.negative <;> rfl

theorem denotes_sub (hr : r.denominator ≠ 0) (hf : f.denominator ≠ 0) (hcross : CrossFits r f)
    (hden : r.denominator.toNat * f.denominator.toNat < 2 ^ 64)
    (hsum : r.negative ≠ f.negative →
      r.numerator.toNat * f.denominator.toNat + f.numerator.toNat * r.denominator.toNat < 2 ^ 64) :
    Denotes (r.sub f) (r.value - f.value) := by
  rw [sub_eq_add_negate, sub_eq_add_neg, ← value_negate]
  refine denotes_add hr hf ⟨hcross.left, hcross.right⟩ hden fun h => hsum ?_
  have h : r.negative = !f.negative := h
  rw [h]
  simp

theorem denotes_mul (hr : r.denominator ≠ 0) (hf : f.denominator ≠ 0)
    (hnum : r.numerator.toNat * f.numerator.toNat < 2 ^ 64)
    (hden : r.denominator.toNat * f.denominator.toNat < 2 ^ 64) : Denotes (r.mul f) (r.value * f.value) := by
  have hprod := denotes_ofFactor (n := r.numerator * f.numerator) (min r.denominator f.denominator)
    (r.negative ^^ f.negative) (mul_ne_zero_of_fits hr hf hden)
  rw [toNat_mul_of_fits hnum, toNat_mul_of_fits hden] at hprod
  refine ⟨hprod.value.trans ?_, hprod.denominator_ne⟩
  rw [value_eq_withSign, value_eq_withSign, ← withSign_mul, div_mul_div_comm]
  push_cast
  rfl

theorem denotes_div (hr : r.denominator ≠ 0) (hf : f.numerator ≠ 0)
    (hnum : r.numerator.toNat * f.denominator.toNat < 2 ^ 64)
    (hden : r.denominator.toNat * f.numerator.toNat < 2 ^ 64) : Denotes (r.div f) (r.value / f.value) := by
  have hquotient := denotes_ofFactor (n := r.numerator * f.denominator)
    (if r.numerator = f.numerator then r.numerator
      else if r.denominator = f.denominator then r.denominator else 10)
    (r.negative ^^ f.negative) (mul_ne_zero_of_fits hr hf hden)
  rw [toNat_mul_of_fits hnum, toNat_mul_of_fits hden] at hquotient
  refine ⟨hquotient.value.trans ?_, hquotient.denominator_ne⟩
  rw [value_eq_withSign, value_eq_withSign, div_eq_mul_inv (withSign _ _), withSign_inv, inv_div, ← withSign_mul,
    div_mul_div_comm]
  push_cast
  rfl

/-! ### Operators with an integer -/

theorem withSign_abs (v : Int32) : withSign (v < 0 : Bool) ((|v.toInt| : ℤ) : ℚ) = v.toInt := by
  have h := sign_mul_abs v
  unfold sign at h
  rw [← h]
  cases (v < 0 : Bool) <;> simp

theorem denotes_ofInt (v : Int32) : Denotes (ofInt v) v.toInt := by
  refine ⟨?_, show (1 : UInt64) ≠ 0 by decide⟩
  have hnum : ((ofInt v).numerator.toNat : ℚ) = ((|v.toInt| : ℤ) : ℚ) := by exact_mod_cast toNat_ofInt v
  have hden : (ofInt v).denominator.toNat = 1 := rfl
  rw [value_eq_withSign, hnum, hden, Nat.cast_one, div_one]
  exact withSign_abs v

theorem natAbs_ne_least (h : v ≠ leastInt) : -2 ^ 31 < v.toInt := by
  have hge := v.le_toInt
  have hne : v.toInt ≠ -2 ^ 31 := fun heq => h (Int32.toInt_inj.mp heq)
  omega

theorem absolute_eq (h : v ≠ leastInt) : (absolute v).toNat = v.toInt.natAbs := by
  have habs := toNat_absolute (natAbs_ne_least h)
  rw [Int.abs_eq_natAbs] at habs
  exact_mod_cast habs

theorem absolute_least : (absolute leastInt).toNat = 2 ^ 64 - 2 ^ 31 := by decide

theorem natAbs_least : leastInt.toInt.natAbs = 2 ^ 31 := by decide

theorem cast_natAbs (v : Int32) : ((v.toInt.natAbs : ℕ) : ℚ) = ((|v.toInt| : ℤ) : ℚ) := by
  simp

/-- What `operator+` and `operator-` with an integer do: `d` is its magnitude in units of the denominator. -/
def offset (r : Rational) (minus : Bool) (d : UInt64) : Rational :=
  if minus == r.negative then { r with numerator := r.numerator + d }
  else if d ≤ r.numerator then { r with numerator := r.numerator - d }
  else { r with numerator := d - r.numerator, negative := !r.negative }

theorem addInt_eq (r : Rational) (v : Int32) :
    r.addInt v = r.offset (v < 0 : Bool) (absolute v * r.denominator) := rfl

theorem subInt_eq (r : Rational) (v : Int32) :
    r.subInt v = r.offset (!(v < 0 : Bool)) (absolute v * r.denominator) := by
  unfold subInt offset
  cases (v < 0 : Bool) <;> cases r.negative <;> rfl

theorem value_offset (minus : Bool) (hsum : minus = r.negative → r.numerator.toNat + n.toNat < 2 ^ 64) :
    (r.offset minus n).value = r.value + withSign minus ((n.toNat : ℚ) / r.denominator.toNat) := by
  rw [value_eq_withSign, value_eq_withSign]
  unfold offset
  by_cases hsign : minus = r.negative
  · rw [if_pos (by simpa using hsign), hsign, ← withSign_add, ← add_div]
    rw [UInt64.toNat_add, Nat.mod_eq_of_lt (hsum hsign), Nat.cast_add]
  · rw [if_neg (by simpa using hsign)]
    split
    next hle =>
      rw [withSign_add_other (Ne.symm hsign), ← sub_div]
      rw [UInt64.toNat_sub_of_le _ _ hle, Nat.cast_sub (UInt64.le_iff_toNat_le.mp hle)]
    next hlt =>
      have hle : r.numerator ≤ n := UInt64.le_of_lt (UInt64.not_le.mp hlt)
      rw [withSign_add_other' (Ne.symm hsign), ← sub_div]
      rw [UInt64.toNat_sub_of_le _ _ hle, Nat.cast_sub (UInt64.le_iff_toNat_le.mp hle)]

theorem offset_denominator (r : Rational) (minus : Bool) (n : UInt64) :
    (r.offset minus n).denominator = r.denominator := by
  unfold offset
  split
  · rfl
  · split <;> rfl

theorem absolute_mul_div (hr : r.denominator ≠ 0) (hv : v ≠ leastInt)
    (hfit : v.toInt.natAbs * r.denominator.toNat < 2 ^ 64) :
    (absolute v * r.denominator).toNat = v.toInt.natAbs * r.denominator.toNat ∧
      ((absolute v * r.denominator).toNat : ℚ) / r.denominator.toNat = ((|v.toInt| : ℤ) : ℚ) := by
  have hr0 : (r.denominator.toNat : ℚ) ≠ 0 := by exact_mod_cast (toNat_pos hr).ne'
  have hprod : (absolute v * r.denominator).toNat = v.toInt.natAbs * r.denominator.toNat := by
    rw [toNat_mul_of_fits (by rwa [absolute_eq hv]), absolute_eq hv]
  refine ⟨hprod, ?_⟩
  rw [hprod, Nat.cast_mul, mul_div_cancel_right₀ _ hr0, cast_natAbs]

theorem denotes_addInt (hr : r.denominator ≠ 0) (hv : v ≠ leastInt)
    (hfit : v.toInt.natAbs * r.denominator.toNat < 2 ^ 64)
    (hsum : (v < 0 : Bool) = r.negative → r.numerator.toNat + v.toInt.natAbs * r.denominator.toNat < 2 ^ 64) :
    Denotes (r.addInt v) (r.value + v.toInt) := by
  obtain ⟨hprod, hquotient⟩ := absolute_mul_div hr hv hfit
  rw [addInt_eq]
  refine ⟨?_, by rwa [offset_denominator]⟩
  rw [value_offset _ (by rwa [hprod]), hquotient, withSign_abs]

theorem denotes_subInt (hr : r.denominator ≠ 0) (hv : v ≠ leastInt)
    (hfit : v.toInt.natAbs * r.denominator.toNat < 2 ^ 64)
    (hsum : (v < 0 : Bool) ≠ r.negative → r.numerator.toNat + v.toInt.natAbs * r.denominator.toNat < 2 ^ 64) :
    Denotes (r.subInt v) (r.value - v.toInt) := by
  obtain ⟨hprod, hquotient⟩ := absolute_mul_div hr hv hfit
  rw [subInt_eq]
  refine ⟨?_, by rwa [offset_denominator]⟩
  rw [value_offset _ (by
    rw [hprod]
    intro h
    apply hsum
    rw [← h]
    simp), hquotient, withSign_not, withSign_abs, sub_eq_add_neg]

theorem denotes_mulInt (hr : r.denominator ≠ 0) (hv : v ≠ leastInt ∨ r.denominator ≠ 1 ∧ r.numerator ≠ 1)
    (hfit : r.numerator.toNat * v.toInt.natAbs < 2 ^ 32) : Denotes (r.mulInt v) (r.value * v.toInt) := by
  by_cases hleast : v = leastInt
  · subst hleast
    have hne := (hv.resolve_left (not_not_intro rfl)).2
    have hzero : r.numerator = 0 := by
      rw [natAbs_least] at hfit
      have hne' : r.numerator.toNat ≠ 1 := fun h => hne (UInt64.toNat_inj.mp h)
      apply UInt64.toNat_inj.mp
      show r.numerator.toNat = 0
      omega
    have hprod := denotes_ofFactor (n := r.numerator * absolute leastInt) (min r.denominator (absolute leastInt))
      ((leastInt < 0 : Bool) ^^ r.negative) hr
    refine ⟨hprod.value.trans ?_, hprod.denominator_ne⟩
    rw [value_eq_withSign, hzero]
    simp
  · have hfit' : r.numerator.toNat * |v.toInt| < 2 ^ 64 := by
      rw [Int.abs_eq_natAbs]
      exact_mod_cast hfit.trans (by decide)
    have h := value_mulInt hr (natAbs_ne_least hleast) hfit'
    exact ⟨h.1, h.2⟩

theorem denotes_divInt (hr : r.denominator ≠ 0) (hv : v ≠ leastInt) (hv0 : v ≠ 0)
    (hfit : r.denominator.toNat * v.toInt.natAbs < 2 ^ 64) : Denotes (r.divInt v) (r.value / v.toInt) := by
  have habs := absolute_eq hv
  have hfit' : r.denominator.toNat * (absolute v).toNat < 2 ^ 64 := by rwa [habs]
  have hpos : absolute v ≠ 0 := by
    intro h0
    rw [h0] at habs
    have hzero : v.toInt = 0 := Int.natAbs_eq_zero.mp habs.symm
    exact hv0 (Int32.toInt_inj.mp hzero)
  have hquotient := denotes_ofFactor (n := r.numerator) (absolute v) ((v < 0 : Bool) ^^ r.negative)
    (mul_ne_zero_of_fits hr hpos hfit')
  refine ⟨hquotient.value.trans ?_, hquotient.denominator_ne⟩
  have hinv : (v.toInt : ℚ)⁻¹ = withSign (v < 0 : Bool) (((v.toInt.natAbs : ℕ) : ℚ)⁻¹) := by
    rw [← withSign_abs v, cast_natAbs, withSign_inv]
  rw [toNat_mul_of_fits hfit', habs, value_eq_withSign, div_eq_mul_inv _ (v.toInt : ℚ), hinv, ← withSign_mul,
    Bool.xor_comm, Nat.cast_mul, div_mul_eq_div_div, div_eq_mul_inv _ ((v.toInt.natAbs : ℕ) : ℚ)]

theorem denotes_intSub (hr : r.denominator ≠ 0) (hfit : v.toInt.natAbs * r.denominator.toNat < 2 ^ 64)
    (hsum : (v < 0 : Bool) ≠ r.negative → r.numerator.toNat + v.toInt.natAbs * r.denominator.toNat < 2 ^ 64) :
    Denotes (intSub v r) (v.toInt - r.value) := by
  have hnum : (ofInt v).numerator.toNat = v.toInt.natAbs := by
    have h := toNat_ofInt v
    rw [Int.abs_eq_natAbs] at h
    exact_mod_cast h
  have hden : (ofInt v).denominator.toNat = 1 := rfl
  have hlt := r.numerator.toNat_lt
  have hlt' := r.denominator.toNat_lt
  rw [← (denotes_ofInt v).value]
  refine denotes_sub (denotes_ofInt v).denominator_ne hr ⟨by rwa [hnum], ?_⟩ ?_ ?_
  · rwa [hden, Nat.mul_one]
  · rwa [hden, Nat.one_mul]
  · rw [hnum, hden, Nat.mul_one, Nat.add_comm]
    exact hsum

/-! ### Integer parts -/

/-- A number whose terms have 32 bits, as an assignment leaves it alone. -/
structure Small (r : Rational) : Prop where
  denominator_ne : r.denominator ≠ 0
  numerator_lt : r.numerator.toNat < 2 ^ 32
  denominator_lt : r.denominator.toNat < 2 ^ 32

/-- An `int` has room for an integer. -/
def FitsInt (z : ℤ) : Prop := -2 ^ 31 ≤ z ∧ z < 2 ^ 31

theorem intOf_neg (t : UInt64) : intOf (-t) = -intOf t := by
  apply Int32.toBitVec_inj.mp
  show (-t.toBitVec).setWidth 32 = -(t.toBitVec.setWidth 32)
  apply BitVec.eq_of_toNat_eq
  simp only [BitVec.toNat_setWidth, BitVec.toNat_neg]
  omega

theorem toInt_intOf_iff {t : UInt64} {z : ℤ} (h : signed t = z) : (intOf t).toInt = z ↔ FitsInt z := by
  rw [toInt_intOf, h]
  unfold FitsInt
  constructor
  · intro heq
    have hlow := Int.le_bmod (x := z) (m := 2 ^ 32) (by decide)
    have hhigh := Int.bmod_lt (x := z) (m := 2 ^ 32) (by decide)
    omega
  · intro hfits
    exact Int.bmod_eq_of_le (by omega) (by omega)

theorem ceil_div (n : ℕ) {d : ℕ} (hd : 0 < d) : ⌈(n : ℚ) / d⌉ = ((n + (d - 1)) / d : ℕ) := by
  have h1 := Nat.div_mul_le_self (n + (d - 1)) d
  have h2 : n + (d - 1) < (n + (d - 1)) / d * d + d := Nat.lt_div_mul_add hd
  generalize (n + (d - 1)) / d = k at h1 h2
  have hd' : (0 : ℚ) < d := by exact_mod_cast hd
  have hlow : k * d < n + d := by omega
  have hhigh : n ≤ k * d := by omega
  apply Int.ceil_eq_iff.mpr
  constructor
  · rw [lt_div_iff₀ hd']
    have h : (k : ℚ) * d < n + d := by exact_mod_cast hlow
    push_cast
    linarith
  · rw [div_le_iff₀ hd']
    exact_mod_cast hhigh

variable (hr : Small r)
include hr

theorem signed_longLongIntegerPart_small : signed r.longLongIntegerPart = towardZero r.value :=
  signed_longLongIntegerPart hr.denominator_ne (hr.numerator_lt.trans (by decide))

theorem Small.abs_value_lt : |r.value| < 2 ^ 62 := by
  have hpos : (1 : ℚ) ≤ r.denominator.toNat := by exact_mod_cast toNat_pos hr.denominator_ne
  have hlt : (r.numerator.toNat : ℚ) < 2 ^ 32 := by exact_mod_cast hr.numerator_lt
  rw [value_eq_withSign, abs_withSign _ (by positivity)]
  have hle := div_le_self (Nat.cast_nonneg r.numerator.toNat) hpos
  linarith

theorem signed_roundedLongLongIntegerPart_small : signed r.roundedLongLongIntegerPart = nearest r.value :=
  signed_roundedLongLongIntegerPart hr.denominator_ne
    (by have h1 := hr.numerator_lt; have h2 := hr.denominator_lt; omega) hr.abs_value_lt

theorem signed_roundedUpLongLongIntegerPart : signed r.roundedUpLongLongIntegerPart = awayFromZero r.value := by
  have hn := hr.numerator_lt
  have hd := hr.denominator_lt
  have hpos := toNat_pos hr.denominator_ne
  have h1 : (1 : UInt64).toNat = 1 := rfl
  have hsub : (r.denominator - 1).toNat = r.denominator.toNat - 1 := by
    rw [UInt64.toNat_sub_of_le _ _ (UInt64.le_iff_toNat_le.mpr (by omega)), h1]
  have hpart : ((r.numerator + (r.denominator - 1)) / r.denominator).toNat =
      (r.numerator.toNat + (r.denominator.toNat - 1)) / r.denominator.toNat := by
    rw [UInt64.toNat_div, UInt64.toNat_add, hsub, Nat.mod_eq_of_lt (by omega)]
  refine signed_of_sign Int.ceil_zero (by positivity) ?_ ?_ r.negative
  · rw [hpart, ceil_div _ hpos]
  · rw [hpart]
    exact (Nat.div_le_self _ _).trans_lt (by omega)

theorem integerPart_eq : r.integerPart = intOf r.longLongIntegerPart := by
  unfold integerPart longLongIntegerPart
  rw [if_neg hr.denominator_ne]

omit hr in
theorem roundedIntegerPart_eq (r : Rational) : r.roundedIntegerPart = intOf r.roundedLongLongIntegerPart := by
  unfold roundedIntegerPart roundedLongLongIntegerPart
  cases r.negative
  · rfl
  · exact (intOf_neg _).symm

omit hr in
theorem roundedUpIntegerPart_eq (r : Rational) :
    r.roundedUpIntegerPart = intOf r.roundedUpLongLongIntegerPart := by
  unfold roundedUpIntegerPart roundedUpLongLongIntegerPart
  cases r.negative
  · rfl
  · exact (intOf_neg _).symm

omit hr

/-! ### All of it -/

/-- A product or a sum of 32 bits. -/
def Fits (n : ℕ) : Prop := n < 2 ^ 32

instance (n : ℕ) : Decidable (Fits n) := by unfold Fits; infer_instance

/-- The operators are exact where what they multiply and add up fits, and the integer parts round. -/
structure Exact (r f : Rational) (v : Int32) : Prop where
  add : Fits (r.numerator.toNat * f.denominator.toNat) → Fits (f.numerator.toNat * r.denominator.toNat) →
    Fits (r.denominator.toNat * f.denominator.toNat) →
    (r.negative = f.negative →
      Fits (r.numerator.toNat * f.denominator.toNat + f.numerator.toNat * r.denominator.toNat)) →
    Denotes (r.add f) (r.value + f.value)
  sub : Fits (r.numerator.toNat * f.denominator.toNat) → Fits (f.numerator.toNat * r.denominator.toNat) →
    Fits (r.denominator.toNat * f.denominator.toNat) →
    (r.negative ≠ f.negative →
      Fits (r.numerator.toNat * f.denominator.toNat + f.numerator.toNat * r.denominator.toNat)) →
    Denotes (r.sub f) (r.value - f.value)
  mul : Fits (r.numerator.toNat * f.numerator.toNat) → Fits (r.denominator.toNat * f.denominator.toNat) →
    Denotes (r.mul f) (r.value * f.value)
  div : f.numerator ≠ 0 → Fits (r.numerator.toNat * f.denominator.toNat) →
    Fits (r.denominator.toNat * f.numerator.toNat) → Denotes (r.div f) (r.value / f.value)
  addInt : Fits (v.toInt.natAbs * r.denominator.toNat) →
    ((v < 0 : Bool) = r.negative → Fits (r.numerator.toNat + v.toInt.natAbs * r.denominator.toNat)) →
    Denotes (r.addInt v) (r.value + v.toInt)
  subInt : Fits (v.toInt.natAbs * r.denominator.toNat) →
    ((v < 0 : Bool) ≠ r.negative → Fits (r.numerator.toNat + v.toInt.natAbs * r.denominator.toNat)) →
    Denotes (r.subInt v) (r.value - v.toInt)
  intSub : Fits (v.toInt.natAbs * r.denominator.toNat) →
    ((v < 0 : Bool) ≠ r.negative → Fits (r.numerator.toNat + v.toInt.natAbs * r.denominator.toNat)) →
    Denotes (intSub v r) (v.toInt - r.value)
  mulInt : Fits (r.numerator.toNat * v.toInt.natAbs) → Denotes (r.mulInt v) (r.value * v.toInt)
  divInt : v ≠ 0 → Fits (r.denominator.toNat * v.toInt.natAbs) → Denotes (r.divInt v) (r.value / v.toInt)
  intDiv : r.numerator ≠ 0 → Fits (v.toInt.natAbs * r.denominator.toNat) →
    Denotes (intDiv v r) (v.toInt / r.value)
  longLongIntegerPart : signed r.longLongIntegerPart = towardZero r.value
  integerPart : r.integerPart.toInt = towardZero r.value
  roundedLongLongIntegerPart : signed r.roundedLongLongIntegerPart = nearest r.value
  roundedIntegerPart : r.roundedIntegerPart.toInt = nearest r.value
  roundedUpLongLongIntegerPart : signed r.roundedUpLongLongIntegerPart = awayFromZero r.value
  roundedUpIntegerPart : r.roundedUpIntegerPart.toInt = awayFromZero r.value

theorem Fits.lt {n : ℕ} (h : Fits n) : n < 2 ^ 64 := h.trans (by decide)

theorem not_denotes_least (hd : r.denominator = 1) (minus : Bool)
    (hsign : minus ≠ r.negative) :
    ¬ Denotes (r.offset minus (absolute leastInt * r.denominator)) (r.value + withSign minus (2 ^ 31)) := by
  intro h
  have hword : (absolute leastInt * r.denominator).toNat = 2 ^ 64 - 2 ^ 31 := by
    rw [hd, UInt64.mul_one, absolute_least]
  have hvalue := value_offset (r := r) (n := absolute leastInt * r.denominator) minus
    fun heq => absurd heq hsign
  have hden : (r.denominator.toNat : ℚ) = 1 := by
    rw [hd]
    rfl
  rw [h.value, hword, hden, div_one, add_right_inj] at hvalue
  have hword' : (((2 ^ 64 - 2 ^ 31 : ℕ)) : ℚ) = 2 ^ 64 - 2 ^ 31 := by norm_num
  cases minus
  · norm_num [withSign] at hvalue
  · norm_num [withSign] at hvalue

theorem not_denotes_mulInt_least (hn : r.numerator = 1) (hd : r.denominator ≠ 0) :
    ¬ Denotes (r.mulInt leastInt) (r.value * leastInt.toInt) := by
  intro h
  have hprod := denotes_ofFactor (n := r.numerator * absolute leastInt) (min r.denominator (absolute leastInt))
    ((leastInt < 0 : Bool) ^^ r.negative) hd
  have hvalue := h.value.symm.trans hprod.value
  have hd0 : (r.denominator.toNat : ℚ) ≠ 0 := by exact_mod_cast (toNat_pos hd).ne'
  have hone : (r.numerator.toNat : ℚ) = 1 := by
    rw [hn]
    rfl
  have hword : ((r.numerator * absolute leastInt).toNat : ℚ) = 2 ^ 64 - 2 ^ 31 := by
    rw [hn, UInt64.one_mul, absolute_least]
    norm_num
  have hleast : ((leastInt.toInt : ℤ) : ℚ) = -2 ^ 31 := by
    have h : leastInt.toInt = -2 ^ 31 := by decide
    rw [h]
    norm_num
  have hminus : (leastInt < 0 : Bool) = true := by decide
  rw [value_eq_withSign, hone, hword, hleast, hminus, Bool.true_xor, withSign_not] at hvalue
  cases hneg : r.negative
  · rw [hneg] at hvalue
    simp only [withSign_false] at hvalue
    field_simp at hvalue
    norm_num at hvalue
  · rw [hneg] at hvalue
    simp only [withSign_true] at hvalue
    field_simp at hvalue
    norm_num at hvalue

/-- **Exact arithmetic**: on numbers with terms of 32 bits every operator is exact where what it multiplies
and adds up has 32 bits, and the integer parts round, if and only if the integer is not the least `int`, or
neither term is one, and an `int` has room for the number rounded away from zero. -/
theorem operators_exact_iff (hr : Small r) (hf : Small f) :
    Exact r f v ↔ (v ≠ leastInt ∨ r.denominator ≠ 1 ∧ r.numerator ≠ 1) ∧ FitsInt (awayFromZero r.value) := by
  have hup := signed_roundedUpLongLongIntegerPart hr
  constructor
  · intro h
    refine ⟨?_, ?_⟩
    · by_contra hleast
      push Not at hleast
      obtain ⟨rfl, hone⟩ := hleast
      have hcast : ((leastInt.toInt : ℤ) : ℚ) = -2 ^ 31 := by
        have h : leastInt.toInt = -2 ^ 31 := by decide
        rw [h]
        norm_num
      have hminus : (leastInt < 0 : Bool) = true := by decide
      by_cases hden : r.denominator = 1
      · have hfit : Fits (leastInt.toInt.natAbs * r.denominator.toNat) := by
          rw [hden]
          decide
        cases hneg : r.negative with
        | false =>
          have hadd := h.addInt hfit fun heq => by simp [hneg, hminus] at heq
          rw [addInt_eq, hminus, hcast] at hadd
          exact not_denotes_least hden true (by simp [hneg]) (by simpa using hadd)
        | true =>
          have hsub := h.subInt hfit fun hne => by simp [hneg, hminus] at hne
          rw [subInt_eq, hminus, hcast] at hsub
          exact not_denotes_least hden false (by simp [hneg]) (by simpa using hsub)
      · have hnum := hone hden
        refine not_denotes_mulInt_least hnum hr.denominator_ne (h.mulInt ?_)
        rw [hnum]
        decide
    · have hint := h.roundedUpIntegerPart
      rw [roundedUpIntegerPart_eq] at hint
      exact (toInt_intOf_iff hup).mp hint
  · rintro ⟨hv, hfits⟩
    -- the least `int` is excluded where its products fit
    have hvden : Fits (v.toInt.natAbs * r.denominator.toNat) → v ≠ leastInt := by
      rintro hfit rfl
      have hden := (hv.resolve_left (not_not_intro rfl)).1
      have hpos := toNat_pos hr.denominator_ne
      have hne : r.denominator.toNat ≠ 1 := fun h => hden (UInt64.toNat_inj.mp h)
      rw [natAbs_least] at hfit
      unfold Fits at hfit
      omega
    have hnear := nearest_between r.value
    have hzero := towardZero_between r.value
    have hroom : ∀ z, min 0 (awayFromZero r.value) ≤ z → z ≤ max 0 (awayFromZero r.value) → FitsInt z := by
      intro z hlow hhigh
      unfold FitsInt at hfits ⊢
      omega
    exact
      { add := fun h1 h2 h3 h4 =>
          denotes_add hr.denominator_ne hf.denominator_ne ⟨h1.lt, h2.lt⟩ h3.lt fun h => (h4 h).lt
        sub := fun h1 h2 h3 h4 =>
          denotes_sub hr.denominator_ne hf.denominator_ne ⟨h1.lt, h2.lt⟩ h3.lt fun h => (h4 h).lt
        mul := fun h1 h2 => denotes_mul hr.denominator_ne hf.denominator_ne h1.lt h2.lt
        div := fun h1 h2 h3 => denotes_div hr.denominator_ne h1 h2.lt h3.lt
        addInt := fun h1 h2 => denotes_addInt hr.denominator_ne (hvden h1) h1.lt fun h => (h2 h).lt
        subInt := fun h1 h2 => denotes_subInt hr.denominator_ne (hvden h1) h1.lt fun h => (h2 h).lt
        intSub := fun h1 h2 => denotes_intSub hr.denominator_ne h1.lt fun h => (h2 h).lt
        mulInt := fun h1 => denotes_mulInt hr.denominator_ne hv h1
        divInt := fun h1 h2 => denotes_divInt hr.denominator_ne (hvden (by rwa [Nat.mul_comm])) h1 h2.lt
        intDiv := fun h1 h2 => by
          have hfit : |v.toInt| * r.denominator.toNat < 2 ^ 64 := by
            rw [Int.abs_eq_natAbs]
            exact_mod_cast h2.lt
          exact ⟨(value_intDiv h1 hfit).1, (value_intDiv h1 hfit).2⟩
        longLongIntegerPart := signed_longLongIntegerPart_small hr
        integerPart := by
          rw [integerPart_eq hr]
          exact (toInt_intOf_iff (signed_longLongIntegerPart_small hr)).mpr (hroom _ hzero.1 hzero.2)
        roundedLongLongIntegerPart := signed_roundedLongLongIntegerPart_small hr
        roundedIntegerPart := by
          rw [roundedIntegerPart_eq]
          exact (toInt_intOf_iff (signed_roundedLongLongIntegerPart_small hr)).mpr (hroom _ hnear.1 hnear.2)
        roundedUpLongLongIntegerPart := hup
        roundedUpIntegerPart := by
          rw [roundedUpIntegerPart_eq]
          exact (toInt_intOf_iff hup).mpr hfits }

theorem operators_exact_iff_halves : Exact ⟨false, 7, 2⟩ ⟨true, 3, 5⟩ (-4) ↔
    ((-4 : Int32) ≠ leastInt ∨ (2 : UInt64) ≠ 1 ∧ (7 : UInt64) ≠ 1) ∧
      FitsInt (awayFromZero (Rational.mk false 7 2).value) :=
  operators_exact_iff (r := ⟨false, 7, 2⟩) (f := ⟨true, 3, 5⟩) ⟨by decide, by decide, by decide⟩
    ⟨by decide, by decide, by decide⟩

/-- One times the least `int` is not that `int`. -/
theorem not_exact : ¬ ∀ (r f : Rational) (v : Int32), Small r → Small f → Exact r f v := by
  intro hall
  have hone : Small ⟨false, 1, 1⟩ := ⟨by decide, by decide, by decide⟩
  exact not_denotes_mulInt_least rfl (by decide) ((hall _ _ leastInt hone hone).mulInt (by decide))

end

end Player2.Rational
