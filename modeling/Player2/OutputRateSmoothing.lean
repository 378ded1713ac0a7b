import Mathlib.Algebra.Order.Floor.Semifield
import Player2.RationalBounds
import Player2.Run

/-! # Smoothing the output rate

`Manifestor_Base_c::DerivePPMValueFromOutputRateAdjustment`.  The output clock is set in whole parts per
million.  When the rate changes, the value moves to the integer part of the new one by one part per million
a frame (`approach`); then, once every so many frames, it is chosen between the integer part and the next
one, so that on average it is the rate (`recalculate`).

The value moves in steps of one as long as the rates fit the `int` in which it is returned, and of the first
`k` values chosen `⌊k f⌋` are raised, `f` being the fraction of the rate (`smoothed`).  A rate above
`2 ^ 31` parts per million makes the value that is returned negative on the way (`not_smoothed`). -/

namespace Player2

/-- What `Manifestor_Base_c` keeps for the output rate. -/
structure OutputRateSmoothing where
  framesSinceLastCalculation : UInt32
  index : UInt32
  lastRate : Rational
  subPPMPart : Rational
  baseValue : UInt32
  lastValue : UInt32
  movingTo : Bool
deriving DecidableEq, Repr

namespace OutputRateSmoothing

open Rational (Plain toInt_toInt32)

/-! ### The function -/

/-- The constructor. -/
def start : OutputRateSmoothing where
  framesSinceLastCalculation := 0
  index := 0
  lastRate := Rational.ofInt 0
  subPPMPart := Rational.ofInt 0
  baseValue := 1000000
  lastValue := 1000000
  movingTo := false

/-- What is left of a rate below one part per million. -/
def fractionOf (rate : Rational) : Rational := (rate.mulInt 1000000).remainder.restrict

/-- The rate in whole parts per million. -/
def baseOf (rate : Rational) : UInt32 := (rate.mulInt 1000000).integerPart.toUInt32

variable (s : OutputRateSmoothing)

/-- Reset on changed rate. -/
def change (rate : Rational) : OutputRateSmoothing :=
  if rate.ne s.lastRate then
    { s with
      framesSinceLastCalculation := 0
      index := 0
      lastRate := rate.restrict
      subPPMPart := fractionOf rate
      baseValue := baseOf rate
      movingTo := true }
  else s

/-- The value is still on its way to the new rate. -/
def approaching : Bool := s.movingTo && s.lastValue != s.baseValue

/-- One part per million towards the new rate. -/
def approach : OutputRateSmoothing :=
  { s with lastValue := if s.lastValue > s.baseValue then s.lastValue - 1 else s.lastValue + 1 }

/-- The multiple of the fraction before, and the next one. -/
def parts : Rational × Rational :=
  let subPartValue0 := (s.subPPMPart.mulInt s.index.toInt32).restrict
  (subPartValue0, (subPartValue0.add s.subPPMPart).restrict)

/-- The next multiple of the fraction passes an integer. -/
def raises : Bool := s.parts.1.integerPart != s.parts.2.integerPart

/-- Choose the value for the next frames. -/
def recalculate : OutputRateSmoothing :=
  { s with
    index := s.index + 1
    lastValue := if s.raises then s.baseValue + 1 else s.baseValue
    framesSinceLastCalculation := 0 }

/-- The call chooses a value. -/
def recalculates (framesBetween : UInt32) (rate : Rational) : Bool :=
  !(s.change rate).approaching && !decide ((s.change rate).framesSinceLastCalculation < framesBetween)

/-- `DerivePPMValueFromOutputRateAdjustment`; the value returned is `lastValue`. -/
def derive (framesBetween : UInt32) (rate : Rational) : OutputRateSmoothing :=
  let s := s.change rate
  if s.approaching then s.approach
  else
    let s := { s with movingTo := false }
    if s.framesSinceLastCalculation < framesBetween then
      { s with framesSinceLastCalculation := s.framesSinceLastCalculation + 1 }
    else s.recalculate

/-- The values returned by a sequence of calls. -/
def returned (framesBetween : UInt32) : OutputRateSmoothing → List Rational → List Int32
  | _, [] => []
  | s, rate :: rates =>
    (s.derive framesBetween rate).lastValue.toInt32 :: returned framesBetween (s.derive framesBetween rate) rates

/-! ### Rates -/

/-- A positive rate, as a variable holds it. -/
structure IsRate (rate : Rational) : Prop where
  nonneg : rate.negative = false
  numerator_ne : rate.numerator ≠ 0
  denominator_ne : rate.denominator ≠ 0
  numerator_le : rate.numerator.toNat ≤ 2 ^ 32
  denominator_le : rate.denominator.toNat ≤ 2 ^ 32

variable {rate : Rational}

theorem IsRate.million (h : IsRate rate) : (rate.mulInt 1000000).negative = false ∧
    (rate.mulInt 1000000).denominator ≠ 0 ∧ (rate.mulInt 1000000).denominator.toNat ≤ 2 ^ 32 ∧
    (rate.mulInt 1000000).value = rate.value * 10 ^ 6 := by
  have hint : (1000000 : Int32).toInt = 1000000 := rfl
  have hfit : rate.numerator.toNat * |(1000000 : Int32).toInt| < 2 ^ 64 := by
    rw [hint]
    have := h.numerator_le
    norm_num
    omega
  obtain ⟨hvalue, hne⟩ := Rational.value_mulInt h.denominator_ne (by decide) hfit
  refine ⟨(Rational.negative_mulInt (by decide) rate).trans h.nonneg, hne,
    (Rational.mulInt_le (by decide) hfit).2.trans h.denominator_le, ?_⟩
  rw [hvalue, hint]
  norm_num

theorem IsRate.toNat_baseOf (h : IsRate rate) : (baseOf rate).toNat = ⌊rate.value * 10 ^ 6⌋₊ % 2 ^ 32 := by
  obtain ⟨hneg, hne, -, hvalue⟩ := h.million
  have hword : (baseOf rate).toNat =
      ((rate.mulInt 1000000).numerator / (rate.mulInt 1000000).denominator).toNat % 2 ^ 32 := by
    unfold baseOf Rational.integerPart
    rw [hneg, if_neg Bool.false_ne_true]
    rfl
  rw [hword, UInt64.toNat_div, ← hvalue, Rational.value_of_nonneg hneg, Nat.floor_div_eq_div]

theorem restrict_nothing {d : UInt64} (hd : d ≠ 0) (hle : d.toNat ≤ 2 ^ 32) :
    (Rational.mk false 0 d).restrict = ⟨false, 0, 1⟩ := by
  rcases Nat.lt_or_eq_of_le hle with hlt | heq
  · have h0 : (Rational.mk false 0 d).numerator.toNat < 2 ^ 32 := Nat.two_pow_pos 32
    rw [Rational.restrict_of_lt h0 hlt]
    unfold Rational.reduced
    dsimp only
    split
    next => rw [if_pos (by rw [UInt64.zero_div, UInt64.mul_zero]), UInt64.zero_div]
    next h =>
      have hone : d = 1 := by
        by_contra hne
        exact h ⟨hne, by decide, hd⟩
      rw [hone]
  · obtain rfl : d = 0x100000000 := UInt64.toNat_inj.mp heq
    decide +kernel

theorem IsRate.fractionOf_eq (h : IsRate rate) (hfract : Int.fract (rate.value * 10 ^ 6) = 0) :
    fractionOf rate = ⟨false, 0, 1⟩ := by
  obtain ⟨hneg, hne, hle, hvalue⟩ := h.million
  obtain ⟨hrest, hne'⟩ := Rational.value_remainder hneg hne
  have hneg' := (Rational.negative_remainder (rate.mulInt 1000000)).trans hneg
  have hle' := (Rational.remainder_le (rate.mulInt 1000000)).2.trans hle
  rw [hvalue, hfract, Rational.value_of_nonneg hneg', div_eq_zero_iff] at hrest
  have hzero : (rate.mulInt 1000000).remainder.numerator = 0 := by
    rcases hrest with hzero | hzero
    · exact UInt64.toNat_inj.mp (by exact_mod_cast hzero)
    · exact absurd hzero (Rational.denominator_pos hne').ne'
  unfold fractionOf
  have hmk : (rate.mulInt 1000000).remainder = ⟨false, 0, (rate.mulInt 1000000).remainder.denominator⟩ := by
    rw [← hneg', ← hzero]
  rw [hmk]
  exact restrict_nothing hne' hle'

theorem not_raises (h : s.subPPMPart = ⟨false, 0, 1⟩) : s.raises = false := by
  have hzero : ∀ v : Int32, (Rational.mk false 0 1).mulInt v = ⟨decide (v < 0), 0, 1⟩ := by
    intro v
    have hle := Rational.ofFactor_le ((0 : UInt64) * Rational.absolute v) 1 (min 1 (Rational.absolute v))
      (decide (v < 0) ^^ false)
    have hne := (Rational.value_ofFactor (n := (0 : UInt64) * Rational.absolute v) (d := 1)
      (min 1 (Rational.absolute v)) (decide (v < 0) ^^ false) (by decide)).2
    have hneg := Rational.negative_ofFactor ((0 : UInt64) * Rational.absolute v) 1 (min 1 (Rational.absolute v))
      (decide (v < 0) ^^ false)
    rw [UInt64.zero_mul] at hle hne hneg
    unfold Rational.mulInt
    rw [UInt64.zero_mul]
    generalize Rational.ofFactor 0 1 (min 1 (Rational.absolute v)) (decide (v < 0) ^^ false) = r at hle hne hneg
    have hnum : r.numerator = 0 := UInt64.toNat_inj.mp (Nat.le_zero.mp hle.1)
    have hden : r.denominator = 1 := by
      have hpos := Rational.toNat_pos hne
      have hone : (1 : UInt64).toNat = 1 := rfl
      rw [hone] at hle
      exact UInt64.toNat_inj.mp (by rw [hone]; omega)
    rw [Bool.xor_false] at hneg
    rw [← hneg, ← hnum, ← hden]
  unfold raises parts
  rw [h, hzero]
  cases decide (s.index.toInt32 < 0) <;> decide +kernel

/-! ### Steps of one part per million -/

/-- The base and the value fit an `int`, also when the value is raised, and the value stands at the base or above
it when it is not on its way. -/
structure Fits : Prop where
  base_le : s.baseValue.toNat ≤ 2 ^ 31 - 1
  last_le : s.lastValue.toNat ≤ 2 ^ 31 - 1
  whole : s.baseValue.toNat = 2 ^ 31 - 1 → s.subPPMPart = ⟨false, 0, 1⟩
  near : s.movingTo = false → s.lastValue.toNat = s.baseValue.toNat ∨ s.lastValue.toNat = s.baseValue.toNat + 1

theorem fits_start : Fits start := ⟨by decide, by decide, fun _ => rfl, fun _ => .inl rfl⟩

variable {s}

theorem Fits.change (h : Fits s) (hrate : IsRate rate) (hle : rate.value * 10 ^ 6 ≤ 2 ^ 31 - 1) :
    Fits (s.change rate) := by
  unfold OutputRateSmoothing.change
  split
  next =>
    have hfloor : ⌊rate.value * 10 ^ 6⌋₊ ≤ 2 ^ 31 - 1 := Nat.floor_le_of_le (by exact_mod_cast hle)
    have hbase : (baseOf rate).toNat = ⌊rate.value * 10 ^ 6⌋₊ := by
      rw [hrate.toNat_baseOf]
      exact Nat.mod_eq_of_lt (by omega)
    refine
      { base_le := hbase.trans_le hfloor
        last_le := h.last_le
        whole := ?_
        near := fun h => Bool.noConfusion h }
    intro hmax
    refine hrate.fractionOf_eq ?_
    have hnonneg : 0 ≤ rate.value * 10 ^ 6 := by
      have := Rational.value_nonneg hrate.nonneg
      positivity
    have hge := Nat.floor_le hnonneg
    rw [← hbase, hmax] at hge
    have heq : rate.value * 10 ^ 6 = ((2 ^ 31 - 1 : ℤ) : ℚ) := by
      refine le_antisymm (by exact_mod_cast hle) ?_
      push_cast at hge ⊢
      linarith
    rw [heq, Int.fract_intCast]
  next => exact h

theorem change_lastValue (s : OutputRateSmoothing) (rate : Rational) :
    (s.change rate).lastValue = s.lastValue := by
  unfold change
  split <;> rfl

/-- A step keeps what fits, and moves the value by at most one. -/
theorem Fits.derive (framesBetween : UInt32) (h : Fits s) (hrate : IsRate rate)
    (hle : rate.value * 10 ^ 6 ≤ 2 ^ 31 - 1) :
    Fits (s.derive framesBetween rate) ∧
      (s.derive framesBetween rate).lastValue.toNat ≤ s.lastValue.toNat + 1 ∧
      s.lastValue.toNat ≤ (s.derive framesBetween rate).lastValue.toNat + 1 := by
  have hc := h.change hrate hle
  have hlast := congrArg UInt32.toNat (change_lastValue s rate)
  have hone : (1 : UInt32).toNat = 1 := rfl
  have hadd : ∀ n : UInt32, n.toNat < 2 ^ 31 → (n + 1).toNat = n.toNat + 1 := by
    intro n hn
    rw [UInt32.toNat_add, hone]
    exact Nat.mod_eq_of_lt (by omega)
  rw [← hlast]
  unfold OutputRateSmoothing.derive
  generalize s.change rate = t at hc
  have hbase := hc.base_le
  have hvalue := hc.last_le
  dsimp only
  split
  next happroaching =>
    unfold approaching at happroaching
    simp only [Bool.and_eq_true, bne_iff_ne, ne_eq] at happroaching
    have hne : t.lastValue.toNat ≠ t.baseValue.toNat := fun heq =>
      happroaching.2 (UInt32.toNat_inj.mp heq)
    have hmoving : t.approach.movingTo = true := happroaching.1
    have hnear : t.approach.movingTo = false → t.approach.lastValue.toNat = t.approach.baseValue.toNat ∨
        t.approach.lastValue.toNat = t.approach.baseValue.toNat + 1 := fun h0 =>
      absurd (hmoving.symm.trans h0) Bool.noConfusion
    unfold approach at hnear ⊢
    rcases Nat.lt_or_gt_of_ne hne with hlt | hgt
    · have hnot : ¬t.lastValue > t.baseValue := fun hgt' => by
        have := UInt32.lt_iff_toNat_lt.mp hgt'
        omega
      have hstep := hadd t.lastValue (by omega)
      rw [if_neg hnot] at hnear ⊢
      refine ⟨⟨hbase, ?_, hc.whole, hnear⟩, ?_, ?_⟩
      · show (t.lastValue + 1).toNat ≤ _
        omega
      · exact hstep.le
      · show _ ≤ (t.lastValue + 1).toNat + 1
        omega
    · have hpos : t.lastValue > t.baseValue := UInt32.lt_iff_toNat_lt.mpr hgt
      have hstep : (t.lastValue - 1).toNat = t.lastValue.toNat - 1 :=
        UInt32.toNat_sub_of_le _ _ (by rw [UInt32.le_iff_toNat_le, hone]; omega)
      rw [if_pos hpos] at hnear ⊢
      refine ⟨⟨hbase, ?_, hc.whole, hnear⟩, ?_, ?_⟩
      · show (t.lastValue - 1).toNat ≤ _
        omega
      · show (t.lastValue - 1).toNat ≤ _
        omega
      · show _ ≤ (t.lastValue - 1).toNat + 1
        omega
  next happroaching =>
    have hnear : t.lastValue.toNat = t.baseValue.toNat ∨ t.lastValue.toNat = t.baseValue.toNat + 1 := by
      cases hm : t.movingTo with
      | false => exact hc.near hm
      | true =>
        left
        unfold approaching at happroaching
        simp only [hm, Bool.true_and, bne_iff_ne, ne_eq, not_not] at happroaching
        rw [happroaching]
    split
    next => exact ⟨⟨hbase, hvalue, hc.whole, fun _ => hnear⟩, Nat.le_succ _, Nat.le_succ _⟩
    next =>
      have hchosen : ∀ b : Bool, (b = true → t.baseValue.toNat ≠ 2 ^ 31 - 1) →
          (if b then t.baseValue + 1 else t.baseValue).toNat = t.baseValue.toNat + b.toNat ∧
            t.baseValue.toNat + b.toNat ≤ 2 ^ 31 - 1 := by
        intro b hb
        cases b with
        | true =>
          have := hb rfl
          exact ⟨hadd t.baseValue (by omega), by rw [Bool.toNat_true]; omega⟩
        | false => exact ⟨rfl, hbase⟩
      obtain ⟨hsum, hsum'⟩ := hchosen ({ t with movingTo := false }).raises fun hraises hmax =>
        Bool.false_ne_true ((not_raises _ (hc.whole hmax)).symm.trans hraises)
      have hbit := Bool.toNat_le ({ t with movingTo := false }).raises
      unfold recalculate
      refine ⟨⟨hbase, ?_, hc.whole, fun _ => ?_⟩, ?_, ?_⟩
      · exact hsum.trans_le hsum'
      · rw [hsum]
        dsimp only
        omega
      · rw [hsum]
        omega
      · rw [hsum]
        omega

/-- Values that differ by at most one. -/
def Close (a b : Int32) : Prop := |b.toInt - a.toInt| ≤ 1

theorem isChain_returned (framesBetween : UInt32) {rates : List Rational}
    (hrates : ∀ rate ∈ rates, IsRate rate ∧ rate.value * 10 ^ 6 ≤ 2 ^ 31 - 1) (h : Fits s) :
    (s.lastValue.toInt32 :: s.returned framesBetween rates).IsChain Close := by
  induction rates generalizing s with
  | nil => exact List.isChain_singleton _
  | cons rate rates ih =>
    obtain ⟨hrate, hrest⟩ := List.forall_mem_cons.mp hrates
    obtain ⟨hfits, hup, hdown⟩ := h.derive framesBetween hrate.1 hrate.2
    refine List.isChain_cons_cons.mpr ⟨?_, ih hrest hfits⟩
    have hle := h.last_le
    have hle' := hfits.last_le
    unfold Close
    rw [toInt_toInt32 (by omega), toInt_toInt32 (by omega), abs_le]
    omega

/-! ### The fraction -/

theorem plain_fractionOf (hrate : Plain rate) (hne : rate.numerator ≠ 0) : Plain (fractionOf rate) ∧
    (fractionOf rate).value = Int.fract (rate.value * 10 ^ 6) := by
  have his : IsRate rate :=
    ⟨hrate.nonneg, hne, hrate.denominator_ne, hrate.numerator_lt.le, hrate.denominator_lt.le⟩
  obtain ⟨hneg, hne', -, hvalue⟩ := his.million
  have hden : (rate.mulInt 1000000).denominator.toNat < 2 ^ 32 := by
    refine (Rational.mulInt_le (by decide) ?_).2.trans_lt hrate.denominator_lt
    have := hrate.numerator_lt
    have hint : (1000000 : Int32).toInt = 1000000 := rfl
    rw [hint]
    norm_num
    omega
  have hrest := Rational.value_remainder hneg hne'
  have hneg' := (Rational.negative_remainder (rate.mulInt 1000000)).trans hneg
  have hden' := (Rational.remainder_le (rate.mulInt 1000000)).2.trans_lt hden
  -- a fraction is less than one, so its numerator is no larger than its denominator
  have hlt : (rate.mulInt 1000000).remainder.value < 1 := hrest.1.trans_lt (Int.fract_lt_one _)
  rw [Rational.value_of_nonneg hneg', div_lt_one (Rational.denominator_pos hrest.2)] at hlt
  have hnum : (rate.mulInt 1000000).remainder.numerator.toNat <
      (rate.mulInt 1000000).remainder.denominator.toNat := by exact_mod_cast hlt
  have hplain : Plain (rate.mulInt 1000000).remainder := ⟨hneg', hrest.2, hnum.trans hden', hden'⟩
  exact ⟨hplain.restrict, hplain.value_restrict.trans (hrest.1.trans (congrArg Int.fract hvalue))⟩

theorem ne_restrict (hrate : Plain rate) : rate.ne rate.restrict = false := by
  have hplain := hrate.restrict
  have hvalue := hrate.value_restrict
  rw [Rational.value_of_nonneg hplain.nonneg, Rational.value_of_nonneg hrate.nonneg,
    div_eq_div_iff (Rational.denominator_pos hplain.denominator_ne).ne'
      (Rational.denominator_pos hrate.denominator_ne).ne'] at hvalue
  have hcross : rate.restrict.numerator.toNat * rate.denominator.toNat =
      rate.numerator.toNat * rate.restrict.denominator.toNat := by exact_mod_cast hvalue
  have hwords : rate.numerator * rate.restrict.denominator = rate.restrict.numerator * rate.denominator := by
    apply UInt64.toNat_inj.mp
    rw [UInt64.toNat_mul, UInt64.toNat_mul, hcross]
  unfold Rational.ne
  rw [hwords, Rational.negative_restrict, bne_self_eq_false, bne_self_eq_false]
  rfl

/-- A sum with a multiple of the same fraction has the denominator of the fraction. -/
theorem plain_next {f part : Rational} {i : ℕ} (hf : Plain f) (hpart : Plain part) (hvalue : part.value = i * f.value)
    (hlt : (i + 1) * f.numerator.toNat < 2 ^ 32) :
    Plain (part.add f) ∧ (part.add f).value = (i + 1) * f.value := by
  have hfd := Rational.denominator_pos hf.denominator_ne
  have hpd := Rational.denominator_pos hpart.denominator_ne
  have hcross : part.numerator.toNat * f.denominator.toNat =
      i * f.numerator.toNat * part.denominator.toNat := by
    rw [Rational.value_of_nonneg hpart.nonneg, Rational.value_of_nonneg hf.nonneg, ← mul_div_assoc,
      div_eq_div_iff hpd.ne' hfd.ne'] at hvalue
    exact_mod_cast hvalue
  have hnum : part.numerator.toNat * f.denominator.toNat + f.numerator.toNat * part.denominator.toNat =
      part.denominator.toNat * ((i + 1) * f.numerator.toNat) := by
    rw [hcross]
    ring
  have hpow : 2 ^ 32 * 2 ^ 32 = 2 ^ 64 := rfl
  have hnum64 : part.numerator.toNat * f.denominator.toNat + f.numerator.toNat * part.denominator.toNat <
      2 ^ 64 := by
    rw [hnum]
    exact (Nat.mul_lt_mul'' hpart.denominator_lt hlt).trans_eq hpow
  have hden64 : part.denominator.toNat * f.denominator.toNat < 2 ^ 64 :=
    (Nat.mul_lt_mul'' hpart.denominator_lt hf.denominator_lt).trans_eq hpow
  obtain ⟨hsum, hne⟩ := Rational.value_add hpart.nonneg hf.nonneg hpart.denominator_ne hf.denominator_ne
    hnum64 hden64
  have hterms : (part.add f).numerator.toNat = (i + 1) * f.numerator.toNat ∧
      (part.add f).denominator.toNat = f.denominator.toNat := by
    have hn : (part.numerator * f.denominator + f.numerator * part.denominator).toNat =
        part.denominator.toNat * ((i + 1) * f.numerator.toNat) := by
      rw [UInt64.toNat_add, UInt64.toNat_mul, UInt64.toNat_mul,
        Nat.mod_eq_of_lt (Nat.lt_of_le_of_lt (Nat.le_add_right _ _) hnum64),
        Nat.mod_eq_of_lt (Nat.lt_of_le_of_lt (Nat.le_add_left _ _) hnum64), Nat.mod_eq_of_lt hnum64, hnum]
    have hd : (part.denominator * f.denominator).toNat = part.denominator.toNat * f.denominator.toNat := by
      rw [UInt64.toNat_mul, Nat.mod_eq_of_lt hden64]
    have hpos := Rational.toNat_pos hpart.denominator_ne
    unfold Rational.add Rational.ofFactor
    rw [hpart.nonneg, hf.nonneg, Bool.xor_false, if_neg Bool.false_ne_true, if_pos]
    · exact ⟨by rw [UInt64.toNat_div, hn, Nat.mul_div_cancel_left _ hpos],
        by rw [UInt64.toNat_div, hd, Nat.mul_div_cancel_left _ hpos]⟩
    · refine ⟨hpart.denominator_ne, Rational.mul_div_eq_iff.mpr ?_, Rational.mul_div_eq_iff.mpr ?_⟩
      · rw [hn]
        exact Nat.dvd_mul_right _ _
      · rw [hd]
        exact Nat.dvd_mul_right _ _
  refine ⟨⟨Rational.negative_add hpart.nonneg hf.nonneg, hne, ?_, ?_⟩, ?_⟩
  · rw [hterms.1]
    exact hlt
  · rw [hterms.2]
    exact hf.denominator_lt
  · rw [hsum, hvalue]
    ring

/-- The value is raised where the multiples of the fraction pass an integer. -/
theorem raises_spec {f : Rational} {i : ℕ} (hf : Plain f) (hf1 : f.value < 1) (hs : s.subPPMPart = f)
    (hindex : s.index.toNat = i) (hi : i < 2 ^ 31) (hlt : (i + 1) * f.numerator.toNat < 2 ^ 32) :
    ⌊(i : ℚ) * f.value⌋ + (s.raises.toNat : ℤ) = ⌊((i : ℚ) + 1) * f.value⌋ := by
  have hint : s.index.toInt32.toInt = i := by rw [toInt_toInt32 (by omega), hindex]
  have hf0 := Rational.value_nonneg hf.nonneg
  have hfit : f.numerator.toNat * |s.index.toInt32.toInt| < 2 ^ 64 := by
    rw [hint, Nat.abs_cast]
    have hexpand : (i + 1) * f.numerator.toNat = f.numerator.toNat * i + f.numerator.toNat := by ring
    have hnat : f.numerator.toNat * i < 2 ^ 64 := by omega
    exact_mod_cast hnat
  obtain ⟨hvalue, hne⟩ := Rational.value_mulInt hf.denominator_ne (by omega) hfit
  have hle := Rational.mulInt_le (by omega) hfit
  rw [hint] at hvalue
  have hproduct : Plain (f.mulInt s.index.toInt32) := by
    refine ⟨(Rational.negative_mulInt (by omega) f).trans hf.nonneg, hne, ?_, hle.2.trans_lt hf.denominator_lt⟩
    rw [hint, Nat.abs_cast] at hle
    have hexpand : (i + 1) * f.numerator.toNat = f.numerator.toNat * i + f.numerator.toNat := by ring
    omega
  have hpart : s.parts.1.value = i * f.value := by
    unfold parts
    rw [hs]
    rw [hproduct.value_restrict, hvalue, Int.cast_natCast, mul_comm]
  have hplain : Plain s.parts.1 := by
    unfold parts
    rw [hs]
    exact hproduct.restrict
  obtain ⟨hsum, hnext⟩ := plain_next hf hplain hpart hlt
  have hnext' : s.parts.2.value = (i + 1) * f.value := by
    show (s.parts.1.add s.subPPMPart).restrict.value = _
    rw [hs, hsum.value_restrict, hnext]
  have hplain' : Plain s.parts.2 := by
    show Plain (s.parts.1.add s.subPPMPart).restrict
    rw [hs]
    exact hsum.restrict
  have hi' : ((i : ℚ) + 1) ≤ 2 ^ 31 := by exact_mod_cast hi
  have hsmall : ((i : ℚ) + 1) * f.value < 2 ^ 31 := by nlinarith
  have hsmall0 : (i : ℚ) * f.value < 2 ^ 31 := by linarith
  have h0 := Rational.toInt_integerPart_floor hplain.nonneg (by rw [hpart]; exact hsmall0)
  have h1 := Rational.toInt_integerPart_floor hplain'.nonneg (by rw [hnext']; exact hsmall)
  rw [hpart] at h0
  rw [hnext'] at h1
  -- the two floors are equal or neighbours
  have hlow : ⌊(i : ℚ) * f.value⌋ ≤ ⌊((i : ℚ) + 1) * f.value⌋ := Int.floor_le_floor (by linarith)
  have hhigh : ⌊((i : ℚ) + 1) * f.value⌋ ≤ ⌊(i : ℚ) * f.value⌋ + 1 := by
    rw [← Int.floor_add_one]
    exact Int.floor_le_floor (by linarith)
  unfold raises
  rw [← h0, ← h1] at hlow hhigh ⊢
  by_cases heq : s.parts.1.integerPart = s.parts.2.integerPart
  · rw [heq, bne_self_eq_false]
    simp
  · have hint : s.parts.1.integerPart.toInt ≠ s.parts.2.integerPart.toInt := fun h =>
      heq (Int32.toInt_inj.mp h)
    rw [bne_iff_ne.mpr heq, Bool.toNat_true]
    omega

/-! ### Averages -/

/-- The smoothing, with the number of values chosen, and of those that were raised. -/
structure Tally where
  smoothing : OutputRateSmoothing
  recalculations : ℕ
  raised : ℕ

/-- A call is made, and counted if it chooses a value. -/
def Tally.derive (framesBetween : UInt32) (t : Tally) (rate : Rational) : Option Tally :=
  let s := t.smoothing.derive framesBetween rate
  if t.smoothing.recalculates framesBetween rate then
    some ⟨s, t.recalculations + 1, t.raised + if s.lastValue = s.baseValue + 1 then 1 else 0⟩
  else some ⟨s, t.recalculations, t.raised⟩

/-- The products for the first `k` values stay below the limit of `Restrict`, and their factors fit an `int`. -/
structure Below (rate : Rational) (k : ℕ) : Prop where
  product : k * (fractionOf rate).numerator.toNat < 2 ^ 32
  index : (fractionOf rate).numerator ≠ 0 → k ≤ 2 ^ 31

/-- Of the values chosen so far as many are raised as the fraction asks for. -/
structure Averages (rate : Rational) (t : Tally) : Prop where
  raised : Below rate t.recalculations →
    (t.raised : ℤ) = ⌊(t.recalculations : ℚ) * Int.fract (rate.value * 10 ^ 6)⌋
  base : t.recalculations ≠ 0 → t.smoothing.baseValue.toNat = ⌊rate.value * 10 ^ 6⌋₊ % 2 ^ 32
  value : t.recalculations ≠ 0 → t.smoothing.lastValue = t.smoothing.baseValue ∨
    t.smoothing.lastValue = t.smoothing.baseValue + 1

/-- What the calls with a rate keep, once the change of the rate has been seen. -/
structure Counts (rate : Rational) (s : OutputRateSmoothing) (k raised : ℕ) : Prop where
  lastRate : s.lastRate = rate.restrict
  fraction : s.subPPMPart = fractionOf rate
  base : s.baseValue = baseOf rate
  index : s.index.toNat = k % 2 ^ 32
  value : k ≠ 0 → s.movingTo = false ∧ (s.lastValue = s.baseValue ∨ s.lastValue = s.baseValue + 1)
  raised : Below rate k → (raised : ℤ) = ⌊(k : ℚ) * (fractionOf rate).value⌋

theorem Counts.next {k raised : ℕ} (hrate : Plain rate) (hne : rate.numerator ≠ 0) (h : Counts rate s k raised)
    (hbelow : Below rate (k + 1)) :
    (raised : ℤ) + s.raises.toNat = ⌊((k + 1 : ℕ) : ℚ) * (fractionOf rate).value⌋ := by
  obtain ⟨hplain, hvalue⟩ := plain_fractionOf hrate hne
  have hlt : (fractionOf rate).value < 1 := hvalue.trans_lt (Int.fract_lt_one _)
  have hbefore : Below rate k := by
    refine ⟨?_, fun h0 => (Nat.le_succ k).trans (hbelow.index h0)⟩
    exact (Nat.mul_le_mul_right _ (Nat.le_succ k)).trans_lt hbelow.product
  have hraised := h.raised hbefore
  push_cast
  by_cases h0 : (fractionOf rate).numerator = 0
  · have hzero : (fractionOf rate).value = 0 := by
      rw [Rational.value_of_nonneg hplain.nonneg, h0, UInt64.toNat_zero, Nat.cast_zero, zero_div]
    have his : IsRate rate :=
      ⟨hrate.nonneg, hne, hrate.denominator_ne, hrate.numerator_lt.le, hrate.denominator_lt.le⟩
    have hnot := not_raises s (h.fraction.trans (his.fractionOf_eq (hvalue.symm.trans hzero)))
    rw [hraised, hnot, hzero, mul_zero, mul_zero]
    rfl
  · have hk := hbelow.index h0
    have hindex : s.index.toNat = k := h.index.trans (Nat.mod_eq_of_lt (by omega))
    rw [hraised]
    exact raises_spec hplain hlt h.fraction hindex (by omega) hbelow.product

theorem change_of_lastRate (hrate : Plain rate) (h : s.lastRate = rate.restrict) : s.change rate = s := by
  unfold change
  rw [h, ne_restrict hrate, if_neg Bool.false_ne_true]

theorem counts_change (h : rate.ne s.lastRate = true) : Counts rate (s.change rate) 0 0 := by
  unfold change
  rw [if_pos h]
  exact
    { lastRate := rfl
      fraction := rfl
      base := rfl
      index := rfl
      value := fun h => absurd rfl h
      raised := fun _ => by simp }

theorem Counts.derive {framesBetween : UInt32} {t t' : Tally} (hrate : Plain rate) (hne : rate.numerator ≠ 0)
    (h : Counts rate (t.smoothing.change rate) t.recalculations t.raised)
    (hstep : t.derive framesBetween rate = some t') : Counts rate t'.smoothing t'.recalculations t'.raised := by
  unfold Tally.derive recalculates OutputRateSmoothing.derive at hstep
  generalize t.smoothing.change rate = s at h hstep
  dsimp only at hstep
  cases ha : s.approaching with
  | true =>
    rw [ha] at hstep
    obtain rfl := Option.some.inj hstep
    refine ⟨h.lastRate, h.fraction, h.base, h.index, fun hk => ?_, h.raised⟩
    unfold approaching at ha
    rw [(h.value hk).1, Bool.false_and] at ha
    exact absurd ha Bool.false_ne_true
  | false =>
    rw [ha] at hstep
    simp only [Bool.not_false, Bool.true_and, Bool.false_eq_true, if_false, Bool.not_eq_true',
      decide_eq_false_iff_not] at hstep
    by_cases hframes : s.framesSinceLastCalculation < framesBetween
    · rw [if_neg (not_not.mpr hframes), if_pos hframes] at hstep
      obtain rfl := Option.some.inj hstep
      exact ⟨h.lastRate, h.fraction, h.base, h.index, fun hk => ⟨rfl, (h.value hk).2⟩, h.raised⟩
    · rw [if_pos hframes, if_neg hframes] at hstep
      obtain rfl := Option.some.inj hstep
      have hraises : ({ s with movingTo := false }).raises = s.raises := rfl
      refine
        { lastRate := h.lastRate
          fraction := h.fraction
          base := h.base
          index := ?_
          value := fun _ => ⟨rfl, ?_⟩
          raised := ?_ }
      · show (s.index + 1).toNat = (t.recalculations + 1) % 2 ^ 32
        rw [UInt32.toNat_add, h.index]
        have hone : (1 : UInt32).toNat = 1 := rfl
        rw [hone]
        omega
      · unfold recalculate
        split
        · exact .inr rfl
        · exact .inl rfl
      · intro hbelow
        have hnext := h.next hrate hne hbelow
        have hchosen : (if (({ s with movingTo := false }).recalculate).lastValue =
            (({ s with movingTo := false }).recalculate).baseValue + 1 then 1 else 0) = s.raises.toNat := by
          unfold recalculate
          rw [hraises]
          cases s.raises with
          | true =>
            rw [if_pos rfl, if_pos rfl]
            rfl
          | false =>
            have hbase : s.baseValue ≠ s.baseValue + 1 := by
              intro heq
              have hwords := congrArg UInt32.toNat heq
              have hone : (1 : UInt32).toNat = 1 := rfl
              rw [UInt32.toNat_add, hone] at hwords
              omega
            rw [if_neg Bool.false_ne_true, if_neg hbase]
            rfl
        rw [hchosen]
        exact hnext

/-- The count, in a run of calls with one rate: before the first of them nothing is counted. -/
structure Counted (rate : Rational) (t : Tally) : Prop where
  counts : Counts rate (t.smoothing.change rate) t.recalculations t.raised
  seen : t.recalculations ≠ 0 → t.smoothing.change rate = t.smoothing

theorem Counted.derive {framesBetween : UInt32} {t t' : Tally} (hrate : Plain rate) (hne : rate.numerator ≠ 0)
    (h : Counted rate t) (hstep : t.derive framesBetween rate = some t') : Counted rate t' := by
  have hcounts := h.counts.derive hrate hne hstep
  have hseen := change_of_lastRate hrate hcounts.lastRate
  exact ⟨by rw [hseen]; exact hcounts, fun _ => hseen⟩

theorem Counted.averages {t : Tally} (hrate : Plain rate) (hne : rate.numerator ≠ 0) (h : Counted rate t) :
    Averages rate t := by
  have his : IsRate rate :=
    ⟨hrate.nonneg, hne, hrate.denominator_ne, hrate.numerator_lt.le, hrate.denominator_lt.le⟩
  refine ⟨?_, fun hk => ?_, fun hk => ?_⟩
  · rw [← (plain_fractionOf hrate hne).2]
    exact h.counts.raised
  · rw [← h.seen hk, h.counts.base, his.toNat_baseOf]
  · have hvalue := (h.counts.value hk).2
    rwa [h.seen hk] at hvalue

/-- **Smoothing**: rates that fit the value returned move it in steps of one part per million, and of the values
chosen at one rate as many are raised as the fraction asks for. -/
theorem smoothed (framesBetween : UInt32) :
    (∀ rates : List Rational, (∀ rate ∈ rates, IsRate rate ∧ rate.value * 10 ^ 6 ≤ 2 ^ 31 - 1) →
      (start.returned framesBetween rates).IsChain Close) ∧
    ∀ (s : OutputRateSmoothing) (rate : Rational) (n : ℕ), Plain rate → rate.numerator ≠ 0 →
      rate.ne s.lastRate = true →
      Lts.Throughout (Tally.derive framesBetween) (Averages rate) ⟨s, 0, 0⟩ (List.replicate n rate) := by
  constructor
  · intro rates hrates
    exact (isChain_returned framesBetween hrates fits_start).tail
  · intro s rate n hrate hne hchanged
    have hstart : Counted rate ⟨s, 0, 0⟩ := ⟨counts_change hchanged, fun h => absurd rfl h⟩
    refine Lts.throughout_of_along (P := fun _ a => a = rate) (J := Counted rate) ?_ ?_ hstart
      (Lts.along_of_forall_mem (fun a ha _ => List.eq_of_mem_replicate ha) _)
    · rintro t a t' ht rfl hstep
      exact ht.derive hrate hne hstep
    · exact fun t ht => ht.averages hrate hne

/-- A rate of one and a half parts per million more than nominal. -/
def oneAndAHalf : Rational := ⟨false, 2000003, 2000000⟩

theorem smoothed_oneAndAHalf : (start.returned 8 [oneAndAHalf, oneAndAHalf, oneAndAHalf]).IsChain Close ∧
    Lts.Throughout (Tally.derive 8) (Averages oneAndAHalf) ⟨start, 0, 0⟩ (List.replicate 40 oneAndAHalf) := by
  have hplain : Plain oneAndAHalf := ⟨rfl, by decide, by decide, by decide⟩
  have hvalue : oneAndAHalf.value = 2000003 / 2000000 := by
    have hn : (2000003 : UInt64).toNat = 2000003 := rfl
    have hd : (2000000 : UInt64).toNat = 2000000 := rfl
    rw [Rational.value_of_nonneg rfl]
    unfold oneAndAHalf
    rw [hn, hd]
    norm_num
  refine ⟨(smoothed 8).1 _ ?_, (smoothed 8).2 _ _ _ hplain (by decide) (by decide +kernel)⟩
  intro rate hrate
  obtain rfl : rate = oneAndAHalf := by simpa using hrate
  refine ⟨⟨rfl, by decide, by decide, by decide, by decide⟩, ?_⟩
  rw [hvalue]
  norm_num

/-! ### A rate that does not fit -/

/-- Three thousand times the nominal rate. -/
def threeThousand : Rational := ⟨false, 3000, 1⟩

/-- On the way to it. -/
def onTheWay (lastValue : UInt32) : OutputRateSmoothing :=
  ⟨0, 0, threeThousand, ⟨false, 0, 1⟩, 3000000000, lastValue, true⟩

theorem derive_onTheWay (framesBetween : UInt32) {n : UInt32} (hn : n.toNat < 3000000000) :
    (onTheWay n).derive framesBetween threeThousand = onTheWay (n + 1) := by
  have hsame : ¬threeThousand.ne threeThousand = true := by decide
  have hchange : (onTheWay n).change threeThousand = onTheWay n := if_neg hsame
  have hbase : (3000000000 : UInt32).toNat = 3000000000 := rfl
  have hne : n ≠ 3000000000 := fun h => by
    rw [h, hbase] at hn
    exact Nat.lt_irrefl _ hn
  have hnot : ¬n > 3000000000 := fun h => by
    have := UInt32.lt_iff_toNat_lt.mp h
    omega
  unfold derive
  rw [hchange]
  have happroaching : (onTheWay n).approaching = true := by
    unfold approaching onTheWay
    simpa using hne
  rw [if_pos happroaching]
  show ({ onTheWay n with lastValue := if n > 3000000000 then n - 1 else n + 1 } : OutputRateSmoothing) = _
  rw [if_neg hnot]
  rfl

theorem returned_append (framesBetween : UInt32) (s : OutputRateSmoothing) (rates rates' : List Rational) :
    s.returned framesBetween (rates ++ rates') = s.returned framesBetween rates ++
      (rates.foldl (fun s rate => s.derive framesBetween rate) s).returned framesBetween rates' := by
  induction rates generalizing s with
  | nil => rfl
  | cons rate rates ih =>
    simp only [List.cons_append, returned, List.foldl_cons]
    rw [ih]

theorem foldl_onTheWay (framesBetween : UInt32) {m : ℕ} (hm : 1000001 + m ≤ 3000000000) :
    (List.replicate (m + 1) threeThousand).foldl (fun s rate => s.derive framesBetween rate) start =
      onTheWay (UInt32.ofNat (1000001 + m)) := by
  induction m with
  | zero => rfl
  | succ m ih =>
    have hle : 1000001 + m < 2 ^ 32 := by omega
    rw [List.replicate_succ', List.foldl_append, ih (by omega), List.foldl_cons, List.foldl_nil,
      derive_onTheWay framesBetween (by rw [UInt32.toNat_ofNat_of_lt' hle]; omega), ← Nat.add_assoc,
      UInt32.ofNat_add (1000001 + m) 1]
    rfl

/-- The value that is returned jumps from the largest to the least `int` on the way to a rate of 3000. -/
theorem not_smoothed : ¬ ∀ (framesBetween : UInt32) (rates : List Rational), (∀ rate ∈ rates, IsRate rate) →
    (start.returned framesBetween rates).IsChain Close := by
  intro hall
  have hrates : ∀ rate ∈ List.replicate 2146483646 threeThousand ++ [threeThousand, threeThousand], IsRate rate := by
    intro rate hrate
    obtain rfl : rate = threeThousand := by
      rcases List.mem_append.mp hrate with h | h
      · exact List.eq_of_mem_replicate h
      · simpa using h
    exact ⟨rfl, by decide, by decide, by decide, by decide⟩
  have hchain := hall 8 _ hrates
  rw [returned_append] at hchain
  have hlast := hchain.right_of_append
  rw [foldl_onTheWay 8 (m := 2146483645) (by norm_num)] at hlast
  have hclose := (List.isChain_cons_cons.mp hlast).1
  revert hclose
  unfold Close
  decide +kernel

end OutputRateSmoothing

end Player2
