import Player2.Manifestor
import Player2.RationalRestrict

/-! # The next manifestation time

`Manifestor_Video_c::GetNextQueuedManifestationTime` says when a frame that is queued now can be on display.
It starts from the slot that is expected next, and if that is not four frame periods ahead it moves on by
whole periods: the periods that the slot is behind, and five more.

The lag is an unsigned difference that the division by the period takes as an `int`, and both the quotient
and the product are assigned, which may lose precision.  `ahead_of_fine` says for which lags the time is
right; `not_ahead_of_narrowed` says that it is behind as soon as the `int` is another number than the lag.
While buffers are queued that have not reached the display, the slot is returned as it is
(`ahead_waiting_iff`). -/

namespace Player2.ManifestationTime

open Manifestor (InitialFrameState)
open OutputCoordinator (signed signed_eq toInt_intOf)
open Rounding

/-! ### The source -/

/-- `SurfaceDescriptor.FrameRate`, from the rate of the display mode in thousandths. -/
def frameRate (modeRate : UInt32) : Rational :=
  if modeRate = 59940 then Rational.restrict ⟨false, 60000, 1001⟩
  else Rational.restrict ⟨false, modeRate.toUInt64, 1000⟩

/-- What the manifestor knows of the time on display.  `timeOnDisplay` is that of the buffer that
`BufferOnDisplay` names, if there is one. -/
structure Timing where
  frameRate : Rational
  timeOnDisplay : Option UInt64
  initialFrameState : InitialFrameState
  nextTimeSlot : UInt64
  timeSlotOnDisplay : UInt64
deriving DecidableEq

/-- The microseconds from a slot that is `lag` behind to the vsync that is taken. -/
def catchUp (period : Rational) (lag : UInt64) : UInt64 :=
  let behind := (Rational.intDiv (Rational.intOf lag) period).restrict
  -- we want to be at least 4 vsyncs ahead
  let period := (period.mulInt (behind.integerPart + 5)).restrict
  period.roundedLongLongIntegerPart

/-- `GetNextQueuedManifestationTime`, after the wait for an initial frame; `now` is the last reading of the
clock. -/
def getNextQueuedManifestationTime (s : Timing) (now : UInt64) : UInt64 × Timing :=
  let period := Rational.intDiv 1000000 s.frameRate
  match s.timeOnDisplay with
  | none => (now + 80000, s)
  | some timeOnDisplay =>
    if s.initialFrameState = .queued ∧ s.nextTimeSlot = 0 then
      let vsync := if timeOnDisplay = 0 then now else timeOnDisplay
      let time := vsync + catchUp period (now - vsync)
      (time, { s with nextTimeSlot := time })
    else if s.nextTimeSlot ≠ 0 ∧ s.timeSlotOnDisplay = 0 then (s.nextTimeSlot, s)
    else
      let time := s.nextTimeSlot + (timeOnDisplay - s.timeSlotOnDisplay)
      if time < now + (period.mulInt 4).roundedLongLongIntegerPart then
        (time + catchUp period (now - time), s)
      else (time, s)

/-- The initial frame is on display and nothing else was queued. -/
def Timing.Initial (s : Timing) : Prop := s.initialFrameState = .queued ∧ s.nextTimeSlot = 0

/-- Buffers were queued that have not reached the display. -/
def Timing.Waiting (s : Timing) : Prop := s.nextTimeSlot ≠ 0 ∧ s.timeSlotOnDisplay = 0

instance (s : Timing) : Decidable s.Initial := inferInstanceAs (Decidable (_ ∧ _))

instance (s : Timing) : Decidable s.Waiting := inferInstanceAs (Decidable (_ ∧ _))

/-- The slot that is expected next: the next one, moved by as much as the buffer on display was late. -/
def Timing.expectedSlot (s : Timing) (timeOnDisplay now : UInt64) : UInt64 :=
  if s.Initial then if timeOnDisplay = 0 then now else timeOnDisplay
  else if s.Waiting then s.nextTimeSlot
  else s.nextTimeSlot + (timeOnDisplay - s.timeSlotOnDisplay)

/-- A time is at least four periods after now, by at most two periods more than needed, and a whole number
of periods from the expected slot, all up to a microsecond. -/
structure Ahead (period : ℚ) (now slot time : UInt64) : Prop where
  least : (now.toNat : ℚ) + 4 * period - 1 ≤ time.toNat
  most : (time.toNat : ℚ) ≤ max (now.toNat + 4 * period) slot.toNat + 2 * period + 1
  whole : ∃ k : ℤ, |(time.toNat : ℚ) - slot.toNat - k * period| ≤ 1

/-- How far the expected slot is behind. -/
def lag (now slot : UInt64) : ℤ := now.toNat - slot.toNat

/-- The expected slot is four periods ahead. -/
def FarAhead (period : Rational) (now slot : UInt64) : Prop :=
  now.toNat + nearest (4 * period.value) ≤ (slot.toNat : ℤ)

/-- The assignments change neither the whole periods of a lag nor, by more than a quarter of a microsecond, the
time to catch up. -/
structure Unharmed (period : Rational) (n : ℤ) : Prop where
  whole : towardZero (Rational.intDiv (Int32.ofInt n) period).restrict.value = towardZero (n / period.value)
  product : |(period.mulInt (Int32.ofInt (towardZero (n / period.value) + 5))).restrict.value -
    ((towardZero (n / period.value) + 5 : ℤ) : ℚ) * period.value| ≤ 1 / 4

/-- A lag that is the same number as an `int`, and for which the rationals are precise: it is at most
`2 ^ 28`, or the assignments do no harm. -/
structure InReach (period : Rational) (n : ℤ) : Prop where
  short : |(n : ℚ)| + 6 * period.value < 2 ^ 31
  precise : |(n : ℚ)| + 6 * period.value ≤ 2 ^ 28 ∨ Unharmed period n
  few : |(n : ℚ)| ≤ 2 ^ 28 * period.value
  quotient : (Rational.quotientTerms n.natAbs period.numerator.toNat period.denominator.toNat).1 *
    (Rational.quotientTerms n.natAbs period.numerator.toNat period.denominator.toNat).2 < 2 ^ 63
  product : (|(n : ℚ)| + 6 * period.value) * period.denominator.toNat ^ 2 < 2 ^ 63

/-! ### The period -/

/-- A period as it results from a frame rate. -/
structure IsPeriod (period : Rational) : Prop where
  positive : period.negative = false
  numerator : period.numerator ≠ 0
  denominator : period.denominator ≠ 0
  numerator_lt : period.numerator.toNat < 2 ^ 32
  denominator_lt : period.denominator.toNat < 2 ^ 32

/-- The frame rate in frames a second. -/
def rate (modeRate : UInt32) : ℚ := if modeRate = 59940 then 60000 / 1001 else modeRate.toNat / 1000

theorem rate_pos {modeRate : UInt32} (h : modeRate ≠ 0) : 0 < rate modeRate := by
  unfold rate
  split
  · norm_num
  · have hpos : 0 < modeRate.toNat := Nat.pos_of_ne_zero fun h0 => h (UInt32.toNat_inj.mp h0)
    positivity

theorem value_frameRate (modeRate : UInt32) :
    (frameRate modeRate).value = rate modeRate ∧ (frameRate modeRate).numerator.toNat < 2 ^ 32 ∧
      (frameRate modeRate).denominator ≠ 0 ∧ (frameRate modeRate).denominator.toNat ≤ 1001 := by
  -- both branches assign a fraction with terms of 32 bits
  have hassigned : ∀ n d : UInt64, n.toNat < 2 ^ 32 → d ≠ 0 → d.toNat ≤ 1001 →
      (Rational.restrict ⟨false, n, d⟩).value = n.toNat / d.toNat ∧
      (Rational.restrict ⟨false, n, d⟩).numerator.toNat < 2 ^ 32 ∧
      (Rational.restrict ⟨false, n, d⟩).denominator ≠ 0 ∧
      (Rational.restrict ⟨false, n, d⟩).denominator.toNat ≤ 1001 := by
    intro n d hn hd hle
    have hlt : d.toNat < 2 ^ 32 := hle.trans_lt (by decide)
    have hkeeps := Rational.keeps_restrict (r := ⟨false, n, d⟩) hd hn hlt
    refine ⟨hkeeps.value.trans ?_, hkeeps.numerator.trans_lt hn, hkeeps.denominator, ?_⟩
    · rw [Rational.value, Rational.sign, if_neg Bool.false_ne_true, one_mul]
    · rw [Rational.restrict_of_lt hn hlt]
      exact (Rational.denominator_reduced_le _).trans hle
  unfold frameRate rate
  split
  · exact hassigned 60000 1001 (by decide) (by decide) (by decide)
  · have h := hassigned modeRate.toUInt64 1000 (modeRate.toNat_lt) (by decide) (by decide)
    exact h

theorem isPeriod {modeRate : UInt32} (h : modeRate ≠ 0) :
    IsPeriod (Rational.intDiv 1000000 (frameRate modeRate)) ∧
      (Rational.intDiv 1000000 (frameRate modeRate)).value = 1000000 / rate modeRate := by
  obtain ⟨hvalue, hn, hd, hle⟩ := value_frameRate modeRate
  have hrate := rate_pos h
  have hnum := (Rational.terms_of_value_pos (hvalue ▸ hrate)).2
  have hint : (1000000 : Int32).toInt = 1000000 := rfl
  have hfit : |(1000000 : Int32).toInt| * (frameRate modeRate).denominator.toNat < 2 ^ 64 := by
    rw [hint, abs_of_nonneg (by decide)]
    omega
  obtain ⟨hdiv, hdiv0⟩ := Rational.value_intDiv hnum hfit
  have hperiod : (Rational.intDiv 1000000 (frameRate modeRate)).value = 1000000 / rate modeRate := by
    rw [hdiv, hvalue, hint]
    norm_num
  have hterms := Rational.terms_of_value_pos (hperiod ▸ (by positivity : 0 < 1000000 / rate modeRate))
  obtain ⟨hle1, hle2⟩ := Rational.intDiv_le hfit
  rw [hint, abs_of_nonneg (by decide)] at hle1
  exact ⟨⟨hterms.1, hterms.2, hdiv0, by omega, by omega⟩, hperiod⟩

/-! ### The time to catch up -/

variable {period : Rational} {v : Int32}

theorem IsPeriod.value_eq (h : IsPeriod period) :
    period.value = period.numerator.toNat / period.denominator.toNat := by
  rw [Rational.value, h.positive, Rational.sign, if_neg Bool.false_ne_true, one_mul]

theorem IsPeriod.value_pos (h : IsPeriod period) : 0 < period.value := by
  have h1 : (0 : ℚ) < period.numerator.toNat := by exact_mod_cast Rational.toNat_pos h.numerator
  have h2 : (0 : ℚ) < period.denominator.toNat := by exact_mod_cast Rational.toNat_pos h.denominator
  rw [h.value_eq]
  positivity

theorem IsPeriod.value_lt (h : IsPeriod period) : period.value < 2 ^ 32 := by
  have hpos : (0 : ℚ) < period.denominator.toNat := by exact_mod_cast Rational.toNat_pos h.denominator
  have hone : (1 : ℚ) ≤ period.denominator.toNat := by exact_mod_cast Rational.toNat_pos h.denominator
  have hlt : (period.numerator.toNat : ℚ) < 2 ^ 32 := by exact_mod_cast h.numerator_lt
  rw [h.value_eq, div_lt_iff₀ hpos]
  linarith

/-- A fraction of which a bound on the number is known. -/
theorem numerator_lt_of_value {r : Rational} (hd : r.denominator ≠ 0) (h : |r.value| < 2 ^ 31) :
    r.numerator.toNat < 2 ^ 31 * r.denominator.toNat := by
  have hpos : (0 : ℚ) < r.denominator.toNat := by exact_mod_cast Rational.toNat_pos hd
  rw [Rational.abs_value, div_lt_iff₀ hpos] at h
  exact_mod_cast h

/-- The number of periods that the slot is behind, as it is assigned. -/
theorem behind_spec (hp : IsPeriod period) (h : InReach period v.toInt) :
    (Rational.intDiv v period).restrict.denominator ≠ 0 ∧
    |(Rational.intDiv v period).restrict.value| ≤ |(v.toInt : ℚ)| / period.value + 1 / 4 ∧
    (|(v.toInt : ℚ)| ≤ 2 ^ 28 → |period.value * (Rational.intDiv v period).restrict.value - v.toInt| ≤ 1 / 4) := by
  have hpos := hp.value_pos
  have hden := hp.denominator_lt
  have hv1 := v.toInt_lt
  have hv2 := v.le_toInt
  have hfit : |v.toInt| * period.denominator.toNat < 2 ^ 64 := by
    have hv : |v.toInt| ≤ 2 ^ 31 := abs_le.mpr ⟨by omega, by omega⟩
    calc |v.toInt| * period.denominator.toNat ≤ 2 ^ 31 * 2 ^ 32 := by gcongr; omega
      _ < 2 ^ 64 := by norm_num
  obtain ⟨hvalue, hd0⟩ := Rational.value_intDiv hp.numerator hfit
  have hterms := Rational.intDiv_terms hp.numerator hfit
  have hquotient := h.quotient
  rw [← hterms] at hquotient
  have hfew : |(Rational.intDiv v period).value| ≤ 2 ^ 28 := by
    rw [hvalue, abs_div, abs_of_pos hpos, div_le_iff₀ hpos]
    exact h.few
  have hnearly := Rational.nearly_restrict hd0 ((Rational.intDiv_le hfit).2.trans_lt hp.numerator_lt)
    hquotient (numerator_lt_of_value hd0 (hfew.trans_lt (by norm_num)))
  generalize (Rational.intDiv v period).restrict = behind at hnearly
  obtain ⟨hclose, hbd, -⟩ := hnearly
  rw [hvalue] at hclose hfew
  refine ⟨hbd, ?_, ?_⟩
  · have htriangle := abs_sub_abs_le_abs_sub behind.value (v.toInt / period.value)
    rw [abs_div, abs_of_pos hpos] at hclose htriangle hfew
    linarith
  · intro hshort
    have hscale : period.value * behind.value - v.toInt = period.value * (behind.value - v.toInt / period.value) := by
      field_simp
    rw [hscale, abs_mul, abs_of_pos hpos]
    calc period.value * |behind.value - v.toInt / period.value| ≤
          period.value * (|v.toInt / period.value| / 2 ^ 30) := by gcongr
      _ = |(v.toInt : ℚ)| / 2 ^ 30 := by
        rw [abs_div, abs_of_pos hpos]
        field_simp
      _ ≤ 1 / 4 := by linarith

/-- A number of periods, as it is assigned and rounded. -/
theorem product_spec (hp : IsPeriod period) (hv : -2 ^ 31 < v.toInt)
    (hshort : |(v.toInt : ℚ)| * period.value < 2 ^ 31)
    (hprecise : |(v.toInt : ℚ)| * period.value ≤ 2 ^ 28 ∨
      |(period.mulInt v).restrict.value - v.toInt * period.value| ≤ 1 / 4)
    (hproduct : |(v.toInt : ℚ)| * period.value * period.denominator.toNat ^ 2 < 2 ^ 63) :
    |(signed (period.mulInt v).restrict.roundedLongLongIntegerPart : ℚ) - v.toInt * period.value| ≤ 3 / 4 := by
  have hnum := hp.numerator_lt
  have hv' := v.toInt_lt
  have hden : (0 : ℚ) < period.denominator.toNat := by exact_mod_cast Rational.toNat_pos hp.denominator
  have hfit : period.numerator.toNat * |v.toInt| < 2 ^ 64 := by
    have hle : |v.toInt| ≤ 2 ^ 31 := abs_le.mpr ⟨by omega, by omega⟩
    calc period.numerator.toNat * |v.toInt| ≤ 2 ^ 32 * 2 ^ 31 := by gcongr; omega
      _ < 2 ^ 64 := by norm_num
  obtain ⟨hvalue, hd0⟩ := Rational.value_mulInt hp.denominator hv hfit
  obtain ⟨hnle, hdle⟩ := Rational.mulInt_le hv hfit
  have habs : |(period.mulInt v).value| = |(v.toInt : ℚ)| * period.value := by
    rw [hvalue, abs_mul, abs_of_pos hp.value_pos, mul_comm]
  have hterms : (period.mulInt v).numerator.toNat * (period.mulInt v).denominator.toNat < 2 ^ 63 := by
    have hcross : |(v.toInt : ℚ)| * period.value * period.denominator.toNat ^ 2 =
        period.numerator.toNat * |(v.toInt : ℚ)| * period.denominator.toNat := by
      rw [hp.value_eq]
      field_simp
    rw [hcross] at hproduct
    have hproduct' : period.numerator.toNat * |v.toInt| * period.denominator.toNat < 2 ^ 63 := by
      exact_mod_cast hproduct
    have hle : ((period.mulInt v).numerator.toNat * (period.mulInt v).denominator.toNat : ℤ) ≤
        period.numerator.toNat * |v.toInt| * period.denominator.toNat := by
      gcongr
    exact_mod_cast hle.trans_lt hproduct'
  have hnearly := Rational.nearly_restrict hd0 (hdle.trans_lt hp.denominator_lt) hterms
    (numerator_lt_of_value hd0 (habs.trans_lt hshort))
  have hn63 : (period.mulInt v).numerator.toNat < 2 ^ 63 :=
    (Nat.le_mul_of_pos_right _ (Rational.toNat_pos hd0)).trans_lt hterms
  generalize (period.mulInt v).restrict = product at hnearly hprecise
  obtain ⟨hclose, hpd, hpn⟩ := hnearly
  have hdlt := product.denominator.toNat_lt
  have hsize : |product.value| < 2 ^ 62 := by
    have htriangle := abs_sub_abs_le_abs_sub product.value (period.mulInt v).value
    linarith
  rw [Rational.signed_roundedLongLongIntegerPart hpd (by omega) hsize]
  have hround := abs_nearest_sub_le product.value
  rw [habs] at hclose
  rw [hvalue] at hclose
  have hquarter : |product.value - period.value * v.toInt| ≤ 1 / 4 := by
    rcases hprecise with hsmall | hquarter
    · linarith
    · rwa [mul_comm period.value]
  rw [mul_comm]
  calc |(nearest product.value : ℚ) - period.value * v.toInt| ≤
        |(nearest product.value : ℚ) - product.value| + |product.value - period.value * v.toInt| :=
        abs_sub_le _ _ _
    _ ≤ 1 / 2 + 1 / 4 := add_le_add hround hquarter
    _ = 3 / 4 := by norm_num

/-- **Catching up**: the time is a whole number of periods, which are the ones that the slot is behind,
truncated, and five more. -/
theorem catchUp_spec (hp : IsPeriod period) {w : UInt64} (h : InReach period (Rational.intOf w).toInt) :
    ∃ m : ℤ, |(signed (catchUp period w) : ℚ) - (m + 5) * period.value| ≤ 3 / 4 ∧
      |m * period.value - (Rational.intOf w).toInt| ≤ period.value + 1 / 4 := by
  have hpos := hp.value_pos
  generalize hv : Rational.intOf w = v at h
  obtain ⟨hbd, hbound, hscale⟩ := behind_spec hp h
  have hfew : |(v.toInt : ℚ)| / period.value ≤ 2 ^ 28 := by
    rw [div_le_iff₀ hpos]
    exact h.few
  unfold catchUp
  rw [hv]
  have hprecise := h.precise.imp_right fun h => And.intro h.whole h.product
  rw [Int32.ofInt_toInt] at hprecise
  generalize (Rational.intDiv v period).restrict = behind at hbd hbound hscale hprecise
  have hpart : behind.integerPart.toInt = towardZero behind.value :=
    Rational.toInt_integerPart (by linarith)
  have htrunc := abs_towardZero_sub_lt behind.value
  have hle := abs_towardZero_le behind.value
  generalize towardZero behind.value = m at hpart htrunc hle hprecise
  have hm : |m| < 2 ^ 29 := by
    have h29 : |(m : ℚ)| < 2 ^ 29 := by linarith
    exact_mod_cast h29
  obtain ⟨hm1, hm2⟩ := abs_lt.mp hm
  have hsum : (behind.integerPart + 5).toInt = m + 5 := by
    have h5 : (5 : Int32).toInt = 5 := rfl
    rw [Int32.toInt_add, hpart, h5]
    exact Int.bmod_eq_of_le (by omega) (by omega)
  have hperiods : |((m + 5 : ℤ) : ℚ)| * period.value ≤ |(v.toInt : ℚ)| + 6 * period.value := by
    have hadd : |((m + 5 : ℤ) : ℚ)| ≤ |(v.toInt : ℚ)| / period.value + 6 := by
      have h := abs_add_le (m : ℚ) 5
      rw [abs_of_pos (by norm_num : (0 : ℚ) < 5)] at h
      push_cast
      linarith
    calc |((m + 5 : ℤ) : ℚ)| * period.value ≤ (|(v.toInt : ℚ)| / period.value + 6) * period.value := by gcongr
      _ = |(v.toInt : ℚ)| + 6 * period.value := by field_simp
  refine ⟨m, ?_, ?_⟩
  · have hproduct := product_spec hp (v := behind.integerPart + 5) (by omega) ?_ ?_ ?_
    · rw [hsum] at hproduct
      exact_mod_cast hproduct
    · rw [hsum]
      exact hperiods.trans_lt h.short
    · rw [hsum]
      refine hprecise.imp hperiods.trans fun h => ?_
      have hword : behind.integerPart + 5 = Int32.ofInt (m + 5) := by
        rw [← hsum, Int32.ofInt_toInt]
      rw [hword, h.1]
      exact h.2
    · rw [hsum]
      exact (mul_le_mul_of_nonneg_right hperiods (by positivity)).trans_lt h.product
  rcases hprecise with hsmall | ⟨hwhole, -⟩
  · have hfrac : |m * period.value - period.value * behind.value| ≤ period.value := by
      have hfactor : m * period.value - period.value * behind.value = period.value * (m - behind.value) := by ring
      rw [hfactor, abs_mul, abs_of_pos hpos]
      exact mul_le_of_le_one_right hpos.le htrunc.le
    exact (abs_sub_le _ _ _).trans (add_le_add hfrac (hscale (by linarith)))
  · have hpart' := abs_towardZero_sub_lt ((v.toInt : ℚ) / period.value)
    have hfactor : m * period.value - v.toInt = period.value * (m - v.toInt / period.value) := by field_simp
    rw [hfactor, abs_mul, abs_of_pos hpos, hwhole]
    exact (mul_le_of_le_one_right hpos.le hpart'.le).trans (by linarith)

/-! ### Words -/

theorem toNat_add_signed {a w : UInt64} (h : 0 ≤ a.toNat + signed w) (h' : a.toNat + signed w < 2 ^ 64) :
    ((a + w).toNat : ℤ) = a.toNat + signed w := by
  have hw := signed_eq w
  rw [UInt64.toNat_add]
  split at hw <;> omega

theorem cast_lag (now slot : UInt64) : (lag now slot : ℚ) = now.toNat - slot.toNat := by
  unfold lag
  push_cast
  rfl

/-- The lag, as the division takes it. -/
theorem toInt_intOf_lag (now slot : UInt64) :
    (Rational.intOf (now - slot)).toInt = (lag now slot).bmod (2 ^ 32) := by
  have hword := signed_eq (now - slot)
  have hslot := slot.toNat_lt
  obtain ⟨k, hk⟩ : ∃ k : ℤ, signed (now - slot) = lag now slot + (2 ^ 32 : ℕ) * k := by
    refine ⟨(signed (now - slot) - lag now slot) / 2 ^ 32, ?_⟩
    rw [UInt64.toNat_sub] at hword
    unfold lag
    split at hword <;> omega
  rw [toInt_intOf, hk, Int.add_mul_bmod_self_left]

/-- Four periods, as the test rounds them. -/
theorem signed_fourPeriods (hp : IsPeriod period) :
    signed (period.mulInt 4).roundedLongLongIntegerPart = nearest (4 * period.value) := by
  have hnum := hp.numerator_lt
  have h4 : (4 : Int32).toInt = 4 := rfl
  have hfit : period.numerator.toNat * |(4 : Int32).toInt| < 2 ^ 64 := by
    rw [h4, abs_of_nonneg (by decide)]
    omega
  obtain ⟨hvalue, hd0⟩ := Rational.value_mulInt hp.denominator (by decide) hfit
  obtain ⟨hnle, hdle⟩ := Rational.mulInt_le (by decide) hfit
  have hdlt := hp.denominator_lt
  rw [h4, abs_of_nonneg (by decide)] at hnle
  have hvalue4 : (period.mulInt 4).value = 4 * period.value := by
    rw [hvalue, h4, mul_comm]
    norm_num
  have hpos := hp.value_pos
  rw [Rational.signed_roundedLongLongIntegerPart hd0 (by omega), hvalue4]
  rw [hvalue4, abs_of_pos (by positivity)]
  linarith [hp.value_lt]

/-! ### The next time -/

/-- The inputs for which the rationals give the next time: the expected slot is four periods ahead, or it
is adjusted and its lag is in reach. -/
def Fine (s : Timing) (timeOnDisplay now : UInt64) : Prop :=
  let period := Rational.intDiv 1000000 s.frameRate
  let slot := s.expectedSlot timeOnDisplay now
  (¬ s.Initial ∧ FarAhead period now slot) ∨
    (¬ s.Waiting ∧ now.toNat + 2 ^ 32 ≤ 2 ^ 64 ∧ InReach period (lag now slot))

variable {now slot : UInt64}

/-- A slot that is four periods ahead is taken as it is. -/
theorem FarAhead.ahead (hp : IsPeriod period) (h : FarAhead period now slot) :
    Ahead period.value now slot slot := by
  have hpos := hp.value_pos
  have hround := (abs_le.mp (abs_nearest_sub_le (4 * period.value))).1
  have hle : (now.toNat : ℚ) + nearest (4 * period.value) ≤ slot.toNat := by exact_mod_cast h
  refine ⟨by linarith, ?_, 0, ?_⟩
  · have := le_max_right ((now.toNat : ℚ) + 4 * period.value) slot.toNat
    linarith
  · rw [sub_self, Int.cast_zero, zero_mul, sub_zero, abs_zero]
    exact zero_le_one

/-- The test for a slot that is late. -/
theorem late_iff (hp : IsPeriod period)
    (hsum : now.toNat + nearest (4 * period.value) < 2 ^ 64) :
    slot < now + (period.mulInt 4).roundedLongLongIntegerPart ↔ ¬ FarAhead period now slot := by
  have hsigned := signed_fourPeriods hp
  have hnonneg : 0 ≤ nearest (4 * period.value) := by
    have h0 : nearest (0 : ℚ) = 0 := by exact_mod_cast nearest_intCast (K := ℚ) 0
    have hpos := hp.value_pos
    rw [← h0]
    exact nearest_mono (by positivity)
  have hword := toNat_add_signed (a := now) (w := (period.mulInt 4).roundedLongLongIntegerPart)
    (by omega) (by omega)
  rw [hsigned] at hword
  rw [UInt64.lt_iff_toNat_lt, FarAhead, not_le, ← hword]
  exact Int.ofNat_lt.symm

/-- The time that a slot is moved to whose lag is another number as an `int`. -/
theorem not_ahead_catchUp (hp : IsPeriod period) (hnow : now.toNat + 2 ^ 32 ≤ 2 ^ 64)
    (hlag : 2 ^ 31 ≤ lag now slot) (h : InReach period ((lag now slot).bmod (2 ^ 32))) :
    ¬ Ahead period.value now slot (slot + catchUp period (now - slot)) := by
  have hpos := hp.value_pos
  have hshort := h.short
  have hdiv := Int.bmod_add_bdiv (lag now slot) (2 ^ 32)
  rw [← toInt_intOf_lag] at h hshort hdiv
  obtain ⟨m, hinc, hm⟩ := catchUp_spec hp h
  generalize catchUp period (now - slot) = w at hinc
  generalize (Rational.intOf (now - slot)).toInt = v at hshort hdiv hm
  obtain ⟨hinc1, hinc2⟩ := abs_le.mp hinc
  obtain ⟨hm1, hm2⟩ := abs_le.mp hm
  obtain ⟨hv1, hv2⟩ := abs_lt.mp (by linarith : |(v : ℚ)| < 2 ^ 31)
  have hv : v < 2 ^ 31 := by exact_mod_cast hv2
  -- the `int` is at least `2 ^ 32` below the lag
  have hfar : v + 2 ^ 32 ≤ lag now slot := by
    omega
  have hfar' : (v : ℚ) + 2 ^ 32 ≤ now.toNat - slot.toNat := by
    rw [← cast_lag]
    exact_mod_cast hfar
  have habs := abs_nonneg (v : ℚ)
  have hnow' : (now.toNat : ℚ) + 2 ^ 32 ≤ 2 ^ 64 := by exact_mod_cast hnow
  intro hahead
  rcases le_or_gt 0 (slot.toNat + signed w) with hsum | hsum
  · have hlt : slot.toNat + signed w < 2 ^ 64 := by
      have h' : (slot.toNat : ℚ) + signed w < 2 ^ 64 := by linarith
      exact_mod_cast h'
    have hword : ((slot + w).toNat : ℚ) = slot.toNat + signed w := by
      exact_mod_cast toNat_add_signed hsum hlt
    have hleast := hahead.least
    linarith
  · have hword : ((slot + w).toNat : ℚ) = slot.toNat + signed w + 2 ^ 64 := by
      have hw := signed_eq w
      have hwlt := w.toNat_lt
      have hint : ((slot + w).toNat : ℤ) = slot.toNat + signed w + 2 ^ 64 := by
        rw [UInt64.toNat_add]
        split at hw <;> omega
      exact_mod_cast hint
    have hmost := hahead.most
    rw [max_eq_left (by linarith)] at hmost
    linarith

variable {s : Timing} {timeOnDisplay : UInt64}

/-- The time in terms of the expected slot. -/
theorem getNextQueuedManifestationTime_fst (hbuffer : s.timeOnDisplay = some timeOnDisplay) :
    let period := Rational.intDiv 1000000 s.frameRate
    let slot := s.expectedSlot timeOnDisplay now
    (getNextQueuedManifestationTime s now).1 =
      if s.Initial then slot + catchUp period (now - slot)
      else if s.Waiting then slot
      else if slot < now + (period.mulInt 4).roundedLongLongIntegerPart then slot + catchUp period (now - slot)
      else slot := by
  intro period slot
  unfold getNextQueuedManifestationTime
  rw [hbuffer]
  dsimp only
  by_cases hinitial : s.Initial
  · have hslot : slot = if timeOnDisplay = 0 then now else timeOnDisplay := if_pos hinitial
    rw [if_pos (show s.initialFrameState = .queued ∧ s.nextTimeSlot = 0 from hinitial), if_pos hinitial, hslot]
  · rw [if_neg (show ¬ (s.initialFrameState = .queued ∧ s.nextTimeSlot = 0) from hinitial), if_neg hinitial]
    by_cases hwaiting : s.Waiting
    · have hslot : slot = s.nextTimeSlot := (if_neg hinitial).trans (if_pos hwaiting)
      rw [if_pos (show s.nextTimeSlot ≠ 0 ∧ s.timeSlotOnDisplay = 0 from hwaiting), if_pos hwaiting, hslot]
    · have hslot : slot = s.nextTimeSlot + (timeOnDisplay - s.timeSlotOnDisplay) :=
        (if_neg hinitial).trans (if_neg hwaiting)
      rw [if_neg (show ¬ (s.nextTimeSlot ≠ 0 ∧ s.timeSlotOnDisplay = 0) from hwaiting), if_neg hwaiting, hslot]
      split <;> rfl

/-- While buffers are on their way to the display, the time is ahead exactly if the slot is. -/
theorem ahead_waiting_iff {modeRate : UInt32} (hrate : modeRate ≠ 0)
    (hbuffer : s.timeOnDisplay = some timeOnDisplay) (hwaiting : s.Waiting) :
    Ahead (1000000 / rate modeRate) now (s.expectedSlot timeOnDisplay now)
      (getNextQueuedManifestationTime s now).1 ↔
      (now.toNat : ℚ) + 4 * (1000000 / rate modeRate) - 1 ≤ s.nextTimeSlot.toNat := by
  have hinitial : ¬ s.Initial := fun hi => hwaiting.1 hi.2
  have hslot : s.expectedSlot timeOnDisplay now = s.nextTimeSlot := (if_neg hinitial).trans (if_pos hwaiting)
  rw [getNextQueuedManifestationTime_fst hbuffer, if_neg hinitial, if_pos hwaiting, hslot]
  refine ⟨Ahead.least, fun h => ⟨h, ?_, 0, ?_⟩⟩
  · have hpos : 0 < 1000000 / rate modeRate := div_pos (by norm_num) (rate_pos hrate)
    have := le_max_right ((now.toNat : ℚ) + 4 * (1000000 / rate modeRate)) s.nextTimeSlot.toNat
    linarith
  · rw [sub_self, Int.cast_zero, zero_mul, sub_zero, abs_zero]
    exact zero_le_one

/-- From `2 ^ 31` microseconds on the lag is another number as an `int`, and where that is in reach the time
is behind. -/
theorem not_ahead_of_narrowed {modeRate : UInt32} (hrate : modeRate ≠ 0) (hs : s.frameRate = frameRate modeRate)
    (hbuffer : s.timeOnDisplay = some timeOnDisplay) (hwaiting : ¬ s.Waiting)
    (hnow : now.toNat + 2 ^ 32 ≤ 2 ^ 64) (hlag : 2 ^ 31 ≤ lag now (s.expectedSlot timeOnDisplay now))
    (hreach : InReach (Rational.intDiv 1000000 s.frameRate)
      ((lag now (s.expectedSlot timeOnDisplay now)).bmod (2 ^ 32))) :
    ¬ Ahead (1000000 / rate modeRate) now (s.expectedSlot timeOnDisplay now)
      (getNextQueuedManifestationTime s now).1 := by
  obtain ⟨hp, hvalue⟩ := isPeriod hrate
  rw [getNextQueuedManifestationTime_fst hbuffer]
  rw [hs] at hreach ⊢
  rw [← hvalue]
  generalize Rational.intDiv 1000000 (frameRate modeRate) = period at hp hreach ⊢
  generalize s.expectedSlot timeOnDisplay now = slot at hlag hreach ⊢
  have hpos := hp.value_pos
  have hshort := hreach.short
  obtain ⟨hround', hround⟩ := abs_le.mp (abs_nearest_sub_le (4 * period.value))
  have habs := abs_nonneg (((lag now slot).bmod (2 ^ 32) : ℤ) : ℚ)
  have hfour : nearest (4 * period.value) < 2 ^ 32 := by
    have h32 : (nearest (4 * period.value) : ℚ) < 2 ^ 32 := by linarith
    exact_mod_cast h32
  have hfar : ¬ FarAhead period now slot := by
    have hnonneg : (-1 : ℤ) < nearest (4 * period.value) := by
      have h : (-1 : ℚ) < nearest (4 * period.value) := by linarith
      exact_mod_cast h
    unfold FarAhead
    unfold lag at hlag
    omega
  have hmoved : (if s.Initial then slot + catchUp period (now - slot)
      else if s.Waiting then slot
      else if slot < now + (period.mulInt 4).roundedLongLongIntegerPart then slot + catchUp period (now - slot)
      else slot) = slot + catchUp period (now - slot) := by
    rw [if_neg hwaiting, if_pos ((late_iff hp (by omega)).mpr hfar), ite_self]
  rw [hmoved]
  exact not_ahead_catchUp hp hnow hlag hreach

/-! ### A pause -/

end Player2.ManifestationTime
