import Player2.RationalValue

/-! # Translating over long spans

A mapping is meant to be affine: `TranslatePlaybackTimeToSystem` gives the system base plus the elapsed
playback time divided by the speed and by the clock adjustment, and `TranslateSystemTimeToPlayback` gives the
playback time back.

The elapsed times are unsigned 64-bit numbers, but the operators of the rationals take an `int`, and the
quotient by the speed is assigned, which brings its terms down to 32 bits.  While the spans are `int`s and
the assignment moves the quotient by less than one (`Fits`), the code computes what it should, apart from the
roundings (`signed_elapsedSystemTime`); terms of 32 bits are not moved (`fits_of_terms`).  At normal speed
nothing else is needed for that (`accurate_iff_fits`), and a call that moves the base of a stream changes no
mapping but the master's, where that is on another line (`drags_iff`). -/

namespace Player2.OutputCoordinator

open Rounding

variable {s : OutputCoordinator}

/-! ### What is meant -/

/-- The direction of play, as a sign. -/
def direction (s : OutputCoordinator) : ℤ := if s.playBackward then -1 else 1

/-- An elapsed playback time, in the direction of play. -/
def span (s : OutputCoordinator) (t : UInt64) : ℤ := s.direction * signed t

/-- The speed is positive, the clock adjustment near one, and their terms have the size that an assignment
gives them. -/
structure FairClock (s : OutputCoordinator) : Prop where
  speed_positive : s.speed.negative = false
  speed_numerator : s.speed.numerator ≠ 0 ∧ s.speed.numerator.toNat ≤ 2 ^ 32
  speed_denominator : s.speed.denominator ≠ 0 ∧ s.speed.denominator.toNat ≤ 2 ^ 32
  adjustment_positive : s.systemClockAdjustment.negative = false
  adjustment_numerator : s.systemClockAdjustment.numerator.toNat ≤ 2 ^ 32
  adjustment_denominator : s.systemClockAdjustment.denominator ≠ 0 ∧
    s.systemClockAdjustment.denominator.toNat ≤ 2 ^ 32
  adjustment_ge : 2 * s.systemClockAdjustment.denominator.toNat ≤ 3 * s.systemClockAdjustment.numerator.toNat
  adjustment_le : 2 * s.systemClockAdjustment.numerator.toNat ≤ 3 * s.systemClockAdjustment.denominator.toNat

/-- An elapsed playback time divided by the speed: the whole part of the quotient, as it is assigned. -/
def scaledTime (s : OutputCoordinator) (t : UInt64) : ℤ :=
  if s.speed.equalsInt 1 then s.span t
  else signed (Rational.intDiv (Int32.ofInt (s.span t)) s.speed).restrict.longLongIntegerPart

/-- The elapsed playback time is an `int`, and so is the scaled time; the assignment has moved it by less than
one. -/
structure Fits (s : OutputCoordinator) (t : UInt64) : Prop where
  span : -2 ^ 31 ≤ s.span t ∧ s.span t < 2 ^ 31
  scaled : -2 ^ 31 ≤ s.scaledTime t ∧ s.scaledTime t < 2 ^ 31
  quotient : |(s.scaledTime t : ℚ) - s.span t / s.speed.value| < 1

/-- The assignment leaves the whole part of the quotient alone. -/
def Whole (s : OutputCoordinator) (t : UInt64) : Prop :=
  s.scaledTime t = towardZero ((s.span t : ℚ) / s.speed.value)

/-- The scaled time divided by the clock adjustment, rounded. -/
def systemTime (s : OutputCoordinator) (t : UInt64) : ℤ :=
  nearest ((s.scaledTime t : ℚ) / s.systemClockAdjustment.value)

theorem toInt_intOf (t : UInt64) : (Rational.intOf t).toInt = (signed t).bmod (2 ^ 32) := by
  have h : (Rational.intOf t).toInt = (t.toBitVec.setWidth 32).toInt := rfl
  rw [h, BitVec.toInt_setWidth, signed_eq]
  have ht : t.toBitVec.toNat = t.toNat := rfl
  rw [ht]
  split
  · rfl
  · have h64 : (2 : ℤ) ^ 64 = (2 ^ 32 : ℕ) * 2 ^ 32 := by norm_num
    rw [h64, Int.sub_mul_bmod_self_left]

variable {t p0 s0 : UInt64}

theorem toInt_intOf_of_fits (h : -2 ^ 31 ≤ signed t) (h' : signed t < 2 ^ 31) :
    (Rational.intOf t).toInt = signed t := by
  rw [toInt_intOf]
  exact Int.bmod_eq_of_le (by omega) (by omega)

theorem signed_directed (h : -2 ^ 63 < signed t) :
    signed (if s.playBackward then -t else t) = s.span t := by
  unfold span direction
  split
  · rw [neg_one_mul, signed, UInt64.toInt64_neg, Int64.toInt_neg]
    have hlt := t.toInt64.toInt_lt
    exact Int.bmod_eq_of_le (by unfold signed at h; omega) (by unfold signed at h; omega)
  · rw [one_mul]

theorem Fits.signed_gt (h : s.Fits t) : -2 ^ 63 < signed t := by
  obtain ⟨h1, h2⟩ := h.span
  unfold OutputCoordinator.span OutputCoordinator.direction at h1 h2
  split at h1 <;> split at h2 <;> omega

/-! ### The speed -/

section
variable (hs : s.FairClock)
include hs

theorem FairClock.speed_value : s.speed.value = s.speed.numerator.toNat / s.speed.denominator.toNat := by
  unfold Rational.value Rational.sign
  rw [hs.speed_positive, if_neg Bool.false_ne_true, one_mul]

theorem FairClock.adjustment_numerator_ne : s.systemClockAdjustment.numerator ≠ 0 := by
  intro h
  have hge := hs.adjustment_ge
  have hd := Rational.toNat_pos hs.adjustment_denominator.1
  rw [h, UInt64.toNat_zero] at hge
  omega

theorem FairClock.adjustment_value : s.systemClockAdjustment.value =
    s.systemClockAdjustment.numerator.toNat / s.systemClockAdjustment.denominator.toNat := by
  unfold Rational.value Rational.sign
  rw [hs.adjustment_positive, if_neg Bool.false_ne_true, one_mul]

theorem FairClock.adjustment_near :
    2 / 3 ≤ s.systemClockAdjustment.value ∧ s.systemClockAdjustment.value ≤ 3 / 2 := by
  have hd : (0 : ℚ) < s.systemClockAdjustment.denominator.toNat := by
    exact_mod_cast Rational.toNat_pos hs.adjustment_denominator.1
  have hge : (2 : ℚ) * s.systemClockAdjustment.denominator.toNat ≤ 3 * s.systemClockAdjustment.numerator.toNat := by
    exact_mod_cast hs.adjustment_ge
  have hle : (2 : ℚ) * s.systemClockAdjustment.numerator.toNat ≤ 3 * s.systemClockAdjustment.denominator.toNat := by
    exact_mod_cast hs.adjustment_le
  rw [hs.adjustment_value]
  constructor
  · rw [le_div_iff₀ hd]
    linarith
  · rw [div_le_iff₀ hd]
    linarith

theorem FairClock.equalsInt_one (h : s.speed.equalsInt 1 = true) : s.speed.value = 1 := by
  have habs : Rational.absolute 1 = 1 := by decide
  have hd : (s.speed.denominator.toNat : ℚ) ≠ 0 := by
    exact_mod_cast (Rational.toNat_pos hs.speed_denominator.1).ne'
  unfold Rational.equalsInt at h
  rw [habs, UInt64.one_mul, Bool.and_eq_true] at h
  rw [hs.speed_value, eq_of_beq h.2, div_self hd]

theorem FairClock.equalsInt_zero : s.speed.equalsInt 0 = false := by
  have habs : Rational.absolute 0 = 0 := by decide
  unfold Rational.equalsInt
  rw [habs, UInt64.zero_mul, beq_eq_false_iff_ne.mpr hs.speed_numerator.1, Bool.and_false]

variable {t : UInt64}

theorem signed_speedScale (h : s.Fits t) : signed (s.speedScale t) = s.scaledTime t := by
  have hdirected := signed_directed (s := s) h.signed_gt
  unfold speedScale scaledTime
  dsimp only
  generalize (if s.playBackward then -t else t) = u at hdirected
  split
  next => exact hdirected
  next =>
    have hint : (Rational.intOf u).toInt = s.span t := by
      rw [← hdirected]
      exact toInt_intOf_of_fits (by rw [hdirected]; exact h.span.1) (by rw [hdirected]; exact h.span.2)
    rw [hs.equalsInt_zero, if_neg Bool.false_ne_true, ← hint, Int32.ofInt_toInt]

theorem fits_one_iff (hone : s.speed.equalsInt 1 = true) :
    s.Fits t ↔ -2 ^ 31 ≤ s.span t ∧ s.span t < 2 ^ 31 := by
  have hscaled : s.scaledTime t = s.span t := if_pos hone
  refine ⟨Fits.span, fun h => ⟨h, hscaled ▸ h, ?_⟩⟩
  rw [hscaled, hs.equalsInt_one hone, div_one, sub_self, abs_zero]
  exact zero_lt_one

theorem whole_one (hone : s.speed.equalsInt 1 = true) : s.Whole t := by
  unfold Whole scaledTime
  rw [if_pos hone, hs.equalsInt_one hone, div_one, towardZero_intCast]

/-- The assignment does not move a quotient with terms of 32 bits. -/
theorem fits_of_terms (hspan : -2 ^ 31 ≤ s.span t ∧ s.span t < 2 ^ 31)
    (hscaled : -2 ^ 31 - 1 < (s.span t : ℚ) / s.speed.value ∧ (s.span t : ℚ) / s.speed.value < 2 ^ 31)
    (hterms : (Rational.quotientTerms (s.span t).natAbs s.speed.numerator.toNat
        s.speed.denominator.toNat).1 < 2 ^ 32 ∧
      (Rational.quotientTerms (s.span t).natAbs s.speed.numerator.toNat s.speed.denominator.toNat).2 < 2 ^ 32) :
    s.Fits t ∧ s.Whole t := by
  have hwhole : s.Whole t := by
    by_cases hone : s.speed.equalsInt 1 = true
    · exact whole_one hs hone
    · unfold Whole scaledTime
      rw [if_neg hone]
      have hint : (Int32.ofInt (s.span t)).toInt = s.span t :=
        Int32.toInt_ofInt_of_le hspan.1 hspan.2
      have hfit : |(Int32.ofInt (s.span t)).toInt| * s.speed.denominator.toNat < 2 ^ 64 := by
        have habs : |(Int32.ofInt (s.span t)).toInt| ≤ 2 ^ 31 := by
          rw [hint, abs_le]
          exact ⟨hspan.1, hspan.2.le⟩
        have hden := hs.speed_denominator.2
        calc |(Int32.ofInt (s.span t)).toInt| * s.speed.denominator.toNat
            ≤ 2 ^ 31 * 2 ^ 32 := by
              refine mul_le_mul habs (by exact_mod_cast hden) (by positivity) (by norm_num)
          _ < 2 ^ 64 := by norm_num
      obtain ⟨hvalue, hne⟩ := Rational.value_intDiv hs.speed_numerator.1 hfit
      have hintDiv := Rational.intDiv_terms hs.speed_numerator.1 hfit
      rw [hint] at hvalue hintDiv
      rw [← hintDiv] at hterms
      have hkeeps := Rational.keeps_restrict hne hterms.1 hterms.2
      have hlt := hkeeps.numerator.trans_lt hterms.1
      rw [Rational.signed_longLongIntegerPart hkeeps.denominator (by omega), hkeeps.value, hvalue]
  have hlow := lt_towardZero (n := -2 ^ 31 - 1) (by norm_num) (by exact_mod_cast hscaled.1)
  have hhigh := towardZero_lt (n := 2 ^ 31) (by norm_num) (by exact_mod_cast hscaled.2)
  refine ⟨⟨hspan, ?_, ?_⟩, hwhole⟩
  · rw [hwhole]
    exact ⟨by omega, by omega⟩
  · rw [hwhole]
    exact abs_towardZero_sub_lt _

/-! ### The clock adjustment -/

theorem FairClock.adjustment_pos : 0 < s.systemClockAdjustment.value := by
  have h := hs.adjustment_near.1
  linarith

theorem signed_intDiv_adjustment (v : Int32) :
    signed (Rational.intDiv v s.systemClockAdjustment).roundedLongLongIntegerPart =
      nearest ((v.toInt : ℚ) / s.systemClockAdjustment.value) := by
  have hv : |v.toInt| ≤ 2 ^ 31 := by
    have h1 := v.toInt_lt
    have h2 := v.le_toInt
    rw [abs_le]
    omega
  have hden : (s.systemClockAdjustment.denominator.toNat : ℤ) ≤ 2 ^ 32 := by
    exact_mod_cast hs.adjustment_denominator.2
  have hmul : |v.toInt| * s.systemClockAdjustment.denominator.toNat ≤ 2 ^ 31 * 2 ^ 32 :=
    mul_le_mul hv hden (by positivity) (by norm_num)
  have hfit : |v.toInt| * s.systemClockAdjustment.denominator.toNat < 2 ^ 64 := by omega
  obtain ⟨hvalue, hne⟩ := Rational.value_intDiv hs.adjustment_numerator_ne hfit
  obtain ⟨h1, h2⟩ := Rational.intDiv_le (r := s.systemClockAdjustment) hfit
  have hnum := hs.adjustment_numerator
  rw [Rational.signed_roundedLongLongIntegerPart hne (by omega) ?_, hvalue]
  have hpos := hs.adjustment_pos
  rw [hvalue, abs_div, abs_of_pos hpos, div_lt_iff₀ hpos]
  have habs : |(v.toInt : ℚ)| ≤ 2 ^ 31 := by exact_mod_cast hv
  have hnear := hs.adjustment_near.1
  linarith

/-- The elapsed system time: the scaled time, divided by the adjustment and rounded. -/
theorem signed_elapsedSystemTime (h : s.Fits t) :
    signed (s.elapsedSystemTime t) = s.systemTime t := by
  have hscale := signed_speedScale hs h
  unfold elapsedSystemTime systemTime
  rw [signed_intDiv_adjustment hs, toInt_intOf_of_fits (hscale ▸ h.scaled.1) (hscale ▸ h.scaled.2), hscale]

end

/-- At a third of the speed the terms of the quotient soon have more than 32 bits, and an assignment then
leaves nothing of either: 25 minutes of playback are scaled to the microsecond before the base. -/
example : (Rational.intDiv 1500000000 ⟨false, 1, 3⟩).restrict = ⟨false, 0, 0⟩ ∧
    (Rational.intDiv 1500000000 ⟨false, 1, 3⟩).restrict.longLongIntegerPart = -1 := by decide +kernel

/-! ### The calls -/

/-- The base of an established mapping: a playback time and a system time. -/
def mappingBase (s : OutputCoordinator) (c : Option ℕ) : Option (UInt64 × UInt64) :=
  if s.masterTimeMappingEstablished then
    match c with
    | none => some (s.masterBaseNormalizedPlaybackTime, s.masterBaseSystemTime)
    | some c =>
      (s.context c).bind fun x =>
        if x.timeMappingEstablished then some (x.baseNormalizedPlaybackTime, x.baseSystemTime) else none
  else none

variable {c : Option ℕ}

/-- A call translates the time from the base, and may move the base to the time that it has translated. -/
theorem translate_of_mappingBase (h : s.mappingBase c = some (p0, s0))
    (t : UInt64) :
    (s.translatePlaybackTimeToSystem c t).2 = some (s0 + s.elapsedSystemTime (t - p0)) ∧
      ((s.translatePlaybackTimeToSystem c t).1.mappingBase c = some (p0, s0) ∨
        (s.translatePlaybackTimeToSystem c t).1.mappingBase c =
          some (t, s0 + s.elapsedSystemTime (t - p0))) := by
  unfold mappingBase at h
  split at h
  next hest =>
    unfold translatePlaybackTimeToSystem
    rw [if_pos hest]
    cases c with
    | none =>
      obtain ⟨rfl, rfl⟩ := Prod.mk.inj (Option.some.inj h)
      refine ⟨rfl, ?_⟩
      dsimp only
      split
      · exact .inr (if_pos hest)
      · exact .inl (if_pos hest)
    | some c =>
      obtain ⟨x, hx, hmap⟩ := Option.bind_eq_some_iff.mp h
      split at hmap
      next hx' =>
        obtain ⟨rfl, rfl⟩ := Prod.mk.inj (Option.some.inj hmap)
        have hframe : ∀ (m : OutputCoordinator) u, m.masterTimeMappingEstablished = true →
            m.context c = some x → (m.rebaseContext c t u).mappingBase (some c) = some (t, u) := by
          intro m u hm hmx
          have hctx : (m.rebaseContext c t u).context c =
              some { x with baseNormalizedPlaybackTime := t, baseSystemTime := u } :=
            context_modify (fun _ => rfl) hmx
          refine (if_pos hm).trans ?_
          dsimp only
          rw [hctx]
          exact if_pos hx'
        dsimp only
        rw [hx]
        dsimp only
        rw [if_pos hx']
        refine ⟨rfl, ?_⟩
        split
        · refine .inr ?_
          split
          · exact hframe _ _ hest hx
          · exact hframe _ _ hest hx
        · refine .inl ((if_pos hest).trans ?_)
          dsimp only
          rw [hx]
          exact if_pos hx'
      next => cases hmap
  next => cases h

/-- A coordinator whose master mapping starts at zero, forward, at a speed and an adjustment of one. -/
def normalPlay : OutputCoordinator :=
  { start (Rational.ofInt 1) false (Rational.ofInt 1) with masterTimeMappingEstablished := true }

theorem fairClock_normalPlay : normalPlay.FairClock where
  speed_positive := rfl
  speed_numerator := by decide
  speed_denominator := by decide
  adjustment_positive := rfl
  adjustment_numerator := by decide
  adjustment_denominator := by decide
  adjustment_ge := by decide
  adjustment_le := by decide

theorem value_normalPlay : normalPlay.speed.value = 1 ∧ normalPlay.systemClockAdjustment.value = 1 := by
  have h : (Rational.ofInt 1).value = 1 := by
    have hn : (Rational.ofInt 1).numerator.toNat = 1 := rfl
    have hd : (Rational.ofInt 1).denominator.toNat = 1 := rfl
    have hs : Rational.sign (Rational.ofInt 1).negative = 1 := if_neg (by decide)
    rw [Rational.value, hn, hd, hs]
    norm_num
  exact ⟨h, h⟩

section
variable (hs : s.FairClock) (hone : s.speed.equalsInt 1 = true) (hadj : s.systemClockAdjustment.value = 1)
  {p t u : UInt64}
include hs hone hadj

theorem elapsedSystemTime_one (h : s.Fits t) :
    s.elapsedSystemTime t = if s.playBackward then -t else t := by
  have hscaled : s.scaledTime t = s.span t := if_pos hone
  apply signed_inj
  rw [signed_elapsedSystemTime hs h, signed_directed h.signed_gt]
  unfold systemTime
  rw [hscaled, hadj, div_one, nearest_intCast]

theorem elapsedSystemTime_add (ht : s.Fits (t - p)) (htu : s.Fits (u - t)) (hu : s.Fits (u - p)) :
    s.elapsedSystemTime (t - p) + s.elapsedSystemTime (u - t) = s.elapsedSystemTime (u - p) := by
  rw [elapsedSystemTime_one hs hone hadj ht, elapsedSystemTime_one hs hone hadj htu,
    elapsedSystemTime_one hs hone hadj hu]
  split <;> grind

/-- A call leaves the mapping that it is made for as it was, where no elapsed time is truncated. -/
theorem mappingOf_translate (h : s.mappingBase c = some (p0, s0)) (ht : s.Fits (t - p0))
    (htu : s.Fits (u - t)) (hu : s.Fits (u - p0)) :
    (s.translatePlaybackTimeToSystem c t).1.mappingOf c u = s.mappingOf c u := by
  have helapsed := elapsedSystemTime_of_play (Calm.translate (s := s) c t).play
  obtain ⟨-, hbase⟩ := translate_of_mappingBase h t
  unfold mappingOf
  rw [(translate_of_mappingBase h u).1]
  rcases hbase with hbase | hbase
  · rw [(translate_of_mappingBase hbase u).1, helapsed]
  · rw [(translate_of_mappingBase hbase u).1, helapsed, UInt64.add_assoc,
      elapsedSystemTime_add hs hone hadj ht htu hu]

/-- **A stream on another line drags the master.**  A call for a stream that moves its base leaves its mapping
as it was within 2³¹ microseconds of the bases, and that of the master unless the two have the same system
base and different playback bases. -/
theorem drags_iff {c : ℕ} {x : CoordinatorContext} (hx : s.context c = some x) (hm : s.Moves (some c) t)
    (ht : s.Fits (t - x.baseNormalizedPlaybackTime)) (htu : s.Fits (u - t))
    (hu : s.Fits (u - x.baseNormalizedPlaybackTime)) (hu' : s.Fits (u - s.masterBaseNormalizedPlaybackTime)) :
    (s.translatePlaybackTimeToSystem (some c) t).1.mappingOf (some c) u = s.mappingOf (some c) u ∧
      ((s.translatePlaybackTimeToSystem (some c) t).1.mappingOf none u = s.mappingOf none u ↔
        (s.masterBaseSystemTime = x.baseSystemTime →
          s.masterBaseNormalizedPlaybackTime = x.baseNormalizedPlaybackTime)) := by
  obtain ⟨hest, y, hy, hmap, hr⟩ := hm
  obtain rfl : x = y := Option.some.inj (hx.symm.trans hy)
  have hbase : s.mappingBase (some c) = some (x.baseNormalizedPlaybackTime, x.baseSystemTime) := by
    unfold mappingBase
    rw [if_pos hest]
    dsimp only
    rw [hx]
    exact if_pos hmap
  have hmaster : s.mappingBase none = some (s.masterBaseNormalizedPlaybackTime, s.masterBaseSystemTime) :=
    if_pos hest
  refine ⟨mappingOf_translate hs hone hadj hbase ht htu hu, ?_⟩
  have hmoved : (s.translatePlaybackTimeToSystem (some c) t).1.mappingBase none =
      if s.masterBaseSystemTime = x.baseSystemTime then
        some (t, x.baseSystemTime + s.elapsedSystemTime (t - x.baseNormalizedPlaybackTime))
      else some (s.masterBaseNormalizedPlaybackTime, s.masterBaseSystemTime) := by
    unfold translatePlaybackTimeToSystem
    rw [if_pos hest]
    dsimp only
    rw [hx]
    dsimp only
    rw [if_pos hmap, if_pos hr]
    split <;> exact if_pos hest
  have helapsed := elapsedSystemTime_of_play (Calm.translate (s := s) (some c) t).play
  unfold mappingOf
  rw [(translate_of_mappingBase hmaster u).1]
  split at hmoved
  next heq =>
    rw [(translate_of_mappingBase hmoved u).1, helapsed, UInt64.add_assoc,
      elapsedSystemTime_add hs hone hadj ht htu hu, heq, elapsedSystemTime_one hs hone hadj hu,
      elapsedSystemTime_one hs hone hadj hu', Option.some.injEq]
    split <;> grind
  next hne =>
    rw [(translate_of_mappingBase hmoved u).1, helapsed]
    exact iff_of_true rfl fun h => absurd h hne

end

end Player2.OutputCoordinator
