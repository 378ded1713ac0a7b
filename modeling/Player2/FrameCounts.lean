import Player2.Carry
import Player2.FrameTiming
import Player2.RationalBounds
import Player2.Run

/-! # Frame rate conversion without drift

One count of a frame is the whole part of `CountMultiplier` times the count of the content, plus the error
that the counts before have left; the fraction is the next error.  As long as the sum is exact (`Exact`: no
product overflows, and the terms stay below the limit of `Restrict`), this is the distribution of `Carry`:
over any run of frames the periods scheduled are the floor of what was due (`scheduled_exact`).

The terms of the sum do not stay small by themselves.  `operator+` multiplies the denominators, and divides by
the first of them only; once `Restrict` has divided an error by ten, its denominator and the one of the
multiplier differ, and their product grows until `Restrict` has to shift.  Then a period is lost or gained
(`not_scheduled_exact`). -/

namespace Player2.FrameTiming

open Rational (Plain toInt_toInt32)
open OutputCoordinator (signed_eq)

/-! ### One count -/

/-- A fraction of a period. -/
structure IsError (error : Rational) : Prop where
  nonneg : error.negative = false
  denominator_ne : error.denominator ≠ 0
  value_lt : error.value < 1

/-- The sum for a count is exact. -/
structure Exact (countMultiplier : Rational) (count : UInt32) (error : Rational) : Prop where
  nonneg : countMultiplier.negative = false
  denominator_ne : countMultiplier.denominator ≠ 0
  count_lt : count.toNat < 2 ^ 31
  product_lt : countMultiplier.numerator.toNat * count.toNat < 2 ^ 64
  numerators_lt : (countMultiplier.mulInt count.toInt32).numerator.toNat * error.denominator.toNat +
    error.numerator.toNat * (countMultiplier.mulInt count.toInt32).denominator.toNat < 2 ^ 64
  denominators_lt :
    (countMultiplier.mulInt count.toInt32).denominator.toNat * error.denominator.toNat < 2 ^ 64
  numerator_lt : ((countMultiplier.mulInt count.toInt32).add error).numerator.toNat < 2 ^ 32
  denominator_lt : ((countMultiplier.mulInt count.toInt32).add error).denominator.toNat < 2 ^ 32

theorem exact_iff (countMultiplier : Rational) (count : UInt32) (error : Rational) :
    Exact countMultiplier count error ↔
      (countMultiplier.negative = false ∧ countMultiplier.denominator ≠ 0 ∧ count.toNat < 2 ^ 31 ∧
        countMultiplier.numerator.toNat * count.toNat < 2 ^ 64) ∧
      ((countMultiplier.mulInt count.toInt32).numerator.toNat * error.denominator.toNat +
        error.numerator.toNat * (countMultiplier.mulInt count.toInt32).denominator.toNat < 2 ^ 64 ∧
        (countMultiplier.mulInt count.toInt32).denominator.toNat * error.denominator.toNat < 2 ^ 64) ∧
      ((countMultiplier.mulInt count.toInt32).add error).numerator.toNat < 2 ^ 32 ∧
        ((countMultiplier.mulInt count.toInt32).add error).denominator.toNat < 2 ^ 32 :=
  ⟨fun h => ⟨⟨h.nonneg, h.denominator_ne, h.count_lt, h.product_lt⟩, ⟨h.numerators_lt, h.denominators_lt⟩,
    h.numerator_lt, h.denominator_lt⟩,
  fun ⟨⟨h1, h2, h3, h4⟩, ⟨h5, h6⟩, h7, h8⟩ => ⟨h1, h2, h3, h4, h5, h6, h7, h8⟩⟩

instance (countMultiplier : Rational) (count : UInt32) (error : Rational) :
    Decidable (Exact countMultiplier count error) :=
  decidable_of_iff _ (exact_iff countMultiplier count error).symm

variable {countMultiplier error : Rational} {count : UInt32}

theorem plain_sum (he : IsError error) (h : Exact countMultiplier count error) :
    Plain ((countMultiplier.mulInt count.toInt32).add error) ∧
      ((countMultiplier.mulInt count.toInt32).add error).value =
        countMultiplier.value * count.toNat + error.value := by
  have hint := toInt_toInt32 h.count_lt
  have hneg := (Rational.negative_mulInt (by omega : 0 ≤ count.toInt32.toInt) countMultiplier).trans h.nonneg
  obtain ⟨hvalue, hne⟩ := Rational.value_mulInt h.denominator_ne (by omega : -2 ^ 31 < count.toInt32.toInt) (by
    rw [hint, Nat.abs_cast]
    exact_mod_cast h.product_lt)
  obtain ⟨hsum, hne'⟩ := Rational.value_add hneg he.nonneg hne he.denominator_ne h.numerators_lt h.denominators_lt
  refine ⟨⟨Rational.negative_add hneg he.nonneg, hne', h.numerator_lt, h.denominator_lt⟩, ?_⟩
  rw [hsum, hvalue, hint, Int.cast_natCast]

theorem frameCount_spec (he : IsError error) (h : Exact countMultiplier count error) :
    Plain (frameCount countMultiplier count error) ∧
      (frameCount countMultiplier count error).value = countMultiplier.value * count.toNat + error.value := by
  obtain ⟨hplain, hvalue⟩ := plain_sum he h
  exact ⟨hplain.restrict, hplain.value_restrict.trans hvalue⟩

theorem toNat_whole {r : Rational} (h : Plain r) : ((whole r).toNat : ℤ) = ⌊r.value⌋ := by
  have hlt : (r.numerator / r.denominator).toNat < 2 ^ 32 := by
    exact (Nat.div_le_self _ _).trans_lt h.numerator_lt
  have hword : (whole r).toNat = (r.numerator / r.denominator).toNat := by
    unfold whole Rational.integerPart Rational.intOf
    rw [h.nonneg, if_neg Bool.false_ne_true]
    exact Nat.mod_eq_of_lt hlt
  rw [hword, UInt64.toNat_div, Rational.value_of_nonneg h.nonneg, Rat.floor_natCast_div_natCast]
  rfl

theorem carry_spec {r : Rational} (h : Plain r) : IsError (carry r) ∧ (carry r).value = Int.fract r.value := by
  have hplain := h.remainder.restrict
  have hvalue : (carry r).value = Int.fract r.value :=
    h.remainder.value_restrict.trans (Rational.value_remainder h.nonneg h.denominator_ne).1
  exact ⟨⟨hplain.nonneg, hplain.denominator_ne, hvalue.trans_lt (Int.fract_lt_one _)⟩, hvalue⟩

/-- **One count**: the periods scheduled and the new error make up what was due and the error before. -/
theorem count_spec (he : IsError error) (h : Exact countMultiplier count error) :
    IsError (carry (frameCount countMultiplier count error)) ∧
      ((whole (frameCount countMultiplier count error)).toNat : ℚ) +
        (carry (frameCount countMultiplier count error)).value =
        countMultiplier.value * count.toNat + error.value := by
  obtain ⟨hplain, hvalue⟩ := frameCount_spec he h
  obtain ⟨hcarry, hfract⟩ := carry_spec hplain
  refine ⟨hcarry, ?_⟩
  have hwhole : ((whole (frameCount countMultiplier count error)).toNat : ℚ) =
      (⌊(frameCount countMultiplier count error).value⌋ : ℤ) := by
    rw [← toNat_whole hplain]
    rfl
  rw [hwhole, hfract, Int.floor_add_fract, hvalue]

/-! ### Runs with constant rates -/

/-- What a run keeps: the display, the speed, the frame rate and the scan type of the content. -/
structure Setting where
  surface : Surface
  speed : Rational
  frameRate : Rational
  progressive : Bool
  interlacedFrame : Bool

/-- What varies from frame to frame. -/
structure Picture where
  direction : PresentationInterval.PlayDirection
  systemTime : UInt64
  topFieldFirst : Bool
  displayCount0 : UInt32
  displayCount1 : UInt32
  panScan : PanScan
  timing : Timing

namespace Setting

variable (k : Setting)

/-- The call for a complete frame. -/
def call (f : Picture) : Call where
  surface := k.surface
  speed := k.speed
  direction := f.direction
  systemTime := f.systemTime
  parameters :=
    { pictureStructure := .frame
      progressive := k.progressive
      frameRate := k.frameRate
      interlacedFrame := k.interlacedFrame
      topFieldFirst := f.topFieldFirst
      displayCount0 := f.displayCount0
      displayCount1 := f.displayCount1
      panScan := f.panScan }

/-- Interlaced content on an interlaced display. -/
def paired : Bool := k.interlacedFrame && !k.surface.progressive

/-- The frame rate with which the counts are converted. -/
def rate (threeTwoPulldownDetected : Bool) : Rational :=
  let frameRate := validFrameRate k.frameRate k.progressive k.surface
  if threeTwoPulldownDetected && removeAnyThreeTwoPulldown k.surface k.speed frameRate then filmRate frameRate
  else frameRate

end Setting

/-- The timer, with the periods of the content and of the display so far, for each field. -/
structure Schedule where
  timer : Timer
  content0 : ℕ
  content1 : ℕ
  display0 : ℕ
  display1 : ℕ

def start (t : Timer) : Schedule := ⟨t, 0, 0, 0, 0⟩

/-- A frame is timed. -/
def schedule (k : Setting) (s : Schedule) (f : Picture) : Option Schedule :=
  let (p, r, t) := fillOutFrameTimingRecord (k.call f) f.timing s.timer
  some
    { timer := t
      content0 := s.content0 + p.displayCount0.toNat
      content1 := s.content1 + p.displayCount1.toNat
      display0 := s.display0 + r.displayCount0.toNat
      display1 := s.display1 + r.displayCount1.toNat }

/-- The periods of the content that are counted: those of the first field stand for both in a pair, and a
progressive frame has no second field. -/
def Schedule.content (k : Setting) (s : Schedule) : ℕ :=
  if k.paired || k.progressive then s.content0 else s.content0 + s.content1

/-- The periods scheduled, for one field of a pair. -/
def Schedule.display (k : Setting) (s : Schedule) : ℕ :=
  if k.paired then s.display0 else s.display0 + s.display1

/-- The error is a fraction of a period, and the periods scheduled are the floor of what was due. -/
structure NoDrift (k : Setting) (error : ℚ) (s : Schedule) : Prop where
  error_nonneg : 0 ≤ s.timer.accumulatedError.value
  error_lt : s.timer.accumulatedError.value < 1
  display_eq : (s.display k : ℤ) = ⌊error + s.timer.countMultiplier.value * s.content k⌋
  fields : k.paired → s.display1 = s.display0

/-- The frame leaves the state of 3:2 pulldown as it is. -/
def ThreeTwoUnchanged (k : Setting) (s : Schedule) (f : Picture) : Prop :=
  ((k.call f).timer s.timer).threeTwoPulldownDetected = s.timer.threeTwoPulldownDetected

/-- The sums for the counts of the frame are exact. -/
def ExactFrame (k : Setting) (s : Schedule) (f : Picture) : Prop :=
  let t := (k.call f).convert s.timer
  let p := (k.call f).frame s.timer
  Exact t.countMultiplier p.displayCount0 t.accumulatedError ∧
    (k.paired = false → k.progressive = false →
      Exact t.countMultiplier p.displayCount1
        (carry (frameCount t.countMultiplier p.displayCount0 t.accumulatedError)))

/-! ### One frame -/

variable {k : Setting} {f : Picture} {t : Timer}

theorem threeTwo_timer (c : Call) (t : Timer) :
    (c.timer t).threeTwoPulldownDetected = (c.detect t).threeTwoPulldownDetected := by
  show (c.convert t).threeTwoPulldownDetected = _
  unfold Call.convert recalculate
  split <;> rfl

theorem detect_eq (h : ((k.call f).detect t).threeTwoPulldownDetected = t.threeTwoPulldownDetected) :
    ∃ seen, (k.call f).detect t = { t with seenInterlacedContentOnInterlacedDisplay := seen } := by
  refine ⟨t.seenInterlacedContentOnInterlacedDisplay || (k.call f).unpaired.paired (k.call f).surface, ?_⟩
  unfold Call.detect detectThreeTwo at h ⊢
  split
  next hfound =>
    rw [if_pos hfound] at h
    simp only [Bool.and_eq_true, Bool.not_eq_true'] at hfound
    exact absurd (h.trans hfound.1.1.1) Bool.noConfusion
  next hfound =>
    rw [if_neg hfound] at h
    split
    next hlost =>
      rw [if_pos hlost] at h
      have h : false = t.threeTwoPulldownDetected := h
      rw [← h]
    next => rfl

theorem frameRate_eq (h : ((k.call f).detect t).threeTwoPulldownDetected = t.threeTwoPulldownDetected) :
    (k.call f).frameRate t = k.rate t.threeTwoPulldownDetected := by
  unfold Call.frameRate Call.removes Setting.rate
  rw [h]
  rfl

theorem frame_scan (k : Setting) (f : Picture) (t : Timer) :
    ((k.call f).frame t).partialFrame = false ∧ ((k.call f).frame t).progressive = k.progressive ∧
      ((k.call f).frame t).interlacedOnInterlaced k.surface = k.paired := by
  unfold Call.frame VideoParameters.removeExtraField
  split
  · split
    · exact ⟨rfl, rfl, rfl⟩
    · exact ⟨rfl, rfl, rfl⟩
  · exact ⟨rfl, rfl, rfl⟩

/-- **The counts of a complete frame**: the periods scheduled and the new error make up what was due and the
error before. -/
theorem displayCounts_spec {p : VideoParameters} (surface : Surface) (hp : p.partialFrame = false)
    (he : IsError t.accumulatedError) (h : Exact t.countMultiplier p.displayCount0 t.accumulatedError)
    (h' : p.interlacedOnInterlaced surface = false → p.progressive = false →
      Exact t.countMultiplier p.displayCount1
        (carry (frameCount t.countMultiplier p.displayCount0 t.accumulatedError))) :
    let counts := displayCounts t p surface
    let due : ℕ := if p.interlacedOnInterlaced surface || p.progressive then p.displayCount0.toNat
      else p.displayCount0.toNat + p.displayCount1.toNat
    let shown : ℕ := if p.interlacedOnInterlaced surface then counts.1.toNat
      else counts.1.toNat + counts.2.1.toNat
    IsError counts.2.2 ∧
      (shown : ℚ) + counts.2.2.value = t.countMultiplier.value * due + t.accumulatedError.value ∧
      (p.interlacedOnInterlaced surface → counts.2.1 = counts.1) := by
  obtain ⟨hcarry, hsum⟩ := count_spec he h
  unfold displayCounts
  rw [hp, if_neg Bool.false_ne_true]
  cases hk : p.interlacedOnInterlaced surface with
  | true =>
    simp only [if_true, Bool.true_or]
    exact ⟨hcarry, hsum, fun _ => trivial⟩
  | false =>
    cases hk' : p.progressive with
    | true =>
      simp only [if_true, Bool.or_true, if_neg Bool.false_ne_true]
      refine ⟨hcarry, ?_, fun h => absurd h Bool.false_ne_true⟩
      exact hsum
    | false =>
      obtain ⟨hcarry', hsum'⟩ := count_spec hcarry (h' hk hk')
      simp only [Bool.or_false, if_neg Bool.false_ne_true]
      refine ⟨hcarry', ?_, fun h => absurd h Bool.false_ne_true⟩
      push_cast
      linarith

theorem corrected_eq {c : Call} (hlose : t.loseFramesForSynchronization = 0) (hspeed : c.speed.equalsInt 0 = false) :
    c.corrected t = ((displayCounts (c.convert t) (c.frame t) c.surface).1,
      (displayCounts (c.convert t) (c.frame t) c.surface).2.1, 0) := by
  have hkeep : ∀ b d0 d1, loseFrames b 0 d0 d1 = (d0, d1, 0) := fun b d0 d1 => if_neg fun h => h.1 rfl
  have hnormal : ∀ b d0 d1, singleStep c.speed b d0 d1 = (d0, d1) := fun b d0 d1 =>
    if_neg (by rw [hspeed]; exact Bool.false_ne_true)
  unfold Call.corrected
  dsimp only
  rw [hlose, hkeep, hnormal]

theorem ordered_counts (c : Call) (t : Timer) :
    let r := c.record t
    (c.ordered t).displayCount0.toNat + (c.ordered t).displayCount1.toNat =
        r.displayCount0.toNat + r.displayCount1.toNat ∧
      (r.displayCount1 = r.displayCount0 →
        (c.ordered t).displayCount0 = r.displayCount0 ∧ (c.ordered t).displayCount1 = r.displayCount0) := by
  have hmove : ∀ r : Timing, r.moveUp.displayCount0.toNat + r.moveUp.displayCount1.toNat =
      r.displayCount0.toNat + r.displayCount1.toNat ∧ (r.displayCount1 = r.displayCount0 →
        r.moveUp.displayCount0 = r.displayCount0 ∧ r.moveUp.displayCount1 = r.displayCount0) := by
    intro r
    unfold Timing.moveUp
    split
    next h0 =>
      refine ⟨?_, fun h => ⟨h, h0.symm⟩⟩
      rw [h0, UInt32.toNat_zero, Nat.add_comm]
    next => exact ⟨rfl, fun h => ⟨rfl, h⟩⟩
  unfold Call.ordered
  split
  · obtain ⟨hsum, hsame⟩ := hmove (c.record t).reverseFields
    refine ⟨hsum.trans (Nat.add_comm _ _), ?_⟩
    intro h
    obtain ⟨h0, h1⟩ := hsame h.symm
    exact ⟨h0.trans h, h1.trans h⟩
  · exact hmove (c.record t)

/-! ### The multiplier of a run -/

/-- The multiplier for the rates of the run. -/
def Setting.multiplier (k : Setting) (t : Timer) : Rational :=
  FrameTiming.multiplier k.surface t.adjustedSpeedAfterFrameDrop (k.rate t.threeTwoPulldownDetected) k.progressive

/-- The timer has not seen the rates of the run. -/
def Setting.changed (k : Setting) (t : Timer) : Bool :=
  rateChanged k.surface (k.rate t.threeTwoPulldownDetected) k.progressive t

/-- Calculating the conversion again changes nothing. -/
def Settled (k : Setting) (t : Timer) : Prop :=
  k.changed t = true → t.countMultiplier = k.multiplier t ∧
    ((k.multiplier t).equalsInt 1 = true → t.accumulatedError.value = 0)

/-- A timer before a frame, and converted to the rates of the run. -/
structure Converted (k : Setting) (t t' : Timer) : Prop where
  lose : t'.loseFramesForSynchronization = t.loseFramesForSynchronization
  kept : k.changed t = false → k.changed t' = false ∧ t'.countMultiplier = t.countMultiplier ∧
    t'.accumulatedError = t.accumulatedError
  multiplier : k.multiplier t' = k.multiplier t
  calculated : k.changed t = true → t'.countMultiplier = k.multiplier t ∧
    t'.accumulatedError = if (k.multiplier t).equalsInt 1 then Rational.ofInt 0 else t.accumulatedError

theorem converted (h : ((k.call f).detect t).threeTwoPulldownDetected = t.threeTwoPulldownDetected) :
    Converted k t ((k.call f).convert t) := by
  obtain ⟨seen, hdetect⟩ := detect_eq h
  have hrate := frameRate_eq h
  obtain ⟨-, hprogressive, -⟩ := frame_scan k f t
  have hsurface : (k.call f).surface = k.surface := rfl
  have hchanged : rateChanged k.surface (k.rate t.threeTwoPulldownDetected) k.progressive
      { t with seenInterlacedContentOnInterlacedDisplay := seen } = k.changed t := rfl
  unfold Call.convert recalculate
  rw [hdetect, hrate, hprogressive, hsurface, hchanged]
  cases hk : k.changed t with
  | true =>
    exact
      { lose := rfl
        kept := fun h => absurd (hk.symm.trans h) Bool.noConfusion
        multiplier := rfl
        calculated := fun _ => ⟨rfl, rfl⟩ }
  | false =>
    exact
      { lose := rfl
        kept := fun _ => ⟨hk, rfl, rfl⟩
        multiplier := rfl
        calculated := fun h => absurd (hk.symm.trans h) Bool.noConfusion }

theorem value_ofInt_zero : (Rational.ofInt 0).value = 0 := by
  unfold Rational.value
  have h0 : (Rational.ofInt 0).numerator.toNat = 0 := rfl
  rw [h0, Nat.cast_zero, zero_div, mul_zero]

theorem isError_zero : IsError (Rational.ofInt 0) :=
  ⟨rfl, by decide, value_ofInt_zero.trans_lt zero_lt_one⟩

variable {t' : Timer}

theorem Converted.isError (h : Converted k t t') (he : IsError t.accumulatedError) :
    IsError t'.accumulatedError := by
  cases hk : k.changed t with
  | true =>
    rw [(h.calculated hk).2]
    split
    · exact isError_zero
    · exact he
  | false =>
    rw [(h.kept hk).2.2]
    exact he

theorem value_of_equalsInt {r : Rational} (hd : r.denominator ≠ 0) (h : r.equalsInt 1 = true) : r.value = 1 := by
  unfold Rational.equalsInt at h
  simp only [Bool.and_eq_true, beq_iff_eq] at h
  have hone : Rational.absolute 1 = 1 := rfl
  have hneg : r.negative = false := h.1
  rw [hone, UInt64.one_mul] at h
  rw [Rational.value_of_nonneg hneg, h.2, div_self (Rational.denominator_pos hd).ne']

theorem Converted.same (h : Converted k t t') (hs : Settled k t) :
    t'.countMultiplier = t.countMultiplier ∧ t'.accumulatedError.value = t.accumulatedError.value := by
  cases hk : k.changed t with
  | true =>
    obtain ⟨hmultiplier, herror⟩ := h.calculated hk
    obtain ⟨hsame, hzero⟩ := hs hk
    refine ⟨hmultiplier.trans hsame.symm, ?_⟩
    rw [herror]
    split
    next hone => rw [hzero hone, value_ofInt_zero]
    next => rfl
  | false =>
    obtain ⟨-, hmultiplier, herror⟩ := h.kept hk
    exact ⟨hmultiplier, congrArg Rational.value herror⟩

theorem Converted.error_cases (h : Converted k t t') (hd : t'.countMultiplier.denominator ≠ 0) :
    t'.accumulatedError.value = t.accumulatedError.value ∨
      t'.countMultiplier.value = 1 ∧ t'.accumulatedError.value = 0 := by
  cases hk : k.changed t with
  | true =>
    obtain ⟨hmultiplier, herror⟩ := h.calculated hk
    rw [herror]
    split
    next hone =>
      refine .inr ⟨?_, value_ofInt_zero⟩
      rw [hmultiplier] at hd ⊢
      exact value_of_equalsInt hd hone
    next => exact .inl rfl
  | false => exact .inl (congrArg Rational.value (h.kept hk).2.2)

theorem settled_of_counts (h : Converted k t t') (hd : t'.countMultiplier.denominator ≠ 0) {due shown : ℕ}
    {error : Rational} (herror : IsError error)
    (hsum : (shown : ℚ) + error.value = t'.countMultiplier.value * due + t'.accumulatedError.value)
    {t'' : Timer} (hchanged : k.changed t'' = k.changed t') (hmultiplier : k.multiplier t'' = k.multiplier t')
    (hcount : t''.countMultiplier = t'.countMultiplier) (herror' : t''.accumulatedError = error) :
    Settled k t'' := by
  intro hagain
  cases hk : k.changed t with
  | false => exact absurd ((hchanged.symm.trans hagain).symm.trans (h.kept hk).1) Bool.noConfusion
  | true =>
    obtain ⟨hcalculated, hreset⟩ := h.calculated hk
    have hsame : k.multiplier t'' = k.multiplier t := hmultiplier.trans h.multiplier
    refine ⟨(hcount.trans hcalculated).trans hsame.symm, ?_⟩
    intro hone
    rw [hsame] at hone
    rw [hone, if_pos rfl] at hreset
    have hvalue : t'.countMultiplier.value = 1 := by
      rw [hcalculated] at hd ⊢
      exact value_of_equalsInt hd hone
    rw [hreset, hvalue, value_ofInt_zero, one_mul, add_zero] at hsum
    rw [herror']
    -- the error is an integer, and less than one
    have hint : error.value = ((due - shown : ℤ) : ℚ) := by
      push_cast
      linarith
    have hlt := herror.value_lt
    have hnonneg := Rational.value_nonneg herror.nonneg
    rw [hint] at hlt hnonneg ⊢
    have hlt' : (due - shown : ℤ) < 1 := by exact_mod_cast hlt
    have hnonneg' : (0 : ℤ) ≤ due - shown := by exact_mod_cast hnonneg
    have hzero : (due - shown : ℤ) = 0 := by omega
    rw [hzero, Int.cast_zero]

/-! ### Runs -/

/-- The periods scheduled and the error make up what was due and the first error. -/
structure Balanced (k : Setting) (error : ℚ) (s : Schedule) : Prop where
  lose : s.timer.loseFramesForSynchronization = 0
  isError : IsError s.timer.accumulatedError
  fields : k.paired → s.display1 = s.display0
  /-- Before the first frame nothing is due, and the multiplier may be the one of another run; with a multiplier
  of 1 the first error may have been reset. -/
  balance : s.content k = 0 ∧ s.display k = 0 ∧ s.timer.accumulatedError.value = error ∨
    Settled k s.timer ∧ ∃ first, (first = error ∨ s.timer.countMultiplier.value = 1 ∧ first = 0) ∧
      (s.display k : ℚ) + s.timer.accumulatedError.value =
        first + s.timer.countMultiplier.value * s.content k

variable {s s' : Schedule}

theorem schedule_eq (k : Setting) (s : Schedule) (f : Picture) : schedule k s f = some
    { timer := (k.call f).timer s.timer
      content0 := s.content0 + ((k.call f).frame s.timer).displayCount0.toNat
      content1 := s.content1 + ((k.call f).frame s.timer).displayCount1.toNat
      display0 := s.display0 + ((k.call f).ordered s.timer).displayCount0.toNat
      display1 := s.display1 + ((k.call f).ordered s.timer).displayCount1.toNat } := by
  have hcall : (k.call f).parameters.pictureStructure ≠ .empty := PictureStructure.noConfusion
  unfold schedule fillOutFrameTimingRecord
  rw [if_neg hcall]

theorem schedule_timer (hstep : schedule k s f = some s') : s'.timer = (k.call f).timer s.timer := by
  obtain rfl := Option.some.inj hstep
  rfl

theorem schedule_adds (hlose : s.timer.loseFramesForSynchronization = 0) (hspeed : k.speed.equalsInt 0 = false)
    (hpair : k.paired → (displayCounts ((k.call f).convert s.timer) ((k.call f).frame s.timer) k.surface).2.1 =
      (displayCounts ((k.call f).convert s.timer) ((k.call f).frame s.timer) k.surface).1)
    (hfields : k.paired → s.display1 = s.display0) (hstep : schedule k s f = some s') :
    let p := (k.call f).frame s.timer
    let counts := displayCounts ((k.call f).convert s.timer) p k.surface
    s'.content k = s.content k + (if k.paired || k.progressive then p.displayCount0.toNat
      else p.displayCount0.toNat + p.displayCount1.toNat) ∧
      s'.display k = s.display k + (if k.paired then counts.1.toNat else counts.1.toNat + counts.2.1.toNat) ∧
      (k.paired → s'.display1 = s'.display0) := by
  obtain ⟨hsum, hsame⟩ := ordered_counts (k.call f) s.timer
  have hcorrected := corrected_eq (c := k.call f) hlose hspeed
  have h0 : ((k.call f).record s.timer).displayCount0 = ((k.call f).corrected s.timer).1 := rfl
  have h1 : ((k.call f).record s.timer).displayCount1 = ((k.call f).corrected s.timer).2.1 := rfl
  rw [h0, h1, hcorrected] at hsum hsame
  have hsurface : (k.call f).surface = k.surface := rfl
  rw [hsurface] at hsum hsame
  rw [schedule_eq] at hstep
  obtain rfl := Option.some.inj hstep
  dsimp only at hsum hsame ⊢
  refine ⟨?_, ?_, ?_⟩
  · unfold Schedule.content
    dsimp only
    split <;> omega
  · unfold Schedule.display
    dsimp only
    split
    next hpaired => rw [(hsame (hpair hpaired)).1]
    next => omega
  · intro hpaired
    obtain ⟨h0, h1⟩ := hsame (hpair hpaired)
    rw [h0, h1, hfields hpaired]

theorem balanced_step (hspeed : k.speed.equalsInt 0 = false) {error : ℚ} (hs : Balanced k error s)
    (hthree : ThreeTwoUnchanged k s f) (hexact : ExactFrame k s f) (hstep : schedule k s f = some s') :
    Balanced k error s' := by
  have hconverted := converted ((threeTwo_timer _ _).symm.trans hthree)
  obtain ⟨hperiod, hprogressive, hpaired⟩ := frame_scan k f s.timer
  obtain ⟨hcarry, hsum, hpair⟩ := displayCounts_spec k.surface hperiod
    (hconverted.isError hs.isError) hexact.1 (by rw [hpaired, hprogressive]; exact hexact.2)
  rw [hpaired] at hsum hpair
  rw [hprogressive] at hsum
  obtain ⟨hcontent, hdisplay, hfields⟩ := schedule_adds hs.lose hspeed hpair hs.fields hstep
  have htimer := schedule_timer hstep
  have herror : s'.timer.accumulatedError =
      (displayCounts ((k.call f).convert s.timer) ((k.call f).frame s.timer) k.surface).2.2 := by
    rw [htimer]
    rfl
  have hmultiplier : s'.timer.countMultiplier = ((k.call f).convert s.timer).countMultiplier := by
    rw [htimer]
    rfl
  refine
    { lose := ?_
      isError := ?_
      fields := hfields
      balance := .inr ⟨?_, ?_⟩ }
  · rw [htimer]
    show ((k.call f).corrected s.timer).2.2 = 0
    rw [corrected_eq hs.lose hspeed]
  · rw [herror]
    exact hcarry
  · exact settled_of_counts hconverted hexact.1.denominator_ne hcarry hsum (by rw [htimer]; rfl)
      (by rw [htimer]; rfl) hmultiplier herror
  · rw [hmultiplier, herror, hcontent, hdisplay]
    rcases hs.balance with ⟨h0, h0', hfirst⟩ | ⟨hsettled, first, hfirst, hbalance⟩
    · refine ⟨((k.call f).convert s.timer).accumulatedError.value, ?_, ?_⟩
      · rcases hconverted.error_cases hexact.1.denominator_ne with hkept | hreset
        · exact .inl (hkept.trans hfirst)
        · exact .inr hreset
      · rw [h0, h0', Nat.zero_add, Nat.zero_add]
        linarith
    · obtain ⟨hsame, hsame'⟩ := hconverted.same hsettled
      refine ⟨first, ?_, ?_⟩
      · rw [hsame]
        exact hfirst
      · rw [hsame, hsame'] at hsum
        rw [hsame]
        push_cast at hsum hbalance ⊢
        linarith

theorem Balanced.noDrift {error : ℚ} (h : Balanced k error s) (h0 : 0 ≤ error) (h1 : error < 1) :
    NoDrift k error s := by
  have hnonneg := Rational.value_nonneg h.isError.nonneg
  have hlt := h.isError.value_lt
  refine
    { error_nonneg := hnonneg
      error_lt := hlt
      display_eq := ?_
      fields := h.fields }
  symm
  rw [Int.floor_eq_iff]
  push_cast
  rcases h.balance with ⟨hcontent, hdisplay, hfirst⟩ | ⟨-, first, hfirst, hbalance⟩
  · rw [hcontent, hdisplay, Nat.cast_zero, mul_zero, add_zero, zero_add]
    exact ⟨h0, h1⟩
  · rcases hfirst with rfl | ⟨hone, rfl⟩
    · constructor <;> linarith
    · -- the error was reset, and the floor does not see it
      rw [hone, one_mul] at hbalance ⊢
      have hint : s.timer.accumulatedError.value = ((s.content k - s.display k : ℤ) : ℚ) := by
        push_cast
        linarith
      rw [hint] at hnonneg hlt
      have hlt' : (s.content k - s.display k : ℤ) < 1 := by exact_mod_cast hlt
      have hnonneg' : (0 : ℤ) ≤ s.content k - s.display k := by exact_mod_cast hnonneg
      have hequal : s.display k = s.content k := by omega
      rw [hequal]
      constructor <;> linarith

/-- **Frame rate conversion does not drift** in a run of complete frames whose sums are exact. -/
theorem scheduled_exact (k : Setting) {t : Timer} {frames : List Picture} (herror : IsError t.accumulatedError)
    (hlose : t.loseFramesForSynchronization = 0) (hspeed : k.speed.equalsInt 0 = false)
    (hthree : Lts.Along (schedule k) (ThreeTwoUnchanged k) (start t) frames)
    (hexact : Lts.Along (schedule k) (ExactFrame k) (start t) frames) :
    Lts.Throughout (schedule k) (NoDrift k t.accumulatedError.value) (start t) frames := by
  have hstart : Balanced k t.accumulatedError.value (start t) :=
    { lose := hlose
      isError := herror
      fields := fun _ => rfl
      balance := .inl ⟨by unfold Schedule.content start; split <;> rfl,
        by unfold Schedule.display start; split <;> rfl, rfl⟩ }
  refine Lts.throughout_of_along (J := Balanced k t.accumulatedError.value) ?_ ?_ hstart
    (Lts.along_and.mpr ⟨hthree, hexact⟩)
  · intro s f s' hs hP hstep
    exact balanced_step hspeed hs hP.1 hP.2 hstep
  · intro s hs
    exact hs.noDrift (Rational.value_nonneg herror.nonneg) herror.value_lt

instance (k : Setting) (s : Schedule) (f : Picture) : Decidable (ThreeTwoUnchanged k s f) :=
  inferInstanceAs (Decidable (_ = _))

instance (k : Setting) (s : Schedule) (f : Picture) : Decidable (ExactFrame k s f) :=
  inferInstanceAs (Decidable (_ ∧ (_ → _ → _)))

/-- Progressive content of 25 frames a second on a display of 25 frames a second, played at 1.05. -/
def alittleFaster : Setting := ⟨⟨true, ⟨false, 25, 1⟩⟩, ⟨false, 105, 100⟩, ⟨false, 25, 1⟩, true, false⟩

/-- The timer at that speed. -/
def fasterTimer : Timer := { Timer.reset with adjustedSpeedAfterFrameDrop := ⟨false, 105, 100⟩ }

/-- A frame that is shown once. -/
def onceShown : Picture where
  direction := .playForward
  systemTime := NativeTime.unspecifiedTime
  topFieldFirst := true
  displayCount0 := 1
  displayCount1 := 0
  panScan := ⟨[], Nat.zero_le _⟩
  timing := ⟨0, 0, 0, false, true, 0, 0, ⟨[], Nat.zero_le _⟩⟩

theorem scheduled_exact_fiveFrames : Lts.Throughout (schedule alittleFaster)
    (NoDrift alittleFaster fasterTimer.accumulatedError.value) (start fasterTimer) (List.replicate 5 onceShown) :=
  scheduled_exact alittleFaster isError_zero rfl rfl (by decide +kernel) (by decide +kernel)

/-- The products of the rates are below the limit of `Restrict`. -/
structure Setting.Small (k : Setting) (t : Timer) : Prop where
  numerator_lt : (k.surface.frameRate.div (t.adjustedSpeedAfterFrameDrop.mul
    (k.rate t.threeTwoPulldownDetected))).numerator.toNat < 2 ^ 32
  denominator_lt : (k.surface.frameRate.div (t.adjustedSpeedAfterFrameDrop.mul
    (k.rate t.threeTwoPulldownDetected))).denominator.toNat < 2 ^ 32

/-- Small rates are not enough: of 21 frames that take 20 periods, only 19 are scheduled. -/
theorem not_scheduled_exact : ¬ ∀ (k : Setting) (t : Timer) (frames : List Picture), k.Small t →
    IsError t.accumulatedError → t.loseFramesForSynchronization = 0 → k.speed.equalsInt 0 = false →
    Lts.Along (schedule k) (ThreeTwoUnchanged k) (start t) frames →
    Lts.Throughout (schedule k) (NoDrift k t.accumulatedError.value) (start t) frames := by
  intro hall
  have hdrift := hall alittleFaster fasterTimer (List.replicate 21 onceShown)
    ⟨by decide +kernel, by decide +kernel⟩ isError_zero rfl rfl (by decide +kernel)
  have hrun : (Lts.run (schedule alittleFaster) (start fasterTimer) (List.replicate 21 onceShown)).map
      (fun s => (s.content alittleFaster, s.display alittleFaster, s.timer.countMultiplier)) =
      some (21, 19, ⟨false, 2500, 2625⟩) := by
    decide +kernel
  obtain ⟨s, hs, hvalues⟩ := Option.map_eq_some_iff.mp hrun
  simp only [Prod.mk.injEq] at hvalues
  obtain ⟨hcontent, hdisplay, hmultiplier⟩ := hvalues
  have heq := (hdrift.last hs).display_eq
  have hzero : fasterTimer.accumulatedError.value = 0 := value_ofInt_zero
  rw [hcontent, hdisplay, hmultiplier, hzero, Rational.value_of_nonneg rfl] at heq
  have hnum : (2500 : UInt64).toNat = 2500 := rfl
  have hden : (2625 : UInt64).toNat = 2625 := rfl
  norm_num [hnum, hden] at heq

end Player2.FrameTiming
