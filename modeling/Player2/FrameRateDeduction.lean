import Player2.FrameTiming
import Player2.RationalChecked
import Player2.Run

/-! # Presentation times of video frames and the frame rate deduced from them

`CalculateFrameIndexAndPts` counts the fields that frames are displayed for.  A frame without a
presentation time is given the one recorded last, plus the time of the fields in between; from a
frame with one `DeduceFrameRateFromPresentationTime` finds the frame rate.  The model is checked: a
division by zero, or an operator on a rational without a denominator, has no result.

Whether a call has a result is a matter of the frame and of the state before it (`Divides`): as many
fields have to lie between two frames with presentation times, the times have to differ where no
standard rate is known, and the rates that the frames carry must not vanish.  What the calls
themselves leave behind never stops one (`Sound`). -/

namespace Player2.FrameRateDeduction

open NativeTime (invalidTime unspecifiedTime translatePlaybackTimeNormalizedToNative)
open PresentationInterval (PlayDirection)
open FrameTiming (PictureStructure)
open Rational (ofInt ofIntegers Checked.ne Checked.assign Checked.mulInt Checked.intDiv
  Checked.ofIntegers Checked.longLongIntegerPart Checked.roundedLongLongIntegerPart
  Checked.integerPart Checked.remainderDecimal)

/-! ### The data -/

/-- The fields of `ParsedFrameParameters` and `ParsedVideoParameters` used here. -/
structure Frame where
  firstParsedParametersForOutputFrame : Bool
  normalizedPlaybackTime : UInt64
  nativePlaybackTime : UInt64
  displayFrameIndex : UInt32
  collapseHolesInDisplayIndices : Bool
  pictureStructure : PictureStructure
  topFieldFirst : Bool
  displayCount0 : UInt32
  displayCount1 : UInt32
  /-- `Content.Progressive` -/
  progressive : Bool
  /-- `Content.FrameRate` -/
  frameRate : Rational
deriving DecidableEq

/-- The fields of the frame parser used here. -/
structure VideoTimes where
  nextDisplayFieldIndex : Int32
  nextDisplayFrameIndex : UInt32
  collapseHolesInDisplayIndices : Bool
  lastRecordedPlaybackTimeDisplayFieldIndex : UInt32
  lastRecordedNormalizedPlaybackTime : UInt64
  lastFieldRate : Rational
  validPTSDeducedFrameRate : Bool
  standardPTSDeducedFrameRate : Bool
  ptsDeducedFrameRate : Rational
  lastStandardPTSDeducedFrameRate : Rational
deriving DecidableEq

/-! ### The deduced frame rate -/

def valueMatchesFrameTime (v t : Int64) : Bool := decide (v ≥ t - 8) && decide (v ≤ t + 8)

/-- The standard frame times and their rates, in the order in which they are tried. -/
def standardFrameRates : List (Int64 × Rational) :=
  [(16667, ofIntegers 60 1), (16683, ofIntegers 60000 1001), (20000, ofIntegers 50 1),
    (33333, ofIntegers 30 1), (33367, ofIntegers 30000 1001), (40000, ofIntegers 25 1),
    (41667, ofIntegers 24 1), (41708, ofIntegers 24000 1001)]

/-- A division of a `long long`. -/
def divide (a b : Int64) : Option Int64 := if b = 0 then none else some (a / b)

namespace VideoTimes

/-- The current rate is still all right, or no longer standard. -/
def confirm (v : VideoTimes) (microSecondsPerFrame : Int64) : Option VideoTimes := do
  let perFrame ← Checked.intDiv 1000000 v.ptsDeducedFrameRate
  let current ← Checked.roundedLongLongIntegerPart perFrame
  if valueMatchesFrameTime microSecondsPerFrame current.toInt64 then return v
  else return { v with standardPTSDeducedFrameRate := false }

/-- A rate that is not in the table.  When it is the same as the last time it becomes standard. -/
def selectOther (v : VideoTimes) (microSecondsPerFrame : Int64) : Option VideoTimes := do
  let rate ← Checked.ofIntegers 1000000 microSecondsPerFrame.toInt
  let changed ← Checked.ne v.ptsDeducedFrameRate rate
  if changed then
    let rate ← Checked.assign rate
    return { v with standardPTSDeducedFrameRate := false, ptsDeducedFrameRate := rate }
  else return v

/-- Check against the standard values. -/
def select (v : VideoTimes) (microSecondsPerFrame : Int64) : Option VideoTimes :=
  let v := { v with validPTSDeducedFrameRate := true, standardPTSDeducedFrameRate := true }
  match standardFrameRates.find? (fun p => valueMatchesFrameTime microSecondsPerFrame p.1) with
  | some p => do
      let rate ← Checked.assign p.2
      return { v with ptsDeducedFrameRate := rate }
  | none => v.selectOther microSecondsPerFrame

/-- The parts of the frame rate that are reported. -/
def reported (v : VideoTimes) : Option (Int32 × Int32) := do
  let integer ← Checked.integerPart v.ptsDeducedFrameRate
  let decimal ← Checked.remainderDecimal v.ptsDeducedFrameRate 6
  return (integer, decimal)

/-- Report a standard rate that changes, and record it. -/
def recordStandard (v : VideoTimes) : Option VideoTimes := do
  let changed ← Checked.ne v.ptsDeducedFrameRate v.lastStandardPTSDeducedFrameRate
  let _ ← if changed then v.reported.map some else some none
  let rate ← Checked.assign v.ptsDeducedFrameRate
  return { v with lastStandardPTSDeducedFrameRate := rate }

def deduceFrameRateFromPresentationTime (v : VideoTimes) (microSecondsPerFrame : Int64) :
    Option VideoTimes :=
  if v.validPTSDeducedFrameRate ∧ v.standardPTSDeducedFrameRate then
    v.confirm microSecondsPerFrame
  else do
    let v ← v.select microSecondsPerFrame
    if v.standardPTSDeducedFrameRate then v.recordStandard else return v

end VideoTimes

/-! ### The presentation time -/

namespace Frame

/-- `DisplayCount[0] + DisplayCount[1]`. -/
def fields (f : Frame) : UInt32 := f.displayCount0 + f.displayCount1

/-- A field that is not the first one to be displayed. -/
def secondField (f : Frame) : Bool :=
  f.pictureStructure != .frame && decide (f.pictureStructure = .topField) != f.topFieldFirst

def fieldRate (f : Frame) : Rational :=
  if f.progressive then f.frameRate.restrict else (f.frameRate.restrict.mulInt 2).restrict

/-- `FieldRate`, checked. -/
def checkedFieldRate (f : Frame) : Option Rational := do
  let rate ← Checked.assign f.frameRate
  if f.progressive then return rate
  else
    let doubled ← Checked.mulInt rate 2
    Checked.assign doubled

end Frame

namespace VideoTimes

/-- The index of the field that the frame begins with, once the fields are counted. -/
def fieldIndex (v : VideoTimes) (direction : PlayDirection) (f : Frame) : Int32 :=
  let index := match direction with
    | .playForward => v.nextDisplayFieldIndex
    | .playBackward => v.nextDisplayFieldIndex - f.fields.toInt32
  if f.secondField then index - 1 else index

/-- Count the fields of the frame. -/
def countFields (v : VideoTimes) (direction : PlayDirection) (f : Frame) : VideoTimes :=
  { v with
    nextDisplayFieldIndex := match direction with
      | .playForward => v.nextDisplayFieldIndex + f.fields.toInt32
      | .playBackward => v.nextDisplayFieldIndex - f.fields.toInt32 }

/-- The fields since the playback time was recorded. -/
def fieldsSince (v : VideoTimes) (index : Int32) : UInt32 :=
  index.toUInt32 - v.lastRecordedPlaybackTimeDisplayFieldIndex

/-- The presentation time derived for a frame from the one recorded. -/
def derivedTime (v : VideoTimes) (index : Int32) : Option UInt64 := do
  let perField ← Checked.intDiv 1000000 v.lastFieldRate
  let elapsed ← Checked.mulInt perField (v.fieldsSince index).toInt32
  let elapsedTime ← Checked.longLongIntegerPart elapsed
  return v.lastRecordedNormalizedPlaybackTime + elapsedTime

/-- Obtain the presentation time. -/
def obtainPresentationTime (v : VideoTimes) (index : Int32) (f : Frame) : Option Frame :=
  if f.normalizedPlaybackTime = invalidTime then
    if v.lastRecordedNormalizedPlaybackTime ≠ invalidTime then do
      let time ← v.derivedTime index
      return { f with
        normalizedPlaybackTime := time
        nativePlaybackTime := translatePlaybackTimeNormalizedToNative time }
    else
      some { f with
        normalizedPlaybackTime := unspecifiedTime
        nativePlaybackTime := unspecifiedTime }
  else some f

/-- `ElapsedFields` between two presentation times. -/
def elapsedFields (v : VideoTimes) (index : Int32) (f : Frame) : Int32 :=
  (v.fieldsSince index * if f.progressive then 2 else 1).toInt32

/-- `ElapsedTime` between two presentation times, twice. -/
def twiceElapsedTime (v : VideoTimes) (f : Frame) : Int64 :=
  2 * (f.normalizedPlaybackTime - v.lastRecordedNormalizedPlaybackTime).toInt64

/-- Deduce a frame rate from the time of the frame, where it has one. -/
def deduceFrameRate (v : VideoTimes) (index : Int32) (f : Frame) : Option VideoTimes :=
  if f.normalizedPlaybackTime ≠ invalidTime ∧
      v.lastRecordedNormalizedPlaybackTime ≠ invalidTime then do
    let microSecondsPerFrame ← divide (v.twiceElapsedTime f) (v.elapsedFields index f).toInt64
    v.deduceFrameRateFromPresentationTime microSecondsPerFrame
  else some v

/-- The field rate differs from the one of the frame before, for a derived time. -/
def rateChanged (v : VideoTimes) (derived : Bool) (rate : Rational) : Option Bool :=
  if derived ∧ v.lastRecordedNormalizedPlaybackTime ≠ invalidTime then
    Checked.ne rate v.lastFieldRate
  else some false

/-- Record a time. -/
def record (v : VideoTimes) (index : Int32) (time : UInt64) : VideoTimes :=
  { v with
    lastRecordedPlaybackTimeDisplayFieldIndex := index.toUInt32
    lastRecordedNormalizedPlaybackTime := time }

/-- Rebase the recorded time when the frame has a time of its own, or the rate has changed. -/
def rebase (v : VideoTimes) (index : Int32) (derived : Bool) (time : UInt64) (rate : Rational) :
    Option VideoTimes := do
  let changed ← v.rateChanged derived rate
  let stored ← Checked.assign rate
  let v := if !derived || changed then v.record index time else v
  return { v with lastFieldRate := stored }

/-- The presentation time, the deduced rate and the recorded time of a frame that begins with the
field `index`. -/
def interpolate (v : VideoTimes) (index : Int32) (f : Frame) : Option (VideoTimes × Frame) := do
  let timed ← v.obtainPresentationTime index f
  let v ← v.deduceFrameRate index f
  let rate ← f.checkedFieldRate
  let v ← v.rebase index (f.normalizedPlaybackTime = invalidTime) timed.normalizedPlaybackTime rate
  return (v, timed)

def calculateFrameIndexAndPts (v : VideoTimes) (direction : PlayDirection) (f : Frame) :
    Option (VideoTimes × Frame) :=
  let index := v.fieldIndex direction f
  let v := v.countFields direction f
  if !f.firstParsedParametersForOutputFrame then some (v, f)
  else
    let numbered := { f with
      displayFrameIndex := v.nextDisplayFrameIndex
      collapseHolesInDisplayIndices := v.collapseHolesInDisplayIndices }
    let v := { v with
      nextDisplayFrameIndex := v.nextDisplayFrameIndex + 1
      collapseHolesInDisplayIndices := false }
    v.interpolate index numbered

/-! ### Runs -/

/-- The constructor and the first `Reset`. -/
def constructed : VideoTimes where
  nextDisplayFieldIndex := 0
  nextDisplayFrameIndex := 0
  collapseHolesInDisplayIndices := true
  lastRecordedPlaybackTimeDisplayFieldIndex := 0
  lastRecordedNormalizedPlaybackTime := invalidTime
  lastFieldRate := ofInt 1
  validPTSDeducedFrameRate := false
  standardPTSDeducedFrameRate := false
  ptsDeducedFrameRate := ⟨false, 0, 1⟩
  lastStandardPTSDeducedFrameRate := ofInt 0

/-- `Reset`.  The deduced rate stays, but it is not valid. -/
def reset (v : VideoTimes) : VideoTimes :=
  { constructed with ptsDeducedFrameRate := v.ptsDeducedFrameRate }

/-- The part of `ProcessBuffer` that deals with a discontinuity of the stream. -/
def discontinuity (v : VideoTimes) : VideoTimes :=
  { v with
    collapseHolesInDisplayIndices := true
    lastRecordedPlaybackTimeDisplayFieldIndex := 0
    lastRecordedNormalizedPlaybackTime := invalidTime }

/-- The part of `RevPlayProcessFrame` that discards a frame, but counts its fields. -/
def discard (v : VideoTimes) (f : Frame) : VideoTimes :=
  { v with nextDisplayFieldIndex := v.nextDisplayFieldIndex - f.fields.toInt32 }

/-- What happens to the times. -/
inductive Event
  | frame (direction : PlayDirection) (f : Frame)
  | discontinuity
  | discard (f : Frame)
  | reset
deriving DecidableEq

/-- One event, checked. -/
def step (v : VideoTimes) : Event → Option VideoTimes
  | .frame direction f => (v.calculateFrameIndexAndPts direction f).map Prod.fst
  | .discontinuity => some v.discontinuity
  | .discard f => some (v.discard f)
  | .reset => some v.reset

end VideoTimes

/-! ### The specification -/

/-- The rate that a frame carries has a denominator, and keeps it when it is stored. -/
structure Storable (f : Frame) : Prop where
  rate : f.frameRate.denominator ≠ 0
  restricted : f.frameRate.restrict.denominator ≠ 0
  field : f.fieldRate.denominator ≠ 0

namespace VideoTimes

/-- What a frame divides by. -/
def Divides (v : VideoTimes) (direction : PlayDirection) (f : Frame) : Prop :=
  f.firstParsedParametersForOutputFrame →
    Storable f ∧
      (v.lastRecordedNormalizedPlaybackTime ≠ invalidTime →
        if f.normalizedPlaybackTime = invalidTime then
          v.lastFieldRate.numerator ≠ 0 ∧ v.lastFieldRate.denominator ≠ 0
        else
          v.elapsedFields (v.fieldIndex direction f) f ≠ 0 ∧
            (¬ (v.validPTSDeducedFrameRate ∧ v.standardPTSDeducedFrameRate) →
              (v.elapsedFields (v.fieldIndex direction f) f).toInt.natAbs ≤
                (v.twiceElapsedTime f).toInt.natAbs))

/-- The condition on an event. -/
def Meets (v : VideoTimes) : Event → Prop
  | .frame direction f => v.Divides direction f
  | _ => True

/-- The rates that the parser has deduced can be compared. -/
structure Comparable (v : VideoTimes) : Prop where
  deduced : v.ptsDeducedFrameRate.denominator ≠ 0
  deduced_le : v.ptsDeducedFrameRate.denominator.toNat ≤ 2 ^ 32
  deduced_lt : v.ptsDeducedFrameRate.numerator.toNat < 2 ^ 32
  last : v.lastStandardPTSDeducedFrameRate.denominator ≠ 0

/-- They can also be divided by, once they are standard. -/
structure Sound (v : VideoTimes) : Prop extends Comparable v where
  standard : v.validPTSDeducedFrameRate → v.standardPTSDeducedFrameRate →
    v.ptsDeducedFrameRate.numerator ≠ 0

end VideoTimes

/-! ### The division of the times -/

theorem quotient_ne_zero_iff {a b : Int64} (hb : b ≠ 0) :
    a / b ≠ 0 ↔ b.toInt.natAbs ≤ a.toInt.natAbs := by
  have hb' : b.toInt ≠ 0 := fun h => hb (Int64.toInt_inj.mp h)
  have hpos : 0 < b.toInt.natAbs := Int.natAbs_pos.mpr hb'
  have hquot : (a.toInt.tdiv b.toInt).natAbs = a.toInt.natAbs / b.toInt.natAbs :=
    Int.natAbs_tdiv _ _
  have hle := Nat.div_le_self a.toInt.natAbs b.toInt.natAbs
  have ha := a.toInt_lt
  have ha' := a.le_toInt
  have hzero : a / b = 0 ↔ a.toInt.tdiv b.toInt = 0 := by
    rw [← Int64.toInt_inj, Int64.toInt_div]
    constructor
    · intro h
      have hdvd := Int.dvd_of_bmod_eq_zero h
      apply Int.natAbs_eq_zero.mp
      refine Nat.eq_zero_of_dvd_of_lt (Int.natAbs_dvd_natAbs.mpr hdvd) ?_
      omega
    · intro h
      rw [h]
      rfl
  rw [Ne, hzero, ← Int.natAbs_eq_zero, hquot, Nat.div_eq_zero_iff_lt hpos]
  omega

theorem toInt64_eq_zero_iff (a : Int32) : a.toInt64 = 0 ↔ a = 0 := by
  rw [← Int64.toInt_inj, Int32.toInt_toInt64, ← Int32.toInt_inj]
  rfl

/-! ### Deducing a rate -/

theorem standardFrameRates_storable : ∀ p ∈ standardFrameRates,
    p.2.denominator ≠ 0 ∧ p.2.numerator.toNat < 2 ^ 31 ∧ p.2.restrict.numerator ≠ 0 ∧
      p.2.restrict.denominator ≠ 0 := by
  decide

theorem standardFrameRates_pos : ∀ p ∈ standardFrameRates,
    valueMatchesFrameTime 0 p.1 = false := by
  decide

theorem denominator_ofIntegers {us : Int64} (hus : us ≠ 0) :
    (ofIntegers 1000000 us.toInt).denominator ≠ 0 := by
  intro h
  have hlt := us.toInt_lt
  have hle := us.le_toInt
  have hzero := congrArg UInt64.toNat h
  change us.toInt.natAbs % 2 ^ 64 = 0 at hzero
  exact hus (Int64.toInt_inj.mp (by
    change us.toInt = 0
    omega))

theorem numerator_ne_zero_of_equal {r : Rational} (n : UInt64) (negative : Bool)
    (hd : r.denominator ≠ 0) (hle : r.denominator.toNat ≤ 2 ^ 32)
    (h : r.ne ⟨negative, 1000000, n⟩ = false) : r.numerator ≠ 0 := by
  intro hzero
  rw [Rational.ne, hzero, UInt64.zero_mul, Bool.or_eq_false_iff] at h
  have hproduct := congrArg UInt64.toNat (bne_eq_false_iff_eq.mp h.2)
  change 0 = 1000000 * r.denominator.toNat % 2 ^ 64 at hproduct
  have hfits : 1000000 * r.denominator.toNat < 2 ^ 64 := (Nat.mul_le_mul_left _ hle).trans_lt (by decide)
  have hpos := Rational.toNat_pos hd
  omega

namespace VideoTimes

variable {v : VideoTimes}

theorem confirm_isSome (hv : Sound v) (us : Int64) (hvalid : v.validPTSDeducedFrameRate)
    (hstandard : v.standardPTSDeducedFrameRate) : ∃ v', v.confirm us = some v' ∧ Sound v' := by
  have hn := hv.standard hvalid hstandard
  have hd := hv.deduced
  rw [confirm, Rational.Checked.intDiv_eq _ hn hd]
  simp only [Option.bind_eq_bind, Option.bind_some]
  rw [Rational.Checked.roundedLongLongIntegerPart_eq (Rational.denominator_intDiv _ hn),
    Option.bind_some]
  split
  · exact ⟨v, rfl, hv⟩
  · refine ⟨_, rfl, ⟨hv.deduced, hv.deduced_le, hv.deduced_lt, hv.last⟩, ?_⟩
    intro _ h
    exact absurd h Bool.false_ne_true

theorem selectOther_zero (v : VideoTimes) : v.selectOther 0 = none := rfl

variable {us : Int64}

theorem selectOther_isSome (hv : Comparable v) (hus : us ≠ 0) :
    ∃ v', v.selectOther us = some v' ∧ Sound v' := by
  have hrate := denominator_ofIntegers hus
  rw [selectOther, Rational.Checked.ofIntegers, Rational.Checked.operand_eq hrate]
  simp only [Option.bind_eq_bind, Option.bind_some]
  rw [Rational.Checked.ne_eq hv.deduced hrate, Option.bind_some]
  split
  next =>
    rw [Rational.Checked.assign_eq hrate, Option.bind_some]
    refine ⟨_, rfl, ⟨?_, (Rational.restrict_le _).2, ?_, hv.last⟩, ?_⟩
    · apply Rational.denominator_restrict_ne_zero hrate
      change (1000000 : UInt64).toNat < 2 ^ 32
      decide
    · apply Rational.numerator_restrict_lt
      change (1000000 : UInt64).toNat < 2 ^ 31
      decide
    · intro _ h
      exact absurd h Bool.false_ne_true
  next hsame =>
    refine ⟨v, rfl, hv, fun _ _ => ?_⟩
    exact numerator_ne_zero_of_equal _ _ hv.deduced hv.deduced_le (Bool.eq_false_of_not_eq_true hsame)

theorem select_isSome (hv : Comparable v) (hus : us ≠ 0) :
    ∃ v', v.select us = some v' ∧ Sound v' := by
  unfold select
  split
  next p hfound =>
    have hp := standardFrameRates_storable p (List.mem_of_find?_eq_some hfound)
    rw [Rational.Checked.assign_eq hp.1]
    exact ⟨_, rfl, ⟨hp.2.2.2, (Rational.restrict_le _).2, Rational.numerator_restrict_lt hp.2.1,
      hv.last⟩, fun _ _ => hp.2.2.1⟩
  next =>
    apply selectOther_isSome ?_ hus
    exact ⟨hv.deduced, hv.deduced_le, hv.deduced_lt, hv.last⟩

theorem select_zero (v : VideoTimes) : v.select 0 = none := by
  unfold select
  split
  next p hfound =>
    have hmatch := List.find?_some hfound
    rw [standardFrameRates_pos p (List.mem_of_find?_eq_some hfound)] at hmatch
    exact absurd hmatch Bool.false_ne_true
  next => exact selectOther_zero _

theorem reported_isSome (hv : Comparable v) : ∃ parts, v.reported = some parts := by
  rw [reported, Rational.Checked.integerPart_eq hv.deduced]
  rw [Rational.Checked.remainderDecimal_eq _ hv.deduced]
  exact ⟨_, rfl⟩

theorem recordStandard_isSome (hv : Sound v) : ∃ v', v.recordStandard = some v' ∧ Sound v' := by
  obtain ⟨parts, hparts⟩ := reported_isSome hv.toComparable
  have hstored := Rational.denominator_restrict_ne_zero hv.deduced hv.deduced_lt
  have hv' : Sound { v with lastStandardPTSDeducedFrameRate := v.ptsDeducedFrameRate.restrict } :=
    ⟨⟨hv.deduced, hv.deduced_le, hv.deduced_lt, hstored⟩, hv.standard⟩
  rw [recordStandard, Rational.Checked.ne_eq hv.deduced hv.last]
  simp only [Option.bind_eq_bind, Option.bind_some, hparts, Option.map_some,
    Rational.Checked.assign_eq hv.deduced]
  split
  · exact ⟨_, rfl, hv'⟩
  · exact ⟨_, rfl, hv'⟩

theorem deduce_isSome (hv : Sound v)
    (h : (v.validPTSDeducedFrameRate ∧ v.standardPTSDeducedFrameRate) ∨ us ≠ 0) :
    ∃ v', v.deduceFrameRateFromPresentationTime us = some v' ∧ Sound v' := by
  unfold deduceFrameRateFromPresentationTime
  split
  next hstandard => exact confirm_isSome hv us hstandard.1 hstandard.2
  next hnot =>
    obtain ⟨v', hselect, hv'⟩ := select_isSome hv.toComparable (h.resolve_left hnot)
    rw [hselect]
    simp only [Option.bind_eq_bind, Option.bind_some]
    split
    · exact recordStandard_isSome hv'
    · exact ⟨v', rfl, hv'⟩

theorem deduce_isSome_iff (hv : Sound v) (us : Int64) :
    (v.deduceFrameRateFromPresentationTime us).isSome ↔
      (¬ (v.validPTSDeducedFrameRate ∧ v.standardPTSDeducedFrameRate) → us ≠ 0) := by
  constructor
  · intro h hnot hzero
    rw [deduceFrameRateFromPresentationTime, if_neg hnot, hzero, select_zero] at h
    exact absurd h Bool.false_ne_true
  · intro h
    obtain ⟨v', hv', -⟩ := deduce_isSome hv (Classical.or_iff_not_imp_left.mpr h)
    exact Option.isSome_of_eq_some hv'

theorem divide_bind_isSome_iff (hv : Sound v) (time : Int64) (fields : Int32) :
    ((divide time fields.toInt64).bind v.deduceFrameRateFromPresentationTime).isSome ↔
      fields ≠ 0 ∧ (¬ (v.validPTSDeducedFrameRate ∧ v.standardPTSDeducedFrameRate) →
        fields.toInt.natAbs ≤ time.toInt.natAbs) := by
  by_cases hfields : fields = 0
  · have hnone : divide time fields.toInt64 = none := if_pos ((toInt64_eq_zero_iff _).mpr hfields)
    rw [hnone]
    exact iff_of_false (by simp) fun h => h.1 hfields
  · have hne := mt (toInt64_eq_zero_iff _).mp hfields
    have hsome : divide time fields.toInt64 = some (time / fields.toInt64) := if_neg hne
    rw [hsome, Option.bind_some, deduce_isSome_iff hv, quotient_ne_zero_iff hne,
      Int32.toInt_toInt64]
    exact (and_iff_right hfields).symm

/-! ### One frame -/

theorem derivedTime_isSome_iff (v : VideoTimes) (index : Int32) :
    (v.derivedTime index).isSome ↔
      v.lastFieldRate.numerator ≠ 0 ∧ v.lastFieldRate.denominator ≠ 0 := by
  rw [← Rational.Checked.divisor_isSome_iff]
  by_cases h : v.lastFieldRate.numerator ≠ 0 ∧ v.lastFieldRate.denominator ≠ 0
  · have hfield := Rational.denominator_intDiv 1000000 h.1
    have helapsed := Rational.denominator_mulInt (v.fieldsSince index).toInt32 hfield
    rw [derivedTime, Rational.Checked.intDiv_eq _ h.1 h.2]
    simp only [Option.bind_eq_bind, Option.bind_some]
    rw [Rational.Checked.mulInt_eq _ hfield, Option.bind_some,
      Rational.Checked.longLongIntegerPart_eq helapsed, Rational.Checked.divisor_eq h.1 h.2]
    simp
  · rw [← Rational.Checked.divisor_isSome_iff, Bool.not_eq_true, Option.isSome_eq_false_iff,
      Option.isNone_iff_eq_none] at h
    simp [derivedTime, Rational.Checked.intDiv, h]

theorem checkedFieldRate_bind_isSome {α : Type} (f : Frame) (g : Rational → Option α)
    (hg : ∀ r, (g r).isSome → r.denominator ≠ 0) :
    (f.checkedFieldRate.bind g).isSome ↔ Storable f ∧ (g f.fieldRate).isSome := by
  by_cases hrate : f.frameRate.denominator = 0
  · have hnone : f.checkedFieldRate = none := by
      simp [Frame.checkedFieldRate, Rational.Checked.assign, Rational.Checked.operand_eq_none hrate]
    rw [hnone]
    exact iff_of_false (by simp) fun h => h.1.rate hrate
  · have hassign := Rational.Checked.assign_eq hrate
    by_cases hprogressive : f.progressive
    · have hsome : f.checkedFieldRate = some f.fieldRate := by
        simp [Frame.checkedFieldRate, Frame.fieldRate, hassign, hprogressive]
      have hfield : f.fieldRate = f.frameRate.restrict := by
        simp [Frame.fieldRate, hprogressive]
      rw [hsome, Option.bind_some]
      constructor
      · intro h
        have hd := hg _ h
        exact ⟨⟨hrate, hfield ▸ hd, hd⟩, h⟩
      · intro h
        exact h.2
    · by_cases hrestricted : f.frameRate.restrict.denominator = 0
      · have hnone : f.checkedFieldRate = none := by
          simp [Frame.checkedFieldRate, hassign, hprogressive, Rational.Checked.mulInt,
            Rational.Checked.operand_eq_none hrestricted]
        rw [hnone]
        exact iff_of_false (by simp) fun h => h.1.restricted hrestricted
      · have hdoubled := Rational.denominator_mulInt 2 hrestricted
        have hsome : f.checkedFieldRate = some f.fieldRate := by
          simp [Frame.checkedFieldRate, Frame.fieldRate, hassign, hprogressive,
            Rational.Checked.mulInt_eq 2 hrestricted, Rational.Checked.assign_eq hdoubled]
        rw [hsome, Option.bind_some]
        constructor
        · intro h
          exact ⟨⟨hrate, hrestricted, hg _ h⟩, h⟩
        · intro h
          exact h.2

variable {rate : Rational}

theorem rateChanged_isSome_iff (derived : Bool) (hrate : rate.denominator ≠ 0) :
    (v.rateChanged derived rate).isSome ↔
      (derived → v.lastRecordedNormalizedPlaybackTime ≠ invalidTime →
        v.lastFieldRate.denominator ≠ 0) := by
  unfold rateChanged
  split
  next hcompare =>
    by_cases hlast : v.lastFieldRate.denominator = 0
    · have hnone := Rational.Checked.operand_eq_none hlast
      simp [Rational.Checked.ne, hnone, hrate, hlast, hcompare]
    · simp [Rational.Checked.ne_eq hrate hlast, hlast]
  next hcompare =>
    refine iff_of_true rfl ?_
    intro hderived hrecorded
    exact absurd ⟨hderived, hrecorded⟩ hcompare

theorem rebase_isSome_iff (v : VideoTimes) (index : Int32) (derived : Bool) (time : UInt64)
    (rate : Rational) :
    (v.rebase index derived time rate).isSome ↔
      rate.denominator ≠ 0 ∧
        (derived → v.lastRecordedNormalizedPlaybackTime ≠ invalidTime →
          v.lastFieldRate.denominator ≠ 0) := by
  by_cases hrate : rate.denominator = 0
  · have hnone := Rational.Checked.operand_eq_none hrate
    simp [rebase, Rational.Checked.assign, hnone, hrate]
  · rw [← rateChanged_isSome_iff derived hrate]
    cases hchanged : v.rateChanged derived rate with
    | none => simp [rebase, hchanged]
    | some changed => simp [rebase, hchanged, Rational.Checked.assign_eq hrate, hrate]

variable {v' : VideoTimes} {index : Int32}

theorem sound_rebase {derived : Bool} {time : UInt64}
    (hv : Sound v) (h : v.rebase index derived time rate = some v') :
    Sound v' := by
  simp only [rebase, Option.bind_eq_bind, Option.bind_eq_some_iff] at h
  obtain ⟨changed, -, stored, -, h⟩ := h
  obtain rfl := Option.some.inj h
  split
  · exact ⟨⟨hv.deduced, hv.deduced_le, hv.deduced_lt, hv.last⟩, hv.standard⟩
  · exact ⟨⟨hv.deduced, hv.deduced_le, hv.deduced_lt, hv.last⟩, hv.standard⟩

/-- The rate of a frame with a presentation time is deduced when fields have elapsed and, without a
standard rate, as much time as fields. -/
theorem deduceFrameRate_isSome_iff (hv : Sound v) (index : Int32) (f : Frame) :
    (v.deduceFrameRate index f).isSome ↔
      (f.normalizedPlaybackTime ≠ invalidTime →
        v.lastRecordedNormalizedPlaybackTime ≠ invalidTime →
          v.elapsedFields index f ≠ 0 ∧
            (¬ (v.validPTSDeducedFrameRate ∧ v.standardPTSDeducedFrameRate) →
              (v.elapsedFields index f).toInt.natAbs ≤ (v.twiceElapsedTime f).toInt.natAbs)) := by
  unfold deduceFrameRate
  split
  next hboth =>
    refine (divide_bind_isSome_iff hv _ _).trans ?_
    constructor
    · intro h _ _
      exact h
    · intro h
      exact h hboth.1 hboth.2
  next hboth =>
    refine iff_of_true rfl ?_
    intro htime hrecorded
    exact absurd ⟨htime, hrecorded⟩ hboth

variable {f : Frame}

theorem sound_deduceFrameRate (hv : Sound v)
    (h : v.deduceFrameRate index f = some v') : Sound v' := by
  unfold deduceFrameRate at h
  split at h
  · obtain ⟨us, -, hdeduced⟩ := Option.bind_eq_some_iff.mp h
    have hus := (deduce_isSome_iff hv us).mp (Option.isSome_of_eq_some hdeduced)
    obtain ⟨w, hw, hsound⟩ := deduce_isSome hv (Classical.or_iff_not_imp_left.mpr hus)
    rw [hdeduced] at hw
    obtain rfl := Option.some.inj hw
    exact hsound
  · obtain rfl := Option.some.inj h
    exact hv

theorem rebase_bind_isSome_iff (v : VideoTimes) (index : Int32) (derived : Bool) (time : UInt64)
    (f timed : Frame) :
    (f.checkedFieldRate.bind fun rate =>
        (v.rebase index derived time rate).bind fun v' => some (v', timed)).isSome ↔
      Storable f ∧ (derived → v.lastRecordedNormalizedPlaybackTime ≠ invalidTime →
        v.lastFieldRate.denominator ≠ 0) := by
  have htail : ∀ rate : Rational,
      ((v.rebase index derived time rate).bind fun v' => some (v', timed)).isSome ↔
        (v.rebase index derived time rate).isSome := by
    intro rate
    cases v.rebase index derived time rate <;> simp
  rw [checkedFieldRate_bind_isSome f _ fun rate h =>
    ((rebase_isSome_iff v index derived time rate).mp ((htail rate).mp h)).1, htail,
    rebase_isSome_iff]
  constructor
  · rintro ⟨hstorable, -, hlast⟩
    exact ⟨hstorable, hlast⟩
  · rintro ⟨hstorable, hlast⟩
    exact ⟨hstorable, hstorable.field, hlast⟩

/-- The times of a frame that begins with the field `index` are calculated without a division by
zero just when the frame divides. -/
theorem interpolate_isSome_iff (hv : Sound v) (index : Int32) (f : Frame) :
    (v.interpolate index f).isSome ↔
      Storable f ∧
        (v.lastRecordedNormalizedPlaybackTime ≠ invalidTime →
          if f.normalizedPlaybackTime = invalidTime then
            v.lastFieldRate.numerator ≠ 0 ∧ v.lastFieldRate.denominator ≠ 0
          else
            v.elapsedFields index f ≠ 0 ∧
              (¬ (v.validPTSDeducedFrameRate ∧ v.standardPTSDeducedFrameRate) →
                (v.elapsedFields index f).toInt.natAbs ≤ (v.twiceElapsedTime f).toInt.natAbs)) := by
  by_cases hderived : f.normalizedPlaybackTime = invalidTime
  · have hdeduce : v.deduceFrameRate index f = some v := if_neg fun h => h.1 hderived
    by_cases hrecorded : v.lastRecordedNormalizedPlaybackTime = invalidTime
    · obtain ⟨timed, htimed⟩ : ∃ timed, v.obtainPresentationTime index f = some timed := by
        simp [obtainPresentationTime, hderived, hrecorded]
      simp only [interpolate, hdeduce, htimed, Option.bind_eq_bind, Option.bind_some]
      refine (rebase_bind_isSome_iff v index _ _ f timed).trans ?_
      simp [hrecorded]
    · have hlast := derivedTime_isSome_iff v index
      simp only [interpolate, obtainPresentationTime, hdeduce, hderived, hrecorded,
        Option.bind_eq_bind, Option.bind_some, ne_eq, not_false_eq_true, if_true, forall_const]
      cases htime : v.derivedTime index with
      | none =>
        rw [htime] at hlast
        exact iff_of_false (by simp) fun h => absurd (hlast.mpr h.2) Bool.false_ne_true
      | some time =>
        rw [htime] at hlast
        have hnonzero := hlast.mp rfl
        refine (rebase_bind_isSome_iff v index _ _ f _).trans ?_
        simp [hnonzero]
  · have htimed : v.obtainPresentationTime index f = some f := if_neg hderived
    simp only [interpolate, htimed, hderived, Option.bind_eq_bind, Option.bind_some,
      if_false]
    have hdeduce := deduceFrameRate_isSome_iff hv index f
    have htail := fun w : VideoTimes =>
      rebase_bind_isSome_iff w index false f.normalizedPlaybackTime f f
    cases hdeduced : v.deduceFrameRate index f with
    | none =>
      rw [hdeduced] at hdeduce
      refine iff_of_false (by simp) fun h => ?_
      exact absurd (hdeduce.mpr fun _ => h.2) Bool.false_ne_true
    | some w =>
      rw [hdeduced] at hdeduce
      refine (htail w).trans ?_
      constructor
      · intro h
        exact ⟨h.1, hdeduce.mp rfl hderived⟩
      · intro h
        exact ⟨h.1, fun h => absurd h Bool.false_ne_true⟩

/-- The frame index and the times of a frame are calculated without a division by zero just when the
frame divides. -/
theorem calculate_isSome_iff (hv : Sound v) (direction : PlayDirection) (f : Frame) :
    (v.calculateFrameIndexAndPts direction f).isSome ↔ v.Divides direction f := by
  unfold calculateFrameIndexAndPts Divides
  cases hfirst : f.firstParsedParametersForOutputFrame with
  | false => simp
  | true =>
    simp only [Bool.not_true, Bool.false_eq_true, if_false, forall_const]
    refine (interpolate_isSome_iff ?_ _ _).trans ?_
    · exact ⟨⟨hv.deduced, hv.deduced_le, hv.deduced_lt, hv.last⟩, hv.standard⟩
    · exact and_congr ⟨fun h => ⟨h.rate, h.restricted, h.field⟩,
        fun h => ⟨h.rate, h.restricted, h.field⟩⟩ Iff.rfl

variable {r : VideoTimes × Frame}

theorem sound_interpolate (hv : Sound v)
    (h : v.interpolate index f = some r) : Sound r.1 := by
  simp only [interpolate, Option.bind_eq_bind, Option.bind_eq_some_iff] at h
  obtain ⟨timed, -, w, hdeduce, rate, -, w', hrebase, h⟩ := h
  obtain rfl := Option.some.inj h
  exact sound_rebase (sound_deduceFrameRate hv hdeduce) hrebase

theorem sound_calculate {direction : PlayDirection}
    (hv : Sound v) (h : v.calculateFrameIndexAndPts direction f = some r) : Sound r.1 := by
  unfold calculateFrameIndexAndPts at h
  split at h
  · obtain rfl := Option.some.inj h
    exact ⟨⟨hv.deduced, hv.deduced_le, hv.deduced_lt, hv.last⟩, hv.standard⟩
  · apply sound_interpolate ?_ h
    exact ⟨⟨hv.deduced, hv.deduced_le, hv.deduced_lt, hv.last⟩, hv.standard⟩

/-! ### Every run -/

theorem sound_constructed : Sound constructed where
  deduced := by decide
  deduced_le := by decide
  deduced_lt := by decide
  last := by decide
  standard := by decide

theorem sound_step (v : VideoTimes) (e : Event) (v' : VideoTimes) (hv : Sound v)
    (h : v.step e = some v') : Sound v' := by
  cases e with
  | frame direction f =>
    obtain ⟨r, hr, rfl⟩ := Option.map_eq_some_iff.mp h
    exact sound_calculate hv hr
  | discontinuity =>
    obtain rfl := Option.some.inj h
    exact ⟨⟨hv.deduced, hv.deduced_le, hv.deduced_lt, hv.last⟩, hv.standard⟩
  | discard f =>
    obtain rfl := Option.some.inj h
    exact ⟨⟨hv.deduced, hv.deduced_le, hv.deduced_lt, hv.last⟩, hv.standard⟩
  | reset =>
    obtain rfl := Option.some.inj h
    refine ⟨⟨hv.deduced, hv.deduced_le, hv.deduced_lt, ?_⟩, fun hvalid => ?_⟩
    · change (ofInt 0).denominator ≠ 0
      decide
    · exact absurd hvalid Bool.false_ne_true

theorem step_isSome_iff (v : VideoTimes) (e : Event) (hv : Sound v) :
    (v.step e).isSome ↔ v.Meets e := by
  cases e with
  | frame direction f =>
    rw [step, Option.isSome_map]
    exact calculate_isSome_iff hv direction f
  | discontinuity => exact iff_of_true rfl trivial
  | discard f => exact iff_of_true rfl trivial
  | reset => exact iff_of_true rfl trivial

/-- A run of frames and other events divides by zero nowhere just when every frame of it divides in
the state that it comes in. -/
theorem run_isSome_iff (events : List Event) :
    (Lts.run step constructed events).isSome ↔ Lts.Along step Meets constructed events :=
  Lts.run_isSome_iff_along sound_step step_isSome_iff sound_constructed

/-- An interlaced frame at 25 frames a second. -/
def palFrame (time : UInt64) : Frame where
  firstParsedParametersForOutputFrame := true
  normalizedPlaybackTime := time
  nativePlaybackTime := translatePlaybackTimeNormalizedToNative time
  displayFrameIndex := 0
  collapseHolesInDisplayIndices := false
  pictureStructure := .frame
  topFieldFirst := true
  displayCount0 := 1
  displayCount1 := 1
  progressive := false
  frameRate := ofIntegers 25 1

/-- A second field that comes alone begins where the field before it began. -/
example :
    Lts.run step constructed
      [.frame .playForward { palFrame 0 with pictureStructure := .topField, displayCount1 := 0 },
        .frame .playForward
          { palFrame 40000 with pictureStructure := .bottomField, displayCount1 := 0 }] = none := by
  decide +kernel

/-- Two frames with the same presentation time. -/
theorem not_run_isSome : ¬ ∀ events : List Event, (Lts.run step constructed events).isSome := by
  intro h
  have hrun := h [.frame .playForward (palFrame 0), .frame .playForward (palFrame 0)]
  exact absurd hrun (by decide +kernel)

end VideoTimes
end Player2.FrameRateDeduction
