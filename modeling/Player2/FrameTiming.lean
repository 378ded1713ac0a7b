import Player2.NativeTime
import Player2.PresentationInterval
import Player2.Rational

/-! # The timing record of a video frame

`OutputTimer_Video_c::FillOutFrameTimingRecord`.  A coded frame says for how many periods each of its fields
(or the whole frame, when the content is progressive) is to be shown, counted at the rate of the content; the
record says for how many periods of the display.  The counts are multiplied by `CountMultiplier` and paid out in whole periods, and
the fraction that is left goes into the next count (`AccumulatedError`).  The counts of the pan scan values
are paid out in the same way, with an error of their own.

Before that a single field is made a whole frame, an odd frame rate is replaced by the one of the display,
and 3:2 pulldown is removed; after it frames are lost for the synchronisation, the counts are overridden in
single step, fields are reversed in reverse play, and leading counts of zero are moved out of the way.  Each of
these parts is a definition of its own, and the function performs them in the order of the source.

`Rational_t` variables are restricted when they are assigned; a temporary value is not.  A count is
multiplied as an `int`. -/

namespace Player2.FrameTiming

open NativeTime (invalidTime unspecifiedTime)
open PresentationInterval (PlayDirection)

/-! ### The data -/

/-- `PictureStructure_t`. -/
inductive PictureStructure
  | empty
  | topField
  | bottomField
  | frame
deriving DecidableEq, Repr

def maxPanScanValues : ℕ := 3

/-- One value of `PanScan_t`. -/
structure PanScanValue where
  displayCount : UInt32
  horizontalOffset : Int32
  verticalOffset : Int32
deriving DecidableEq, Repr

/-- `PanScan_t`, with the first `Count` places of its arrays. -/
structure PanScan where
  values : List PanScanValue
  fits : values.length ≤ maxPanScanValues
deriving DecidableEq, Repr

/-- `ParsedVideoParameters_t`, for the fields used here. -/
structure VideoParameters where
  pictureStructure : PictureStructure
  /-- `Content.Progressive` -/
  progressive : Bool
  /-- `Content.FrameRate` -/
  frameRate : Rational
  interlacedFrame : Bool
  topFieldFirst : Bool
  displayCount0 : UInt32
  displayCount1 : UInt32
  panScan : PanScan
deriving DecidableEq, Repr

/-- `VideoOutputSurfaceDescriptor_t`, for the fields used here. -/
structure Surface where
  progressive : Bool
  frameRate : Rational
deriving DecidableEq, Repr

/-- `VideoOutputTiming_t`, for the fields filled out here. -/
structure Timing where
  systemPlaybackTime : UInt64
  expectedDurationTime : UInt64
  actualSystemPlaybackTime : UInt64
  interlaced : Bool
  topFieldFirst : Bool
  displayCount0 : UInt32
  displayCount1 : UInt32
  panScan : PanScan
deriving DecidableEq, Repr

/-- `OutputTimer_Video_c` and what it uses of `OutputTimer_Base_c`. -/
structure Timer where
  threeTwoPulldownDetected : Bool
  seenInterlacedContentOnInterlacedDisplay : Bool
  loseFramesForSynchronization : UInt32
  adjustedSpeedAfterFrameDrop : Rational
  lastAdjustedSpeedAfterFrameDrop : Rational
  previousFrameRate : Rational
  previousDisplayFrameRate : Rational
  previousContentProgressive : Bool
  codedFrameRate : Rational
  countMultiplier : Rational
  frameDurationTime : UInt64
  sourceFrameDurationTime : UInt64
  accumulatedError : Rational
  /-- `Configuration.FrameDecodeTime` -/
  frameDecodeTime : UInt64
  playbackTimeIncrement : UInt64
deriving DecidableEq, Repr

/-- `Reset`, before anything is timed. -/
def Timer.reset : Timer where
  threeTwoPulldownDetected := false
  seenInterlacedContentOnInterlacedDisplay := false
  loseFramesForSynchronization := 0
  adjustedSpeedAfterFrameDrop := Rational.ofInt 1
  lastAdjustedSpeedAfterFrameDrop := Rational.ofInt 0
  previousFrameRate := Rational.ofInt 0
  previousDisplayFrameRate := Rational.ofInt 0
  previousContentProgressive := false
  codedFrameRate := Rational.ofInt 0
  countMultiplier := Rational.ofInt 1
  frameDurationTime := 0
  sourceFrameDurationTime := 0
  accumulatedError := Rational.ofInt 0
  frameDecodeTime := 0
  playbackTimeIncrement := 0

/-! ### A single field -/

namespace PanScan

/-- The one value of a single field. -/
def whole (p : PanScan) : PanScan :=
  match p.values with
  | [] => p
  | v :: _ => ⟨[{ v with displayCount := 1 }], Nat.le_add_left 1 2⟩

/-- The extra field that 3:2 pulldown repeats is the second value of three, or else counted in the first. -/
def removePulldown (p : PanScan) : PanScan :=
  match h : p.values with
  | [] => p
  | [v₀, v₁, v₂] =>
    if v₁.displayCount = 1 then ⟨[v₀, v₂], Nat.le_add_left 2 1⟩
    else ⟨[{ v₀ with displayCount := v₀.displayCount - 1 }, v₁, v₂], Nat.le_refl 3⟩
  | v :: vs => ⟨{ v with displayCount := v.displayCount - 1 } :: vs, by simpa [h] using p.fits⟩

end PanScan

namespace VideoParameters

def partialFrame (p : VideoParameters) : Bool := p.pictureStructure ≠ .frame

/-- A field without its pair is shown as a whole frame. -/
def unpaired (p : VideoParameters) : VideoParameters :=
  if p.partialFrame then
    { p with
      progressive := false
      interlacedFrame := true
      topFieldFirst := p.pictureStructure = .topField
      displayCount0 := 1
      panScan := p.panScan.whole }
  else p

/-- `InterlacedContentOnInterlacedDisplay`. -/
def interlacedOnInterlaced (p : VideoParameters) (surface : Surface) : Bool :=
  p.interlacedFrame && !surface.progressive

/-- Both fields of an interlaced frame go to an interlaced display. -/
def paired (p : VideoParameters) (surface : Surface) : Bool :=
  p.interlacedOnInterlaced surface && !p.partialFrame

end VideoParameters

/-- The frame rate of the content; where it is not reasonable, the one of the display. -/
def validFrameRate (frameRate : Rational) (progressive : Bool) (surface : Surface) : Rational :=
  let frameRate := frameRate.restrict
  if frameRate.inrange 1 120 then frameRate
  else
    let frameRate := surface.frameRate.restrict
    if progressive then frameRate else (frameRate.divInt 2).restrict

/-! ### 3:2 pulldown -/

def removeAnyThreeTwoPulldown (surface : Surface) (speed frameRate : Rational) : Bool :=
  frameRate.inrange 29 31 && (surface.frameRate.lt (Rational.ofInt 51) || !speed.equalsInt 1)

/-- The error of the frame before, which was counted without 3:2 pulldown. -/
def enteringError (surface : Surface) (frameRate error : Rational) : Rational :=
  let error := (error.mul (Rational.ofIntegers 4 4)).restrict
  (error.add (surface.frameRate.div (frameRate.mulInt 4))).restrict

/-- Look for 3:2 pulldown: a progressive frame with a repeated field in a sequence that is not progressive. -/
def detectThreeTwo (surface : Surface) (speed frameRate : Rational) (p : VideoParameters) (t : Timer) : Timer :=
  if !t.threeTwoPulldownDetected && !p.progressive && !p.interlacedFrame && p.displayCount0 == 2 then
    { t with
      threeTwoPulldownDetected := true
      accumulatedError :=
        if removeAnyThreeTwoPulldown surface speed frameRate then
          enteringError surface frameRate t.accumulatedError
        else t.accumulatedError }
  else if p.displayCount0 > 2 then { t with threeTwoPulldownDetected := false }
  else t

/-- The frame rate without 3:2 pulldown. -/
def filmRate (frameRate : Rational) : Rational := ((frameRate.mulInt 4).divInt 5).restrict

/-- The frame without the extra field. -/
def VideoParameters.removeExtraField (p : VideoParameters) : VideoParameters :=
  if p.displayCount0 = 2 then { p with displayCount0 := 1, panScan := p.panScan.removePulldown } else p

/-- The system time without the jitter of 3:2 pulldown. -/
def removeThreeTwoJitter (frameRate : Rational) (p : VideoParameters) (systemTime : UInt64) : UInt64 :=
  if p.displayCount0 = 2 ∧ systemTime ≠ unspecifiedTime then
    systemTime + (Rational.intDiv 200000 frameRate).restrict.roundedLongLongIntegerPart
  else systemTime

/-! ### The multiplier -/

/-- Whether `CountMultiplier` is to be calculated again. -/
def rateChanged (surface : Surface) (frameRate : Rational) (progressive : Bool) (t : Timer) : Bool :=
  t.adjustedSpeedAfterFrameDrop.ne t.lastAdjustedSpeedAfterFrameDrop ||
    frameRate.ne t.previousFrameRate ||
    surface.frameRate.ne t.previousDisplayFrameRate ||
    progressive != t.previousContentProgressive

/-- `CountMultiplier`: display periods for one period of the content. -/
def multiplier (surface : Surface) (adjustedSpeed frameRate : Rational) (progressive : Bool) : Rational :=
  let countMultiplier := (surface.frameRate.div (adjustedSpeed.mul frameRate)).restrict
  if progressive then countMultiplier else (countMultiplier.divInt 2).restrict

/-- The time of one period of the content. -/
def sourceDuration (frameRate : Rational) (progressive : Bool) : UInt64 :=
  let tmp := (Rational.intDiv 1000000 frameRate).restrict
  (if progressive then tmp else (tmp.divInt 2).restrict).longLongIntegerPart

/-- The frame rate conversion, calculated again if a rate has changed.  The error is left accumulating, except
when the multiplier is 1. -/
def recalculate (surface : Surface) (frameRate : Rational) (progressive : Bool) (t : Timer) : Timer :=
  if rateChanged surface frameRate progressive t then
    let countMultiplier := multiplier surface t.adjustedSpeedAfterFrameDrop frameRate progressive
    { t with
      countMultiplier := countMultiplier
      accumulatedError := if countMultiplier.equalsInt 1 then Rational.ofInt 0 else t.accumulatedError
      frameDurationTime := (Rational.intDiv 1000000 surface.frameRate).restrict.longLongIntegerPart
      sourceFrameDurationTime := sourceDuration frameRate progressive
      codedFrameRate := frameRate.restrict
      previousFrameRate := frameRate.restrict
      previousDisplayFrameRate := surface.frameRate.restrict
      previousContentProgressive := progressive
      lastAdjustedSpeedAfterFrameDrop := t.adjustedSpeedAfterFrameDrop.restrict }
  else t

/-- The output time, jittered by the accumulated error. -/
def jitter (t : Timer) (paired : Bool) (systemTime : UInt64) : UInt64 :=
  if systemTime ≠ unspecifiedTime then
    let error := (t.accumulatedError.mulInt (Rational.intOf t.frameDurationTime)).restrict
    let error := if paired then (error.mulInt 2).restrict else error
    systemTime - error.longLongIntegerPart
  else systemTime

/-! ### The counts -/

/-- `FrameCount`: a count in periods of the display, with the error carried to it. -/
def frameCount (countMultiplier : Rational) (count : UInt32) (error : Rational) : Rational :=
  ((countMultiplier.mulInt count.toInt32).add error).restrict

/-- The whole periods. -/
def whole (frameCount : Rational) : UInt32 := frameCount.integerPart.toUInt32

/-- The error carried on. -/
def carry (frameCount : Rational) : Rational := frameCount.remainder.restrict

/-- `VideoOutputTiming->DisplayCount` and `AccumulatedError`. -/
def displayCounts (t : Timer) (p : VideoParameters) (surface : Surface) : UInt32 × UInt32 × Rational :=
  let first := frameCount t.countMultiplier p.displayCount0 t.accumulatedError
  if p.partialFrame then (1, 0, carry first)
  else if p.interlacedOnInterlaced surface then (whole first, whole first, carry first)
  else if p.progressive then (whole first, 0, carry first)
  else
    let second := frameCount t.countMultiplier p.displayCount1 (carry first)
    (whole first, whole second, carry second)

/-- Pay out the counts of the pan scan values one after the other. -/
def scaleValues (countMultiplier : Rational) : Rational → List PanScanValue → List PanScanValue
  | _, [] => []
  | accumulatedPanScanError, v :: vs =>
    let frameCount := frameCount countMultiplier v.displayCount accumulatedPanScanError
    { v with displayCount := whole frameCount } :: scaleValues countMultiplier (carry frameCount) vs

theorem length_scaleValues (countMultiplier error : Rational) (vs : List PanScanValue) :
    (scaleValues countMultiplier error vs).length = vs.length := by
  induction vs generalizing error with
  | nil => rfl
  | cons v vs ih => simp [scaleValues, ih]

/-- The values of an interlaced frame on an interlaced display, which may be at most two. -/
def fieldValues (displayCount0 displayCount1 : UInt32) : List PanScanValue → List PanScanValue
  | [v] => [{ v with displayCount := displayCount0 + displayCount1 }]
  | [v₀, v₁] => [{ v₀ with displayCount := displayCount0 }, { v₁ with displayCount := displayCount1 }]
  | vs => vs

theorem length_fieldValues (displayCount0 displayCount1 : UInt32) (vs : List PanScanValue) :
    (fieldValues displayCount0 displayCount1 vs).length = vs.length := by
  unfold fieldValues
  split <;> rfl

/-- `VideoOutputTiming->PanScan`. -/
def panScanCounts (t : Timer) (p : VideoParameters) (surface : Surface) (displayCount0 displayCount1 : UInt32) :
    PanScan where
  values :=
    if p.interlacedOnInterlaced surface then fieldValues displayCount0 displayCount1 p.panScan.values
    else scaleValues t.countMultiplier t.accumulatedError.restrict p.panScan.values
  fits := by
    split
    · exact (length_fieldValues ..).trans_le p.panScan.fits
    · exact (length_scaleValues ..).trans_le p.panScan.fits

/-! ### Corrections -/

/-- Lose frames for the synchronization: the counts that are left, and what is still to be lost. -/
def loseFrames (paired : Bool) (lose displayCount0 displayCount1 : UInt32) : UInt32 × UInt32 × UInt32 :=
  if lose ≠ 0 ∧ displayCount0 + displayCount1 ≠ 0 then
    if paired then
      let lost := min (lose / 2) displayCount0
      (displayCount0 - lost, displayCount1 - lost, lose - 2 * lost)
    else
      let lost := min lose displayCount0
      let lost' := min (lose - lost) displayCount1
      (displayCount0 - lost, displayCount1 - lost', lose - lost - lost')
  else (displayCount0, displayCount1, lose)

/-- Single stepping overrides the counts. -/
def singleStep (speed : Rational) (progressive : Bool) (displayCount0 displayCount1 : UInt32) : UInt32 × UInt32 :=
  if speed.equalsInt 0 then (1, if progressive then displayCount1 else 1) else (displayCount0, displayCount1)

namespace PanScan

def reverse (p : PanScan) : PanScan := ⟨p.values.reverse, List.length_reverse.trans_le p.fits⟩

/-- Shuffle up over zero counts. -/
def shuffleUp (p : PanScan) : PanScan where
  values := p.values.dropWhile (·.displayCount = 0)
  fits := (List.dropWhile_sublist _).length_le.trans p.fits

end PanScan

namespace Timing

/-- In reverse play the fields are exchanged, and the pan scan values reversed. -/
def reverseFields (r : Timing) : Timing :=
  { r with
    topFieldFirst := !r.topFieldFirst
    displayCount0 := r.displayCount1
    displayCount1 := r.displayCount0
    panScan := r.panScan.reverse }

/-- A zero first count is filled with the second one. -/
def moveUp (r : Timing) : Timing :=
  if r.displayCount0 = 0 then
    { r with displayCount0 := r.displayCount1, displayCount1 := 0, topFieldFirst := !r.topFieldFirst }
  else r

end Timing

/-! ### The whole function -/

/-- What one call is given: the display, the speed and the direction of playback, the time and the frame. -/
structure Call where
  surface : Surface
  speed : Rational
  direction : PlayDirection
  systemTime : UInt64
  parameters : VideoParameters
deriving DecidableEq

namespace Call

/-- The frame and its frame rate, before 3:2 pulldown is looked for. -/
def unpaired (c : Call) : VideoParameters := c.parameters.unpaired

def validFrameRate (c : Call) : Rational :=
  FrameTiming.validFrameRate c.unpaired.frameRate c.unpaired.progressive c.surface

/-- The timer, with what it has seen. -/
def detect (c : Call) (t : Timer) : Timer :=
  detectThreeTwo c.surface c.speed c.validFrameRate c.unpaired
    { t with
      seenInterlacedContentOnInterlacedDisplay :=
        t.seenInterlacedContentOnInterlacedDisplay || c.unpaired.paired c.surface }

/-- 3:2 pulldown is removed from the frame. -/
def removes (c : Call) (t : Timer) : Bool :=
  (c.detect t).threeTwoPulldownDetected && removeAnyThreeTwoPulldown c.surface c.speed c.validFrameRate

/-- The frame that is timed. -/
def frame (c : Call) (t : Timer) : VideoParameters :=
  if c.removes t then c.unpaired.removeExtraField else c.unpaired

def frameRate (c : Call) (t : Timer) : Rational :=
  if c.removes t then filmRate c.validFrameRate else c.validFrameRate

/-- The timer with the frame rate conversion for the frame. -/
def convert (c : Call) (t : Timer) : Timer :=
  recalculate c.surface (c.frameRate t) (c.frame t).progressive (c.detect t)

/-- The time at which the frame is to be shown. -/
def playbackTime (c : Call) (t : Timer) : UInt64 :=
  jitter (c.convert t) ((c.frame t).paired c.surface)
    (if c.removes t then removeThreeTwoJitter (c.frameRate t) c.unpaired c.systemTime else c.systemTime)

/-- The counts after the corrections, and what is still to be lost. -/
def corrected (c : Call) (t : Timer) : UInt32 × UInt32 × UInt32 :=
  let p := c.frame t
  let counts := displayCounts (c.convert t) p c.surface
  let lost := loseFrames (p.paired c.surface) t.loseFramesForSynchronization counts.1 counts.2.1
  let stepped := singleStep c.speed p.progressive lost.1 lost.2.1
  (stepped.1, stepped.2, lost.2.2)

/-- The record in the order of decoding. -/
def record (c : Call) (t : Timer) : Timing :=
  let p := c.frame t
  let counts := displayCounts (c.convert t) p c.surface
  let corrected := c.corrected t
  { systemPlaybackTime := c.playbackTime t
    expectedDurationTime := (c.convert t).frameDurationTime * (corrected.1 + corrected.2.1).toUInt64
    actualSystemPlaybackTime := invalidTime
    interlaced := p.interlacedFrame
    topFieldFirst := p.topFieldFirst
    displayCount0 := corrected.1
    displayCount1 := corrected.2.1
    panScan := panScanCounts (c.convert t) p c.surface counts.1 counts.2.1 }

/-- The record in the order of display, with no zero count in front. -/
def ordered (c : Call) (t : Timer) : Timing :=
  let r := c.record t
  let r := if !(c.frame t).progressive && c.direction = .playBackward then r.reverseFields else r
  { r.moveUp with panScan := r.panScan.shuffleUp }

/-- The timer after the call. -/
def timer (c : Call) (t : Timer) : Timer :=
  let p := c.frame t
  let converted := c.convert t
  let normalSpeedExpectedDurationTime :=
    converted.sourceFrameDurationTime * (p.displayCount0 + p.displayCount1).toUInt64
  { converted with
    accumulatedError := (displayCounts converted p c.surface).2.2
    loseFramesForSynchronization := (c.corrected t).2.2
    frameDecodeTime := max normalSpeedExpectedDurationTime converted.frameDecodeTime
    playbackTimeIncrement := normalSpeedExpectedDurationTime }

end Call

/-- `FillOutFrameTimingRecord`: the frame, as it is left, the record and the timer. -/
def fillOutFrameTimingRecord (c : Call) (r : Timing) (t : Timer) : VideoParameters × Timing × Timer :=
  if c.parameters.pictureStructure = .empty then
    (c.parameters, { r with displayCount0 := 0, displayCount1 := 0 }, t)
  else (c.frame t, c.ordered t, c.timer t)

end Player2.FrameTiming
