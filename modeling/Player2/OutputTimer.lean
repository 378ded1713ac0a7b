import Player2.NativeTime
import Player2.Rational
import Player2.Run

/-! # Dropping frames before decode

`OutputTimer_Base_c` is asked twice about each decode unit before it is decoded: before the wait for the
decode window and after it.  Only the first unit of an output frame is to be decided on; the decision is
kept (`LastFrameDropPreDecodeDecision`) and repeated for the other units, since one cannot drop just a
slice, or a single field.

The decision is not repeated everywhere.  Both tests return at once while the synchronization policy is not
applied, and the second one looks at the speed of playback before it looks at the kind of unit; and a first
unit that leaves by such an exit, or because its meta data cannot be obtained, does not record a decision.
`along_whole` says which units are decided like the first one of their frame.

The domain of trick mode comes from measured rates; here it is what `TrickModeControl` finds, if it
calculates it again. -/

namespace Player2

open NativeTime (invalidTime validTime)

/-- The values of `OutputTimerStatus_t` returned here. -/
inductive OutputTimerStatus
  | noError
  | dropFrameSingleGroupPlayback
  | dropFrameKeyFramesOnly
  | dropFrameOutsidePresentationInterval
  | trickModeNotSupportedDropFrame
  | trickModeDropFrame
  | unableToObtainMetaData
deriving DecidableEq, Repr

/-- `TrickModeDomain_t`. -/
inductive TrickModeDomain
  | invalid
  | decodeAll
  | decodeAllDegradeNonReferenceFrames
  | startDiscardingNonReferenceFrames
  | decodeReferenceFramesDegradeNonKeyFrames
  | decodeKeyFrames
  | discontinuousKeyFrames
deriving DecidableEq, Repr

/-- The domains from `TrickModeDecodeKeyFrames` on lose reference frames. -/
def TrickModeDomain.losesReferenceFrames : TrickModeDomain → Bool
  | decodeKeyFrames | discontinuousKeyFrames => true
  | _ => false

/-- `SynchronizationState_t`. -/
inductive SynchronizationState
  | inSynchronization
  | suspectedSyncError
  | confirmedSyncError
  | startAwaitingCorrectionWorkthrough
  | awaitingCorrectionWorkthrough
deriving DecidableEq, Repr

/-- `DecodeInTimeState_t`. -/
inductive DecodeInTimeState
  | decodingInTime
  | accumulatingDecodeInTimeFailures
  | accumulatedDecodeInTimeFailures
  | pauseBetweenDecodeInTimeIntegrations
deriving DecidableEq, Repr

/-- `ParsedFrameParameters_t`, for the fields used here. -/
structure DecodeUnitParameters where
  firstParsedParametersForOutputFrame : Bool
  firstParsedParametersAfterInputJump : Bool
  keyFrame : Bool
  independentFrame : Bool
  referenceFrame : Bool
  normalizedPlaybackTime : UInt64
  applySubstandardDecode : Bool
deriving DecidableEq, Repr

/-- `OutputTimerConfiguration_t`, for the fields used here. -/
structure OutputTimerConfiguration where
  reversePlaySupported : Bool
  minimumSpeedSupported : Rational
  maximumSpeedSupported : Rational
deriving DecidableEq, Repr

/-- `OutputTimer_Base_c`, for the fields used here. -/
structure OutputTimer where
  lastFrameDropPreDecodeDecision : OutputTimerStatus
  keyFramesSinceDiscontinuity : UInt32
  lastKeyFramePlaybackTime : UInt64
  nextExpectedPlaybackTime : UInt64
  trickModeDomain : TrickModeDomain
  lastTrickModeDomain : TrickModeDomain
  trickModeCheckReferenceFrames : UInt32
  portionOfPreDecodeFramesToLose : Rational
  accumulatedPreDecodeFramesToLose : Rational
  synchronizationState : SynchronizationState
  decodeInTimeState : DecodeInTimeState
  seenAnInTimeFrame : Bool
deriving DecidableEq, Repr

namespace OutputTimer

/-- `TRICK_MODE_CHECK_REFERENCE_FRAMES_FOR_N_KEY_FRAMES`. -/
def checkReferenceFramesForNKeyFrames : UInt32 := 2

def reset : OutputTimer where
  lastFrameDropPreDecodeDecision := .noError
  keyFramesSinceDiscontinuity := 0
  lastKeyFramePlaybackTime := invalidTime
  nextExpectedPlaybackTime := invalidTime
  trickModeDomain := .invalid
  lastTrickModeDomain := .invalid
  trickModeCheckReferenceFrames := 0
  portionOfPreDecodeFramesToLose := Rational.ofInt 0
  accumulatedPreDecodeFramesToLose := Rational.ofInt 0
  synchronizationState := .inSynchronization
  decodeInTimeState := .decodingInTime
  seenAnInTimeFrame := false

/-! ### Times -/

def playbackTimeCheckGreaterThanOrEqual (t0 t1 : UInt64) : Bool :=
  validTime t0 && validTime t1 && decide (t0 ≥ t1)

def playbackTimeCheckIntervalsIntersect (i0Start i0End i1Start i1End : UInt64) : Bool :=
  let start0 := if validTime i0Start then i0Start else 0
  let end0 := if validTime i0End then i0End else 0xffffffffffffffff
  let start1 := if validTime i1Start then i1Start else 0
  let end1 := if validTime i1End then i1End else 0xffffffffffffffff
  if start0 < start1 then end0 > start1 else start0 < end1

/-! ### Before the decode window -/

/-- What the first test reads from outside: `PolicyAVDSynchronization`, the meta data of the buffer,
`PolicyStreamSingleGroupBetweenDiscontinuities`, `PolicyStreamOnlyKeyFrames`, the presentation interval and
the result of `FrameDuration`. -/
structure WindowInput where
  synchronization : Bool
  metaData : Bool
  singleGroupPlayback : Bool
  independentFramesOnly : Bool
  startInterval : UInt64
  endInterval : UInt64
  frameDuration : Option UInt64
deriving DecidableEq, Repr

variable (s : OutputTimer)

/-- Return a decision, and record it. -/
def decided (status : OutputTimerStatus) : OutputTimer × OutputTimerStatus :=
  ({ s with lastFrameDropPreDecodeDecision := status }, status)

/-- Update the key frame count. -/
def countKeyFrames (p : DecodeUnitParameters) : OutputTimer :=
  let s := if p.firstParsedParametersAfterInputJump then { s with keyFramesSinceDiscontinuity := 0 } else s
  if p.keyFrame then
    { s with
      lastKeyFramePlaybackTime := p.normalizedPlaybackTime
      keyFramesSinceDiscontinuity := s.keyFramesSinceDiscontinuity + 1 }
  else s

/-- A frame of known duration that does not meet the presentation interval. -/
def outsideInterval (p : DecodeUnitParameters) (w : WindowInput) : Bool :=
  w.frameDuration.any fun duration =>
    let durationEnd :=
      if p.normalizedPlaybackTime = invalidTime then invalidTime
      else p.normalizedPlaybackTime + duration
    !playbackTimeCheckIntervalsIntersect p.normalizedPlaybackTime durationEnd w.startInterval
      w.endInterval

def dropTestBeforeDecodeWindow (p : DecodeUnitParameters) (w : WindowInput) :
    OutputTimer × OutputTimerStatus :=
  if !w.metaData then (s, .unableToObtainMetaData)
  else if !p.firstParsedParametersForOutputFrame then (s, s.lastFrameDropPreDecodeDecision)
  else
    let s := s.countKeyFrames p
    if w.singleGroupPlayback && decide (s.keyFramesSinceDiscontinuity ≥ 2) then
      s.decided .dropFrameSingleGroupPlayback
    else if !p.independentFrame && w.independentFramesOnly then s.decided .dropFrameKeyFramesOnly
    else if !p.keyFrame &&
        playbackTimeCheckGreaterThanOrEqual s.lastKeyFramePlaybackTime w.endInterval then
      s.decided .dropFrameOutsidePresentationInterval
    else if !p.referenceFrame && outsideInterval p w then
      s.decided .dropFrameOutsidePresentationInterval
    else (s, .noError)

/-! ### Before decode -/

/-- What the second test reads from outside: `PolicyAVDSynchronization`, the meta data of the buffer, the
speed and direction of playback, the domain and the portion of frames to lose that `TrickModeControl`
calculates, if it does, and the result of `CheckReferenceFrameList`. -/
structure DecodeInput where
  synchronization : Bool
  metaData : Bool
  speed : Rational
  playBackward : Bool
  trickMode : Option (TrickModeDomain × Rational)
  referenceFramesThere : Bool
deriving DecidableEq, Repr

/-- The output timer cannot play at this speed, or in this direction. -/
def unsupported (configuration : OutputTimerConfiguration) (d : DecodeInput) : Bool :=
  d.playBackward && !configuration.reversePlaySupported ||
    !d.speed.equalsInt 0 && !(d.speed.ge configuration.minimumSpeedSupported &&
      d.speed.le configuration.maximumSpeedSupported)

/-- `TrickModeControl`, after it has calculated the domain. -/
def trickModeControl (trickMode : Option (TrickModeDomain × Rational)) : OutputTimer :=
  match trickMode with
  | none => s
  | some (domain, portion) =>
    { s with
      trickModeDomain := domain
      portionOfPreDecodeFramesToLose := portion
      trickModeCheckReferenceFrames :=
        if s.lastTrickModeDomain.losesReferenceFrames && !domain.losesReferenceFrames then
          checkReferenceFramesForNKeyFrames
        else s.trickModeCheckReferenceFrames
      accumulatedPreDecodeFramesToLose :=
        if domain ≠ s.lastTrickModeDomain then Rational.ofInt 0
        else s.accumulatedPreDecodeFramesToLose
      lastTrickModeDomain := domain }

/-- A key frame more has been checked. -/
def countChecked (p : DecodeUnitParameters) : OutputTimer :=
  if p.keyFrame && s.trickModeCheckReferenceFrames != 0 then
    { s with trickModeCheckReferenceFrames := s.trickModeCheckReferenceFrames - 1 }
  else s

/-- A status that drops the frame under a condition. -/
def dropIf (condition : Bool) : OutputTimerStatus :=
  if condition then .trickModeDropFrame else .noError

/-- Lose a portion of the frames. -/
def losePortion : OutputTimer × OutputTimerStatus :=
  let accumulated := (s.accumulatedPreDecodeFramesToLose.add s.portionOfPreDecodeFramesToLose).restrict
  if accumulated.ge (Rational.ofInt 1) then
    ({ s with accumulatedPreDecodeFramesToLose := (accumulated.subInt 1).restrict }, .trickModeDropFrame)
  else ({ s with accumulatedPreDecodeFramesToLose := accumulated }, .noError)

/-- The trick mode decision. -/
def trickModeDecision (p : DecodeUnitParameters) :
    OutputTimer × DecodeUnitParameters × OutputTimerStatus :=
  match s.trickModeDomain with
  | .invalid | .decodeAll => (s, p, .noError)
  | .decodeAllDegradeNonReferenceFrames =>
    (s, { p with applySubstandardDecode := !p.referenceFrame }, .noError)
  | .startDiscardingNonReferenceFrames =>
    if p.referenceFrame then (s, p, .noError)
    else (s.losePortion.1, { p with applySubstandardDecode := true }, s.losePortion.2)
  | .decodeReferenceFramesDegradeNonKeyFrames =>
    (s, { p with applySubstandardDecode := !p.independentFrame }, dropIf !p.referenceFrame)
  | .decodeKeyFrames | .discontinuousKeyFrames => (s, p, dropIf !p.independentFrame)

/-- Drop a frame until key frame recovery when its reference frames are not there. -/
def checkReferenceFrames (referenceFramesThere : Bool) (status : OutputTimerStatus) :
    OutputTimer × OutputTimerStatus :=
  if s.trickModeCheckReferenceFrames ≠ 0 ∧ status = .noError ∧ referenceFramesThere = false then
    (if s.trickModeDomain = .startDiscardingNonReferenceFrames then
        { s with accumulatedPreDecodeFramesToLose :=
          (s.accumulatedPreDecodeFramesToLose.subInt 1).restrict }
      else s, .trickModeDropFrame)
  else (s, status)

/-- Reset the synchronization monitors after an unsupported trick mode. -/
def restartMonitors : OutputTimer :=
  if s.lastFrameDropPreDecodeDecision = .trickModeNotSupportedDropFrame then
    { s with
      synchronizationState := .startAwaitingCorrectionWorkthrough
      decodeInTimeState := .decodingInTime
      seenAnInTimeFrame := false }
  else s

/-- `DropTestBeforeDecode`, which may also ask for a substandard decode of the unit. -/
def dropTestBeforeDecode (configuration : OutputTimerConfiguration) (p : DecodeUnitParameters)
    (d : DecodeInput) : OutputTimer × DecodeUnitParameters × OutputTimerStatus :=
  if unsupported configuration d then
    ({ s with
        nextExpectedPlaybackTime := invalidTime
        lastFrameDropPreDecodeDecision := .trickModeNotSupportedDropFrame },
      p, .trickModeNotSupportedDropFrame)
  else if !d.metaData then (s, p, .unableToObtainMetaData)
  else if !p.firstParsedParametersForOutputFrame then (s, p, s.lastFrameDropPreDecodeDecision)
  else
    let decision := ((s.trickModeControl d.trickMode).countChecked p).trickModeDecision p
    let checked := decision.1.checkReferenceFrames d.referenceFramesThere decision.2.2
    let recorded := checked.1.restartMonitors.decided checked.2
    (recorded.1, decision.2.1, recorded.2)

/-! ### Decode units -/

/-- A decode unit, with what the two tests read when they are made for it. -/
structure DecodeUnit where
  parameters : DecodeUnitParameters
  window : WindowInput
  decode : DecodeInput
deriving DecidableEq, Repr

/-- `TestForFrameDrop` at `OutputTimerBeforeDecodeWindow`. -/
def testBeforeDecodeWindow (u : DecodeUnit) : OutputTimer × OutputTimerStatus :=
  if !u.window.synchronization then (s, .noError)
  else s.dropTestBeforeDecodeWindow u.parameters u.window

/-- `TestForFrameDrop` at `OutputTimerBeforeDecode`. -/
def testBeforeDecode (configuration : OutputTimerConfiguration) (u : DecodeUnit) :
    OutputTimer × DecodeUnitParameters × OutputTimerStatus :=
  if !u.decode.synchronization then (s, u.parameters, .noError)
  else s.dropTestBeforeDecode configuration u.parameters u.decode

/-- The two tests, as `ProcessParseToDecode` makes them. -/
def testForFrameDrop (configuration : OutputTimerConfiguration) (u : DecodeUnit) :
    OutputTimer × DecodeUnitParameters × OutputTimerStatus :=
  let window := s.testBeforeDecodeWindow u
  if window.2 = .noError then window.1.testBeforeDecode configuration u
  else (window.1, u.parameters, window.2)

/-- The unit is dropped. -/
def drops (configuration : OutputTimerConfiguration) (u : DecodeUnit) : Bool :=
  (s.testForFrameDrop configuration u).2.2 ≠ .noError

end OutputTimer

end Player2
