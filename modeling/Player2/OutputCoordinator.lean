import Player2.Keyed
import Player2.NativeTime
import Player2.Rational
import Player2.Run

/-! # The output coordinator

`OutputCoordinator_Base_c` keeps the mapping between playback time and system time of the streams of one
playback.  There is a master mapping, and each stream has its own, taken from the master one.  A jump in
the playback times of a stream moves its base and the master's by the size of the jump; the other streams
are to follow, and the sum of the jumps since the last synchronization, kept for the playback and for each
stream, says how far they have.

A stream that synchronizes first looks for a mapping that it can take at once; otherwise it sleeps for the
startup delay and then waits with the others until one of them sets up a new mapping.  The lock is given
up in between, so a call of `SynchronizeStreams` is made of steps: its beginning, the end of the startup
delay, and each time the wait ends.

A context is known by a number, which stands for its address.  Times are unsigned 64-bit words; the sums of
jumps and the stream offsets are signed, and `signed` reads a word so where the source compares them. -/

namespace Player2

open NativeTime (invalidTime validTime)

/-- `PlayerStreamType_t`. -/
inductive StreamType
  | none
  | audio
  | video
  | other
deriving DecidableEq, Repr

/-- The values of `PolicyMasterClock`. -/
inductive MasterClock
  | videoClockMaster
  | audioClockMaster
  | systemClockMaster
deriving DecidableEq, Repr

/-- A stream of this type can be the master. -/
def MasterClock.possibleMaster : MasterClock → StreamType → Bool
  | .videoClockMaster, t => t = .video
  | .audioClockMaster, t => t = .audio
  | .systemClockMaster, _ => false

/-- `OutputCoordinatorContext_s`, for the fields read here.  The last three are variables of the call of
`SynchronizeStreams` that the stream is in. -/
structure CoordinatorContext where
  id : ℕ
  streamType : StreamType
  inStartupDelay : Bool
  inSynchronizeFn : Bool
  synchronizingAtPlaybackTime : UInt64
  timeMappingEstablished : Bool
  baseSystemTimeAdjusted : Bool
  basedOnMasterMappingVersion : UInt32
  baseSystemTime : UInt64
  baseNormalizedPlaybackTime : UInt64
  accumulatedPlaybackTimeJumps : UInt64
  clockMaster : Bool
  allowedToAdjustMappingBase : Bool
  streamOffset : UInt64
  normalizedPlaybackTime : UInt64
  waitCount : ℕ
  maxSynchronizeWaits : ℕ
deriving DecidableEq, Repr

/-- `OutputCoordinator_Base_c`.  The speed, the direction and the clock adjustment do not change here. -/
structure OutputCoordinator where
  coordinatedContexts : List CoordinatorContext
  streamCount : ℕ
  streamsInSynchronize : ℕ
  masterTimeMappingEstablished : Bool
  masterTimeMappingVersion : UInt32
  masterBaseSystemTime : UInt64
  masterBaseNormalizedPlaybackTime : UInt64
  gotAMasterClock : Bool
  gotAnAlternateMasterClock : Bool
  alternateMasterContext : Option ℕ
  gotAVideoStream : Bool
  accumulatedPlaybackTimeJumps : UInt64
  jumpSeenAtPlaybackTime : UInt64
  minimumStreamOffset : UInt64
  systemClockAdjustment : Rational
  speed : Rational
  playBackward : Bool
deriving DecidableEq, Repr

namespace OutputCoordinator

/-! ### Constants -/

/-- `NEGATIVE_REASONABLE_LIMIT` and `POSITIVE_REASONABLE_LIMIT`. -/
def negativeReasonableLimit : UInt64 := -4000000
def positiveReasonableLimit : UInt64 := 4000000

def rebaseTimeTriggerValue : UInt64 := 0x10000000
def playbackTimeJumpError : ℤ := 64000
def otherStreamsMustFollowJumpBy : ℤ := 250000
def maxSynchronizationWindow : ℤ := 10000000

/-- `MAX_SYNCHRONIZE_WAITS`. -/
def maxWaits : ℕ := 4

/-- A word as a `long long`. -/
def signed (t : UInt64) : ℤ := t.toInt64.toInt

def inrange (val lower upper : ℤ) : Bool := lower ≤ val && val ≤ upper

/-! ### Contexts -/

/-- A coordinator as `Reset` leaves it. -/
def start (speed : Rational) (playBackward : Bool) (systemClockAdjustment : Rational) :
    OutputCoordinator where
  coordinatedContexts := []
  streamCount := 0
  streamsInSynchronize := 0
  masterTimeMappingEstablished := false
  masterTimeMappingVersion := 0
  masterBaseSystemTime := 0
  masterBaseNormalizedPlaybackTime := 0
  gotAMasterClock := false
  gotAnAlternateMasterClock := false
  alternateMasterContext := none
  gotAVideoStream := false
  accumulatedPlaybackTimeJumps := 0
  jumpSeenAtPlaybackTime := invalidTime
  minimumStreamOffset := 0
  systemClockAdjustment := systemClockAdjustment
  speed := speed
  playBackward := playBackward

variable (s : OutputCoordinator)

/-- The context with an address. -/
def context (c : ℕ) : Option CoordinatorContext := s.coordinatedContexts.find? (fun x => x.id == c)

/-- The addresses of the contexts. -/
def ids : List ℕ := s.coordinatedContexts.map CoordinatorContext.id

/-- Change a context. -/
def modify (c : ℕ) (f : CoordinatorContext → CoordinatorContext) : OutputCoordinator :=
  { s with coordinatedContexts := Keyed.modifyAt CoordinatorContext.id s.coordinatedContexts c f }

/-- Change every context. -/
def modifyAll (f : CoordinatorContext → CoordinatorContext) : OutputCoordinator :=
  { s with coordinatedContexts := s.coordinatedContexts.map f }

/-- Change one context, or all of them for `PlaybackContext`. -/
def propagate (c : Option ℕ) (f : CoordinatorContext → CoordinatorContext) : OutputCoordinator :=
  match c with
  | none => s.modifyAll f
  | some c => s.modify c f

/-! ### Registration -/

/-- A call of `RegisterStream`: the address of the new context, whether the manifestor and its output
surface are found, and `PolicyExternalTimeMapping`. -/
structure Registration where
  id : ℕ
  streamType : StreamType
  obtained : Bool
  externalTimeMapping : Bool
deriving DecidableEq, Repr

/-- A context as `RegisterStream` initializes it. -/
def Registration.context (r : Registration) : CoordinatorContext where
  id := r.id
  streamType := r.streamType
  inStartupDelay := false
  inSynchronizeFn := false
  synchronizingAtPlaybackTime := 0
  timeMappingEstablished := false
  baseSystemTimeAdjusted := false
  basedOnMasterMappingVersion := 0
  baseSystemTime := 0
  baseNormalizedPlaybackTime := 0
  accumulatedPlaybackTimeJumps := 0
  clockMaster := false
  allowedToAdjustMappingBase := false
  streamOffset := invalidTime
  normalizedPlaybackTime := 0
  waitCount := 0
  maxSynchronizeWaits := 0

/-- Copy an external time mapping into a new context. -/
def withExternalMapping (external : Bool) (x : CoordinatorContext) : CoordinatorContext :=
  if external && s.masterTimeMappingEstablished then
    { x with
      baseSystemTime := s.masterBaseSystemTime
      baseNormalizedPlaybackTime := s.masterBaseNormalizedPlaybackTime
      accumulatedPlaybackTimeJumps := 0
      timeMappingEstablished := s.masterTimeMappingEstablished
      basedOnMasterMappingVersion := s.masterTimeMappingVersion }
  else x

/-- Give up an alternate master that is no longer needed. -/
def releaseAlternate (possibleMaster : Bool) : OutputCoordinator :=
  if possibleMaster && s.gotAnAlternateMasterClock then
    match s.alternateMasterContext with
    | none => { s with gotAnAlternateMasterClock := false }
    | some a => { s.modify a ({ · with clockMaster := false }) with gotAnAlternateMasterClock := false }
  else s

/-- Choose the clock master when a stream is registered. -/
def chooseMaster (policy : MasterClock) (x : CoordinatorContext) :
    OutputCoordinator × CoordinatorContext :=
  let possibleMaster := policy.possibleMaster x.streamType
  let s := s.releaseAlternate possibleMaster
  if !s.gotAMasterClock && possibleMaster then
    ({ s with gotAMasterClock := true }, { x with clockMaster := true })
  else if !s.gotAMasterClock && !s.gotAnAlternateMasterClock && policy != .systemClockMaster then
    ({ s with gotAnAlternateMasterClock := true, alternateMasterContext := some x.id },
      { x with clockMaster := true })
  else (s, x)

/-- Choose the stream that may adjust the mapping base. -/
def chooseAdjuster (x : CoordinatorContext) : OutputCoordinator × CoordinatorContext :=
  if !s.gotAVideoStream && x.streamType = .video then
    ({ s with gotAVideoStream := true }, { x with allowedToAdjustMappingBase := true })
  else (s, x)

/-- Insert a context into the list. -/
def insert (x : CoordinatorContext) : OutputCoordinator :=
  { s with coordinatedContexts := x :: s.coordinatedContexts, streamCount := s.streamCount + 1 }

def registerStream (policy : MasterClock) (r : Registration) : OutputCoordinator :=
  if r.obtained then
    let p := s.chooseMaster policy (s.withExternalMapping r.externalTimeMapping r.context)
    let q := p.1.chooseAdjuster p.2
    q.1.insert q.2
  else s

/-- The first other context with a type. -/
def firstOther (c : ℕ) (t : StreamType) : Option CoordinatorContext :=
  s.coordinatedContexts.find? fun x => x.id ≠ c ∧ x.streamType = t

/-- Hand over the clock when the master is de-registered. -/
def handOverClock (x : CoordinatorContext) : OutputCoordinator :=
  if x.clockMaster then
    match s.firstOther x.id x.streamType with
    | some y =>
      { s.modify y.id ({ · with clockMaster := true }) with
        gotAMasterClock := true, gotAnAlternateMasterClock := false, alternateMasterContext := none }
    | none =>
      { s with
        gotAMasterClock := false, gotAnAlternateMasterClock := false, alternateMasterContext := none }
  else s

/-- Hand over the right to adjust the mapping base. -/
def handOverAdjuster (x : CoordinatorContext) : OutputCoordinator :=
  if x.allowedToAdjustMappingBase then
    match s.firstOther x.id .video with
    | some y =>
      { s.modify y.id ({ · with allowedToAdjustMappingBase := true }) with gotAVideoStream := true }
    | none => { s with gotAVideoStream := false }
  else s

/-- Take a context out of the list. -/
def remove (c : ℕ) : OutputCoordinator :=
  { s with
    coordinatedContexts := s.coordinatedContexts.eraseP (fun x => x.id == c)
    streamCount := s.streamCount - 1 }

def deRegisterStream (x : CoordinatorContext) : OutputCoordinator :=
  ((s.handOverClock x).handOverAdjuster x).remove x.id

/-! ### Mappings -/

def resetTimeMapping (c : Option ℕ) : OutputCoordinator :=
  let s :=
    if c = none then
      { s with
        masterTimeMappingEstablished := false
        accumulatedPlaybackTimeJumps := 0
        jumpSeenAtPlaybackTime := invalidTime }
    else s
  s.propagate c ({ · with timeMappingEstablished := false })

/-- Set up the master mapping. -/
def establishMaster (playbackTime systemTime : UInt64) : OutputCoordinator :=
  { s with
    masterBaseNormalizedPlaybackTime := playbackTime
    masterBaseSystemTime := systemTime
    accumulatedPlaybackTimeJumps := 0
    jumpSeenAtPlaybackTime := invalidTime
    masterTimeMappingEstablished := true
    masterTimeMappingVersion := s.masterTimeMappingVersion + 1 }

def establishTimeMapping (c : Option ℕ) (playbackTime systemTime now : UInt64) : OutputCoordinator :=
  let s := s.establishMaster playbackTime (if validTime systemTime then systemTime else now)
  s.propagate c ({ · with
    baseSystemTime := s.masterBaseSystemTime
    baseNormalizedPlaybackTime := s.masterBaseNormalizedPlaybackTime
    accumulatedPlaybackTimeJumps := 0
    timeMappingEstablished := true
    basedOnMasterMappingVersion := s.masterTimeMappingVersion })

/-- An adjustment for the playback, or for the stream allowed to make it. -/
def mayAdjust (c : Option ℕ) (external : Bool) : Bool :=
  match c with
  | none => true
  | some c => !external && (s.context c).any (·.allowedToAdjustMappingBase)

/-- `AdjustMappingBase`, for a stream with or without an external mapping. -/
def adjustMappingBase (c : Option ℕ) (external : Bool) (adjustment : UInt64) : OutputCoordinator :=
  if s.mayAdjust c external then
    let s :=
      if s.masterTimeMappingEstablished then
        { s with masterBaseSystemTime := s.masterBaseSystemTime + adjustment }
      else s
    s.modifyAll fun x =>
      if x.timeMappingEstablished then
        { x with
          baseSystemTime := x.baseSystemTime + adjustment
          baseSystemTimeAdjusted := c ≠ some x.id }
      else x
  else s

/-! ### Translation -/

def speedScale (t : UInt64) : UInt64 :=
  let t := if s.playBackward then -t else t
  if s.speed.equalsInt 1 then t
  else
    (if s.speed.equalsInt 0 then Rational.ofInt 0
      else Rational.intDiv (Rational.intOf t) s.speed).restrict.longLongIntegerPart

/-- The elapsed system time for an elapsed playback time. -/
def elapsedSystemTime (t : UInt64) : UInt64 :=
  (Rational.intDiv (Rational.intOf (s.speedScale t))
    s.systemClockAdjustment).roundedLongLongIntegerPart

/-- The elapsed time is large enough for the base to be moved. -/
def rebases (base t : UInt64) : Bool := rebaseTimeTriggerValue < s.elapsedSystemTime (t - base)

/-- Move the master mapping. -/
def rebaseMaster (playbackTime systemTime : UInt64) : OutputCoordinator :=
  { s with masterBaseNormalizedPlaybackTime := playbackTime, masterBaseSystemTime := systemTime }

/-- Move the mapping of a context. -/
def rebaseContext (c : ℕ) (playbackTime systemTime : UInt64) : OutputCoordinator :=
  s.modify c ({ · with baseNormalizedPlaybackTime := playbackTime, baseSystemTime := systemTime })

/-- `TranslatePlaybackTimeToSystem`, `none` where no mapping is established. -/
def translatePlaybackTimeToSystem (c : Option ℕ) (t : UInt64) : OutputCoordinator × Option UInt64 :=
  if s.masterTimeMappingEstablished then
    match c with
    | none =>
      let base := s.masterBaseNormalizedPlaybackTime
      let systemTime := s.masterBaseSystemTime + s.elapsedSystemTime (t - base)
      (if s.rebases base t then s.rebaseMaster t systemTime else s, some systemTime)
    | some c =>
      match s.context c with
      | some x =>
        if x.timeMappingEstablished then
          let base := x.baseNormalizedPlaybackTime
          let systemTime := x.baseSystemTime + s.elapsedSystemTime (t - base)
          (if s.rebases base t then
              (if s.masterBaseSystemTime = x.baseSystemTime then s.rebaseMaster t systemTime
                else s).rebaseContext c t systemTime
            else s,
            some systemTime)
        else (s, none)
      | none => (s, none)
  else (s, none)

/-- There is a mapping that the stream has not taken. -/
def alternateTimeMappingExists (x : CoordinatorContext) : Bool :=
  s.masterTimeMappingEstablished && x.basedOnMasterMappingVersion != s.masterTimeMappingVersion

/-- `AlternateMappingIsReasonable`. -/
def reasonable (masterMappingNow now : UInt64) : Bool :=
  negativeReasonableLimit < masterMappingNow - now || masterMappingNow - now < positiveReasonableLimit

/-- Record the offset of a stream. -/
def noteOffset (offset : UInt64) : OutputCoordinator :=
  if signed offset < signed s.minimumStreamOffset then { s with minimumStreamOffset := offset } else s

/-- A context with the master mapping as it is at the beginning of `SynchronizeStreams`. -/
def withAlternate (offset : UInt64) (x : CoordinatorContext) : CoordinatorContext :=
  { x with
    accumulatedPlaybackTimeJumps := 0
    baseSystemTimeAdjusted := true
    baseSystemTime := s.masterBaseSystemTime
    baseNormalizedPlaybackTime := s.masterBaseNormalizedPlaybackTime
    timeMappingEstablished := true
    basedOnMasterMappingVersion := s.masterTimeMappingVersion
    streamOffset := offset }

/-- Take the master mapping at the beginning of `SynchronizeStreams`. -/
def takeAlternate (c : ℕ) (offset : UInt64) : OutputCoordinator :=
  (s.modify c (s.withAlternate offset)).noteOffset offset

/-- There is no valid master mapping: the stream goes into its startup delay. -/
def beginStartupDelay (c : ℕ) (t : UInt64) : OutputCoordinator :=
  { s.modify c ({ · with inStartupDelay := true, normalizedPlaybackTime := t }) with
    masterTimeMappingEstablished := false
    minimumStreamOffset := 0 }

/-- The beginning of `SynchronizeStreams`, up to the startup delay or to the alternate exit. -/
def synchronizeStreams (x : CoordinatorContext) (external : Bool) (t now : UInt64) :
    OutputCoordinator :=
  if external then s
  else if s.alternateTimeMappingExists x then
    let p := s.translatePlaybackTimeToSystem none t
    let masterMappingNow := p.2.getD 0
    if reasonable masterMappingNow now then
      ((p.1.takeAlternate x.id (masterMappingNow - now)).translatePlaybackTimeToSystem (some x.id) t).1
    else p.1.beginStartupDelay x.id t
  else s.beginStartupDelay x.id t

/-- What a pass of the waiting loop reads from outside: the result of `RestartTime`, the frame duration
it finds, and `PolicyVideoStartImmediate`. -/
structure Restart where
  restartTime : UInt64
  videoFrameDuration : UInt64
  videoStartImmediate : Bool
deriving DecidableEq, Repr

/-- The earlier of two contexts, the first one when they are level. -/
def earlier (e : Option CoordinatorContext) (x : CoordinatorContext) : Option CoordinatorContext :=
  match e with
  | none => some x
  | some y => if x.synchronizingAtPlaybackTime < y.synchronizingAtPlaybackTime then some x else some y

/-- The synchronizing context with the earliest playback time among those with a property. -/
def earliest (p : CoordinatorContext → Bool) : Option CoordinatorContext :=
  (s.coordinatedContexts.filter fun x => x.inSynchronizeFn && p x).foldl earlier none

def earliestVideoContext : Option CoordinatorContext := s.earliest (fun x => x.streamType = .video)

def earliestContext (videoStartImmediate : Bool) : Option CoordinatorContext :=
  if videoStartImmediate then s.earliestVideoContext.or (s.earliest fun _ => true)
  else s.earliest fun _ => true

def startTimeJitter (r : Restart) (e : CoordinatorContext) : UInt64 :=
  match s.earliestVideoContext with
  | none => 0
  | some v =>
    if v.id = e.id then 0
    else
      let jitter := v.synchronizingAtPlaybackTime - e.synchronizingAtPlaybackTime
      r.videoFrameDuration - (jitter - r.videoFrameDuration * (jitter / r.videoFrameDuration))

/-- Set up a new master mapping at the earliest context. -/
def establishEarliest (r : Restart) (e : CoordinatorContext) : OutputCoordinator :=
  s.establishMaster e.synchronizingAtPlaybackTime (r.restartTime + s.startTimeJitter r e)

/-- The offset of a stream from the master mapping, with the jumps made since. -/
def offsetOf (t : UInt64) : UInt64 :=
  t - s.masterBaseNormalizedPlaybackTime - s.accumulatedPlaybackTimeJumps

/-- It is impossible to synchronize a stream with this offset. -/
def impossible (t : UInt64) : Bool :=
  s.offsetOf t != 0 &&
    !inrange (signed (s.offsetOf t)) (-maxSynchronizationWindow) maxSynchronizationWindow

/-- A context with the master mapping as it is at the end of `SynchronizeStreams`. -/
def withMaster (offset : UInt64) (x : CoordinatorContext) : CoordinatorContext :=
  { x with
    accumulatedPlaybackTimeJumps := 0
    baseSystemTimeAdjusted := true
    baseSystemTime := s.masterBaseSystemTime
    baseNormalizedPlaybackTime := s.masterBaseNormalizedPlaybackTime + s.accumulatedPlaybackTimeJumps
    timeMappingEstablished := true
    basedOnMasterMappingVersion := s.masterTimeMappingVersion
    streamOffset := offset }

/-- Pick up the master mapping. -/
def pickUp (c : ℕ) (offset : UInt64) : OutputCoordinator := s.modify c (s.withMaster offset)

/-- The jump that a stream which cannot be synchronized is taken to make. -/
def anticipated (offset : UInt64) : OutputCoordinator :=
  { s with
    accumulatedPlaybackTimeJumps := s.accumulatedPlaybackTimeJumps + -offset
    masterBaseNormalizedPlaybackTime := s.masterBaseNormalizedPlaybackTime - -offset
    jumpSeenAtPlaybackTime := s.masterBaseNormalizedPlaybackTime + s.accumulatedPlaybackTimeJumps }

/-- Its context follows that jump. -/
def withAnticipated (offset : UInt64) (x : CoordinatorContext) : CoordinatorContext :=
  { x with
    baseNormalizedPlaybackTime := x.baseNormalizedPlaybackTime - -offset
    accumulatedPlaybackTimeJumps := s.accumulatedPlaybackTimeJumps
    baseSystemTimeAdjusted := true }

/-- A stream that cannot be synchronized: make it look like an actual jump. -/
def anticipateJump (c : ℕ) (offset : UInt64) : OutputCoordinator :=
  (s.anticipated offset).modify c ((s.anticipated offset).withAnticipated offset)

/-- Leave `SynchronizeStreams` with a mapping. -/
def takeMapping (c : ℕ) (t : UInt64) : OutputCoordinator :=
  let offset := s.offsetOf t
  let taken :=
    if s.impossible t then ((s.pickUp c 0).anticipateJump c offset).noteOffset 0
    else (s.pickUp c offset).noteOffset offset
  let s := (taken.translatePlaybackTimeToSystem (some c) t).1
  { s.modify c ({ · with inSynchronizeFn := false }) with
    streamsInSynchronize := s.streamsInSynchronize - 1 }

/-- A pass of the waiting loop. -/
def pass (r : Restart) (x : CoordinatorContext) : OutputCoordinator :=
  if s.masterTimeMappingEstablished then s.takeMapping x.id x.normalizedPlaybackTime
  else if s.streamsInSynchronize = s.streamCount ∨ x.maxSynchronizeWaits ≤ x.waitCount then
    match s.earliestContext r.videoStartImmediate with
    | some e => (s.establishEarliest r e).takeMapping x.id x.normalizedPlaybackTime
    | none => s
  else s

/-- A context that joins the synchronizing ones. -/
def joined (maxWaits : ℕ) (x : CoordinatorContext) : CoordinatorContext :=
  { x with
    inStartupDelay := false
    inSynchronizeFn := true
    synchronizingAtPlaybackTime := x.normalizedPlaybackTime
    waitCount := 0
    maxSynchronizeWaits := maxWaits }

/-- A context is one more of the synchronizing ones. -/
def joining (c : ℕ) (maxWaits : ℕ) : OutputCoordinator :=
  { s.modify c (joined maxWaits) with streamsInSynchronize := s.streamsInSynchronize + 1 }

/-- `MaxSynchronizeWaits`. -/
def waitsFor (syncStartImmediate : Bool) : ℕ := if syncStartImmediate then 1 else maxWaits

/-- The end of the startup delay: join the synchronizing streams and try at once. -/
def joinSynchronize (x : CoordinatorContext) (syncStartImmediate : Bool) (r : Restart) :
    OutputCoordinator :=
  (s.joining x.id (waitsFor syncStartImmediate)).pass r (joined (waitsFor syncStartImmediate) x)

/-- A context whose wait has ended. -/
def waited (x : CoordinatorContext) : CoordinatorContext := { x with waitCount := x.waitCount + 1 }

/-- A wait ends. -/
def endWait (x : CoordinatorContext) (r : Restart) : OutputCoordinator :=
  (s.modify x.id waited).pass r (waited x)

/-! ### Jumps -/

/-- A call of `HandlePlaybackTimeDeltas`, with the values of the policies that it reads. -/
structure Deltas where
  knownJump : Bool
  expectedPlaybackTime : UInt64
  actualPlaybackTime : UInt64
  externalTimeMapping : Bool
  ptsForwardJumpDetectionThreshold : ℕ
  symmetricJumpDetection : Bool
deriving DecidableEq, Repr

namespace Deltas

variable (d : Deltas)

/-- `PlaybackTimeForwardJumpThreshold`. -/
def forwardThreshold : ℤ := 1000000 * 2 ^ min d.ptsForwardJumpDetectionThreshold 43

/-- `PlaybackTimeReverseJumpThreshold`. -/
def reverseThreshold : ℤ :=
  if d.symmetricJumpDetection then d.forwardThreshold else playbackTimeJumpError

/-- `DeltaPlaybackTime`. -/
def delta (playBackward : Bool) : UInt64 :=
  if playBackward then d.expectedPlaybackTime - d.actualPlaybackTime
  else d.actualPlaybackTime - d.expectedPlaybackTime

/-- A jump is seen, or known to be there. -/
def jumps (playBackward : Bool) : Bool :=
  !inrange (signed (d.delta playBackward)) (-d.reverseThreshold) d.forwardThreshold || d.knownJump

end Deltas

/-- Follow a jump of another stream, in part. -/
def partialCatchup (c : ℕ) (delta : UInt64) : OutputCoordinator :=
  s.modify c fun x => { x with
    accumulatedPlaybackTimeJumps := x.accumulatedPlaybackTimeJumps - delta
    baseNormalizedPlaybackTime := x.baseNormalizedPlaybackTime + delta
    baseSystemTimeAdjusted := true }

/-- Follow the jumps of the other streams. -/
def completeCatchup (c : ℕ) : OutputCoordinator :=
  s.modify c fun x => { x with
    baseNormalizedPlaybackTime :=
      x.baseNormalizedPlaybackTime + x.accumulatedPlaybackTimeJumps - s.accumulatedPlaybackTimeJumps
    accumulatedPlaybackTimeJumps := s.accumulatedPlaybackTimeJumps
    baseSystemTimeAdjusted := true }

/-- Begin a jump that the other streams are to follow. -/
def initiateJump (c : ℕ) (delta expectedPlaybackTime : UInt64) : OutputCoordinator :=
  let s := { s with
    accumulatedPlaybackTimeJumps := s.accumulatedPlaybackTimeJumps - delta
    masterBaseNormalizedPlaybackTime := s.masterBaseNormalizedPlaybackTime + delta
    jumpSeenAtPlaybackTime := expectedPlaybackTime }
  s.modify c fun x => { x with
    baseNormalizedPlaybackTime := x.baseNormalizedPlaybackTime + delta
    accumulatedPlaybackTimeJumps := s.accumulatedPlaybackTimeJumps
    baseSystemTimeAdjusted := true }

/-- The jump that a stream sees. -/
def handleJump (d : Deltas) (x : CoordinatorContext) : OutputCoordinator :=
  let delta := d.delta s.playBackward
  if d.externalTimeMapping then s
  else if s.accumulatedPlaybackTimeJumps ≠ x.accumulatedPlaybackTimeJumps then
    let jumpError := s.accumulatedPlaybackTimeJumps - (x.accumulatedPlaybackTimeJumps - delta)
    if inrange (signed jumpError) (-playbackTimeJumpError) d.forwardThreshold then
      s.completeCatchup x.id
    else s.partialCatchup x.id delta
  else if validTime s.jumpSeenAtPlaybackTime && inrange (signed delta) 0 2000000 &&
      decide (d.expectedPlaybackTime - s.jumpSeenAtPlaybackTime ≤ 10000000) then
    s.resetTimeMapping none
  else s.initiateJump x.id delta d.expectedPlaybackTime

/-- A stream that should have followed a jump by now. -/
def failedToFollow (d : Deltas) (x : CoordinatorContext) : Bool :=
  validTime s.jumpSeenAtPlaybackTime &&
    s.accumulatedPlaybackTimeJumps != x.accumulatedPlaybackTimeJumps &&
    !inrange (signed (d.actualPlaybackTime - s.jumpSeenAtPlaybackTime)) (-d.forwardThreshold)
      otherStreamsMustFollowJumpBy

/-- A stream that is far from a master mapping it has not taken. -/
def failedToMatch (d : Deltas) (x : CoordinatorContext) : Bool :=
  x.basedOnMasterMappingVersion != s.masterTimeMappingVersion &&
    !inrange (signed (d.actualPlaybackTime - s.masterBaseNormalizedPlaybackTime))
      (-d.forwardThreshold) d.forwardThreshold

/-- Reset every mapping when the stream meets a condition. -/
def resetIf (c : ℕ) (p : OutputCoordinator → CoordinatorContext → Bool) : OutputCoordinator :=
  if (s.context c).any (p s) then s.resetTimeMapping none else s

def handlePlaybackTimeDeltas (d : Deltas) (x : CoordinatorContext) : OutputCoordinator :=
  if s.masterTimeMappingEstablished then
    let s := if d.jumps s.playBackward then s.handleJump d x else s
    (s.resetIf x.id (failedToFollow · d)).resetIf x.id (failedToMatch · d)
  else s

/-! ### Steps -/

/-- What happens next. -/
inductive Label
  | registerStream (r : Registration)
  | deRegisterStream (c : ℕ)
  | resetTimeMapping (c : Option ℕ)
  | establishTimeMapping (c : Option ℕ) (playbackTime systemTime now : UInt64)
  | adjustMappingBase (c : Option ℕ) (external : Bool) (adjustment : UInt64)
  | handlePlaybackTimeDeltas (c : ℕ) (d : Deltas)
  | synchronizeStreams (c : ℕ) (external : Bool) (t now : UInt64)
  | joinSynchronize (c : ℕ) (syncStartImmediate : Bool) (r : Restart)
  | endWait (c : ℕ) (r : Restart)
deriving DecidableEq, Repr

/-- One step.  A context is new when it is registered and in the list when it is used; a stream makes one
call of `SynchronizeStreams` at a time, and `DeRegisterStream` waits for its end. -/
def step (policy : MasterClock) (s : OutputCoordinator) : Label → Option OutputCoordinator
  | .registerStream r => if r.id ∈ s.ids then none else some (s.registerStream policy r)
  | .deRegisterStream c => do
      let x ← s.context c
      if x.inStartupDelay || x.inSynchronizeFn then none else some (s.deRegisterStream x)
  | .resetTimeMapping c => some (s.resetTimeMapping c)
  | .establishTimeMapping c playbackTime systemTime now =>
    some (s.establishTimeMapping c playbackTime systemTime now)
  | .adjustMappingBase c external adjustment => some (s.adjustMappingBase c external adjustment)
  | .handlePlaybackTimeDeltas c d => (s.context c).map fun x => s.handlePlaybackTimeDeltas d x
  | .synchronizeStreams c external t now => do
      let x ← s.context c
      if x.inStartupDelay || x.inSynchronizeFn then none
      else some (s.synchronizeStreams x external t now)
  | .joinSynchronize c syncStartImmediate r => do
      let x ← s.context c
      if x.inStartupDelay then some (s.joinSynchronize x syncStartImmediate r) else none
  | .endWait c r => do
      let x ← s.context c
      if x.inSynchronizeFn then some (s.endWait x r) else none

end OutputCoordinator

end Player2
