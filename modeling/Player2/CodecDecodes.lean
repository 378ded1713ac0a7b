import Mathlib.Data.BitVec
import Mathlib.Logic.Function.Basic
import Player2.Run

/-! # Decodes of a codec

`Codec_MmeVideo_c::Input` hands the frames of a stream to a transformer, which calls back when a command
is completed; a buffer into which the last decode is completed goes to the output ring, or is released
when the decodes have been discarded.  Two threads work on the codec: the one that calls `Input` and
`OutputPartialDecodeBuffers`, and the one of the callbacks.  A label is a step of one of them, between
two places where the other can see the difference; `DiscardQueuedDecodes`, `Halt` and a new session may
come in between any two.

The transformer is outside: it accepts a command or does not, and completes those that it has accepted
in their order.  What the fields of a frame decide, and which calls fail, is free.  `use`, `number` and
`discarded` are not in the source; they say which use of a buffer is meant, how many commands were
prepared before one, and whether decodes were discarded after it.  A marker is known by its number and
by how many buffers were obtained before it. -/

namespace Player2.Codec

/-- `unsigned int`. -/
abbrev Word := BitVec 32

/-! ### Data -/

/-- A frame, as far as `Input` looks at it. -/
structure Frame where
  newStreamParameters : Bool
  newFrameParameters : Bool
  firstParsedParametersForOutputFrame : Bool
  -- In slice decoding: a first slice after all of a picture.
  indicatesCompletion : Bool
  lastDecodeIntoThisBuffer : Bool
deriving DecidableEq

/-- `CodecBufferState_t` and `MapBufferToDecodeIndex` are about a decode buffer while it is in use. -/
structure BufferState where
  use : Option ℕ
  outputOnDecodesComplete : Bool
  decodesInProgress : ℕ
deriving DecidableEq

/-- What a command is about: a set of stream parameters, or a decode into a use of a buffer. -/
inductive CommandKind
  | setGlobalTransformParams
  | transform (bufferIndex use : ℕ)
deriving DecidableEq

/-- A command for the transformer. -/
structure Command where
  kind : CommandKind
  number : ℕ
  discarded : Bool
deriving DecidableEq

/-- A marker frame. -/
structure Marker where
  number : ℕ
  uses : ℕ
deriving DecidableEq

/-- An entry of the output ring. -/
inductive Output
  | frame (use : ℕ)
  | marker (m : Marker)
deriving DecidableEq

/-- A buffer whose last decode was completed by a command. -/
structure Outcome where
  released : Bool
  discarded : Bool
deriving DecidableEq

/-- `TestMarkerFramePassOn`: the test, `TakeMarkerBuffer` and the insertion. -/
inductive MarkerTest
  | testing
  | taking
  | inserting (m : Marker)
deriving DecidableEq

/-- The thread of `Input`. -/
inductive InputPhase
  | idle
  | parameters (f : Frame)
  | parametersCounted (f : Frame) (c : Command)
  | frame (f : Frame)
  | closing (bufferIndex : ℕ) (next : Option Frame)
  | closed (next : Option Frame)
  | obtain (f : Frame)
  | fill (f : Frame)
  | launched (f : Frame) (bufferIndex use : ℕ)
  | counted (f : Frame) (bufferIndex use : ℕ) (c : Command)
  | sent (f : Frame)
  | failed (bufferIndex use : ℕ)
  | dropping (bufferIndex use : ℕ)
  | dropped (bufferIndex use : ℕ)
  | marker
  | markerTimed (m : Marker)
  | markerTest (test : MarkerTest)
deriving DecidableEq

/-- The thread of the callbacks. -/
inductive CallbackPhase
  | idle
  | dropping (c : Command) (bufferIndex use : ℕ)
  | dropped (c : Command) (bufferIndex use : ℕ)
  | completed (c : Command)
  | markerTest (test : MarkerTest)
deriving DecidableEq

/-- The decodes are discarded after the command has been prepared. -/
def Command.discard (c : Command) : Command := { c with discarded := true }

/-- The command that has been prepared, and not sent. -/
def InputPhase.command : InputPhase → Option Command
  | .parametersCounted _ c => some c
  | .counted _ _ _ c => some c
  | _ => none

def InputPhase.discard : InputPhase → InputPhase
  | .parametersCounted f c => .parametersCounted f c.discard
  | .counted f i use c => .counted f i use c.discard
  | phase => phase

/-- The command that is being completed, and not counted. -/
def CallbackPhase.command : CallbackPhase → Option Command
  | .dropping c _ _ => some c
  | .dropped c _ _ => some c
  | .completed c => some c
  | _ => none

/-- The codec and the transformer. -/
structure CodecState where
  halted : Bool
  mmeCommandPreparedCount : Word
  mmeCommandAbortedCount : Word
  mmeCommandCompletedCount : Word
  discardDecodesUntil : Word
  passOnMarkerBufferAt : Word
  markerBuffer : Option Marker
  bufferState : ℕ → BufferState
  currentDecodeBufferIndex : Option ℕ
  outputRing : List Output
  -- The commands that were accepted and are not completed.
  transformer : List Command
  input : InputPhase
  callback : CallbackPhase
  -- How many buffers and marker buffers were obtained, and how many commands prepared in the session.
  uses : ℕ
  markers : ℕ
  commands : ℕ
  discardedInSession : Bool
  released : List ℕ
  outcomes : List Outcome

/-- A step. -/
inductive Label
  | input (f : Frame)
  | outputPartialDecodeBuffers
  | inputMarker
  | error
  | count
  | send (accepted : Bool)
  | look
  | setOutputOnDecodesComplete
  | forget
  | getDecodeBuffer (bufferIndex : ℕ)
  | reuse
  | launch
  | finish
  | release
  | drop
  | relock
  | setMarkerTime
  | setMarker
  | testMarker
  | callback
  | callbackDrop
  | callbackRelock
  | callbackCount
  | callbackTestMarker
  | discardQueuedDecodes
  | halt
  | newSession
  | free (bufferIndex : ℕ)
deriving DecidableEq

namespace CodecState

/-! ### Parts of both threads -/

/-- The commands that have been completed or aborted. -/
def doneCount (s : CodecState) : Word := s.mmeCommandAbortedCount + s.mmeCommandCompletedCount

/-- Reset the current buffer if it has a certain index. -/
def forgetIndex (s : CodecState) (bufferIndex : ℕ) : CodecState :=
  if s.currentDecodeBufferIndex = some bufferIndex then { s with currentDecodeBufferIndex := none }
  else s

/-- Insert the buffer with an index in the output ring. -/
def insertBuffer (s : CodecState) (bufferIndex : ℕ) : CodecState :=
  { s with
    outputRing := s.outputRing ++ ((s.bufferState bufferIndex).use.map Output.frame).toList }

/-- What `ReleaseDecodeContext` does with the buffer of a context. -/
inductive ReleaseResult
  | kept
  | inserted
  | discarding
deriving DecidableEq

/-- Count a decode down. -/
def decodeDone (s : CodecState) (bufferIndex : ℕ) : CodecState :=
  let b := s.bufferState bufferIndex
  { s with
    bufferState := Function.update s.bufferState bufferIndex
      { b with decodesInProgress := b.decodesInProgress - 1 } }

/-- The locked part of `ReleaseDecodeContext` for a context whose decode is in progress, up to its end
or to the place where the lock is dropped. -/
def releaseDecodeContext (s : CodecState) (bufferIndex : ℕ) : CodecState × ReleaseResult :=
  let t := s.decodeDone bufferIndex
  if (t.bufferState bufferIndex).outputOnDecodesComplete then
    if (t.bufferState bufferIndex).decodesInProgress = 0 then
      if t.doneCount < t.discardDecodesUntil then (t, .discarding)
      else ((t.insertBuffer bufferIndex).forgetIndex bufferIndex, .inserted)
    else (t.forgetIndex bufferIndex, .kept)
  else (t, .kept)

/-- `ReleaseDecodeBuffer` of the buffer with an index. -/
def releaseBuffer (s : CodecState) (bufferIndex : ℕ) : CodecState :=
  { s with released := s.released ++ (s.bufferState bufferIndex).use.toList }

/-- A step of `TestMarkerFramePassOn`. -/
def passMarker (s : CodecState) : MarkerTest → CodecState × Option MarkerTest
  | .testing =>
    (s, if s.markerBuffer.isSome ∧ s.passOnMarkerBufferAt ≤ s.doneCount then some .taking else none)
  | .taking => ({ s with markerBuffer := none }, s.markerBuffer.map .inserting)
  | .inserting m => ({ s with outputRing := s.outputRing ++ [.marker m] }, none)

/-! ### The thread of `Input` -/

/-- `MMECommandPreparedCount++`. -/
def prepare (s : CodecState) : CodecState :=
  { s with
    mmeCommandPreparedCount := s.mmeCommandPreparedCount + 1
    commands := s.commands + 1 }

/-- A command is aborted when the codec is halted. -/
def abort (s : CodecState) : CodecState :=
  { s with mmeCommandAbortedCount := s.mmeCommandAbortedCount + 1 }

/-- Go on after the stream parameters. -/
def afterParameters (f : Frame) : InputPhase := if f.newFrameParameters then .frame f else .idle

/-- Is there a buffer that has to be output first? -/
def lookAtCurrent (s : CodecState) (f : Frame) : InputPhase :=
  match s.currentDecodeBufferIndex with
  | none => .obtain f
  | some i =>
    if f.indicatesCompletion || f.firstParsedParametersForOutputFrame then .closing i (some f)
    else .obtain f

/-- `SetOutputOnDecodesComplete`, with the test for immediate output. -/
def closeBuffer (s : CodecState) (bufferIndex : ℕ) : CodecState :=
  let b := s.bufferState bufferIndex
  let t := { s with
    bufferState := Function.update s.bufferState bufferIndex { b with outputOnDecodesComplete := true } }
  if b.decodesInProgress = 0 then t.insertBuffer bufferIndex else t

/-- `GetDecodeBuffer`. -/
def takeBuffer (s : CodecState) (bufferIndex : ℕ) : CodecState :=
  { s with
    bufferState := Function.update s.bufferState bufferIndex ⟨some s.uses, false, 0⟩
    currentDecodeBufferIndex := some bufferIndex
    uses := s.uses + 1 }

/-- Count a decode into a buffer. -/
def launchInto (s : CodecState) (f : Frame) (bufferIndex : ℕ) : CodecState :=
  let b := s.bufferState bufferIndex
  { s with
    bufferState := Function.update s.bufferState bufferIndex
      { b with
        decodesInProgress := b.decodesInProgress + 1
        outputOnDecodesComplete := f.lastDecodeIntoThisBuffer } }

/-- The steps of `Input` and `OutputPartialDecodeBuffers`. -/
def inputStep (s : CodecState) : Label → InputPhase → Option CodecState
  | .input f, .idle =>
    if s.halted then none
    else some { s with input := if f.newStreamParameters then .parameters f else afterParameters f }
  | .outputPartialDecodeBuffers, .idle =>
    some { s with input := s.currentDecodeBufferIndex.elim .idle fun i => .closing i none }
  | .inputMarker, .idle =>
    if s.halted then none
    else some { s with input := .marker, markerBuffer := none }
  | .error, .parameters _ => some { s with input := .idle }
  | .error, .obtain _ =>
    some { s with input := s.currentDecodeBufferIndex.elim .idle fun i => .closing i none }
  | .error, .fill _ => some { s with input := .idle }
  | .error, .marker => some { s with input := .idle }
  | .count, .parameters f =>
    some (if s.halted then { s.prepare.abort with input := afterParameters f }
      else { s.prepare with
        input := .parametersCounted f ⟨.setGlobalTransformParams, s.commands, false⟩ })
  | .count, .launched f i use =>
    some (if s.halted then { s.prepare.abort with input := .sent f }
      else { s.prepare with input := .counted f i use ⟨.transform i use, s.commands, false⟩ })
  | .send true, .parametersCounted f c =>
    some { s with transformer := s.transformer ++ [c], input := afterParameters f }
  | .send false, .parametersCounted _ _ => some { s with input := .idle }
  | .send true, .counted f _ _ c =>
    some { s with transformer := s.transformer ++ [c], input := .sent f }
  | .send false, .counted _ i use _ => some { s with input := .failed i use }
  | .look, .frame f => some { s with input := s.lookAtCurrent f }
  | .setOutputOnDecodesComplete, .closing i next => some { s.closeBuffer i with input := .closed next }
  | .forget, .closed next =>
    some { s with currentDecodeBufferIndex := none, input := next.elim .idle .obtain }
  | .getDecodeBuffer i, .obtain f =>
    if s.currentDecodeBufferIndex = none ∧ (s.bufferState i).use = none then
      some { s.takeBuffer i with input := .fill f }
    else none
  | .reuse, .obtain f =>
    if s.currentDecodeBufferIndex.isSome then some { s with input := .fill f } else none
  | .launch, .fill f =>
    s.currentDecodeBufferIndex.bind fun i =>
      (s.bufferState i).use.map fun use => { s.launchInto f i with input := .launched f i use }
  | .finish, .sent f =>
    some { s with
      currentDecodeBufferIndex :=
        if f.lastDecodeIntoThisBuffer then none else s.currentDecodeBufferIndex
      input := .idle }
  | .release, .failed i use =>
    let r := s.releaseDecodeContext i
    some { r.1 with input := if r.2 = .discarding then .dropping i use else .idle }
  | .drop, .dropping i use => some { s.releaseBuffer i with input := .dropped i use }
  | .relock, .dropped i _ => some { s.forgetIndex i with input := .idle }
  | .setMarkerTime, .marker =>
    some { s with
      passOnMarkerBufferAt := s.mmeCommandPreparedCount
      input := .markerTimed ⟨s.markers, s.uses⟩
      markers := s.markers + 1 }
  | .setMarker, .markerTimed m =>
    some { s with markerBuffer := some m, input := .markerTest .testing }
  | .testMarker, .markerTest t =>
    some { (s.passMarker t).1 with input := (s.passMarker t).2.elim .idle .markerTest }
  | _, _ => none

/-! ### The thread of the callbacks -/

/-- The completion of a command. -/
def complete (s : CodecState) (c : Command) : CodecState :=
  match c.kind with
  | .setGlobalTransformParams =>
    { s with
      mmeCommandCompletedCount := s.mmeCommandCompletedCount + 1
      callback := .markerTest .testing }
  | .transform i use =>
    let r := s.releaseDecodeContext i
    match r.2 with
    | .kept => { r.1 with callback := .completed c }
    | .inserted =>
      { r.1 with callback := .completed c, outcomes := s.outcomes ++ [⟨false, c.discarded⟩] }
    | .discarding =>
      { r.1 with callback := .dropping c i use, outcomes := s.outcomes ++ [⟨true, c.discarded⟩] }

/-- The steps of `CallbackFromMME`. -/
def callbackStep (s : CodecState) : Label → CallbackPhase → Option CodecState
  | .callback, .idle => s.transformer.head?.map fun c =>
    { s with transformer := s.transformer.tail }.complete c
  | .callbackDrop, .dropping c i use => some { s.releaseBuffer i with callback := .dropped c i use }
  | .callbackRelock, .dropped c i _ => some { s.forgetIndex i with callback := .completed c }
  | .callbackCount, .completed _ =>
    some { s with
      mmeCommandCompletedCount := s.mmeCommandCompletedCount + 1
      callback := .markerTest .testing }
  | .callbackTestMarker, .markerTest t =>
    some { (s.passMarker t).1 with callback := (s.passMarker t).2.elim .idle .markerTest }
  | _, _ => none

/-! ### The rest of the player -/

def discardQueuedDecodes (s : CodecState) : CodecState :=
  { s with
    discardDecodesUntil := s.mmeCommandPreparedCount
    transformer := s.transformer.map Command.discard
    input := s.input.discard
    discardedInSession := true }

/-- `Reset`, and `RegisterOutputBufferRing` with `InitializeMMETransformer`, after a halt. -/
def newSession (s : CodecState) : CodecState :=
  { s with
    halted := false
    mmeCommandPreparedCount := 0
    mmeCommandAbortedCount := 0
    mmeCommandCompletedCount := 0
    markerBuffer := none
    bufferState := fun _ => ⟨none, false, 0⟩
    currentDecodeBufferIndex := none
    transformer := []
    commands := 0
    discardedInSession := false }

/-- A buffer has left the codec. -/
def HasLeft (s : CodecState) (use : ℕ) : Prop := .frame use ∈ s.outputRing ∨ use ∈ s.released

instance (s : CodecState) (use : ℕ) : Decidable (s.HasLeft use) := inferInstanceAs (Decidable (_ ∨ _))

/-- The last reference to a buffer that has left the codec is dropped. -/
def freeBuffer (s : CodecState) (bufferIndex : ℕ) : CodecState :=
  { s with bufferState := Function.update s.bufferState bufferIndex ⟨none, false, 0⟩ }

/-- A step. -/
def step (s : CodecState) : Label → Option CodecState
  | .discardQueuedDecodes => some s.discardQueuedDecodes
  | .halt => some { s with halted := true }
  | .newSession =>
    if s.halted ∧ s.input = .idle ∧ s.callback = .idle then some s.newSession else none
  | .free i =>
    (s.bufferState i).use.bind fun use => if s.HasLeft use then some (s.freeBuffer i) else none
  | .callback => s.callbackStep .callback s.callback
  | .callbackDrop => s.callbackStep .callbackDrop s.callback
  | .callbackRelock => s.callbackStep .callbackRelock s.callback
  | .callbackCount => s.callbackStep .callbackCount s.callback
  | .callbackTestMarker => s.callbackStep .callbackTestMarker s.callback
  | label => s.inputStep label s.input

/-- A codec whose first session begins. -/
def start : CodecState where
  halted := false
  mmeCommandPreparedCount := 0
  mmeCommandAbortedCount := 0
  mmeCommandCompletedCount := 0
  discardDecodesUntil := 0
  passOnMarkerBufferAt := 0
  markerBuffer := none
  bufferState _ := ⟨none, false, 0⟩
  currentDecodeBufferIndex := none
  outputRing := []
  transformer := []
  input := .idle
  callback := .idle
  uses := 0
  markers := 0
  commands := 0
  discardedInSession := false
  released := []
  outcomes := []

end CodecState

/-! ### What the parts leave alone -/

namespace CodecState

theorem forgetIndex_frame (s : CodecState) (i : ℕ) :
    ∃ current, s.forgetIndex i = { s with currentDecodeBufferIndex := current } := by
  unfold forgetIndex
  split
  next => exact ⟨none, rfl⟩
  next => exact ⟨s.currentDecodeBufferIndex, rfl⟩

theorem closeBuffer_frame (s : CodecState) (i : ℕ) :
    ∃ states ring, s.closeBuffer i = { s with bufferState := states, outputRing := ring } := by
  unfold closeBuffer
  dsimp only
  split
  next => exact ⟨_, _, rfl⟩
  next => exact ⟨_, _, rfl⟩

/-- What `ReleaseDecodeContext` does: nothing more if there will be further decodes, otherwise forget
the buffer, and when it is complete discard it or insert it. -/
theorem releaseDecodeContext_cases (s : CodecState) (i : ℕ) :
    ((s.bufferState i).outputOnDecodesComplete = false ∧
      s.releaseDecodeContext i = (s.decodeDone i, .kept)) ∨
    ((s.bufferState i).outputOnDecodesComplete = true ∧ 1 < (s.bufferState i).decodesInProgress ∧
      s.releaseDecodeContext i = ((s.decodeDone i).forgetIndex i, .kept)) ∨
    ((s.bufferState i).outputOnDecodesComplete = true ∧ (s.bufferState i).decodesInProgress ≤ 1 ∧
      s.doneCount < s.discardDecodesUntil ∧
      s.releaseDecodeContext i = (s.decodeDone i, .discarding)) ∨
    ((s.bufferState i).outputOnDecodesComplete = true ∧ (s.bufferState i).decodesInProgress ≤ 1 ∧
      ¬ s.doneCount < s.discardDecodesUntil ∧
      s.releaseDecodeContext i = (((s.decodeDone i).insertBuffer i).forgetIndex i, .inserted)) := by
  have hflag : ((s.decodeDone i).bufferState i).outputOnDecodesComplete =
      (s.bufferState i).outputOnDecodesComplete := by simp [decodeDone]
  have hleft : ((s.decodeDone i).bufferState i).decodesInProgress =
      (s.bufferState i).decodesInProgress - 1 := by simp [decodeDone]
  unfold releaseDecodeContext
  dsimp only
  rw [hflag, hleft]
  split
  next hclosed =>
    split
    next hlast =>
      split
      next hdone => exact .inr (.inr (.inl ⟨hclosed, by omega, hdone, rfl⟩))
      next hdone => exact .inr (.inr (.inr ⟨hclosed, by omega, hdone, rfl⟩))
    next hmore => exact .inr (.inl ⟨hclosed, by omega, rfl⟩)
  next hopen => exact .inl ⟨Bool.eq_false_iff.mpr hopen, rfl⟩

theorem releaseDecodeContext_frame (s : CodecState) (i : ℕ) :
    ∃ states current ring, (s.releaseDecodeContext i).1 =
      { s with bufferState := states, currentDecodeBufferIndex := current, outputRing := ring } := by
  obtain ⟨-, h⟩ | ⟨-, -, h⟩ | ⟨-, -, -, h⟩ | ⟨-, -, -, h⟩ := s.releaseDecodeContext_cases i
  · exact ⟨_, _, _, congrArg Prod.fst h⟩
  · obtain ⟨current, hcurrent⟩ := forgetIndex_frame (s.decodeDone i) i
    exact ⟨_, current, _, (congrArg Prod.fst h).trans hcurrent⟩
  · exact ⟨_, _, _, congrArg Prod.fst h⟩
  · obtain ⟨current, hcurrent⟩ := forgetIndex_frame ((s.decodeDone i).insertBuffer i) i
    exact ⟨_, current, _, (congrArg Prod.fst h).trans hcurrent⟩

theorem passMarker_frame (s : CodecState) (t : MarkerTest) :
    ∃ held ring, (s.passMarker t).1 = { s with markerBuffer := held, outputRing := ring } := by
  cases t with
  | testing => exact ⟨_, _, rfl⟩
  | taking => exact ⟨_, _, rfl⟩
  | inserting m => exact ⟨_, _, rfl⟩

end CodecState

/-! ### What a step can do -/

/-- The steps of both threads and of the rest of the player. -/
inductive Step (s : CodecState) : Label → CodecState → Prop
  | input (f : Frame) (hphase : s.input = .idle) (hrunning : s.halted = false) :
      Step s (.input f) { s with
        input := if f.newStreamParameters then .parameters f else CodecState.afterParameters f }
  | partialOutput (hphase : s.input = .idle) :
      Step s .outputPartialDecodeBuffers { s with
        input := s.currentDecodeBufferIndex.elim .idle fun i => .closing i none }
  | inputMarker (hphase : s.input = .idle) (hrunning : s.halted = false) :
      Step s .inputMarker { s with input := .marker, markerBuffer := none }
  | parametersError {f : Frame} (hphase : s.input = .parameters f) :
      Step s .error { s with input := .idle }
  | obtainError {f : Frame} (hphase : s.input = .obtain f) :
      Step s .error { s with
        input := s.currentDecodeBufferIndex.elim .idle fun i => .closing i none }
  | fillError {f : Frame} (hphase : s.input = .fill f) : Step s .error { s with input := .idle }
  | markerError (hphase : s.input = .marker) : Step s .error { s with input := .idle }
  | abortParameters {f : Frame} (hphase : s.input = .parameters f) (hhalted : s.halted = true) :
      Step s .count { s.prepare.abort with input := CodecState.afterParameters f }
  | countParameters {f : Frame} (hphase : s.input = .parameters f) (hrunning : s.halted = false) :
      Step s .count { s.prepare with
        input := .parametersCounted f ⟨.setGlobalTransformParams, s.commands, false⟩ }
  | abortDecode {f : Frame} {i use : ℕ} (hphase : s.input = .launched f i use)
      (hhalted : s.halted = true) : Step s .count { s.prepare.abort with input := .sent f }
  | countDecode {f : Frame} {i use : ℕ} (hphase : s.input = .launched f i use)
      (hrunning : s.halted = false) :
      Step s .count { s.prepare with
        input := .counted f i use ⟨.transform i use, s.commands, false⟩ }
  | sendParameters {f : Frame} {c : Command} (hphase : s.input = .parametersCounted f c) :
      Step s (.send true) { s with
        transformer := s.transformer ++ [c], input := CodecState.afterParameters f }
  | refuseParameters {f : Frame} {c : Command} (hphase : s.input = .parametersCounted f c) :
      Step s (.send false) { s with input := .idle }
  | sendDecode {f : Frame} {i use : ℕ} {c : Command} (hphase : s.input = .counted f i use c) :
      Step s (.send true) { s with transformer := s.transformer ++ [c], input := .sent f }
  | refuseDecode {f : Frame} {i use : ℕ} {c : Command} (hphase : s.input = .counted f i use c) :
      Step s (.send false) { s with input := .failed i use }
  | look {f : Frame} (hphase : s.input = .frame f) : Step s .look { s with input := s.lookAtCurrent f }
  | close {i : ℕ} {next : Option Frame} (hphase : s.input = .closing i next) :
      Step s .setOutputOnDecodesComplete { s.closeBuffer i with input := .closed next }
  | forget {next : Option Frame} (hphase : s.input = .closed next) :
      Step s .forget { s with currentDecodeBufferIndex := none, input := next.elim .idle .obtain }
  | getDecodeBuffer {f : Frame} (i : ℕ) (hphase : s.input = .obtain f)
      (hnone : s.currentDecodeBufferIndex = none) (hfree : (s.bufferState i).use = none) :
      Step s (.getDecodeBuffer i) { s.takeBuffer i with input := .fill f }
  | reuse {f : Frame} (hphase : s.input = .obtain f) (hcurrent : s.currentDecodeBufferIndex.isSome) :
      Step s .reuse { s with input := .fill f }
  | launch {f : Frame} {i use : ℕ} (hphase : s.input = .fill f)
      (hcurrent : s.currentDecodeBufferIndex = some i) (huse : (s.bufferState i).use = some use) :
      Step s .launch { s.launchInto f i with input := .launched f i use }
  | finish {f : Frame} (hphase : s.input = .sent f) :
      Step s .finish { s with
        currentDecodeBufferIndex :=
          if f.lastDecodeIntoThisBuffer then none else s.currentDecodeBufferIndex
        input := .idle }
  | release {i use : ℕ} (hphase : s.input = .failed i use) :
      Step s .release { (s.releaseDecodeContext i).1 with
        input := if (s.releaseDecodeContext i).2 = .discarding then .dropping i use else .idle }
  | drop {i use : ℕ} (hphase : s.input = .dropping i use) :
      Step s .drop { s.releaseBuffer i with input := .dropped i use }
  | relock {i use : ℕ} (hphase : s.input = .dropped i use) :
      Step s .relock { s.forgetIndex i with input := .idle }
  | setMarkerTime (hphase : s.input = .marker) :
      Step s .setMarkerTime { s with
        passOnMarkerBufferAt := s.mmeCommandPreparedCount
        input := .markerTimed ⟨s.markers, s.uses⟩
        markers := s.markers + 1 }
  | setMarker {m : Marker} (hphase : s.input = .markerTimed m) :
      Step s .setMarker { s with markerBuffer := some m, input := .markerTest .testing }
  | testMarker {t : MarkerTest} (hphase : s.input = .markerTest t) :
      Step s .testMarker { (s.passMarker t).1 with
        input := (s.passMarker t).2.elim .idle .markerTest }
  | callback {c : Command} {rest : List Command} (hphase : s.callback = .idle)
      (hhead : s.transformer = c :: rest) :
      Step s .callback ({ s with transformer := rest }.complete c)
  | callbackDrop {c : Command} {i use : ℕ} (hphase : s.callback = .dropping c i use) :
      Step s .callbackDrop { s.releaseBuffer i with callback := .dropped c i use }
  | callbackRelock {c : Command} {i use : ℕ} (hphase : s.callback = .dropped c i use) :
      Step s .callbackRelock { s.forgetIndex i with callback := .completed c }
  | callbackCount {c : Command} (hphase : s.callback = .completed c) :
      Step s .callbackCount { s with
        mmeCommandCompletedCount := s.mmeCommandCompletedCount + 1
        callback := .markerTest .testing }
  | callbackTestMarker {t : MarkerTest} (hphase : s.callback = .markerTest t) :
      Step s .callbackTestMarker { (s.passMarker t).1 with
        callback := (s.passMarker t).2.elim .idle .markerTest }
  | discard : Step s .discardQueuedDecodes s.discardQueuedDecodes
  | halt : Step s .halt { s with halted := true }
  | newSession (hhalted : s.halted = true) (hinput : s.input = .idle) (hcallback : s.callback = .idle) :
      Step s .newSession s.newSession
  | free {use : ℕ} (i : ℕ) (huse : (s.bufferState i).use = some use) (hleft : s.HasLeft use) :
      Step s (.free i) (s.freeBuffer i)

namespace CodecState

variable {s s' : CodecState} {label : Label}

theorem callbackStep_cases (h : s.callbackStep label s.callback = some s') : Step s label s' := by
  unfold callbackStep at h
  split at h
  next hphase =>
    cases htransformer : s.transformer with
    | nil =>
      rw [htransformer] at h
      cases h
    | cons c rest =>
      rw [htransformer] at h
      exact Option.some.inj h ▸ .callback hphase htransformer
  next hphase => exact Option.some.inj h ▸ .callbackDrop hphase
  next hphase => exact Option.some.inj h ▸ .callbackRelock hphase
  next hphase => exact Option.some.inj h ▸ .callbackCount hphase
  next hphase => exact Option.some.inj h ▸ .callbackTestMarker hphase
  next => cases h

theorem inputStep_cases (h : s.inputStep label s.input = some s') : Step s label s' := by
  unfold inputStep at h
  split at h
  next hphase =>
    split at h
    next => cases h
    next hrunning => exact Option.some.inj h ▸ .input _ hphase (Bool.eq_false_iff.mpr hrunning)
  next hphase => exact Option.some.inj h ▸ .partialOutput hphase
  next hphase =>
    split at h
    next => cases h
    next hrunning => exact Option.some.inj h ▸ .inputMarker hphase (Bool.eq_false_iff.mpr hrunning)
  next hphase => exact Option.some.inj h ▸ .parametersError hphase
  next hphase => exact Option.some.inj h ▸ .obtainError hphase
  next hphase => exact Option.some.inj h ▸ .fillError hphase
  next hphase => exact Option.some.inj h ▸ .markerError hphase
  next hphase =>
    split at h
    next hhalted => exact Option.some.inj h ▸ .abortParameters hphase hhalted
    next hrunning => exact Option.some.inj h ▸ .countParameters hphase (Bool.eq_false_iff.mpr hrunning)
  next hphase =>
    split at h
    next hhalted => exact Option.some.inj h ▸ .abortDecode hphase hhalted
    next hrunning => exact Option.some.inj h ▸ .countDecode hphase (Bool.eq_false_iff.mpr hrunning)
  next hphase => exact Option.some.inj h ▸ .sendParameters hphase
  next hphase => exact Option.some.inj h ▸ .refuseParameters hphase
  next hphase => exact Option.some.inj h ▸ .sendDecode hphase
  next hphase => exact Option.some.inj h ▸ .refuseDecode hphase
  next hphase => exact Option.some.inj h ▸ .look hphase
  next hphase => exact Option.some.inj h ▸ .close hphase
  next hphase => exact Option.some.inj h ▸ .forget hphase
  next hphase =>
    split at h
    next hguard => exact Option.some.inj h ▸ .getDecodeBuffer _ hphase hguard.1 hguard.2
    next => cases h
  next hphase =>
    split at h
    next hcurrent => exact Option.some.inj h ▸ .reuse hphase hcurrent
    next => cases h
  next hphase =>
    obtain ⟨i, hcurrent, hmap⟩ := Option.bind_eq_some_iff.mp h
    obtain ⟨use, huse, rfl⟩ := Option.map_eq_some_iff.mp hmap
    exact .launch hphase hcurrent huse
  next hphase => exact Option.some.inj h ▸ .finish hphase
  next hphase => exact Option.some.inj h ▸ .release hphase
  next hphase => exact Option.some.inj h ▸ .drop hphase
  next hphase => exact Option.some.inj h ▸ .relock hphase
  next hphase => exact Option.some.inj h ▸ .setMarkerTime hphase
  next hphase => exact Option.some.inj h ▸ .setMarker hphase
  next hphase => exact Option.some.inj h ▸ .testMarker hphase
  next => cases h

theorem step_cases (h : s.step label = some s') :
    Step s label s' := by
  unfold step at h
  split at h
  next => exact Option.some.inj h ▸ .discard
  next => exact Option.some.inj h ▸ .halt
  next =>
    split at h
    next hguard => exact Option.some.inj h ▸ .newSession hguard.1 hguard.2.1 hguard.2.2
    next => cases h
  next i =>
    obtain ⟨use, huse, hfree⟩ := Option.bind_eq_some_iff.mp h
    split at hfree
    next hleft => exact Option.some.inj hfree ▸ .free i huse hleft
    next => cases hfree
  next => exact callbackStep_cases h
  next => exact callbackStep_cases h
  next => exact callbackStep_cases h
  next => exact callbackStep_cases h
  next => exact callbackStep_cases h
  next => exact inputStep_cases h

end CodecState

end Player2.Codec
