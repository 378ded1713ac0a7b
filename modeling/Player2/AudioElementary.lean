import Mathlib.Data.List.Basic
import Mathlib.Data.Int.Basic

/-! # The elementary stream machine of the audio collators

`Collator_PesAudio_c::HandleElementaryStream` and the routines it calls.  The machine searches for
a synchronization word, accumulates a frame header, asks the sub-class how long the frame is and
absorbs it; a frame is passed on when the header after it has been seen.

When a header is bad, `HandleMissingNextFrameHeader` runs the machine again over the bytes
accumulated so far, in a nested call that gives up as soon as it meets a bad header itself; it is
then tried again one byte further on.  Both loops and the nested call are flattened here into the
steps of one `Config`, with the interrupted outer call kept in a `Recovery`: the source allows
no deeper nesting.  `run` performs a number of steps, and `Returns` says that the call comes back. -/

namespace Player2.Audio

/-! ### The state -/

/-- `CollatorState_t`. -/
inductive CollatorState
  | seekingSyncWord
  | gotSynchronized
  | seekingFrameEnd
  | readSubFrame
  | skipSubFrame
  | gotCompleteFrame
deriving DecidableEq, Repr

/-- The statuses that matter to the loop. -/
inductive Status
  | noError
  | bufferOverflow
  | unwindStack
deriving DecidableEq, Repr

/-- What a sub-class supplies: `FrameHeaderLength`, whether the accumulated data is processed
again in error recovery, `FindNextSyncWord` on the potential frame header and the remaining data,
and `DecideCollatorNextStateAndGetLength` on the state and the frame header. -/
structure SubClass where
  frameHeaderLength : ℕ
  reprocess : Bool
  findNextSyncWord : List UInt8 → List UInt8 → Option ℤ
  decideNextState : CollatorState → List UInt8 → Option (CollatorState × ℕ)

/-- A sub-class with the size of the coded frame buffers. -/
structure Setting extends SubClass where
  maximumCodedFrameSize : ℕ

/-- The members the machine keeps between calls.  `accumulated` is the data in the coded frame
buffer and `frames` what has been passed to the output ring; the two flags belong to the PES
machine and are here because `DiscardAccumulatedData` sets them. -/
structure Collator where
  collatorState : CollatorState
  gotPartialFrameHeaderBytes : ℕ
  framePayloadRemaining : ℤ
  accumulatedFrameReady : Bool
  accumulated : List UInt8
  potentialFrameHeader : List UInt8
  frames : List (List UInt8)
  seekingPesHeader : Bool
  gotPartialPesHeader : Bool
deriving DecidableEq

/-- The state after `Reset`. -/
def Collator.start : Collator where
  collatorState := .seekingSyncWord
  gotPartialFrameHeaderBytes := 0
  framePayloadRemaining := 0
  accumulatedFrameReady := false
  accumulated := []
  potentialFrameHeader := []
  frames := []
  seekingPesHeader := true
  gotPartialPesHeader := false

/-! ### The routines -/

/-- How one pass of the loop ends: with more to do, with an error status, or in
`HandleMissingNextFrameHeader`. -/
inductive Outcome
  | more (s : Collator) (remaining : List UInt8)
  | fail (status : Status) (s : Collator)
  | missing (s : Collator) (remaining : List UInt8)

namespace Collator

def discardAccumulatedData (s : Collator) : Collator :=
  { s with
    accumulated := []
    accumulatedFrameReady := false
    seekingPesHeader := true
    gotPartialPesHeader := false }

variable (e : Setting)

/-- `AccumulateData`, `none` when the buffer would overflow. -/
def accumulateData (s : Collator) (bytes : List UInt8) : Option Collator :=
  if s.accumulated.length + bytes.length > e.maximumCodedFrameSize then none
  else some { s with accumulated := s.accumulated ++ bytes }

/-- The last `n` bytes. -/
def lastBytes (n : ℕ) (bytes : List UInt8) : List UInt8 := bytes.drop (bytes.length - n)

/-- The bytes kept in `PotentialFrameHeader` after a search without success. -/
def keepPotential (potential remaining : List UInt8) : List UInt8 :=
  if remaining.length < e.frameHeaderLength then
    if potential.length + remaining.length > e.frameHeaderLength then
      lastBytes (e.frameHeaderLength - remaining.length) potential ++ remaining
    else potential ++ remaining
  else lastBytes e.frameHeaderLength remaining

def searchForSyncWord (s : Collator) (remaining : List UInt8) : Outcome :=
  match e.findNextSyncWord s.potentialFrameHeader remaining with
  | some codeOffset =>
    let t := { s with collatorState := .gotSynchronized, potentialFrameHeader := [] }
    if 0 ≤ codeOffset then
      .more { t with gotPartialFrameHeaderBytes := 0 } (remaining.drop codeOffset.toNat)
    else
      let old := lastBytes (-codeOffset).toNat s.potentialFrameHeader
      let t := { t with gotPartialFrameHeaderBytes := (-codeOffset).toNat }
      match t.accumulateData e old with
      | some t => .more t remaining
      | none => .fail .bufferOverflow t
  | none =>
    .more { s with potentialFrameHeader := keepPotential e s.potentialFrameHeader remaining } []

/-- What `ReadPartialFrameHeader` does once the sub-class has accepted the frame header. -/
def acceptHeader (s : Collator) (state : CollatorState) (frameLength : ℕ) : Collator :=
  { s with
    collatorState := state
    framePayloadRemaining := frameLength - e.frameHeaderLength
    accumulatedFrameReady := if state = .gotCompleteFrame then true else s.accumulatedFrameReady
    accumulated :=
      if state = .skipSubFrame then
        s.accumulated.take (s.accumulated.length - e.frameHeaderLength)
      else s.accumulated }

/-- The part of `ReadPartialFrameHeader` after the whole frame header has been accumulated. -/
def examineHeader (s : Collator) (remaining : List UInt8) : Outcome :=
  match e.decideNextState s.collatorState (lastBytes e.frameHeaderLength s.accumulated) with
  | some (state, frameLength) =>
    if frameLength > e.maximumCodedFrameSize then .missing s remaining
    else .more (s.acceptHeader e state frameLength) remaining
  | none => .missing s remaining

def readPartialFrameHeader (s : Collator) (remaining : List UInt8) : Outcome :=
  let bytesNeeded := e.frameHeaderLength - s.gotPartialFrameHeaderBytes
  let bytesToRead := min remaining.length bytesNeeded
  match s.accumulateData e (remaining.take bytesToRead) with
  | none => .fail .bufferOverflow s
  | some t =>
    let t := { t with gotPartialFrameHeaderBytes := s.gotPartialFrameHeaderBytes + bytesToRead }
    if bytesNeeded = bytesToRead then t.examineHeader e (remaining.drop bytesToRead)
    else .more t (remaining.drop bytesToRead)

/-- The part of `ReadFrame` after the data has been taken, or not, into the buffer. -/
def absorb (s : Collator) (bytesToRead : ℕ) : Collator :=
  { s with
    gotPartialFrameHeaderBytes :=
      if (bytesToRead : ℤ) = s.framePayloadRemaining then 0 else s.gotPartialFrameHeaderBytes
    collatorState :=
      if (bytesToRead : ℤ) = s.framePayloadRemaining then .seekingFrameEnd else s.collatorState
    framePayloadRemaining := s.framePayloadRemaining - bytesToRead }

def readFrame (s : Collator) (remaining : List UInt8) : Outcome :=
  if s.framePayloadRemaining < 0 then
    .more { s with
      gotPartialFrameHeaderBytes := (-s.framePayloadRemaining).toNat
      collatorState := .seekingFrameEnd } remaining
  else
    let bytesToRead := min s.framePayloadRemaining.toNat remaining.length
    if s.collatorState = .readSubFrame then
      match s.accumulateData e (remaining.take bytesToRead) with
      | none => .fail .bufferOverflow s
      | some t => .more (t.absorb bytesToRead) (remaining.drop bytesToRead)
    else .more (s.absorb bytesToRead) (remaining.drop bytesToRead)

/-- `Collator_Base_c::InternalFrameFlush`, which outputs nothing for an empty buffer. -/
def outputFrame (s : Collator) : Collator :=
  if s.accumulated = [] then s
  else { s with frames := s.frames ++ [s.accumulated], accumulated := [] }

/-- `Collator_PesAudio_c::InternalFrameFlush`: the header of the next frame, if there is one, is
carried over to the new buffer. -/
def internalFrameFlush (s : Collator) : Collator :=
  if s.accumulatedFrameReady then
    let header := lastBytes e.frameHeaderLength s.accumulated
    let t := outputFrame
      { s with accumulated := s.accumulated.take (s.accumulated.length - e.frameHeaderLength) }
    { (t.accumulateData e header).getD t with accumulatedFrameReady := false }
  else { s.outputFrame with collatorState := .seekingSyncWord }

/-- One pass of the loop of `HandleElementaryStream`. -/
def pass (s : Collator) (remaining : List UInt8) : Outcome :=
  match s.collatorState with
  | .seekingSyncWord => s.searchForSyncWord e remaining
  | .gotSynchronized | .seekingFrameEnd => s.readPartialFrameHeader e remaining
  | .readSubFrame | .skipSubFrame => s.readFrame e remaining
  | .gotCompleteFrame =>
    .more { s.internalFrameFlush e with collatorState := .readSubFrame } remaining

/-- The end of `HandleElementaryStream` after an error. -/
def abandon (s : Collator) : Collator :=
  { s.discardAccumulatedData with collatorState := .seekingSyncWord }

/-- The first lines of `HandleMissingNextFrameHeader`. -/
def loseLock (s : Collator) : Collator :=
  { s with collatorState := .seekingSyncWord, accumulatedFrameReady := false }

end Collator

/-! ### The loops -/

/-- The call of `HandleElementaryStream` that `HandleMissingNextFrameHeader` has interrupted: the
data it has left, and the accumulated data that is processed again. -/
structure Recovery where
  remaining : List UInt8
  reprocessing : List UInt8
deriving DecidableEq

/-- A state of the loop. -/
structure Config where
  collator : Collator
  remaining : List UInt8
  recovery : Option Recovery
deriving DecidableEq

/-- What follows a step: another state, or the return of the outermost call. -/
inductive Next
  | config (c : Config)
  | done (status : Status) (s : Collator)
deriving DecidableEq

variable (e : Setting)

/-- `HandleMissingNextFrameHeader` returns `status` to the interrupted call. -/
def resume (status : Status) (s : Collator) (remaining : List UInt8) : Next :=
  if status = .noError then .config ⟨s, remaining, none⟩ else .done status s.abandon

/-- The data for the next attempt: without the first byte, and from the next synchronization word
on, or only the end of it that may hold a part of one. -/
def snip (data : List UInt8) : List UInt8 :=
  match e.findNextSyncWord [] (data.drop 1) with
  | some codeOffset => (data.drop 1).drop codeOffset.toNat
  | none => Collator.lastBytes (e.frameHeaderLength - 1) (data.drop 1)

/-- The head of the recovery loop, `last` being the status so far. -/
def retry (last : Status) (s : Collator) (r : Recovery) : Next :=
  if r.reprocessing.length > 1 then
    .config ⟨{ s with potentialFrameHeader := [] }, snip e r.reprocessing,
      some ⟨r.remaining, snip e r.reprocessing⟩⟩
  else resume last s r.remaining

/-- A bad frame header. -/
def missingHeader (s : Collator) (remaining : List UInt8) : Option Recovery → Next
  | some r =>
    -- the nested call unwinds and cleans up, and the recovery loop drops what it accumulated
    retry e .unwindStack { s.loseLock.abandon with accumulated := [] } r
  | none =>
    if e.reprocess then
      retry e .noError { s.loseLock with accumulated := [] } ⟨remaining, s.accumulated⟩
    else .config ⟨s.loseLock.discardAccumulatedData, remaining, none⟩

/-- One step. -/
def step (c : Config) : Next :=
  if c.remaining = [] then
    match c.recovery with
    | none => .done .noError c.collator
    | some r => resume .noError c.collator r.remaining
  else
    match c.collator.pass e c.remaining with
    | .more s remaining => .config ⟨s, remaining, c.recovery⟩
    | .missing s remaining => missingHeader e s remaining c.recovery
    | .fail status s =>
      match c.recovery with
      | none => .done status s.abandon
      | some r => resume status s.abandon r.remaining

/-- A number of steps. -/
def run : ℕ → Config → Next
  | 0, c => .config c
  | n + 1, c =>
    match step e c with
    | .config c' => run n c'
    | .done status s => .done status s

/-- The call that is in the state `c` comes back. -/
def Returns (c : Config) (status : Status) (s : Collator) : Prop := ∃ n, run e n c = .done status s

/-- `HandleElementaryStream` on a payload comes back with a status and a state. -/
def HandlesElementaryStream (s : Collator) (data : List UInt8) (status : Status) (t : Collator) :
    Prop := Returns e ⟨s, data, none⟩ status t

end Player2.Audio
