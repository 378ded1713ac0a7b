import Player2.InSequence
import Mathlib.Algebra.Order.Ring.Nat

/-! # From decode to manifestation

`ProcessDecodeToManifest` takes decode buffers from a ring in decoding order and passes them on in display
order.  Each of them has a display frame index, which the frame parser may give it only while it waits.
The process expects the indices one after the other; a buffer whose index is not expected yet waits in
`AccumulatedDecodeBufferTable`.  Indices of frames that are not decoded are recorded by another process
(`RecordNonDecodedFrame`) and skipped (`CheckForNonDecodedFrame`).  A marker frame flushes the table.

Between two steps of the process anything else may happen to what it shares with others: an index is given
out, a frame is recorded, a flag is raised.  Buffers are numbered in the order of their arrival. -/

namespace Player2.DecodeToManifest

open InSequence (ControlStructure)

/-! ### Constants and records -/

def invalidIndex : ℕ := 0xffffffff

/-- `PLAYER_MAX_DISCARDED_FRAMES`. -/
def maxDiscardedFrames : ℕ := 64

/-- `PLAYER_LIMIT_ON_OUT_OF_ORDER_DECODES`. -/
def limitOnOutOfOrderDecodes : ℕ := 13

/-- `PLAYER_MINIMUM_NUMBER_OF_WORKING_DECODE_BUFFERS`. -/
def minimumNumberOfWorkingDecodeBuffers : ℕ := 3

/-- What `MinumumSequenceNumberAccumulated` starts from. -/
def largestSequenceNumber : ℕ := 0xffffffffffffffff

/-- `ParsedFrameParameters_t`, as far as it is read here. -/
structure FrameParameters where
  displayFrameIndex : ℕ
  collapseHolesInDisplayIndices : Bool
  nativePlaybackTime : ℕ
deriving DecidableEq

/-- A decode buffer with its sequence number, as it stands in `AccumulatedDecodeBufferTable`. -/
structure Entry where
  buffer : ℕ
  sequenceNumber : ℕ
deriving DecidableEq

/-- A record in `NonDecodedBuffers`.  When its buffer is released the record has the index; until then it
has the buffer's parameters. -/
structure NonDecodedFrame where
  releasedBuffer : Bool
  displayFrameIndex : ℕ
  collapseHolesInDisplayIndices : Bool
deriving DecidableEq

/-- Where the process is: at the scan of the table, looking for indices to skip, before it takes something
from the ring, behind the reordering loop with a buffer, or at its end. -/
inductive Phase
  | scan
  | skip
  | get
  | output (e : Entry)
  | terminated
deriving DecidableEq

/-- What the process does with a buffer behind the loop: the buffer is discarded, or offered to the
manifestor, which takes it or not. -/
inductive Outcome
  | discarded
  | queued
  | refused
deriving DecidableEq

/-- A decode buffer from the ring, with what obtaining its coded frame, sequence number and parameters
comes to. -/
structure Arrival where
  sequenceNumber : ℕ
  attached : Bool
  markerFrame : Bool
  parametersFound : Bool
  parameters : FrameParameters
deriving DecidableEq

/-- What comes out of `DecodedFrameRing`: nothing or a null pointer, a control structure, a decode buffer. -/
inductive RingItem
  | nothing
  | control (m : ControlStructure)
  | decoded (a : Arrival)
deriving DecidableEq

/-- A buffer that leaves the reordering loop, with the sequence number it is given; what has arrived and
what has been passed on by then, and the requests for after a frame, the ones performed among them. -/
structure Departure where
  entry : Entry
  displayFrameIndex : ℕ
  sequenceNumber : ℕ
  arrived : List Entry
  released : List Entry
  requests : List ControlStructure
  performed : List ControlStructure
deriving DecidableEq

/-- The process and what it shares with others.  The decode buffers that have arrived, the indices given
out, the buffers passed on, the departures, and the buffers that a scan left in the table although their
index was due, are not in the source. -/
structure StageState where
  phase : Phase
  table : List (Option Entry)
  occupancy : ℕ
  markerFrameBuffer : Option Entry
  desiredFrameIndex : ℕ
  minimumSequenceNumberAccumulated : ℕ
  calls : InSequence.ProcessState
  parameters : ℕ → FrameParameters
  nonDecodedBuffers : List (Option NonDecodedFrame)
  insertionsIntoNonDecodedBuffers : ℕ
  removalsFromNonDecodedBuffers : ℕ
  displayIndicesCollapse : ℕ
  framesToManifestorCount : ℕ
  playForward : Bool
  possibleDecodeBuffers : ℕ
  discardingUntilMarkerFramePtoD : Bool
  discardingUntilMarkerFrameDtoM : Bool
  terminating : Bool
  arrivals : List Entry
  indices : List ℕ
  passedOn : List Entry
  departures : List Departure
  overlooked : List Entry

/-- A step: of the process (a scan of the table, a check for an index to skip, the marker is passed on,
something is taken from the ring, a buffer is dealt with), or of its surroundings (an index is given to a
buffer, or to a recorded frame; a frame is recorded; a value that the process reads changes). -/
inductive Label
  | scan
  | skip
  | passMarker
  | extract (item : RingItem)
  | output (outcome : Outcome)
  | assign (buffer displayFrameIndex : ℕ)
  | assignNonDecoded (slot displayFrameIndex : ℕ)
  | recordNonDecodedFrame (displayFrameIndex : ℕ) (collapseHolesInDisplayIndices : Bool)
  | direction (playForward : Bool)
  | decodeBufferCount (count : ℕ)
  | discardPtoD (discarding : Bool)
  | discardDtoM
  | terminate
deriving DecidableEq

namespace StageState

/-! ### The scan of the table -/

/-- The buffers in the table. -/
def waiting (s : StageState) : List Entry := s.table.reduceOption

/-- `ParsedFrameParameters->DisplayFrameIndex` of a buffer. -/
def index (s : StageState) (e : Entry) : ℕ := (s.parameters e.buffer).displayFrameIndex

/-- The buffer takes the place of the lowest one found so far. -/
def replaces (s : StageState) (low : Option (ℕ × Entry)) (e : Entry) : Bool :=
  s.index e != invalidIndex && low.all fun l => s.index e < s.index l.2

/-- The loop over the table that finds the lowest index. -/
def lowestFrom (s : StageState) : ℕ → List (Option Entry) → Option (ℕ × Entry) → Option (ℕ × Entry)
  | _, [], low => low
  | i, none :: rest, low => lowestFrom s (i + 1) rest low
  | i, some e :: rest, low => lowestFrom s (i + 1) rest (if s.replaces low e then some (i, e) else low)

/-- The slot of the buffer with the lowest index, and the buffer. -/
def lowest (s : StageState) : Option (ℕ × Entry) := s.lowestFrom 0 s.table none

/-- `MaxDecodesOutOfOrder`, in unsigned arithmetic. -/
def maxDecodesOutOfOrder (s : StageState) : ℕ :=
  let count := if s.playForward then s.possibleDecodeBuffers / 2 else 3 * s.possibleDecodeBuffers / 4
  let least := min ((s.possibleDecodeBuffers + (2 ^ 32 - minimumNumberOfWorkingDecodeBuffers)) % 2 ^ 32)
    count
  if s.playForward then min limitOnOutOfOrderDecodes least else least

/-- The lowest buffer is taken from the table. -/
def releases (s : StageState) (e : Entry) : Bool :=
  s.index e == s.desiredFrameIndex || decide (s.maxDecodesOutOfOrder ≤ s.occupancy) ||
    (s.parameters e.buffer).collapseHolesInDisplayIndices || s.markerFrameBuffer.isSome

/-- The index of a buffer is due: it is not above the one that is expected. -/
def isDue (s : StageState) (e : Entry) : Bool :=
  s.index e != invalidIndex && s.index e ≤ s.desiredFrameIndex

/-- The smallest sequence number in the table. -/
def minimumAccumulated (s : StageState) : ℕ :=
  (s.waiting.map Entry.sequenceNumber).foldl min largestSequenceNumber

/-- A buffer is taken from the table. -/
def take (s : StageState) (slot : ℕ) (e : Entry) : StageState :=
  { s with table := s.table.set slot none, occupancy := s.occupancy - 1, phase := .output e }

/-- No buffer is taken; the ones whose index is due are overlooked. -/
def leave (s : StageState) : StageState :=
  { s with phase := .skip, overlooked := s.overlooked ++ s.waiting.filter s.isDue }

def flushNonDecodedFrameList (s : StageState) : StageState :=
  if s.insertionsIntoNonDecodedBuffers = s.removalsFromNonDecodedBuffers then s
  else
    let unreleased : NonDecodedFrame → Bool := fun r => !r.releasedBuffer
    { s with
      nonDecodedBuffers := Slots.clear unreleased s.nonDecodedBuffers
      removalsFromNonDecodedBuffers := s.removalsFromNonDecodedBuffers +
        (s.nonDecodedBuffers.reduceOption.filter unreleased).length }

/-- The end of the process, which releases the buffers in the table. -/
def cleanUp (s : StageState) : StageState :=
  flushNonDecodedFrameList
    { s with
      phase := .terminated
      passedOn := if s.occupancy = 0 then s.passedOn else s.passedOn ++ s.waiting }

/-- The head of the loop. -/
def scan (s : StageState) : StageState :=
  if s.terminating then s.cleanUp
  else
    let s' := { s with minimumSequenceNumberAccumulated :=
      if s.occupancy = 0 then largestSequenceNumber else s.minimumAccumulated }
    if s.occupancy = 0 then s'.leave
    else
      match s.lowest with
      | none => s'.leave
      | some (slot, e) => if s.releases e then s'.take slot e else s'.leave

/-! ### Frames that are not decoded -/

/-- What `CheckForNonDecodedFrame` makes of the records, of `DisplayIndicesCollapse` and of the count of
removals, and whether it has found the index. -/
structure Check where
  records : List (Option NonDecodedFrame)
  collapse : ℕ
  removals : ℕ
  found : Bool
deriving DecidableEq

/-- The result for the records from the second one on, with the first one. -/
def Check.cons (record : Option NonDecodedFrame) (c : Check) : Check :=
  { c with records := record :: c.records }

/-- `DisplayIndicesCollapse` when the buffer of a record is released. -/
def collapseAfter (discarding : Bool) (r : NonDecodedFrame) (collapse : ℕ) : ℕ :=
  if r.releasedBuffer then collapse
  else if discarding || r.collapseHolesInDisplayIndices then max collapse r.displayFrameIndex
  else collapse

/-- The loop of `CheckForNonDecodedFrame` over the records. -/
def checkRecords (discarding : Bool) (desired : ℕ) : List (Option NonDecodedFrame) → ℕ → Check
  | [], collapse => ⟨[], collapse, 0, false⟩
  | none :: rest, collapse => (checkRecords discarding desired rest collapse).cons none
  | some r :: rest, collapse =>
    if r.releasedBuffer = false ∧ r.displayFrameIndex = invalidIndex then
      (checkRecords discarding desired rest collapse).cons (some r)
    else
      let collapse' := collapseAfter discarding r collapse
      if r.displayFrameIndex = desired then ⟨none :: rest, collapse', 1, true⟩
      else if r.displayFrameIndex < desired then
        let c := checkRecords discarding desired rest collapse'
        { c.cons none with removals := c.removals + 1 }
      else (checkRecords discarding desired rest collapse').cons (some { r with releasedBuffer := true })

/-- The check of the records for the index that is expected. -/
def check (s : StageState) : Check :=
  if s.insertionsIntoNonDecodedBuffers = s.removalsFromNonDecodedBuffers then
    ⟨s.nonDecodedBuffers, s.displayIndicesCollapse, 0, false⟩
  else
    checkRecords s.discardingUntilMarkerFrameDtoM s.desiredFrameIndex s.nonDecodedBuffers
      s.displayIndicesCollapse

/-- `CheckForNonDecodedFrame` skips the index although it is not recorded. -/
def collapsed (s : StageState) : Bool :=
  s.insertionsIntoNonDecodedBuffers != s.removalsFromNonDecodedBuffers && !s.check.found &&
    decide (s.desiredFrameIndex < s.check.collapse)

/-- One round of the loop that skips indices. -/
def skip (s : StageState) : StageState :=
  let s' :=
    { s with
      nonDecodedBuffers := s.check.records
      displayIndicesCollapse := s.check.collapse
      removalsFromNonDecodedBuffers := s.removalsFromNonDecodedBuffers + s.check.removals }
  if s.check.found || s.collapsed then
    { s' with desiredFrameIndex := (s.desiredFrameIndex + 1) % 2 ^ 32 }
  else { s' with phase := .get }

/-- `RecordNonDecodedFrame`; when the table is full the frame is ignored. -/
def recordNonDecodedFrame (s : StageState) (displayFrameIndex : ℕ)
    (collapseHolesInDisplayIndices : Bool) : StageState :=
  let released := displayFrameIndex != invalidIndex
  match Slots.insert s.nonDecodedBuffers
    ⟨released, displayFrameIndex, collapseHolesInDisplayIndices⟩ with
  | none => s
  | some records =>
    { s with
      nonDecodedBuffers := records
      insertionsIntoNonDecodedBuffers := s.insertionsIntoNonDecodedBuffers + 1
      displayIndicesCollapse :=
        if released && (s.discardingUntilMarkerFramePtoD || collapseHolesInDisplayIndices) then
          max s.displayIndicesCollapse displayFrameIndex
        else s.displayIndicesCollapse }

/-! ### The rest of the loop -/

/-- The marker frame goes to the ring of the manifested buffers. -/
def passMarker (s : StageState) (e : Entry) : StageState :=
  { s with
    calls := s.calls.frame .decodeToManifest ⟨e.sequenceNumber, e.sequenceNumber, true, 0⟩
    passedOn := s.passedOn ++ [e]
    markerFrameBuffer := none
    discardingUntilMarkerFrameDtoM := false
    phase := .scan }

/-- The indices given out, with the one of a frame, if it has one. -/
def giveOut (s : StageState) (displayFrameIndex : ℕ) : List ℕ :=
  if displayFrameIndex = invalidIndex then s.indices else displayFrameIndex :: s.indices

/-- A decode buffer has arrived. -/
def arrive (s : StageState) (a : Arrival) : StageState :=
  { s with
    arrivals := s.arrivals ++ [⟨s.arrivals.length, a.sequenceNumber⟩]
    indices := s.giveOut a.parameters.displayFrameIndex
    parameters := Function.update s.parameters s.arrivals.length a.parameters }

/-- A decode buffer that has arrived is released, waits as a marker, goes out or goes into the table. -/
def place (s : StageState) (a : Arrival) (e : Entry) : StageState :=
  if !a.attached then { s with passedOn := s.passedOn ++ [e], phase := .scan }
  else
    let f : InSequence.Frame :=
      ⟨e.sequenceNumber, e.sequenceNumber, a.markerFrame, a.parameters.nativePlaybackTime⟩
    let s := { s with calls := s.calls.keep f }
    if a.markerFrame then { s with markerFrameBuffer := some e, phase := .scan }
    else if !a.parametersFound then { s with passedOn := s.passedOn ++ [e], phase := .scan }
    else if a.parameters.displayFrameIndex ≤ s.desiredFrameIndex then { s with phase := .output e }
    else
      match Slots.insert s.table e with
      | some table => { s with table := table, occupancy := s.occupancy + 1, phase := .scan }
      | none => { s with phase := .output e }

/-- Something is taken from the ring; what is taken when the process is to end is left alone. -/
def extract (s : StageState) : RingItem → StageState
  | .nothing => { s with phase := .scan }
  | .control m =>
    if s.terminating then { s with phase := .scan }
    else { s with calls := s.calls.control .decodeToManifest m, phase := .scan }
  | .decoded a =>
    let s' := s.arrive a
    if s.terminating then { s' with phase := .scan }
    else s'.place a ⟨s.arrivals.length, a.sequenceNumber⟩

/-- The sequence number that a buffer is given behind the loop. -/
def adjusted (s : StageState) (e : Entry) : ℕ :=
  min (max e.sequenceNumber s.calls.maximumActualSequenceNumberSeen) s.minimumSequenceNumberAccumulated

/-- The frame that the control structures are looked at for. -/
def frameOf (s : StageState) (e : Entry) : InSequence.Frame :=
  ⟨e.sequenceNumber, s.adjusted e, false, (s.parameters e.buffer).nativePlaybackTime⟩

/-- What is noted of a buffer that leaves the loop. -/
def departure (s : StageState) (e : Entry) : Departure where
  entry := e
  displayFrameIndex := s.index e
  sequenceNumber := s.adjusted e
  arrived := s.arrivals
  released := s.passedOn ++ [e]
  requests := s.calls.after.messages
  performed := (s.calls.after.process (s.adjusted e) (s.frameOf e).nativePlaybackTime).2

/-- A buffer is dealt with behind the loop; it is left alone when the process is to end. -/
def output (s : StageState) (e : Entry) (outcome : Outcome) : StageState :=
  if s.terminating then { s with phase := .scan }
  else
    { s with
      calls := s.calls.frame .decodeToManifest (s.frameOf e)
      departures := s.departures ++ [s.departure e]
      passedOn := s.passedOn ++ [e]
      desiredFrameIndex := (s.index e + 1) % 2 ^ 32
      framesToManifestorCount :=
        if outcome = .discarded then s.framesToManifestorCount else s.framesToManifestorCount + 1
      phase := .scan }

/-! ### Steps -/

/-- The index can be given out: it is none, or a valid one that no frame has. -/
def MayGive (s : StageState) (displayFrameIndex : ℕ) : Prop :=
  displayFrameIndex = invalidIndex ∨ displayFrameIndex < invalidIndex ∧ displayFrameIndex ∉ s.indices

instance (s : StageState) (displayFrameIndex : ℕ) : Decidable (s.MayGive displayFrameIndex) :=
  inferInstanceAs (Decidable (_ ∨ _))

/-- The parameters of a buffer with its index. -/
def assign (s : StageState) (buffer displayFrameIndex : ℕ) : StageState :=
  { s with
    parameters := Function.update s.parameters buffer
      { s.parameters buffer with displayFrameIndex := displayFrameIndex }
    indices := displayFrameIndex :: s.indices }

/-- A recorded frame that has no index yet is given one. -/
def assignNonDecoded (s : StageState) (slot displayFrameIndex : ℕ) : Option StageState :=
  match s.nonDecodedBuffers[slot]? with
  | some (some r) =>
    if r.releasedBuffer = false ∧ r.displayFrameIndex = invalidIndex then
      some { s with
        nonDecodedBuffers := s.nonDecodedBuffers.set slot
          (some { r with displayFrameIndex := displayFrameIndex })
        indices := displayFrameIndex :: s.indices }
    else none
  | _ => none

/-- One step.  An index is given out once, and only to a buffer without one; the buffers that can be
obtained are no more than there were when the table was made. -/
def step (s : StageState) : Label → Option StageState
  | .scan => if s.phase = .scan then some s.scan else none
  | .skip => if s.phase = .skip then some s.skip else none
  | .passMarker =>
    match s.markerFrameBuffer with
    | some e => if s.phase = .get then some (s.passMarker e) else none
    | none => none
  | .extract item =>
    match item with
    | .decoded a =>
      if s.phase = .get ∧ s.markerFrameBuffer = none ∧ s.MayGive a.parameters.displayFrameIndex ∧
          a.sequenceNumber ≤ largestSequenceNumber then some (s.extract item)
      else none
    | _ => if s.phase = .get ∧ s.markerFrameBuffer = none then some (s.extract item) else none
  | .output outcome =>
    match s.phase with
    | .output e =>
      if s.discardingUntilMarkerFrameDtoM = true → outcome = .discarded then
        some (s.output e outcome)
      else none
    | _ => none
  | .assign buffer displayFrameIndex =>
    if buffer < s.arrivals.length ∧ (s.parameters buffer).displayFrameIndex = invalidIndex ∧
        displayFrameIndex < invalidIndex ∧ displayFrameIndex ∉ s.indices then
      some (s.assign buffer displayFrameIndex)
    else none
  | .assignNonDecoded slot displayFrameIndex =>
    if displayFrameIndex < invalidIndex ∧ displayFrameIndex ∉ s.indices then
      s.assignNonDecoded slot displayFrameIndex
    else none
  | .recordNonDecodedFrame displayFrameIndex collapse =>
    if s.MayGive displayFrameIndex then
      some (recordNonDecodedFrame { s with indices := s.giveOut displayFrameIndex } displayFrameIndex
        collapse)
    else none
  | .direction playForward => some { s with playForward := playForward }
  | .decodeBufferCount count =>
    if count ≤ s.table.length then some { s with possibleDecodeBuffers := count } else none
  | .discardPtoD discarding => some { s with discardingUntilMarkerFramePtoD := discarding }
  | .discardDtoM => some { s with discardingUntilMarkerFrameDtoM := true }
  | .terminate => some { s with terminating := true }

/-- A stream with so many decode buffers. -/
def start (numberOfDecodeBuffers : ℕ) : StageState where
  phase := .scan
  table := List.replicate numberOfDecodeBuffers none
  occupancy := 0
  markerFrameBuffer := none
  desiredFrameIndex := 0
  minimumSequenceNumberAccumulated := largestSequenceNumber
  calls := .start
  parameters := fun _ => ⟨invalidIndex, false, 0⟩
  nonDecodedBuffers := List.replicate maxDiscardedFrames none
  insertionsIntoNonDecodedBuffers := 0
  removalsFromNonDecodedBuffers := 0
  displayIndicesCollapse := 0
  framesToManifestorCount := 0
  playForward := true
  possibleDecodeBuffers := numberOfDecodeBuffers
  discardingUntilMarkerFramePtoD := false
  discardingUntilMarkerFrameDtoM := false
  terminating := false
  arrivals := []
  indices := []
  passedOn := []
  departures := []
  overlooked := []

/-! ### What a step can do -/

/-- The steps, one by one. -/
inductive Steps (s : StageState) : Label → StageState → Prop
  | scan (hphase : s.phase = .scan) : Steps s .scan s.scan
  | skip (hphase : s.phase = .skip) : Steps s .skip s.skip
  | passMarker (e : Entry) (hphase : s.phase = .get) (hmarker : s.markerFrameBuffer = some e) :
      Steps s .passMarker (s.passMarker e)
  | nothing (hphase : s.phase = .get) (hmarker : s.markerFrameBuffer = none) :
      Steps s (.extract .nothing) (s.extract .nothing)
  | control (m : ControlStructure) (hphase : s.phase = .get) (hmarker : s.markerFrameBuffer = none) :
      Steps s (.extract (.control m)) (s.extract (.control m))
  | decoded (a : Arrival) (hphase : s.phase = .get) (hmarker : s.markerFrameBuffer = none)
      (hindex : s.MayGive a.parameters.displayFrameIndex)
      (hnumber : a.sequenceNumber ≤ largestSequenceNumber) :
      Steps s (.extract (.decoded a)) (s.extract (.decoded a))
  | output (e : Entry) (outcome : Outcome) (hphase : s.phase = .output e) :
      Steps s (.output outcome) (s.output e outcome)
  | assign (buffer index : ℕ) (hnone : (s.parameters buffer).displayFrameIndex = invalidIndex)
      (hvalid : index < invalidIndex) (hfresh : index ∉ s.indices) :
      Steps s (.assign buffer index) (s.assign buffer index)
  | assignNonDecoded (slot index : ℕ) (r : NonDecodedFrame)
      (hslot : s.nonDecodedBuffers[slot]? = some (some r)) (hheld : r.releasedBuffer = false)
      (hnone : r.displayFrameIndex = invalidIndex) (hvalid : index < invalidIndex)
      (hfresh : index ∉ s.indices) :
      Steps s (.assignNonDecoded slot index)
        { s with
          nonDecodedBuffers := s.nonDecodedBuffers.set slot (some { r with displayFrameIndex := index })
          indices := index :: s.indices }
  | record (index : ℕ) (collapse : Bool) (hindex : s.MayGive index) :
      Steps s (.recordNonDecodedFrame index collapse)
        (recordNonDecodedFrame { s with indices := s.giveOut index } index collapse)
  | direction (playForward : Bool) : Steps s (.direction playForward) { s with playForward := playForward }
  | decodeBufferCount (count : ℕ) (hcount : count ≤ s.table.length) :
      Steps s (.decodeBufferCount count) { s with possibleDecodeBuffers := count }
  | discardPtoD (discarding : Bool) :
      Steps s (.discardPtoD discarding) { s with discardingUntilMarkerFramePtoD := discarding }
  | discardDtoM : Steps s .discardDtoM { s with discardingUntilMarkerFrameDtoM := true }
  | terminate : Steps s .terminate { s with terminating := true }

theorem assignNonDecoded_eq_some {s t : StageState} {slot index : ℕ}
    (h : s.assignNonDecoded slot index = some t) :
    ∃ r, s.nonDecodedBuffers[slot]? = some (some r) ∧ r.releasedBuffer = false ∧
      r.displayFrameIndex = invalidIndex ∧
      t = { s with
        nonDecodedBuffers := s.nonDecodedBuffers.set slot (some { r with displayFrameIndex := index })
        indices := index :: s.indices } := by
  unfold assignNonDecoded at h
  split at h
  next r hslot =>
    rw [Option.ite_none_right_eq_some] at h
    obtain ⟨⟨hheld, hnone⟩, heq⟩ := h
    exact ⟨r, hslot, hheld, hnone, (Option.some.inj heq).symm⟩
  next => cases h

theorem steps_of_step {s t : StageState} {label : Label} (h : s.step label = some t) :
    s.Steps label t := by
  cases label with
  | scan =>
    obtain ⟨hphase, rfl⟩ := Option.ite_some_none_eq_some.mp h
    exact .scan hphase
  | skip =>
    obtain ⟨hphase, rfl⟩ := Option.ite_some_none_eq_some.mp h
    exact .skip hphase
  | passMarker =>
    unfold step at h
    cases hmarker : s.markerFrameBuffer with
    | none =>
      simp only [hmarker] at h
      cases h
    | some e =>
      simp only [hmarker] at h
      obtain ⟨hphase, rfl⟩ := Option.ite_some_none_eq_some.mp h
      exact .passMarker e hphase hmarker
  | extract item =>
    cases item with
    | nothing =>
      obtain ⟨⟨hphase, hmarker⟩, rfl⟩ := Option.ite_some_none_eq_some.mp h
      exact .nothing hphase hmarker
    | control m =>
      obtain ⟨⟨hphase, hmarker⟩, rfl⟩ := Option.ite_some_none_eq_some.mp h
      exact .control m hphase hmarker
    | decoded a =>
      obtain ⟨⟨hphase, hmarker, hindex, hnumber⟩, rfl⟩ := Option.ite_some_none_eq_some.mp h
      exact .decoded a hphase hmarker hindex hnumber
  | output outcome =>
    unfold step at h
    dsimp only at h
    split at h
    next e hphase =>
      obtain ⟨-, rfl⟩ := Option.ite_some_none_eq_some.mp h
      exact .output e outcome hphase
    next => cases h
  | assign buffer index =>
    obtain ⟨⟨-, hnone, hvalid, hfresh⟩, rfl⟩ := Option.ite_some_none_eq_some.mp h
    exact .assign buffer index hnone hvalid hfresh
  | assignNonDecoded slot index =>
    obtain ⟨⟨hvalid, hfresh⟩, hassign⟩ := Option.ite_none_right_eq_some.mp h
    obtain ⟨r, hslot, hheld, hnone, rfl⟩ := assignNonDecoded_eq_some hassign
    exact .assignNonDecoded slot index r hslot hheld hnone hvalid hfresh
  | recordNonDecodedFrame index collapse =>
    obtain ⟨hindex, rfl⟩ := Option.ite_some_none_eq_some.mp h
    exact .record index collapse hindex
  | direction playForward =>
    obtain rfl := Option.some.inj h
    exact .direction playForward
  | decodeBufferCount count =>
    obtain ⟨hcount, rfl⟩ := Option.ite_some_none_eq_some.mp h
    exact .decodeBufferCount count hcount
  | discardPtoD discarding =>
    obtain rfl := Option.some.inj h
    exact .discardPtoD discarding
  | discardDtoM =>
    obtain rfl := Option.some.inj h
    exact .discardDtoM
  | terminate =>
    obtain rfl := Option.some.inj h
    exact .terminate

theorem flushNonDecodedFrameList_eq (s : StageState) :
    ∃ records removals, s.flushNonDecodedFrameList =
      { s with nonDecodedBuffers := records, removalsFromNonDecodedBuffers := removals } := by
  unfold flushNonDecodedFrameList
  split
  next => exact ⟨s.nonDecodedBuffers, s.removalsFromNonDecodedBuffers, rfl⟩
  next => exact ⟨_, _, rfl⟩

theorem cleanUp_eq (s : StageState) :
    ∃ records removals, s.cleanUp =
      { s with
        phase := .terminated
        passedOn := if s.occupancy = 0 then s.passedOn else s.passedOn ++ s.waiting
        nonDecodedBuffers := records
        removalsFromNonDecodedBuffers := removals } :=
  flushNonDecodedFrameList_eq _

theorem recordNonDecodedFrame_eq (s : StageState) (index : ℕ) (flag : Bool) :
    ∃ records insertions collapse, s.recordNonDecodedFrame index flag =
      { s with
        nonDecodedBuffers := records
        insertionsIntoNonDecodedBuffers := insertions
        displayIndicesCollapse := collapse } := by
  unfold recordNonDecodedFrame
  dsimp only
  split
  next => exact ⟨s.nonDecodedBuffers, s.insertionsIntoNonDecodedBuffers, s.displayIndicesCollapse, rfl⟩
  next => exact ⟨_, _, _, rfl⟩

/-! ### What the scan finds -/

/-- What the loop over the table finds is at most the lowest so far, and at most what it looks at, and is
one of them. -/
theorem lowestFrom_spec (s : StageState) (rest : List (Option Entry)) (i : ℕ)
    (low : Option (ℕ × Entry)) :
    (∀ e ∈ rest.reduceOption, s.index e ≠ invalidIndex →
        ∃ l, s.lowestFrom i rest low = some l ∧ s.index l.2 ≤ s.index e) ∧
      (∀ l, low = some l → ∃ l', s.lowestFrom i rest low = some l' ∧ s.index l'.2 ≤ s.index l.2) ∧
      ∀ l', s.lowestFrom i rest low = some l' → low = some l' ∨
        ∃ j, rest[j]? = some (some l'.2) ∧ l'.1 = i + j ∧ s.index l'.2 ≠ invalidIndex := by
  induction rest generalizing i low with
  | nil =>
    refine ⟨fun e he => absurd he List.not_mem_nil, fun l hl => ⟨l, hl, Nat.le_refl _⟩, ?_⟩
    intro l' hl'
    exact .inl hl'
  | cons slot rest ih =>
    cases slot with
    | none =>
      obtain ⟨hleast, hlow, hfrom⟩ := ih (i + 1) low
      refine ⟨hleast, hlow, ?_⟩
      intro l' hl'
      rcases hfrom l' hl' with hold | ⟨j, hj, heq, hvalid⟩
      · exact .inl hold
      · exact .inr ⟨j + 1, hj, by omega, hvalid⟩
    | some e =>
      unfold lowestFrom
      by_cases hreplaces : s.replaces low e = true
      · rw [if_pos hreplaces]
        obtain ⟨hleast, hlow, hfrom⟩ := ih (i + 1) (some (i, e))
        obtain ⟨l₀, hl₀, hle⟩ := hlow (i, e) rfl
        unfold replaces at hreplaces
        rw [Bool.and_eq_true, bne_iff_ne] at hreplaces
        refine ⟨?_, ?_, ?_⟩
        · intro e' he' hvalid
          rcases List.mem_cons.mp he' with rfl | hmem
          · exact ⟨l₀, hl₀, hle⟩
          · exact hleast e' hmem hvalid
        · intro l hl
          subst hl
          have hlt := hreplaces.2
          rw [Option.all_some, decide_eq_true_eq] at hlt
          exact ⟨l₀, hl₀, Nat.le_trans hle (Nat.le_of_lt hlt)⟩
        · intro l' hl'
          rcases hfrom l' hl' with heq | ⟨j, hj, heq, hvalid⟩
          · obtain rfl := Option.some.inj heq
            exact .inr ⟨0, rfl, rfl, hreplaces.1⟩
          · exact .inr ⟨j + 1, hj, by omega, hvalid⟩
      · rw [if_neg hreplaces]
        obtain ⟨hleast, hlow, hfrom⟩ := ih (i + 1) low
        refine ⟨?_, hlow, ?_⟩
        · intro e' he' hvalid
          rcases List.mem_cons.mp he' with rfl | hmem
          · cases low with
            | none =>
              refine absurd ?_ hreplaces
              unfold replaces
              rw [bne_iff_ne.mpr hvalid]
              rfl
            | some l =>
              obtain ⟨l', hl', hle⟩ := hlow l rfl
              refine ⟨l', hl', Nat.le_trans hle ?_⟩
              by_contra hlt
              refine hreplaces ?_
              unfold replaces
              rw [bne_iff_ne.mpr hvalid, Option.all_some, decide_eq_true (by omega)]
              rfl
          · exact hleast e' hmem hvalid
        · intro l' hl'
          rcases hfrom l' hl' with hold | ⟨j, hj, heq, hvalid⟩
          · exact .inl hold
          · exact .inr ⟨j + 1, hj, by omega, hvalid⟩

theorem lowest_some {s : StageState} {slot : ℕ} {e : Entry} (h : s.lowest = some (slot, e)) :
    s.table[slot]? = some (some e) ∧ s.index e ≠ invalidIndex ∧
      ∀ e' ∈ s.waiting, s.index e' ≠ invalidIndex → s.index e ≤ s.index e' := by
  obtain ⟨hleast, -, hfrom⟩ := s.lowestFrom_spec s.table 0 none
  rcases hfrom (slot, e) h with hnone | ⟨j, hj, heq, hvalid⟩
  · cases hnone
  · refine ⟨?_, hvalid, ?_⟩
    · have hslot : slot = j := heq.trans (Nat.zero_add j)
      exact hslot ▸ hj
    · intro e' he' hvalid'
      obtain ⟨l, hl, hle⟩ := hleast e' he' hvalid'
      obtain rfl := Option.some.inj (hl.symm.trans h)
      exact hle

theorem lowest_none {s : StageState} (h : s.lowest = none) :
    ∀ e ∈ s.waiting, s.index e = invalidIndex := by
  intro e he
  by_contra hvalid
  obtain ⟨l, hl, -⟩ := (s.lowestFrom_spec s.table 0 none).1 e he hvalid
  exact Option.some_ne_none l (hl.symm.trans h)

end StageState
end Player2.DecodeToManifest
