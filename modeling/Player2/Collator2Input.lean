import Player2.Collator2Table

/-! # Input in both directions

`ProcessInputForward` and `ProcessInputBackward` of `Collator2_PesVideo_c` and the calls of the
collator, as programs over the routines of `Collator2_Base_c` on the partition table.  In forward
play the input is scanned from its beginning, and the header of a start code is accumulated before
it is looked at.  In reverse play the chunks come last one first and are scanned from their end; what
lies behind a start code is then already there. -/

namespace Player2.Reversible

open Collator2 (HeaderFlags readHeader
  maximumPartitionPoints minimumAccumulationHeadroom)
open Tiling (Span)

/-! ### State and operations -/

/-- What the collator is connected to.  `mapped` ends the memory that can be read; `outside` is what
lies around the data of a call. -/
structure Setting (σ : Type) extends Base where
  frameParser : Collator2.FrameParser σ
  mapped : ℕ
  outside : ℕ → UInt8

/-- The state of `Collator2_Pes_c` and `Collator2_PesVideo_c`. -/
structure Scan (σ : Type) where
  gotPartialHeader : Bool
  gotPartialType : Collator2.PartialHeaderType
  gotPartialCurrentSize : ℕ
  gotPartialDesiredSize : ℕ
  skipping : ℕ
  playbackTime : Option ℕ
  decodeTime : Option ℕ
  useSpanningTime : Bool
  spanningPlaybackTime : Option ℕ
  spanningDecodeTime : Option ℕ
  parser : σ
  data : List UInt8
  remainingData : ℕ
  remainingLength : ℕ

/-- `Collator2_PesVideo_c`. -/
structure Collator (σ : Type) where
  table : Table
  scan : Scan σ

/-- What the code does to the partition table; `note` is for the rest of the state. -/
inductive Operation (σ : Type)
  | emptyCurrentPartition
  | dumpCurrentPartition
  | windBack (bytes : ℕ)
  | accumulateData (bytes : List UInt8)
  | accumulateStartCode (code : ℕ × UInt8)
  | accumulateOnePartition
  | partitionOutput
  | discardAccumulatedData
  | allSafeToOutput
  | noneSafeToOutput
  | markedSafeToOutput
  | markUsed
  | discarding (value : Bool)
  | nonBlocking (value : Bool)
  | annotate (index : ℕ) (f : Marks → Marks)
  | note (f : Scan σ → Scan σ)

section
variable {σ : Type} (env : Base)

/-- The effect of an operation on the table, and its status. -/
def Operation.apply (t : Table) : Operation σ → Collator2.CollatorStatus × Table
  | .emptyCurrentPartition => (.noError, t.emptyCurrentPartition)
  | .dumpCurrentPartition => (.noError, t.emptyCurrentPartition.initializePartition)
  | .windBack bytes => (.noError, t.moveCurrentPartitionBoundary (-bytes))
  | .accumulateData bytes => t.accumulateData env bytes
  | .accumulateStartCode code => t.accumulateStartCode env code
  | .accumulateOnePartition => (.noError, t.accumulateOnePartition env)
  | .partitionOutput => t.partitionOutput env
  | .discardAccumulatedData => (.noError, t.discardAccumulatedData)
  | .allSafeToOutput =>
    (.noError, { t with partitionPointSafeToOutputCount := t.partitionPointUsedCount })
  | .noneSafeToOutput => (.noError, { t with partitionPointSafeToOutputCount := 0 })
  | .markedSafeToOutput =>
    (.noError, { t with partitionPointSafeToOutputCount := t.partitionPointMarkerCount })
  | .markUsed => (.noError, { t with partitionPointMarkerCount := t.partitionPointUsedCount })
  | .discarding value => (.noError, { t with discardingData := value })
  | .nonBlocking value => (.noError, { t with nonBlockingInput := value })
  | .annotate index f => (.noError, t.annotate index f)
  | .note _ => (.noError, t)

/-- The effect of an operation on the collator, and its status. -/
def Operation.effect (o : Operation σ) (s : Collator σ) : Collator2.CollatorStatus × Collator σ :=
  let (status, table) := o.apply env s.table
  (status, ⟨table, match o with
    | .note f => f s.scan
    | _ => s.scan⟩)

end

/-- A routine of the collator. -/
abbrev Routine (σ α : Type) := Program (Collator σ) (Operation σ) Collator2.CollatorStatus α

/-- How a part of a round ends: the loop is left, the next round follows, or the round goes on. -/
inductive Part
  | leave (status : Collator2.CollatorStatus)
  | next (status : Collator2.CollatorStatus)
  | proceed

open Program (op state)

section
variable {σ : Type} (env : Setting σ)

/-- Change the state beside the table. -/
def note (f : Scan σ → Scan σ) : Routine σ Unit := do
  let _ ← op (.note f)

/-- A step that is taken only if a condition holds. -/
def onlyIf (c : Prop) [Decidable c] (p : Routine σ Unit) : Routine σ Unit :=
  if c then p else pure ()

/-- Set `DiscardingData`. -/
def discarding (value : Bool) : Routine σ Unit := do
  let _ ← op (.discarding value)

/-- Change the marks of the current partition. -/
def annotateNext (f : Marks → Marks) : Routine σ Unit := do
  let s ← state
  let _ ← op (.annotate s.table.partitionPointUsedCount f)

/-- The times of a partition. -/
def Marks.withTimes (playbackTime decodeTime : Option ℕ) (m : Marks) : Marks :=
  { m with codedFrameParameters := { m.codedFrameParameters with
      playbackTime := playbackTime
      decodeTime := decodeTime } }

/-- Where the last bytes of the current partition begin. -/
def Table.lastBytes (t : Table) (length : ℕ) : ℕ :=
  wrap (t.nextPartition.partitionBase + t.nextPartition.partitionSize - length)

/-- `RemainingData[i]`. -/
def Collator.remainingByte (s : Collator σ) (i : ℕ) : UInt8 :=
  let index := wrap (s.scan.remainingData + i)
  s.scan.data.getD index (env.outside index)

/-- The bytes from `RemainingData + i` on. -/
def Collator.remainingBytes (s : Collator σ) (i length : ℕ) : List UInt8 :=
  (List.range length).map fun k => s.remainingByte env (i + k)

/-- So many bytes of the data have been dealt with, at its beginning. -/
def Scan.advance (bytes : ℕ) (x : Scan σ) : Scan σ :=
  { x with
    remainingData := x.remainingData + bytes
    remainingLength := wrap (x.remainingLength - bytes) }

def accumulateOnePartition : Routine σ Unit := do
  let _ ← op .accumulateOnePartition
  discarding false
  note fun x => { x with gotPartialHeader := false, skipping := 0 }
  let s ← state
  if s.scan.useSpanningTime then
    annotateNext (.withTimes s.scan.spanningPlaybackTime s.scan.spanningDecodeTime)
    note fun x => { x with spanningPlaybackTime := none, spanningDecodeTime := none }
  else
    annotateNext (.withTimes s.scan.playbackTime s.scan.decodeTime)
    note fun x => { x with playbackTime := none, decodeTime := none }

def readPesHeader (address : ℕ) : Routine σ Collator2.CollatorStatus := do
  let s ← state
  let (times, wanted) := readHeader (s.table.bytesAt address (env.mapped - address))
    env.configuration.subStreamIdentifierMask env.configuration.subStreamIdentifierCode
  note fun x => { x with
    spanningPlaybackTime := x.playbackTime
    spanningDecodeTime := x.decodeTime
    useSpanningTime := true
    playbackTime := times.playbackTime
    decodeTime := times.decodeTime }
  return if wanted then .noError else .error

/-! ### `ProcessInputForward` -/

/-- There is not enough room, in the buffer or in the table, to go on. -/
def Collator.short (s : Collator σ) : Bool :=
  let minimumHeadroom :=
    if s.scan.gotPartialHeader then
      max minimumAccumulationHeadroom s.scan.gotPartialDesiredSize
    else minimumAccumulationHeadroom
  s.table.codedFrameBufferFreeSpace < minimumHeadroom ||
    s.table.partitionPointUsedCount ≥ maximumPartitionPoints - 1

/-- The beginning of a round: make room. -/
def ensureRoom : Routine σ Collator2.CollatorStatus := do
  let s ← state
  if s.short then
    let status ← op .partitionOutput
    if status ≠ .noError then return status
    else
      let s ← state
      return if s.short then .wouldBlock else .noError
  else return .noError

/-- A generic start code that begins a new frame. -/
def blockTerminate (stored : ℕ) : Routine σ Unit := do
  let s ← state
  let _ ← op (.windBack s.scan.gotPartialCurrentSize)
  let copy := s.table.bytesAt stored s.scan.gotPartialCurrentSize
  accumulateOnePartition
  let _ ← op (.accumulateData copy)
  let _ ← op .allSafeToOutput
  discarding false

/-- After a start code that begins a new frame: see that there is room for the frame. -/
def ensureFrameRoom : Routine σ Part := do
  let s ← state
  if s.table.codedFrameBufferFreeSpace <
      s.table.largestFrameSeen + minimumAccumulationHeadroom then
    let status ← op .partitionOutput
    return if status ≠ .noError then .leave status else .proceed
  else return .proceed

/-- A generic start code. -/
def genericHeader (stored : ℕ) : Routine σ Part := do
  let s ← state
  let code := s.table.memory (stored + 3)
  let (flags, parser) := env.frameParser.presentCollatedHeader s.scan.parser code
    (s.table.bytesAt (stored + 4) (s.scan.gotPartialCurrentSize - 4))
  annotateNext fun m => { m with frameFlags := m.frameFlags.union flags }
  note fun x => { x with parser := parser, gotPartialHeader := false }
  onlyIf flags.partitionPoint (blockTerminate stored)
  let s ← state
  let offset := wrap (s.table.nextPartition.partitionSize - s.scan.gotPartialCurrentSize)
  let status ← op (.accumulateStartCode (offset, code))
  if status ≠ .noError then
    let _ ← op .dumpCurrentPartition
    return .leave status
  else if flags.partitionPoint then ensureFrameRoom
  else return .proceed

/-- The times of the packet go to the current partition, if it is empty. -/
def takeTimes : Routine σ Unit := do
  let s ← state
  onlyIf (s.table.nextPartition.partitionSize = 0 ∧ s.scan.playbackTime.isSome) do
    annotateNext (.withTimes s.scan.playbackTime s.scan.decodeTime)
    note fun x => { x with playbackTime := none, decodeTime := none }

/-- A PES header that is there as a whole. -/
def pesHeader (stored : ℕ) : Routine σ Part := do
  let s ← state
  discarding false
  note fun x => { x with gotPartialHeader := false }
  let _ ← op (.windBack s.scan.gotPartialCurrentSize)
  let status ← readPesHeader env stored
  if status ≠ .noError then return .leave status
  else
    takeTimes
    return .proceed

/-- What a zero start code with the three bytes after it begins. -/
def zeroHeader (stored : ℕ) : Routine σ Part := do
  let s ← state
  let padding := s.table.memory (stored + 6) = pesPaddingStartCode
  note fun x =>
    if s.table.memory (stored + 4) = 0 ∧ s.table.memory (stored + 5) = 1 then
      { x with
        gotPartialType := if padding then .paddingStartCode else .pesStartCode
        gotPartialDesiredSize := if padding then pesPaddingInitialHeaderSize else pesInitialHeaderSize
        gotPartialCurrentSize := 4 }
    else
      { x with
        gotPartialDesiredSize := 4 + env.frameParser.requiredPresentationLength 0
        gotPartialType := .genericStartCode }
  return .next .noError

/-- A header as long as it was asked for. -/
def completeHeader : Routine σ Part := do
  let s ← state
  let stored := s.table.lastBytes s.scan.gotPartialCurrentSize
  match s.scan.gotPartialType with
  | .zeroStartCode => zeroHeader env stored
  | .pesStartCode =>
    let desired :=
      if s.scan.gotPartialCurrentSize ≥ pesInitialHeaderSize then
        pesHeaderSize (s.table.bytesAt stored pesInitialHeaderSize)
      else s.scan.gotPartialDesiredSize
    note fun x => { x with gotPartialDesiredSize := desired }
    if s.scan.gotPartialCurrentSize < desired then return .next .noError
    else pesHeader env stored
  | .paddingStartCode =>
    note fun x => { x with
      skipping := pesPaddingSkip (s.table.bytesAt stored pesPaddingInitialHeaderSize)
      gotPartialHeader := false }
    let _ ← op (.windBack s.scan.gotPartialCurrentSize)
    return .proceed
  | .genericStartCode => genericHeader env stored

/-- The part of a round that accumulates an extended header. -/
def extendHeader : Routine σ Part := do
  let s ← state
  if s.scan.gotPartialCurrentSize < s.scan.gotPartialDesiredSize then
    let transfer := min s.scan.remainingLength
      (s.scan.gotPartialDesiredSize - s.scan.gotPartialCurrentSize)
    let status ← op (.accumulateData (s.remainingBytes env 0 transfer))
    if status ≠ .noError then
      let _ ← op .dumpCurrentPartition
      note fun x => { x with gotPartialHeader := false }
      discarding false
      return .leave status
    else
      note fun x => { x.advance transfer with
        gotPartialCurrentSize := x.gotPartialCurrentSize + transfer }
      if s.scan.gotPartialCurrentSize + transfer ≥ s.scan.gotPartialDesiredSize then
        completeHeader env
      else return .proceed
  else completeHeader env

/-- The `i`-th byte from the end of the partition, from 1 on, as in the spanning word. -/
def Table.endingByte (t : Table) (i : ℕ) : UInt8 :=
  if i ≤ t.nextPartition.partitionSize then t.memory (t.lastBytes i) else 0xff

/-- The `i`-th byte of the input, from 0 on, as in the starting word. -/
def Collator.startingByte (s : Collator σ) (i : ℕ) : UInt8 :=
  if i < s.scan.remainingLength then s.remainingByte env i else 0xff

/-- `SpanningCount` in forward play, before the code itself is looked at. -/
def Collator.spanningCountForward (s : Collator σ) : ℕ :=
  let e := s.table.endingByte
  let b := s.startingByte env
  if e 3 = 0 ∧ e 2 = 0 ∧ e 1 = 1 then 1
  else if e 2 = 0 ∧ e 1 = 0 ∧ b 0 = 1 then 2
  else if e 1 = 0 ∧ b 0 = 0 ∧ b 1 = 1 then 3
  else if b 0 = 0 ∧ b 1 = 0 ∧ b 2 = 1 ∧ 4 ≤ s.scan.remainingLength then 4
  else 0

/-- The spanning times are not wanted any more. -/
def Scan.dropSpanningTimes (x : Scan σ) : Scan σ :=
  { x with useSpanningTime := false, spanningPlaybackTime := none, spanningDecodeTime := none }

/-- What kind of header a start code at the end of the partition begins. -/
def classifyCode : Routine σ Unit := do
  let s ← state
  let code := s.table.memory (s.table.lastBytes 4 + 3)
  note fun x => { x with gotPartialHeader := true, gotPartialCurrentSize := 4 }
  if code = 0 then
    note fun x => { x with
      gotPartialType := .zeroStartCode, gotPartialDesiredSize := zeroStartCodeHeaderSize }
  else if isPesStartCodeVideo code then
    if code &&& env.configuration.streamIdentifierMask = env.configuration.streamIdentifierCode then
      note fun x => { x with
        gotPartialType := .pesStartCode, gotPartialDesiredSize := pesInitialHeaderSize }
    else
      note fun x => { x with gotPartialHeader := false }
      discarding true
  else if code = pesPaddingStartCode then
    note fun x => { x with
      gotPartialType := .paddingStartCode
      gotPartialDesiredSize := pesPaddingInitialHeaderSize }
  else if s.table.discardingData then
    note fun x => { x with gotPartialHeader := false }
    let _ ← op .emptyCurrentPartition
  else
    note fun x => { x with
      gotPartialType := .genericStartCode
      gotPartialDesiredSize := 4 + env.frameParser.requiredPresentationLength code }

/-- The part of a round that processes a start code at the end of the partition. -/
def processCode : Routine σ Part := do
  classifyCode env
  return .next .noError

/-- The data without a start code is accumulated, and the loop is left. -/
def accumulateRest : Routine σ Part := do
  let s ← state
  let status ← op (.accumulateData (s.remainingBytes env 0 s.scan.remainingLength))
  onlyIf (status ≠ .wouldBlock) (note fun x => { x with remainingLength := 0 })
  onlyIf (status ≠ .noError ∧ status ≠ .wouldBlock) (discarding true)
  return .leave status

/-- The part of a round that looks for a start code in the input. -/
def searchCode : Routine σ Part := do
  note fun x =>
    if x.playbackTime.isNone && x.spanningPlaybackTime.isSome then
      { x.dropSpanningTimes with
        playbackTime := x.spanningPlaybackTime
        decodeTime := x.spanningDecodeTime }
    else x
  note fun x => if x.remainingLength < 4 then x else x.dropSpanningTimes
  let s ← state
  match findNextStartCode env.configuration.ignored
      (s.remainingBytes env 0 s.scan.remainingLength) with
  | none => accumulateRest env
  | some codeOffset =>
    let status ← op (.accumulateData (s.remainingBytes env 0 (codeOffset + 4)))
    if status ≠ .noError then
      onlyIf (status ≠ .wouldBlock) (discarding true)
      return .leave status
    else
      note (.advance (codeOffset + 4))
      processCode env

/-- The part of a round after the headers: padding, a spanning start code, or a search. -/
def scanForward : Routine σ Part := do
  let s ← state
  let skip := min s.scan.skipping s.scan.remainingLength
  note fun x => { x.advance skip with skipping := x.skipping - skip }
  if s.scan.remainingLength = skip then return .leave .noError
  else
    let s ← state
    let count := s.spanningCountForward env
    note fun x => if count = 4 then x.dropSpanningTimes else x
    if count ≠ 0 ∧ env.configuration.ignored (s.remainingByte env (count - 1)) = false then
      let _ ← op (.accumulateData (s.remainingBytes env 0 count))
      note (.advance count)
      processCode env
    else searchCode env

/-- One round of the loop of `ProcessInputForward`. -/
def roundForward : Routine σ Part := do
  let status ← ensureRoom
  if status ≠ .noError then return .leave status
  else
    let s ← state
    if s.scan.gotPartialHeader then
      match ← extendHeader env with
      | .proceed =>
        let s ← state
        if s.scan.remainingLength = 0 then return .leave .noError else scanForward env
      | part => return part
    else scanForward env

/-! ### `ProcessInputBackward` -/

/-- What the loop of `FindPreviousStartCode` decides at byte `i`. -/
def examinePrevious (ignored : UInt8 → Bool) (d : ℕ → UInt8) (i : ℕ) : Option ℕ :=
  if d i ≤ 1 then
    if d (i - 1) = 0 ∧ d (i - 2) = 0 ∧ d i = 1 then
      if ignored (d (i + 1)) then none else some (i - 2)
    else if d (i - 1) = 0 ∧ d (i + 1) = 1 ∧ d i = 0 then
      if ignored (d (i + 2)) then none else some (i - 1)
    else if d (i + 1) = 0 ∧ d (i + 2) = 1 ∧ d i = 0 then
      if ignored (d (i + 3)) then none else some i
    else none
  else none

/-- The loop over the body, `i` going down by three as an `unsigned int`; at most `rounds` of it. -/
def searchPrevious (ignored : UInt8 → Bool) (d : ℕ → UInt8) : ℕ → ℕ → Option ℕ
  | 0, _ => none
  | rounds + 1, i =>
    if 2 ≤ i then
      (examinePrevious ignored d i).or (searchPrevious ignored d rounds (wrap (i - 3)))
    else none

/-- The trailing conditions of `FindPreviousStartCode`. -/
def searchFront (ignored : UInt8 → Bool) (d : ℕ → UInt8) (length : ℕ) : Option ℕ :=
  if d 1 = 0 then
    if 5 ≤ length ∧ d 2 = 0 ∧ d 3 = 1 then if ignored (d 4) then none else some 1
    else if d 0 = 0 ∧ d 2 = 1 then if ignored (d 3) then none else some 0
    else none
  else none

/-- `FindPreviousStartCode`.  The loop ends, because `2 ^ 32` is not divisible by three. -/
def findPreviousStartCode (ignored : UInt8 → Bool) (d : ℕ → UInt8) (length : ℕ) : Option ℕ :=
  if length < 4 then none
  else (searchPrevious ignored d (2 ^ 32) (length - 4)).or (searchFront ignored d length)

/-- The `i`-th byte from the end of the input, from 1 on, as in the starting word. -/
def Collator.lastByte (s : Collator σ) (i : ℕ) : UInt8 :=
  if i ≤ s.scan.remainingLength then s.remainingByte env (s.scan.remainingLength - i) else 0xff

/-- The `i`-th byte of the partition, from 0 on, as in the spanning word. -/
def Table.firstByte (t : Table) (i : ℕ) : UInt8 :=
  if i < t.nextPartition.partitionSize then t.memory (t.nextPartition.partitionBase + i) else 0xff

/-- `SpanningCount` in reverse play, before the code itself is looked at. -/
def Collator.spanningCountBackward (s : Collator σ) : ℕ :=
  let l := s.lastByte env
  let f := s.table.firstByte
  let count :=
    if l 3 = 0 ∧ l 2 = 0 ∧ l 1 = 1 then 1
    else if l 2 = 0 ∧ l 1 = 0 ∧ f 0 = 1 then 2
    else if l 1 = 0 ∧ f 0 = 0 ∧ f 1 = 1 then 3
    else 0
  min count s.table.nextPartition.partitionSize

/-- The beginning of a round: make room. -/
def ensureRoomBackward : Routine σ Collator2.CollatorStatus := do
  let s ← state
  if s.table.codedFrameBufferFreeSpace < minimumAccumulationHeadroom then
    let status ← op .partitionOutput
    if status ≠ .noError then return status
    else
      let s ← state
      return if s.table.codedFrameBufferFreeSpace < minimumAccumulationHeadroom then .wouldBlock
        else .noError
  else return .noError

/-- The times of a packet go to the partition that ends where the packet before it began. -/
def takeTimesBackward : Routine σ Unit := do
  let s ← state
  let t := s.table
  onlyIf (s.scan.playbackTime.isSome ∧ (t.partitionPointUsedCount ≠ t.partitionPointMarkerCount ∨
      t.partitionPointUsedCount = 0)) do
    annotateNext (.withTimes none none)
    let _ ← op (.annotate t.partitionPointMarkerCount
      (.withTimes s.scan.playbackTime s.scan.decodeTime))
    note fun x => { x with playbackTime := none, decodeTime := none }

/-- The header of a packet at the beginning of the partition. -/
def packetHeader (code : UInt8) (status : Collator2.CollatorStatus) : Routine σ Part := do
  let s ← state
  let p := s.table.nextPartition
  let headerSize := pesHeaderSize (s.table.bytesAt p.partitionBase pesInitialHeaderSize)
  if code = pesPaddingStartCode ∨ p.partitionSize < pesInitialHeaderSize ∨
      p.partitionSize < headerSize then
    discarding true
    return .next status
  else
    discarding false
    let status ← readPesHeader env p.partitionBase
    if status ≠ .noError then
      discarding true
      return .next status
    else
      let _ ← op (.windBack headerSize)
      takeTimesBackward
      let _ ← op .markUsed
      return .next status

/-- A start code that begins a frame: the frame is complete. -/
def completeFrame (flags : HeaderFlags) : Routine σ Part := do
  let _ ← op .markedSafeToOutput
  let _ ← op .markUsed
  accumulateOnePartition
  let s ← state
  if flags.confirmReversiblePoint ∨ s.table.codedFrameBufferFreeSpace <
      s.table.largestFrameSeen + minimumAccumulationHeadroom then
    let status ← op .partitionOutput
    return if status ≠ .noError then .leave status else .next status
  else return .next .noError

/-- A generic start code at the beginning of the partition. -/
def genericCode (code : UInt8) : Routine σ Part := do
  let s ← state
  let p := s.table.nextPartition
  let status ← op (.accumulateStartCode (p.partitionSize, code))
  if status ≠ .noError then
    discarding true
    let _ ← op .emptyCurrentPartition
    return .leave status
  else
    let required := env.frameParser.requiredPresentationLength code
    let (flags, parser) :=
      if p.partitionSize > 4 + required then
        env.frameParser.presentCollatedHeader s.scan.parser code
          (s.table.bytesAt (p.partitionBase + 4) required)
      else (.none, s.scan.parser)
    note fun x => { x with parser := parser }
    annotateNext fun m => { m with frameFlags := m.frameFlags.union flags }
    if flags.partitionPoint then completeFrame flags else return .next .noError

/-- Accumulate the data from a start code on, and process the code. -/
def processPreviousCode (accumulation : ℕ) : Routine σ Part := do
  let s ← state
  let status ← op (.accumulateData
    (s.remainingBytes env (wrap (s.scan.remainingLength - accumulation)) accumulation))
  if status = .wouldBlock then return .leave status
  else
    onlyIf (status ≠ .noError) (discarding true)
    note fun x => { x with remainingLength := wrap (x.remainingLength - accumulation) }
    let s ← state
    let code := s.table.memory (s.table.nextPartition.partitionBase + 3)
    if isPesStartCodeVideo code ∨ code = pesPaddingStartCode then packetHeader env code status
    else genericCode env code

/-- One round of the loop of `ProcessInputBackward`. -/
def roundBackward : Routine σ Part := do
  let status ← ensureRoomBackward
  if status ≠ .noError then return .leave status
  else
    let s ← state
    let count := s.spanningCountBackward env
    -- the byte looked at is one of the input, where the code is in the partition
    if count ≠ 0 ∧ env.configuration.ignored (s.remainingByte env (count - 1)) = false then
      processPreviousCode env (4 - count)
    else
      match findPreviousStartCode env.configuration.ignored (s.remainingByte env)
          s.scan.remainingLength with
      | none => accumulateRest env
      | some codeOffset =>
        processPreviousCode env (wrap (s.scan.remainingLength - codeOffset))

/-! ### The calls -/

/-- One round of the loop for the input, by direction. -/
def round (direction : PlayDirection) : Routine σ Part :=
  match direction with
  | .playForward => roundForward env
  | .playBackward => roundBackward env

/-- The loop of `ProcessInputForward` and `ProcessInputBackward`, for at most so many rounds;
`none` when there are more. -/
def processInput (direction : PlayDirection) : ℕ → Collator2.CollatorStatus → Routine σ (Option Collator2.CollatorStatus)
  | 0, _ => pure none
  | rounds + 1, status => do
      let s ← state
      if s.scan.remainingLength = 0 then return some status
      else
        match ← round env direction with
        | .leave status => return some status
        | .next status => processInput direction rounds status
        | .proceed => processInput direction rounds .noError

def inputEntry (descriptor : PesTimes) (nonBlocking : Bool) : Routine σ Collator2.CollatorStatus := do
  annotateNext fun m => m.withTimes
    (m.codedFrameParameters.playbackTime.or descriptor.playbackTime)
    (m.codedFrameParameters.decodeTime.or descriptor.decodeTime)
  let _ ← op (.nonBlocking nonBlocking)
  let s ← state
  if s.table.extendCodedFrameBufferAtEarliestOpportunity then op .partitionOutput
  else return .noError

def inputExit : Routine σ Collator2.CollatorStatus := do
  let s ← state
  if s.table.partitionPointSafeToOutputCount ≠ 0 then op .partitionOutput else return .noError

/-- `Input`, after the direction has been settled. -/
def input (direction : PlayDirection) (rounds : ℕ) (descriptor : PesTimes)
    (nonBlocking : Bool) (data : List UInt8) : Routine σ (Option Collator2.CollatorStatus) := do
  let status ← inputEntry descriptor nonBlocking
  if status ≠ .noError then return some status
  else
    note fun x => { x with data := data, remainingData := 0, remainingLength := data.length }
    match ← processInput env direction rounds .noError with
    | some .noError =>
      let status ← inputExit
      return some status
    | result => return result

def frameFlush : Routine σ Collator2.CollatorStatus := do
  accumulateOnePartition
  let s ← state
  let _ ← op (if s.table.playDirection = .playForward then .noneSafeToOutput else .markedSafeToOutput)
  let _ ← op .markUsed
  let _ ← op (.nonBlocking false)
  let status ← op .partitionOutput
  let _ ← op (.nonBlocking s.table.nonBlockingInput)
  return status

def discardAccumulatedData : Routine σ Collator2.CollatorStatus := do
  let _ ← op .discardAccumulatedData
  discarding true
  note fun x => { x.dropSpanningTimes with gotPartialHeader := false, skipping := 0 }
  return .noError

def inputJump (surplusDataInjected continuousReverseJump : Bool) : Routine σ Collator2.CollatorStatus := do
  let _ ← (if surplusDataInjected then discardAccumulatedData else frameFlush :
    Routine σ Collator2.CollatorStatus)
  note fun x => { x with parser := env.frameParser.resetCollatedHeaderState x.parser }
  annotateNext fun m => { m with codedFrameParameters := { m.codedFrameParameters with
    streamDiscontinuity := true
    flushBeforeDiscontinuity := surplusDataInjected
    continuousReverseJump := continuousReverseJump } }
  let _ ← frameFlush
  note fun x => { x.dropSpanningTimes with playbackTime := none, decodeTime := none }
  return .noError

def inputGlitch : Routine σ Collator2.CollatorStatus := do
  let _ ← discardAccumulatedData
  annotateNext fun m => { m with glitch := true }
  return .noError

/-- The calls of the collator; `Input` with the direction it is to operate in, and a bound on the
rounds of its loop. -/
inductive Call
  | input (direction : PlayDirection) (rounds : ℕ) (descriptor : PesTimes) (nonBlocking : Bool)
      (data : List UInt8)
  | frameFlush
  | inputJump (surplusDataInjected continuousReverseJump : Bool)
  | inputGlitch
  | discardAccumulatedData

/-- What a call does. -/
def Call.routine : Call → Routine σ (Option Collator2.CollatorStatus)
  | .input direction rounds descriptor nonBlocking data =>
    Reversible.input env direction rounds descriptor nonBlocking data
  | .frameFlush => do return some (← Reversible.frameFlush)
  | .inputJump surplus continuous => do return some (← Reversible.inputJump env surplus continuous)
  | .inputGlitch => do return some (← Reversible.inputGlitch)
  | .discardAccumulatedData => do return some (← Reversible.discardAccumulatedData)

/-- The status and the table with which a call begins: `Input` may switch the direction. -/
def Call.enter (t : Table) : Call → Collator2.CollatorStatus × Table
  | .input direction .. => t.switchDirection direction
  | _ => (.noError, t)

/-- One call; a call that does not come back leads nowhere. -/
def step (s : Collator σ) (c : Call) : Option (Collator σ) :=
  let (status, table) := c.enter s.table
  if status ≠ .noError then some s
  else
    let (result, t) := (c.routine env).run (Operation.effect env.toBase) ⟨table, s.scan⟩
    result.map fun _ => t

/-- The state after `Reset` and `RegisterOutputBufferRing`. -/
def start (parser : σ) (memory : ℕ → UInt8) (buffer : Span) : Collator σ where
  table := .start memory buffer
  scan :=
    { gotPartialHeader := false
      gotPartialType := .genericStartCode
      gotPartialCurrentSize := 0
      gotPartialDesiredSize := 0
      skipping := 0
      playbackTime := none
      decodeTime := none
      useSpanningTime := false
      spanningPlaybackTime := none
      spanningDecodeTime := none
      parser := parser
      data := []
      remainingData := 0
      remainingLength := 0 }

end

end Player2.Reversible
