import Player2.Pes

/-! # The reversible mode collator in forward play

`Collator2_Base_c` with the parts of `Collator2_Pes_c` and `Collator2_PesVideo_c` that its
routines call.  Frames are accumulated one behind the other in one large coded frame buffer; the
table of partition points says where each one lies.  `PartitionOutput` cuts the buffer at the
partition points that are safe to output, puts the frames on the output ring, and then sees to it
that there is room to go on.

A partition is kept here with its bytes, and the table as the list of the used partitions and the
current one.  The buffer pool is a parameter: what it answers may depend on how often it has been
asked. -/

namespace Player2.Collator2

/-! ### Surroundings -/

/-- `Collator2Configuration_t`. -/
structure Configuration where
  generateStartCodeList : Bool
  streamIdentifierMask : UInt8
  streamIdentifierCode : UInt8
  subStreamIdentifierMask : ℕ
  subStreamIdentifierCode : ℕ
  ignoreCodesRangeStart : UInt8
  ignoreCodesRangeEnd : UInt8
  insertFrameTerminateCode : Bool
  terminalCode : UInt8

/-- Start codes that are not looked at. -/
def Configuration.ignored (c : Configuration) (code : UInt8) : Bool :=
  inrange code c.ignoreCodesRangeStart c.ignoreCodesRangeEnd

/-- `FrameParserHeaderFlag_t`. -/
structure HeaderFlags where
  partitionPoint : Bool
  possibleReversiblePoint : Bool
  confirmReversiblePoint : Bool
deriving DecidableEq, Repr

/-- No flags. -/
def HeaderFlags.none : HeaderFlags := ⟨false, false, false⟩

/-- The flags of both. -/
def HeaderFlags.union (a b : HeaderFlags) : HeaderFlags :=
  ⟨a.partitionPoint || b.partitionPoint, a.possibleReversiblePoint || b.possibleReversiblePoint,
    a.confirmReversiblePoint || b.confirmReversiblePoint⟩

/-- The part of a frame parser the collator asks. -/
structure FrameParser (σ : Type) where
  requiredPresentationLength : UInt8 → ℕ
  presentCollatedHeader : σ → UInt8 → List UInt8 → HeaderFlags × σ
  resetCollatedHeaderState : σ → σ

/-- The answers of the coded frame buffer pool to its `n`-th request: the free buffers and the
largest free block (`GetPoolUsage`), whether a buffer can be partitioned, the size of a buffer
after `ExtendBuffer`, and the size of a new buffer of at least some size (`GetBuffer`). -/
structure Pool where
  freeBuffers : ℕ → ℕ
  largestFreeMemoryBlock : ℕ → ℕ
  partitionBuffer : ℕ → Bool
  extendBuffer : ℕ → ℕ → ℕ
  getBuffer : ℕ → ℕ → Option ℕ

/-- What the collator is connected to; `memory` is what lies behind the headers in memory. -/
structure Setting (σ : Type) where
  configuration : Configuration
  maximumCodedFrameSize : ℕ
  frameParser : FrameParser σ
  pool : Pool
  memory : ℕ → List UInt8

/-- The statuses of the collator. -/
inductive CollatorStatus
  | noError
  | error
  | bufferOverflow
  | wouldBlock
  | noBuffer
deriving DecidableEq, Repr

def maximumPartitionPoints : ℕ := 64

def minimumAccumulationHeadroom : ℕ := 1024

def maximumAccumulatedStartCodes : ℕ := 2048

/-! ### The state -/

/-- `CodedFrameParameters_t`. -/
structure CodedFrameParameters where
  playbackTime : Option ℕ
  decodeTime : Option ℕ
  streamDiscontinuity : Bool
  flushBeforeDiscontinuity : Bool
  continuousReverseJump : Bool
deriving DecidableEq, Repr

/-- The parameters of a new partition. -/
def CodedFrameParameters.clear : CodedFrameParameters := ⟨none, none, false, false, false⟩

/-- `PartitionPoint_t`, with the bytes of the partition in place of its base and size. -/
structure PartitionPoint where
  data : List UInt8
  glitch : Bool
  codedFrameParameters : CodedFrameParameters
  startCodeListIndex : ℕ
  numberOfStartCodes : ℕ
  frameFlags : HeaderFlags
deriving DecidableEq, Repr

/-- A coded frame on the output ring. -/
structure CodedFrame where
  data : List UInt8
  startCodes : List (ℕ × UInt8)
  parameters : CodedFrameParameters
deriving DecidableEq, Repr

/-- `PartialHeaderType_t`. -/
inductive PartialHeaderType
  | zeroStartCode
  | pesStartCode
  | paddingStartCode
  | genericStartCode
deriving DecidableEq, Repr

/-- `Collator2_PesVideo_c` in forward play.  `partitionPoints` are the used partition points and
`nextPartition` the one after them; `startCodes` is the accumulated start code list up to
`NextWriteInStartCodeList`. -/
structure Collator (σ : Type) where
  nonBlockingInput : Bool
  extendCodedFrameBufferAtEarliestOpportunity : Bool
  discardingData : Bool
  codedFrameBufferSize : ℕ
  codedFrameBufferFreeSpace : ℕ
  codedFrameBufferUsedSpace : ℕ
  largestFrameSeen : ℕ
  startCodes : List (ℕ × UInt8)
  nextReadInStartCodeList : ℕ
  partitionPoints : List PartitionPoint
  nextPartition : PartitionPoint
  partitionPointMarkerCount : ℕ
  partitionPointSafeToOutputCount : ℕ
  gotPartialHeader : Bool
  gotPartialType : PartialHeaderType
  gotPartialCurrentSize : ℕ
  gotPartialDesiredSize : ℕ
  skipping : ℕ
  playbackTime : Option ℕ
  decodeTime : Option ℕ
  useSpanningTime : Bool
  spanningPlaybackTime : Option ℕ
  spanningDecodeTime : Option ℕ
  parser : σ
  outputRing : List CodedFrame
  poolRequests : ℕ
  pesHeadersRead : ℕ

namespace Collator

variable {σ : Type} (env : Setting σ)

/-! ### The current partition -/

def nextWriteInStartCodeList (s : Collator σ) : ℕ := s.startCodes.length

def initializePartition (s : Collator σ) : Collator σ :=
  { s with
    nextPartition :=
      { data := []
        glitch := false
        codedFrameParameters := .clear
        startCodeListIndex := s.nextWriteInStartCodeList
        numberOfStartCodes := 0
        frameFlags := .none } }

/-- `MoveCurrentPartitionBoundary` by a number of bytes that are added. -/
def extendPartition (s : Collator σ) (bytes : List UInt8) : Collator σ :=
  { s with
    nextPartition := { s.nextPartition with data := s.nextPartition.data ++ bytes }
    codedFrameBufferUsedSpace := s.codedFrameBufferUsedSpace + bytes.length
    codedFrameBufferFreeSpace := s.codedFrameBufferFreeSpace - bytes.length }

/-- `MoveCurrentPartitionBoundary` by a number of bytes that are taken off; `none` if there are
not so many of them. -/
def windBack (s : Collator σ) (bytes : ℕ) : Option (Collator σ) :=
  if bytes ≤ s.nextPartition.data.length then
    some { s with
      nextPartition := { s.nextPartition with
        data := s.nextPartition.data.take (s.nextPartition.data.length - bytes) }
      codedFrameBufferUsedSpace := s.codedFrameBufferUsedSpace - bytes
      codedFrameBufferFreeSpace := s.codedFrameBufferFreeSpace + bytes }
  else none

def emptyCurrentPartition (s : Collator σ) : Collator σ :=
  { s with
    nextPartition := { s.nextPartition with data := [], numberOfStartCodes := 0 }
    codedFrameBufferUsedSpace := s.codedFrameBufferUsedSpace - s.nextPartition.data.length
    codedFrameBufferFreeSpace := s.codedFrameBufferFreeSpace + s.nextPartition.data.length
    startCodes := s.startCodes.take s.nextPartition.startCodeListIndex }

/-! ### Output -/

/-- The frame that a partition becomes. -/
def frameOf (s : Collator σ) (p : PartitionPoint) : CodedFrame where
  data := p.data
  startCodes :=
    if env.configuration.generateStartCodeList then
      (s.startCodes.drop s.nextReadInStartCodeList).take p.numberOfStartCodes
    else []
  parameters := p.codedFrameParameters

/-- `PerformOnePartition` and `OutputOnePartition`, after the buffer has been partitioned. -/
def outputOnePartition (s : Collator σ) (p : PartitionPoint) (rest : List PartitionPoint) :
    Collator σ :=
  { s with
    partitionPoints := rest
    codedFrameBufferSize := s.codedFrameBufferSize - p.data.length
    codedFrameBufferUsedSpace := s.codedFrameBufferUsedSpace - p.data.length
    nextReadInStartCodeList :=
      if env.configuration.generateStartCodeList then
        s.nextReadInStartCodeList + p.numberOfStartCodes
      else s.nextReadInStartCodeList
    outputRing := s.outputRing ++ [frameOf env s p] }

/-- The first loop of `PartitionOutput`: at most so many partitions, given the buffers known to be
free.  The number that have been output comes with the state. -/
def outputPartitions : ℕ → ℕ → Collator σ → Collator σ × ℕ
  | 0, _, s => (s, 0)
  | count + 1, knownFreeBuffers, s =>
    match s.partitionPoints with
    | [] => (s, 0)
    | p :: rest =>
      let ask := knownFreeBuffers = 0
      let known := if ask then env.pool.freeBuffers s.poolRequests else knownFreeBuffers
      let s := if ask then { s with poolRequests := s.poolRequests + 1 } else s
      if known = 0 ∧ s.nonBlockingInput then (s, 0)
      else if env.pool.partitionBuffer s.poolRequests then
        let t := outputOnePartition env { s with poolRequests := s.poolRequests + 1 } p rest
        let (u, n) := outputPartitions count ((known + 2 ^ 32 - 1) % 2 ^ 32) t
        (u, n + 1)
      else ({ s with poolRequests := s.poolRequests + 1 }, 0)

def acceptableBufferSpace (s : Collator σ) : ℕ :=
  let size := s.nextPartition.data.length
  (if size > s.largestFrameSeen then
    min (size + env.maximumCodedFrameSize / 16) env.maximumCodedFrameSize
  else s.largestFrameSeen + minimumAccumulationHeadroom) - size

/-- The second half of `PartitionOutput`: extend the buffer, or move to a new one. -/
def secureRoom (s : Collator σ) : CollatorStatus × Collator σ :=
  let size := env.pool.extendBuffer s.poolRequests s.codedFrameBufferSize
  let s := { s with
    poolRequests := s.poolRequests + 1
    codedFrameBufferSize := size
    codedFrameBufferFreeSpace := size - s.codedFrameBufferUsedSpace
    extendCodedFrameBufferAtEarliestOpportunity := false }
  let acceptable := s.acceptableBufferSpace env
  let minimumSoughtSize := s.codedFrameBufferUsedSpace + acceptable
  if s.codedFrameBufferFreeSpace < acceptable then
    let t := { s with poolRequests := s.poolRequests + 1 }
    if !s.nonBlockingInput || (env.pool.freeBuffers s.poolRequests ≠ 0 &&
        env.pool.largestFreeMemoryBlock s.poolRequests ≥ minimumSoughtSize) then
      match env.pool.getBuffer t.poolRequests minimumSoughtSize with
      | none => (.noBuffer, { t with poolRequests := t.poolRequests + 1 })
      | some newBufferSize =>
        (.noError, { t with
          poolRequests := t.poolRequests + 1
          codedFrameBufferSize := newBufferSize
          codedFrameBufferFreeSpace := newBufferSize - t.codedFrameBufferUsedSpace })
    else (.noError, { t with extendCodedFrameBufferAtEarliestOpportunity := true })
  else (.noError, s)

def partitionOutput (s : Collator σ) : CollatorStatus × Collator σ :=
  let (t, output) := outputPartitions env s.partitionPointSafeToOutputCount 0 s
  secureRoom env { t with
    partitionPointMarkerCount := (t.partitionPointMarkerCount + 2 ^ 32 - output) % 2 ^ 32
    partitionPointSafeToOutputCount := t.partitionPointSafeToOutputCount - output }

/-! ### Accumulation -/

def accumulateData (s : Collator σ) (bytes : List UInt8) : CollatorStatus × Collator σ :=
  if s.nextPartition.data.length + bytes.length > env.maximumCodedFrameSize then
    (.bufferOverflow, s.emptyCurrentPartition.initializePartition)
  else if s.codedFrameBufferFreeSpace < bytes.length then
    let (status, t) := partitionOutput env s
    if status ≠ .noError then (status, t)
    else if t.codedFrameBufferFreeSpace < bytes.length then (.wouldBlock, t)
    else (.noError, t.extendPartition bytes)
  else (.noError, s.extendPartition bytes)

def accumulateStartCode (s : Collator σ) (code : ℕ × UInt8) : CollatorStatus × Collator σ :=
  if !env.configuration.generateStartCodeList then (.noError, s)
  else if s.nextWriteInStartCodeList - s.nextReadInStartCodeList ≥ maximumAccumulatedStartCodes then
    (.bufferOverflow, s)
  else (.noError, { s with startCodes := s.startCodes ++ [code] })

/-- There is something to accumulate in the current partition. -/
def hasPartition (s : Collator σ) : Bool :=
  !s.nextPartition.data.isEmpty || s.nextPartition.codedFrameParameters.streamDiscontinuity ||
    s.nextPartition.codedFrameParameters.continuousReverseJump

/-- The end of `Collator2_Base_c::AccumulateOnePartition`: the current partition is a used one. -/
def closePartition (s : Collator σ) : Collator σ :=
  initializePartition { s with
    largestFrameSeen := max s.largestFrameSeen s.nextPartition.data.length
    partitionPoints := s.partitionPoints ++ [{ s.nextPartition with
      numberOfStartCodes := s.nextWriteInStartCodeList - s.nextPartition.startCodeListIndex }] }

/-- `Collator2_Base_c::AccumulateOnePartition`. -/
def accumulateOnePartitionBase (s : Collator σ) : Collator σ :=
  let s := if s.discardingData then s.emptyCurrentPartition else s
  if !s.hasPartition then s
  else if !s.nextPartition.data.isEmpty && env.configuration.insertFrameTerminateCode then
    closePartition (s.accumulateData env [0, 0, 1, env.configuration.terminalCode]).2
  else closePartition s

def accumulateOnePartition (s : Collator σ) : Collator σ :=
  let s := s.accumulateOnePartitionBase env
  let s := { s with discardingData := false, gotPartialHeader := false, skipping := 0 }
  if s.useSpanningTime then
    { s with
      nextPartition := { s.nextPartition with
        codedFrameParameters := { s.nextPartition.codedFrameParameters with
          playbackTime := s.spanningPlaybackTime
          decodeTime := s.spanningDecodeTime } }
      spanningPlaybackTime := none
      spanningDecodeTime := none }
  else
    { s with
      nextPartition := { s.nextPartition with
        codedFrameParameters := { s.nextPartition.codedFrameParameters with
          playbackTime := s.playbackTime
          decodeTime := s.decodeTime } }
      playbackTime := none
      decodeTime := none }

/-! ### The calls -/

def frameFlush (s : Collator σ) : CollatorStatus × Collator σ :=
  let s := s.accumulateOnePartition env
  let preserved := s.nonBlockingInput
  let (status, t) := partitionOutput env { s with
    partitionPointSafeToOutputCount := 0
    partitionPointMarkerCount := s.partitionPoints.length
    nonBlockingInput := false }
  (status, { t with nonBlockingInput := preserved })

/-- The loop of `Collator2_Base_c::DiscardAccumulatedData`: drop partitions that are not safe to
output, the last one first. -/
def discardPartitions : ℕ → Collator σ → Collator σ
  | 0, s => s
  | count + 1, s =>
    if s.partitionPoints.length > s.partitionPointSafeToOutputCount then
      let t := s.emptyCurrentPartition
      discardPartitions count { t with
        partitionPoints := s.partitionPoints.dropLast
        nextPartition := s.partitionPoints.getLast?.getD t.nextPartition }
    else s

def discardAccumulatedData (s : Collator σ) : Collator σ :=
  let s := discardPartitions s.partitionPoints.length s
  { initializePartition (emptyCurrentPartition
      { s with partitionPointMarkerCount := s.partitionPointSafeToOutputCount }) with
    discardingData := true
    gotPartialHeader := false
    skipping := 0
    useSpanningTime := false
    spanningPlaybackTime := none
    spanningDecodeTime := none }

/-- The current partition becomes the marker of a discontinuity. -/
def markDiscontinuity (s : Collator σ) (surplusDataInjected continuousReverseJump : Bool) :
    Collator σ :=
  { s with
    parser := env.frameParser.resetCollatedHeaderState s.parser
    nextPartition := { s.nextPartition with
      codedFrameParameters := { s.nextPartition.codedFrameParameters with
        streamDiscontinuity := true
        flushBeforeDiscontinuity := surplusDataInjected
        continuousReverseJump := continuousReverseJump } } }

def inputJump (s : Collator σ) (surplusDataInjected continuousReverseJump : Bool) : Collator σ :=
  let s := if surplusDataInjected then s.discardAccumulatedData else (s.frameFlush env).2
  let s := ((s.markDiscontinuity env surplusDataInjected continuousReverseJump).frameFlush env).2
  { s with
    playbackTime := none
    decodeTime := none
    useSpanningTime := false
    spanningPlaybackTime := none
    spanningDecodeTime := none }

/-- The check in `Input` that lets the direction be changed. -/
def directionChangeAccepted (s : Collator σ) : Bool :=
  s.partitionPoints.length == 0 && s.nextPartition.data.length == 0

end Collator

end Player2.Collator2
