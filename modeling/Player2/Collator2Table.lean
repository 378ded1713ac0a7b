import Player2.Collator2Forward
import Player2.Program
import Player2.Tiling

/-! # The partition table of the reversible mode collator

`Collator2_Base_c` with its coded frame buffer at an address in memory.  In forward play the
partitions lie one behind the other from the beginning of the buffer on; in reverse play the first
one ends at the end of the buffer and each further one lies in front of the last.  The table of
partition points says where they are and which of the accumulated start codes are theirs.

`Collator2Base` has the bytes of the partitions and forward play only; here are the addresses, the
sizes and the counters of both directions, with the arithmetic of 32-bit integers.  The two cursors
of the start code list only ever are subtracted from one another and reduced by its length, which
divides `2 ^ 32`, and are not reduced here. -/

namespace Player2.Reversible

open Collator2 (Configuration HeaderFlags
  maximumPartitionPoints minimumAccumulationHeadroom maximumAccumulatedStartCodes)
open Tiling (Span)

/-- The value of an `unsigned int`. -/
def wrap (z : ℤ) : ℕ := (z % 2 ^ 32).toNat

/-- `PlayDirection_t`. -/
inductive PlayDirection
  | playForward
  | playBackward
deriving DecidableEq, Repr

/-! ### Surroundings -/

/-- The answers of the coded frame buffer pool to its `n`-th request: the free buffers and the
largest free block (`GetPoolUsage`), whether a buffer can be partitioned, where a buffer lies after
`ExtendBuffer`, and where a new buffer of at least some size lies (`GetBuffer`).  A buffer is only
ever extended at its open end, and no buffer reaches the end of the address space. -/
structure Pool where
  freeBuffers : ℕ → ℕ
  largestFreeMemoryBlock : ℕ → ℕ
  partitionBuffer : ℕ → Bool
  extendBuffer : ℕ → PlayDirection → Span → Span
  getBuffer : ℕ → ℕ → Option Span
  extendBuffer_forward : ∀ n b, (extendBuffer n .playForward b).base = b.base
  extendBuffer_backward : ∀ n b, (extendBuffer n .playBackward b).stop = b.stop
  extendBuffer_size : ∀ n d b, b.size ≤ (extendBuffer n d b).size
  extendBuffer_stop : ∀ n d b, b.stop < 2 ^ 32 → (extendBuffer n d b).stop < 2 ^ 32
  getBuffer_size : ∀ n size b, getBuffer n size = some b → size ≤ b.size
  getBuffer_stop : ∀ n size b, getBuffer n size = some b → b.stop < 2 ^ 32

/-- What the routines of `Collator2_Base_c` are connected to. -/
structure Base where
  configuration : Configuration
  maximumCodedFrameSize : ℕ
  pool : Pool

/-! ### The state -/

/-- The fields of `PartitionPoint_t` that do not place it. -/
structure Marks where
  glitch : Bool
  codedFrameParameters : Collator2.CodedFrameParameters
  frameFlags : HeaderFlags
deriving DecidableEq, Repr

/-- `PartitionPoint_t`. -/
structure PartitionPoint where
  partitionBase : ℕ
  partitionSize : ℕ
  startCodeListIndex : ℕ
  numberOfStartCodes : ℕ
  marks : Marks
deriving DecidableEq, Repr

/-- The state of `Collator2_Base_c`.  `partitionPoints` are the used partition points and
`nextPartition` the one after them; `output` are the coded frames handed to
`OutputOnePartition`. -/
structure Table where
  playDirection : PlayDirection
  nonBlockingInput : Bool
  extendCodedFrameBufferAtEarliestOpportunity : Bool
  discardingData : Bool
  codedFrameBuffer : Span
  /-- the collator still has its reference to the buffer -/
  codedFrameBufferHeld : Bool
  codedFrameBufferFreeSpace : ℕ
  codedFrameBufferUsedSpace : ℕ
  largestFrameSeen : ℕ
  accumulatedStartCodeList : ℕ → ℕ × UInt8
  nextWriteInStartCodeList : ℕ
  nextReadInStartCodeList : ℕ
  partitionPoints : List PartitionPoint
  nextPartition : PartitionPoint
  partitionPointMarkerCount : ℕ
  partitionPointSafeToOutputCount : ℕ
  memory : ℕ → UInt8
  output : List Collator2.CodedFrame
  poolRequests : ℕ

namespace Table

variable (env : Base)

def partitionPointUsedCount (t : Table) : ℕ := t.partitionPoints.length

/-- The bytes in memory from an address on. -/
def bytesAt (t : Table) (address length : ℕ) : List UInt8 :=
  (List.range length).map fun i => t.memory (address + i)

/-! ### The current partition -/

def moveCurrentPartitionBoundary (t : Table) (bytes : ℤ) : Table :=
  let p := t.nextPartition
  { t with
    nextPartition := { p with
      partitionBase :=
        if t.playDirection = .playForward then p.partitionBase else wrap (p.partitionBase - bytes)
      partitionSize := wrap (p.partitionSize + bytes) }
    codedFrameBufferUsedSpace := wrap (t.codedFrameBufferUsedSpace + bytes)
    codedFrameBufferFreeSpace := wrap (t.codedFrameBufferFreeSpace - bytes) }

def emptyCurrentPartition (t : Table) : Table :=
  let u := t.moveCurrentPartitionBoundary (-t.nextPartition.partitionSize)
  { u with
    nextPartition := { u.nextPartition with numberOfStartCodes := 0 }
    nextWriteInStartCodeList := u.nextPartition.startCodeListIndex }

def initializePartition (t : Table) : Table :=
  let b := t.codedFrameBuffer
  { t with
    nextPartition :=
      { partitionBase :=
          if t.playDirection = .playForward then wrap (b.base + t.codedFrameBufferUsedSpace)
          else wrap (b.base + b.size - t.codedFrameBufferUsedSpace)
        partitionSize := 0
        startCodeListIndex := t.nextWriteInStartCodeList
        numberOfStartCodes := 0
        marks := ⟨false, .clear, .none⟩ } }

/-! ### Output -/

/-- The start codes that `PerformOnePartition` gives a partition; in reverse play they have been
recorded last one first, with offsets from the end of the partition. -/
def startCodesOf (t : Table) (p : PartitionPoint) : List (ℕ × UInt8) :=
  let code := fun i => t.accumulatedStartCodeList
    ((t.nextReadInStartCodeList + i) % maximumAccumulatedStartCodes)
  (List.range p.numberOfStartCodes).map fun i =>
    if t.playDirection = .playForward then code i
    else
      let c := code (p.numberOfStartCodes - 1 - i)
      (wrap (p.partitionSize - c.1), c.2)

/-- `PerformOnePartition`, after the buffer has been partitioned.  In forward play the first part is
the frame, in reverse play the second. -/
def performOnePartition (t : Table) (p : PartitionPoint) (rest : List PartitionPoint) : Table :=
  let b := t.codedFrameBuffer
  { t with
    partitionPoints := rest
    codedFrameBuffer :=
      if t.playDirection = .playForward then
        ⟨wrap (b.base + p.partitionSize), wrap (b.size - p.partitionSize)⟩
      else ⟨b.base, wrap (p.partitionBase - b.base)⟩
    codedFrameBufferUsedSpace := wrap (t.codedFrameBufferUsedSpace - p.partitionSize)
    nextReadInStartCodeList :=
      if env.configuration.generateStartCodeList then
        t.nextReadInStartCodeList + p.numberOfStartCodes
      else t.nextReadInStartCodeList
    output := t.output ++
      [{ data := t.bytesAt p.partitionBase p.partitionSize
         startCodes := if env.configuration.generateStartCodeList then t.startCodesOf p else []
         parameters := p.marks.codedFrameParameters }] }

/-- The first loop of `PartitionOutput`: at most so many partitions, given the buffers known to be
free.  The number that have been output comes with the state. -/
def outputPartitions : ℕ → ℕ → Table → Table × ℕ
  | 0, _, t => (t, 0)
  | count + 1, knownFreeBuffers, t =>
    match t.partitionPoints with
    | [] => (t, 0)
    | p :: rest =>
      let ask := knownFreeBuffers = 0
      let known := if ask then env.pool.freeBuffers t.poolRequests else knownFreeBuffers
      let t := if ask then { t with poolRequests := t.poolRequests + 1 } else t
      if known = 0 ∧ t.nonBlockingInput then (t, 0)
      else if env.pool.partitionBuffer t.poolRequests then
        let u := performOnePartition env { t with poolRequests := t.poolRequests + 1 } p rest
        let (v, n) := outputPartitions count (wrap (known - 1)) u
        (v, n + 1)
      else ({ t with poolRequests := t.poolRequests + 1 }, 0)

def acceptableBufferSpace (t : Table) : ℕ :=
  let size := t.nextPartition.partitionSize
  wrap ((if size > t.largestFrameSeen then
    min (size + env.maximumCodedFrameSize / 16) env.maximumCodedFrameSize
  else t.largestFrameSeen + minimumAccumulationHeadroom : ℕ) - size)

/-- The accumulated data and the partition points move to a new buffer; the old one is released. -/
def moveToBuffer (t : Table) (new : Span) : Table :=
  let b := t.codedFrameBuffer
  let used := t.codedFrameBufferUsedSpace
  let transferFrom :=
    if t.playDirection = .playForward then b.base else wrap (b.base + b.size - used)
  let transferTo :=
    if t.playDirection = .playForward then new.base else wrap (new.base + new.size - used)
  let move := fun p : PartitionPoint =>
    { p with partitionBase := wrap (p.partitionBase + transferTo - transferFrom) }
  { t with
    memory := fun x =>
      if transferTo ≤ x ∧ x < transferTo + used then t.memory (x - transferTo + transferFrom)
      else t.memory x
    partitionPoints := t.partitionPoints.map move
    nextPartition := move t.nextPartition
    codedFrameBuffer := new
    codedFrameBufferHeld := true
    codedFrameBufferFreeSpace := wrap (new.size - used) }

/-- The second half of `PartitionOutput`: extend the buffer, or move to a new one. -/
def secureRoom (t : Table) : Collator2.CollatorStatus × Table :=
  let b := env.pool.extendBuffer t.poolRequests t.playDirection t.codedFrameBuffer
  let t := { t with
    poolRequests := t.poolRequests + 1
    codedFrameBuffer := b
    codedFrameBufferFreeSpace := wrap (b.size - t.codedFrameBufferUsedSpace)
    extendCodedFrameBufferAtEarliestOpportunity := false }
  let acceptable := t.acceptableBufferSpace env
  let minimumSoughtSize := wrap (t.codedFrameBufferUsedSpace + acceptable)
  if t.codedFrameBufferFreeSpace < acceptable then
    let u := { t with poolRequests := t.poolRequests + 1 }
    if !t.nonBlockingInput || (env.pool.freeBuffers t.poolRequests ≠ 0 &&
        env.pool.largestFreeMemoryBlock t.poolRequests ≥ minimumSoughtSize) then
      -- no point holding onto memory that is not used
      let v := { u with
        poolRequests := u.poolRequests + 1
        codedFrameBufferHeld := u.codedFrameBufferHeld && u.codedFrameBufferUsedSpace ≠ 0 }
      match env.pool.getBuffer u.poolRequests minimumSoughtSize with
      | none => (.noBuffer, v)
      | some new => (.noError, v.moveToBuffer new)
    else (.noError, { u with extendCodedFrameBufferAtEarliestOpportunity := true })
  else (.noError, t)

def partitionOutput (t : Table) : Collator2.CollatorStatus × Table :=
  let (u, output) := outputPartitions env t.partitionPointSafeToOutputCount 0 t
  secureRoom env { u with
    partitionPointMarkerCount := wrap (u.partitionPointMarkerCount - output)
    partitionPointSafeToOutputCount := wrap (u.partitionPointSafeToOutputCount - output) }

/-! ### Accumulation -/

/-- Copy bytes to the open end of the current partition. -/
def store (t : Table) (bytes : List UInt8) : Table :=
  let p := t.nextPartition
  let address :=
    if t.playDirection = .playForward then p.partitionBase + p.partitionSize
    else wrap (p.partitionBase - bytes.length)
  { t with
    memory := fun x =>
      if address ≤ x ∧ x < address + bytes.length then bytes.getD (x - address) 0 else t.memory x
  }.moveCurrentPartitionBoundary bytes.length

def accumulateData (t : Table) (bytes : List UInt8) : Collator2.CollatorStatus × Table :=
  if wrap (t.nextPartition.partitionSize + bytes.length) > env.maximumCodedFrameSize then
    (.bufferOverflow, t.emptyCurrentPartition.initializePartition)
  else if t.codedFrameBufferFreeSpace < bytes.length then
    let (status, u) := partitionOutput env t
    if status ≠ .noError then (status, u)
    else if u.codedFrameBufferFreeSpace < bytes.length then (.wouldBlock, u)
    else (.noError, u.store bytes)
  else (.noError, t.store bytes)

def accumulateStartCode (t : Table) (code : ℕ × UInt8) : Collator2.CollatorStatus × Table :=
  if !env.configuration.generateStartCodeList then (.noError, t)
  else if t.nextWriteInStartCodeList - t.nextReadInStartCodeList ≥ maximumAccumulatedStartCodes then
    (.bufferOverflow, t)
  else
    (.noError, { t with
      accumulatedStartCodeList := Function.update t.accumulatedStartCodeList
        (t.nextWriteInStartCodeList % maximumAccumulatedStartCodes) code
      nextWriteInStartCodeList := t.nextWriteInStartCodeList + 1 })

/-- There is something to accumulate in the current partition. -/
def hasPartition (t : Table) : Bool :=
  t.nextPartition.partitionSize ≠ 0 ||
    t.nextPartition.marks.codedFrameParameters.streamDiscontinuity ||
    t.nextPartition.marks.codedFrameParameters.continuousReverseJump

/-- The current partition becomes a used one. -/
def closePartition (t : Table) : Table :=
  initializePartition { t with
    largestFrameSeen := max t.largestFrameSeen t.nextPartition.partitionSize
    partitionPoints := t.partitionPoints ++ [{ t.nextPartition with
      numberOfStartCodes := t.nextWriteInStartCodeList - t.nextPartition.startCodeListIndex }] }

/-- The terminal code goes to the current partition, if it is not empty. -/
def appendTerminalCode (t : Table) (direction : PlayDirection) : Table :=
  if t.playDirection = direction ∧ t.nextPartition.partitionSize ≠ 0 ∧
      env.configuration.insertFrameTerminateCode then
    (t.accumulateData env [0, 0, 1, env.configuration.terminalCode]).2
  else t

def accumulateOnePartition (t : Table) : Table :=
  let t := if t.discardingData then t.emptyCurrentPartition else t
  if !t.hasPartition then t
  else
    let t := (t.appendTerminalCode env .playForward).closePartition
    t.appendTerminalCode env .playBackward

/-- The loop of `Collator2_Base_c::DiscardAccumulatedData`: drop partitions that are not safe to
output, the last one first. -/
def discardPartitions : ℕ → Table → Table
  | 0, t => t
  | count + 1, t =>
    if t.partitionPoints.length > t.partitionPointSafeToOutputCount then
      let u := t.emptyCurrentPartition
      discardPartitions count { u with
        partitionPoints := u.partitionPoints.dropLast
        nextPartition := u.partitionPoints.getLast?.getD u.nextPartition }
    else t

def discardAccumulatedData (t : Table) : Table :=
  let t := discardPartitions t.partitionPoints.length t
  initializePartition (emptyCurrentPartition
    { t with partitionPointMarkerCount := t.partitionPointSafeToOutputCount })

/-- The check in `Input` that lets the direction be changed. -/
def directionChangeAccepted (t : Table) : Bool :=
  t.partitionPointUsedCount == 0 && t.nextPartition.partitionSize == 0

/-- The beginning of `Input`: switch to the direction in which the collator is to operate. -/
def switchDirection (t : Table) (direction : PlayDirection) : Collator2.CollatorStatus × Table :=
  if t.playDirection = direction then (.noError, t)
  else if t.directionChangeAccepted then
    (.noError, { t with playDirection := direction }.initializePartition)
  else (.error, t)

/-- The partition point with some index, the one after the used ones included, gets new marks. -/
def annotate (t : Table) (index : ℕ) (f : Marks → Marks) : Table :=
  { t with
    partitionPoints := t.partitionPoints.modify index fun p => { p with marks := f p.marks }
    nextPartition :=
      if index = t.partitionPoints.length then
        { t.nextPartition with marks := f t.nextPartition.marks }
      else t.nextPartition }

/-- The state after `Reset` and `RegisterOutputBufferRing`, with an operating buffer. -/
def start (memory : ℕ → UInt8) (buffer : Span) : Table :=
  initializePartition
    { playDirection := .playForward
      nonBlockingInput := false
      extendCodedFrameBufferAtEarliestOpportunity := false
      discardingData := true
      codedFrameBuffer := buffer
      codedFrameBufferHeld := true
      codedFrameBufferFreeSpace := buffer.size
      codedFrameBufferUsedSpace := 0
      largestFrameSeen := 0
      accumulatedStartCodeList := fun _ => (0, 0)
      nextWriteInStartCodeList := 0
      nextReadInStartCodeList := 0
      partitionPoints := []
      nextPartition := ⟨0, 0, 0, 0, ⟨false, .clear, .none⟩⟩
      partitionPointMarkerCount := 0
      partitionPointSafeToOutputCount := 0
      memory := memory
      output := []
      poolRequests := 0 }

end Table

end Player2.Reversible
