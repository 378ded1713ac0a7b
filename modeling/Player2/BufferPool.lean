import Player2.AllocatorSimple
import Player2.Run

/-! # Buffer pools

`BufferPool_Generic_c` owns a set of `Buffer_Generic_c` records.  A record is handed out by
`GetBuffer`, referenced any number of times, and returns to its pool when the last reference
is dropped; the references it holds on attached buffers, which may belong to other pools, are
dropped with it.  The memory of a buffer comes from an `AllocatorSimple_c` over the block the
pool was given, from memory set aside when the pool was created, or from the user.

The state of all pools is a `System`.  Acting on a buffer whose reference count is zero is a
fatal report, after which the program does not continue; a call that waits for a record or for
memory is not a step until it can proceed.  In both cases the operation is `none`.

Releasing a buffer releases what is attached to it, and so on recursively: the calls of
`ReleaseBuffer` in progress are the stack `System.releasing`, and `System.resume` is one round
of the innermost one.  No other call is made while the stack is not empty.

Buffers are numbered in the order in which their records are constructed.  Addresses and meta
data have no part in the accounting and are left out. -/

namespace Player2

open Tiling

/-- `NOT_SPECIFIED`, which is also `UNSPECIFIED_OWNER`. -/
def notSpecified : ℕ := 0xffffffff

def maxBufferOwnerIdentifiers : ℕ := 4

def maxAttachedBuffers : ℕ := 4

def identifierAttachedToOtherBuffer : ℕ := 12

/-- Subtraction of `unsigned int`s. -/
def sub32 (m n : ℕ) : ℕ := u32 (m + (2 ^ 32 - u32 n))

theorem sub32_one {m : ℕ} (hpos : 1 ≤ m) (hm : m < 2 ^ 32) : sub32 m 1 = m - 1 := by
  unfold sub32 u32
  omega

/-- `BufferStatus_t`. -/
inductive BufferStatus where
  | noError
  | error
  | failedToCreateBuffer
  | noFreeBufferAvailable
  | insufficientMemoryGeneral
  | operationNotSupportedByThisDescriptor
  | tooManyAttachments
  | attachmentNotFound
deriving DecidableEq, Repr

/-- `BufferAllocationSource_t`. -/
inductive AllocationSource where
  | noAllocation
  | allocateFromOSMemory
  | allocateFromDeviceMemory
  | allocateFromDeviceVideoLMIMemory
  | allocateFromSuppliedBlock
  | allocateIndividualSuppliedBlocks
  | allocateFromNamedDeviceMemory
deriving DecidableEq, Repr

/-- `BufferDataDescriptor_t` of a buffer type. -/
structure BufferDataDescriptor where
  allocationSource : AllocationSource
  allocationUnitSize : ℕ
  hasFixedSize : Bool
  allocateOnPoolCreation : Bool
  fixedSize : ℕ
deriving DecidableEq, Repr

/-- Memory is obtained by `GetBuffer` and given back by `ReleaseBuffer`. -/
def BufferDataDescriptor.perBuffer (d : BufferDataDescriptor) : Bool :=
  !d.allocateOnPoolCreation && d.allocationSource != .noAllocation

/-- `Size` rounded up to whole allocation units, in 32-bit arithmetic. -/
def BufferDataDescriptor.roundToUnit (d : BufferDataDescriptor) (size : ℕ) : ℕ :=
  u32 (size + d.allocationUnitSize - 1) / d.allocationUnitSize * d.allocationUnitSize

/-- `BlockDescriptor_t`. -/
structure BlockDescriptor where
  size : ℕ
  poolAllocatedOffset : ℕ
deriving DecidableEq, Repr

/-- The addresses of the pool's memory that the block describes. -/
def BlockDescriptor.span (b : BlockDescriptor) : Span := ⟨b.poolAllocatedOffset, b.size⟩

/-- `Buffer_Generic_c`; `listed` when the record is threaded on its pool's `ListOfBuffers`. -/
structure Buffer where
  pool : ℕ
  listed : Bool
  referenceCount : ℕ
  bufferBlock : BlockDescriptor
  dataSize : ℕ
  ownerIdentifier : List ℕ
  attachedBuffers : List (Option ℕ)
deriving DecidableEq, Repr

/-- The constructor of `Buffer_Generic_c`. -/
def Buffer.create (pool : ℕ) : Buffer where
  pool := pool
  listed := true
  referenceCount := 0
  bufferBlock := ⟨0, 0⟩
  dataSize := 0
  ownerIdentifier := List.replicate maxBufferOwnerIdentifiers 0
  attachedBuffers := List.replicate maxAttachedBuffers none

/-- `BufferPool_Generic_c`. -/
structure BufferPool where
  descriptor : BufferDataDescriptor
  numberOfBuffers : ℕ
  size : ℕ
  countOfBuffers : ℕ
  referenceCount : ℕ
  countOfReferencedBuffers : ℕ
  totalAllocatedMemory : ℕ
  totalUsedMemory : ℕ
  freeBuffer : List ℕ
  memoryPoolAllocator : Option AllocatorSimple

/-! ### Memory of one block -/

namespace BufferPool

/-- `CheckMemoryParameters`; the flags say which of the memory arguments are not `NULL`. -/
def checkMemoryParameters (d : BufferDataDescriptor) (numberOfBuffers : ℕ) (arrayAllocate : Bool)
    (size : ℕ) (memoryPool arrayOfMemoryBlocks memoryPartitionName : Bool) :
    Except BufferStatus ℕ :=
  let requiredSize :=
    if memoryPool then
      if d.hasFixedSize then d.fixedSize else if arrayAllocate then size / numberOfBuffers else size
    else if size ≠ notSpecified then size
    else if d.hasFixedSize then d.fixedSize else notSpecified
  if requiredSize = notSpecified then .error .error
  else if d.hasFixedSize ∧ requiredSize ≠ d.fixedSize then .error .error
  else if arrayAllocate ∧ numberOfBuffers = notSpecified then .error .error
  else if !arrayAllocate ∧ arrayOfMemoryBlocks then .error .error
  else
    match d.allocationSource with
    | .noAllocation => .error .error
    | .allocateFromNamedDeviceMemory =>
      if !memoryPartitionName ∨ memoryPool ∨ arrayOfMemoryBlocks then .error .error
      else .ok requiredSize
    | .allocateFromOSMemory | .allocateFromDeviceMemory | .allocateFromDeviceVideoLMIMemory =>
      if memoryPool ∨ arrayOfMemoryBlocks then .error .error else .ok requiredSize
    | .allocateFromSuppliedBlock =>
      if size = notSpecified ∨ !memoryPool then .error .error else .ok requiredSize
    | .allocateIndividualSuppliedBlocks =>
      if !arrayOfMemoryBlocks then .error .error else .ok requiredSize

/-- `AllocateMemoryBlock` for one buffer of the given size: the block and the pool after it.
`systemMemory` says whether the operating system or the device has the memory. -/
def allocateMemoryBlock (pool : BufferPool) (block : BlockDescriptor)
    (requiredSizeIsLowerBound systemMemory : Bool) :
    Option (Except BufferStatus (BlockDescriptor × BufferPool)) :=
  let account (block : BlockDescriptor) (pool : BufferPool) :=
    (block, { pool with totalAllocatedMemory := u32 (pool.totalAllocatedMemory + block.size) })
  if block.size = 0 then some (.ok (block, pool))
  else
    match pool.descriptor.allocationSource with
    | .allocateFromOSMemory | .allocateFromNamedDeviceMemory | .allocateFromDeviceVideoLMIMemory
    | .allocateFromDeviceMemory =>
      if systemMemory then some (.ok (account block pool))
      else some (.error .insufficientMemoryGeneral)
    | .allocateFromSuppliedBlock =>
      match pool.memoryPoolAllocator with
      | none => some (.ok (account { block with poolAllocatedOffset := 0 } pool))
      | some a =>
        let size := pool.descriptor.roundToUnit block.size
        match (if requiredSizeIsLowerBound then a.allocateLargest size else a.allocate size) with
        | .ok (r, a) => some (.ok (account
            ⟨if requiredSizeIsLowerBound then r.size else size, r.base⟩
            { pool with memoryPoolAllocator := some a }))
        | .error _ => none
    | .allocateIndividualSuppliedBlocks | .noAllocation => some (.ok (account block pool))

def deAllocateMemoryBlock (pool : BufferPool) (block : BlockDescriptor) :
    BlockDescriptor × BufferPool :=
  if block.size = 0 then (block, pool)
  else
    let pool :=
      if pool.descriptor.allocationSource = .allocateFromSuppliedBlock then
        { pool with memoryPoolAllocator := pool.memoryPoolAllocator.map fun a =>
            (a.free block.size block.poolAllocatedOffset).2 }
      else pool
    ({ block with size := 0 },
      { pool with totalAllocatedMemory := sub32 pool.totalAllocatedMemory block.size })

def shrinkMemoryBlock (pool : BufferPool) (block : BlockDescriptor) (newSize : ℕ) :
    Option (BufferStatus × BlockDescriptor × BufferPool) :=
  if pool.descriptor.allocateOnPoolCreation then some (.error, block, pool)
  else if newSize = block.size then some (.noError, block, pool)
  else if block.size < newSize then some (.error, block, pool)
  else
    match pool.descriptor.allocationSource with
    | .noAllocation => some (.error, block, pool)
    | .allocateFromSuppliedBlock =>
      let newSize := pool.descriptor.roundToUnit newSize
      if newSize < block.size then
        pool.memoryPoolAllocator.map fun a =>
          let a := (a.free (block.size - newSize) (block.poolAllocatedOffset + newSize)).2
          (.noError, { block with size := newSize }, { pool with memoryPoolAllocator := some a })
      else some (.noError, { block with size := newSize }, pool)
    | _ => some (.noError, block, pool)

def extendMemoryBlock (pool : BufferPool) (block : BlockDescriptor) (extendUpwards : Bool) :
    Option (BufferStatus × BlockDescriptor × BufferPool) :=
  if pool.descriptor.allocateOnPoolCreation then some (.error, block, pool)
  else
    match pool.descriptor.allocationSource with
    | .allocateFromSuppliedBlock =>
      pool.memoryPoolAllocator.map fun a =>
        match a.extendToLargest block.span extendUpwards with
        | .ok (r, a) => (.noError, ⟨r.size, r.base⟩, { pool with memoryPoolAllocator := some a })
        | .error _ => (.error, block, pool)
    | _ => some (.error, block, pool)

/-- `FreeBuffer->Insert`; the ring holds at most `NumberOfBuffers` entries. -/
def insertFreeBuffer (pool : BufferPool) (b : ℕ) : BufferPool :=
  if pool.freeBuffer.length = pool.numberOfBuffers then pool
  else { pool with freeBuffer := pool.freeBuffer ++ [b] }

/-- The values `GetPoolUsage` reports. -/
structure Usage where
  buffersInPool : ℕ
  buffersWithNonZeroReferenceCount : ℕ
  memoryInPool : ℕ
  memoryAllocated : ℕ
  memoryInUse : ℕ
  largestFreeMemoryBlock : ℕ
deriving DecidableEq, Repr

/-- `AllocatorSimple_c::LargestFreeBlock(unsigned int *Size)`. -/
def largestFreeBlockSize (a : AllocatorSimple) : ℕ :=
  match a.largestFreeBlock with
  | none => 0
  | some i => (a.blocks i).size

def getPoolUsage (pool : BufferPool) : Usage where
  buffersInPool := if pool.numberOfBuffers = notSpecified then pool.countOfBuffers else pool.numberOfBuffers
  buffersWithNonZeroReferenceCount := pool.countOfReferencedBuffers
  memoryInPool :=
    match pool.descriptor.allocationSource with
    | .allocateFromSuppliedBlock => pool.size
    | .allocateIndividualSuppliedBlocks => u32 (pool.size * pool.numberOfBuffers)
    | _ => notSpecified
  memoryAllocated := pool.totalAllocatedMemory
  memoryInUse := pool.totalUsedMemory
  largestFreeMemoryBlock :=
    match pool.descriptor.allocationSource with
    | .allocateFromSuppliedBlock => (pool.memoryPoolAllocator.map largestFreeBlockSize).getD pool.size
    | .allocateIndividualSuppliedBlocks =>
      if (if pool.numberOfBuffers = notSpecified then pool.countOfBuffers else pool.numberOfBuffers) ≠
        pool.countOfReferencedBuffers then pool.size else 0
    | _ => notSpecified

end BufferPool

/-! ### The pools and their buffers -/

/-- A call of `ReleaseBuffer` in progress, with the attachment slot it looks at next. -/
structure Frame where
  buffer : ℕ
  slot : ℕ
deriving DecidableEq, Repr

/-- All pools, all records, and the calls of `ReleaseBuffer` in progress, innermost first. -/
structure System where
  pools : ℕ → BufferPool
  poolCount : ℕ
  buffers : ℕ → Buffer
  bufferCount : ℕ
  releasing : List Frame

/-- The first element that satisfies `p`, replaced. -/
def replaceFirst {α : Type*} (p : α → Bool) (v : α) : List α → Option (List α)
  | [] => none
  | a :: l => if p a then some (v :: l) else (replaceFirst p v l).map (a :: ·)

namespace System

def modifyPool (s : System) (p : ℕ) (f : BufferPool → BufferPool) : System :=
  { s with pools := Function.update s.pools p (f (s.pools p)) }

def modifyBuffer (s : System) (b : ℕ) (f : Buffer → Buffer) : System :=
  { s with buffers := Function.update s.buffers b (f (s.buffers b)) }

section modify
variable (s : System) (p b : ℕ) (f : BufferPool → BufferPool) (g : Buffer → Buffer)

@[simp] theorem modifyPool_buffers : (s.modifyPool p f).buffers = s.buffers := rfl
@[simp] theorem modifyPool_bufferCount : (s.modifyPool p f).bufferCount = s.bufferCount := rfl
@[simp] theorem modifyPool_poolCount : (s.modifyPool p f).poolCount = s.poolCount := rfl
@[simp] theorem modifyPool_releasing : (s.modifyPool p f).releasing = s.releasing := rfl
@[simp] theorem modifyPool_pools_self : (s.modifyPool p f).pools p = f (s.pools p) :=
  Function.update_self ..
@[simp] theorem modifyBuffer_pools : (s.modifyBuffer b g).pools = s.pools := rfl
@[simp] theorem modifyBuffer_bufferCount : (s.modifyBuffer b g).bufferCount = s.bufferCount := rfl
@[simp] theorem modifyBuffer_poolCount : (s.modifyBuffer b g).poolCount = s.poolCount := rfl
@[simp] theorem modifyBuffer_releasing : (s.modifyBuffer b g).releasing = s.releasing := rfl
@[simp] theorem modifyBuffer_buffers_self : (s.modifyBuffer b g).buffers b = g (s.buffers b) :=
  Function.update_self ..

variable {p b}

@[simp] theorem modifyPool_pools_of_ne {q : ℕ} (h : q ≠ p) : (s.modifyPool p f).pools q = s.pools q :=
  Function.update_of_ne h _ _

@[simp] theorem modifyBuffer_buffers_of_ne {c : ℕ} (h : c ≠ b) :
    (s.modifyBuffer b g).buffers c = s.buffers c := Function.update_of_ne h _ _

end modify

/-- The pool a buffer belongs to. -/
def poolOf (s : System) (b : ℕ) : BufferPool := s.pools (s.buffers b).pool

theorem poolOf_modifyBuffer (s : System) {b : ℕ} {f : Buffer → Buffer}
    (h : (f (s.buffers b)).pool = (s.buffers b).pool) (c : ℕ) : (s.modifyBuffer b f).poolOf c = s.poolOf c := by
  by_cases hc : c = b
  · subst hc; simp [poolOf, h]
  · simp [poolOf, hc]

/-! ### `GetBuffer` -/

/-- What the environment decides about one call of `GetBuffer`: whether a wait for a record is
aborted, whether a new record can be constructed, whether the system has memory. -/
structure Environment where
  abortGetBuffer : Bool
  bufferCreated : Bool
  systemMemory : Bool
deriving DecidableEq, Repr

/-- A record leaves the free ring, or is constructed when the number of buffers is not fixed. -/
def takeRecord (s : System) (p : ℕ) (nonBlocking : Bool) (env : Environment) :
    Option (Except BufferStatus (ℕ × System)) :=
  let pool := s.pools p
  if pool.numberOfBuffers = notSpecified then
    if env.bufferCreated then
      some (.ok (s.bufferCount,
        { s.modifyPool p (fun pool => { pool with countOfBuffers := u32 (pool.countOfBuffers + 1) }) with
          buffers := Function.update s.buffers s.bufferCount (.create p)
          bufferCount := s.bufferCount + 1 }))
    else some (.error .failedToCreateBuffer)
  else
    match pool.freeBuffer with
    | b :: rest => some (.ok (b, s.modifyPool p fun pool => { pool with freeBuffer := rest }))
    | [] => if nonBlocking ∨ env.abortGetBuffer then some (.error .noFreeBufferAvailable) else none

/-- The memory of a record that has been taken: the system, and the status when there is none. -/
def allocateRecord (s : System) (p b itemSize : ℕ) (requiredSizeIsLowerBound : Bool)
    (env : Environment) : Option (BufferStatus × System) :=
  let s := s.modifyBuffer b fun buf => { buf with bufferBlock := { buf.bufferBlock with size := u32 itemSize } }
  match (s.pools p).allocateMemoryBlock (s.buffers b).bufferBlock requiredSizeIsLowerBound
    env.systemMemory with
  | none => none
  | some (.error e) => some (e, s)
  | some (.ok (block, pool)) => some (.noError,
      (s.modifyBuffer b fun buf => { buf with bufferBlock := block }).modifyPool p fun _ => pool)

/-- The end of `GetBuffer`: the record has one reference, held by the owner. -/
def handOut (s : System) (p b ownerIdentifier : ℕ) : System :=
  (s.modifyBuffer b fun buf => { buf with
    dataSize := 0
    ownerIdentifier := ownerIdentifier :: List.replicate (maxBufferOwnerIdentifiers - 1) notSpecified
    referenceCount := 1
    attachedBuffers := List.replicate maxAttachedBuffers none }).modifyPool p fun pool =>
  { pool with
    referenceCount := u32 (pool.referenceCount + 1)
    countOfReferencedBuffers := u32 (pool.countOfReferencedBuffers + 1) }

/-- The part of `GetBuffer` after the parameter check; `itemSize` when memory is obtained for
each buffer. -/
def getRecord (s : System) (p ownerIdentifier : ℕ) (itemSize : Option ℕ)
    (nonBlocking requiredSizeIsLowerBound : Bool) (env : Environment) :
    Option (BufferStatus × Option ℕ × System) :=
  match s.takeRecord p nonBlocking env with
  | none => none
  | some (.error e) => some (e, none, s)
  | some (.ok (b, s)) =>
    match itemSize with
    | none => some (.noError, some b, s.handOut p b ownerIdentifier)
    | some itemSize =>
      match s.allocateRecord p b itemSize requiredSizeIsLowerBound env with
      | none => none
      | some (.noError, s) => some (.noError, some b, s.handOut p b ownerIdentifier)
      | some (e, s) => some (e, none, s)

/-- `GetBuffer`: the status, the buffer and the system after it.  The pool's own array of
addresses is passed on to the parameter check, so there the memory pool is never `NULL`. -/
def getBuffer (s : System) (p ownerIdentifier requiredSize : ℕ)
    (nonBlocking requiredSizeIsLowerBound : Bool) (env : Environment) :
    Option (BufferStatus × Option ℕ × System) :=
  let pool := s.pools p
  if pool.descriptor.perBuffer then
    match BufferPool.checkMemoryParameters pool.descriptor pool.numberOfBuffers false requiredSize
      true false false with
    | .error e => some (e, none, s)
    | .ok itemSize =>
      s.getRecord p ownerIdentifier (some itemSize) nonBlocking requiredSizeIsLowerBound env
  else s.getRecord p ownerIdentifier none nonBlocking requiredSizeIsLowerBound env

/-! ### Operations on one buffer -/

def setUsedDataSize (s : System) (b dataSize : ℕ) : Option (BufferStatus × System) :=
  let buf := s.buffers b
  if buf.referenceCount = 0 then none
  else if buf.bufferBlock.size < dataSize then some (.error, s)
  else some (.noError, (s.modifyPool buf.pool fun pool =>
    { pool with totalUsedMemory := u32 (sub32 pool.totalUsedMemory buf.dataSize + dataSize) }).modifyBuffer
      b fun buf => { buf with dataSize := dataSize })

/-- A status with the block and the pool of buffer `b` as a function on blocks left them. -/
def replaceBlock (s : System) (b : ℕ) (r : BufferStatus × BlockDescriptor × BufferPool) :
    BufferStatus × System :=
  (r.1, (s.modifyBuffer b fun buf => { buf with bufferBlock := r.2.1 }).modifyPool (s.buffers b).pool
    fun _ => r.2.2)

def shrinkBuffer (s : System) (b newSize : ℕ) : Option (BufferStatus × System) :=
  let buf := s.buffers b
  if buf.referenceCount = 0 then none
  else if newSize < buf.dataSize then some (.error, s)
  else ((s.poolOf b).shrinkMemoryBlock buf.bufferBlock newSize).map (s.replaceBlock b)

def extendBuffer (s : System) (b : ℕ) (extendUpwards : Bool) : Option (BufferStatus × System) :=
  let buf := s.buffers b
  if buf.referenceCount = 0 then none
  else ((s.poolOf b).extendMemoryBlock buf.bufferBlock extendUpwards).map (s.replaceBlock b)

/-- The end of `PartitionBuffer`: the block of `b` beyond `leave` becomes the block of `c`. -/
def splitBlock (s : System) (b c leave : ℕ) : System :=
  let buf := s.buffers b
  (s.modifyBuffer c fun new => { new with
    bufferBlock := ⟨sub32 buf.bufferBlock.size leave, u32 (buf.bufferBlock.poolAllocatedOffset + leave)⟩
    dataSize := sub32 buf.dataSize leave }).modifyBuffer b fun buf =>
  { buf with bufferBlock := { buf.bufferBlock with size := leave }, dataSize := leave }

/-- The part of `PartitionBuffer` after its checks: get a buffer of zero size and give it a share
of the block. -/
def partitionBlock (s : System) (b leaveInFirstPartitionSize secondOwnerIdentifier : ℕ)
    (nonBlocking : Bool) (env : Environment) : Option (BufferStatus × System) :=
  match s.getBuffer (s.buffers b).pool secondOwnerIdentifier 0 nonBlocking false env with
  | none => none
  | some (.noError, some c, s) => some (.noError, s.splitBlock b c leaveInFirstPartitionSize)
  | some (e, _, s) => some (e, s)

def partitionBuffer (s : System) (b leaveInFirstPartitionSize secondOwnerIdentifier : ℕ)
    (nonBlocking : Bool) (env : Environment) : Option (BufferStatus × System) :=
  if (s.buffers b).referenceCount = 0 then none
  else if (s.poolOf b).descriptor.allocateOnPoolCreation then
    some (.operationNotSupportedByThisDescriptor, s)
  else
    match (s.poolOf b).descriptor.allocationSource with
    | .allocateFromSuppliedBlock | .noAllocation =>
      s.partitionBlock b leaveInFirstPartitionSize secondOwnerIdentifier nonBlocking env
    | _ => some (.operationNotSupportedByThisDescriptor, s)

def registerDataReference (s : System) (b blockSize : ℕ) : Option (BufferStatus × System) :=
  if (s.buffers b).referenceCount = 0 then none
  else if (s.poolOf b).descriptor.allocationSource ≠ .noAllocation then
    some (.operationNotSupportedByThisDescriptor, s)
  else some (.noError, s.modifyBuffer b fun buf =>
    { buf with bufferBlock := { buf.bufferBlock with size := u32 blockSize }, dataSize := 0 })

def transferOwnership (s : System) (b ownerIdentifier0 ownerIdentifier1 : ℕ) :
    Option (BufferStatus × System) :=
  if (s.buffers b).referenceCount = 0 then none
  else some (.noError, s.modifyBuffer b fun buf => { buf with
    ownerIdentifier :=
      if ownerIdentifier1 ≠ notSpecified then
        (replaceFirst (· == ownerIdentifier0) ownerIdentifier1 buf.ownerIdentifier).getD buf.ownerIdentifier
      else buf.ownerIdentifier.set 0 ownerIdentifier0 })

def incrementReferenceCount (s : System) (b newOwnerIdentifier : ℕ) : Option (BufferStatus × System) :=
  let buf := s.buffers b
  if buf.referenceCount = 0 then none
  else some (.noError, (s.modifyPool buf.pool fun pool =>
    { pool with referenceCount := u32 (pool.referenceCount + 1) }).modifyBuffer b fun buf => { buf with
      referenceCount := u32 (buf.referenceCount + 1)
      ownerIdentifier :=
        if newOwnerIdentifier ≠ notSpecified then
          (replaceFirst (· == notSpecified) newOwnerIdentifier buf.ownerIdentifier).getD buf.ownerIdentifier
        else buf.ownerIdentifier })

/-- `DecrementReferenceCount`; with the last reference `ReleaseBuffer` begins. -/
def decrementReferenceCount (s : System) (b oldOwnerIdentifier : ℕ) : Option (BufferStatus × System) :=
  let buf := s.buffers b
  if buf.referenceCount = 0 then none
  else
    let s := (s.modifyPool buf.pool fun pool =>
      { pool with referenceCount := sub32 pool.referenceCount 1 }).modifyBuffer b fun buf => { buf with
        referenceCount := buf.referenceCount - 1
        ownerIdentifier :=
          if oldOwnerIdentifier ≠ notSpecified then
            (replaceFirst (· == oldOwnerIdentifier) notSpecified buf.ownerIdentifier).getD buf.ownerIdentifier
          else buf.ownerIdentifier }
    if buf.referenceCount - 1 = 0 then some (.noError, { s with releasing := ⟨b, 0⟩ :: s.releasing })
    else some (.noError, s)

def attachBuffer (s : System) (b c : ℕ) : Option (BufferStatus × System) :=
  let buf := s.buffers b
  if buf.referenceCount = 0 then none
  else
    match replaceFirst Option.isNone (some c) buf.attachedBuffers with
    | none => some (.tooManyAttachments, s)
    | some attached => (s.modifyBuffer b fun buf =>
      { buf with attachedBuffers := attached }).incrementReferenceCount c notSpecified

def detachBuffer (s : System) (b c : ℕ) : Option (BufferStatus × System) :=
  let buf := s.buffers b
  if buf.referenceCount = 0 then none
  else
    match replaceFirst (· == some c) none buf.attachedBuffers with
    | none => some (.attachmentNotFound, s)
    | some attached => (s.modifyBuffer b fun buf => { buf with
        attachedBuffers := attached }).decrementReferenceCount c identifierAttachedToOtherBuffer

/-! ### `ReleaseBuffer` -/

/-- The end of `ReleaseBuffer`: the memory goes back, then the record. -/
def finishRelease (s : System) (b : ℕ) : BufferStatus × System :=
  let buf := s.buffers b
  let (block, pool) :=
    if (s.poolOf b).descriptor.perBuffer then (s.poolOf b).deAllocateMemoryBlock buf.bufferBlock
    else (buf.bufferBlock, s.poolOf b)
  let pool := { pool with totalUsedMemory := sub32 pool.totalUsedMemory buf.dataSize }
  let buf := { buf with bufferBlock := block, dataSize := 0 }
  if pool.numberOfBuffers ≠ notSpecified then
    let pool := pool.insertFreeBuffer b
    (.noError, (s.modifyBuffer b fun _ => buf).modifyPool buf.pool fun _ =>
      { pool with countOfReferencedBuffers := sub32 pool.countOfReferencedBuffers 1 })
  else if buf.listed then
    (.noError, (s.modifyBuffer b fun _ => { buf with listed := false }).modifyPool buf.pool fun _ =>
      { pool with
        countOfBuffers := sub32 pool.countOfBuffers 1
        countOfReferencedBuffers := sub32 pool.countOfReferencedBuffers 1 })
  else (.error, (s.modifyBuffer b fun _ => buf).modifyPool buf.pool fun _ => pool)

/-- One round of the innermost `ReleaseBuffer`: drop the reference on one attached buffer, or
finish. -/
def resume (s : System) : Option (BufferStatus × System) :=
  match s.releasing with
  | [] => none
  | f :: rest =>
    if f.slot < maxAttachedBuffers then
      let s := { s with releasing := ⟨f.buffer, f.slot + 1⟩ :: rest }
      match (s.buffers f.buffer).attachedBuffers.getD f.slot none with
      | none => some (.noError, s)
      | some temporary => (s.modifyBuffer f.buffer fun buf => { buf with
          attachedBuffers := buf.attachedBuffers.set f.slot none }).decrementReferenceCount
            temporary notSpecified
    else some ({ s with releasing := rest }.finishRelease f.buffer)

/-! ### Creating a pool -/

/-- The arguments of the constructor of `BufferPool_Generic_c`; `memoryPool` is the physical
address of the supplied block. -/
structure PoolParameters where
  descriptor : BufferDataDescriptor
  numberOfBuffers : ℕ
  size : ℕ
  memoryPool : Option ℕ
  arrayOfMemoryBlocks : Bool
  deviceMemoryPartitionName : Bool
deriving DecidableEq, Repr

/-- The size of each buffer allocated with the pool, when the memory for all of them is there. -/
def PoolParameters.itemSize (q : PoolParameters) (systemMemory : Bool) : Except BufferStatus ℕ :=
  if q.numberOfBuffers ≠ notSpecified ∧ q.descriptor.allocateOnPoolCreation then
    match BufferPool.checkMemoryParameters q.descriptor q.numberOfBuffers true q.size
      q.memoryPool.isSome q.arrayOfMemoryBlocks q.deviceMemoryPartitionName with
    | .error e => .error e
    | .ok itemSize =>
      if u32 (itemSize * q.numberOfBuffers) ≠ 0 ∧ !systemMemory ∧
        q.descriptor.allocationSource ≠ .allocateFromSuppliedBlock ∧
        q.descriptor.allocationSource ≠ .allocateIndividualSuppliedBlocks then
        .error .insufficientMemoryGeneral
      else .ok (u32 itemSize)
  else .ok 0

/-- The number of records the constructor makes. -/
def PoolParameters.records (q : PoolParameters) : ℕ :=
  if q.numberOfBuffers = notSpecified then 0 else q.numberOfBuffers

/-- The new pool, whose records are numbered from `first`. -/
def PoolParameters.pool (q : PoolParameters) (first itemSize : ℕ) : BufferPool where
  descriptor := q.descriptor
  numberOfBuffers := q.numberOfBuffers
  size := q.size
  countOfBuffers := 0
  referenceCount := 0
  countOfReferencedBuffers := 0
  totalAllocatedMemory := u32 (itemSize * q.records)
  totalUsedMemory := 0
  freeBuffer := List.range' first q.records
  memoryPoolAllocator :=
    if q.descriptor.allocateOnPoolCreation then none
    else q.memoryPool.map fun physicalAddress => .create q.size 1 physicalAddress

/-- The constructor of `BufferPool_Generic_c`; a pool that fails is not used. -/
def createPool (s : System) (q : PoolParameters) (systemMemory : Bool) : BufferStatus × System :=
  match q.itemSize systemMemory with
  | .error e => (e, s)
  | .ok itemSize => (.noError, { s with
      pools := Function.update s.pools s.poolCount (q.pool s.bufferCount itemSize)
      poolCount := s.poolCount + 1
      buffers := fun b =>
        if s.bufferCount ≤ b ∧ b < s.bufferCount + q.records then
          { Buffer.create s.poolCount with bufferBlock := ⟨itemSize, 0⟩ }
        else s.buffers b
      bufferCount := s.bufferCount + q.records })

/-! ### Calls -/

/-- The calls a program makes, and the rounds of `ReleaseBuffer` they leave to do. -/
inductive Call where
  | createPool (q : PoolParameters) (systemMemory : Bool)
  | getBuffer (p ownerIdentifier requiredSize : ℕ) (nonBlocking requiredSizeIsLowerBound : Bool)
      (env : Environment)
  | setUsedDataSize (b dataSize : ℕ)
  | shrinkBuffer (b newSize : ℕ)
  | extendBuffer (b : ℕ) (extendUpwards : Bool)
  | partitionBuffer (b leaveInFirstPartitionSize secondOwnerIdentifier : ℕ) (nonBlocking : Bool)
      (env : Environment)
  | registerDataReference (b blockSize : ℕ)
  | transferOwnership (b ownerIdentifier0 ownerIdentifier1 : ℕ)
  | incrementReferenceCount (b newOwnerIdentifier : ℕ)
  | decrementReferenceCount (b oldOwnerIdentifier : ℕ)
  | attachBuffer (b c : ℕ)
  | detachBuffer (b c : ℕ)
  | resume
deriving DecidableEq, Repr

/-- What a call does once nothing is being released. -/
def perform (s : System) : Call → Option (BufferStatus × System)
  | .createPool q systemMemory =>
    -- the size is an `unsigned int`
    if q.size < 2 ^ 32 then some (s.createPool q systemMemory) else none
  | .getBuffer p owner size nonBlocking lowerBound env =>
    if p < s.poolCount then (s.getBuffer p owner size nonBlocking lowerBound env).map fun r => (r.1, r.2.2)
    else none
  | .setUsedDataSize b dataSize => s.setUsedDataSize b dataSize
  | .shrinkBuffer b newSize => s.shrinkBuffer b newSize
  | .extendBuffer b up => s.extendBuffer b up
  | .partitionBuffer b leave owner nonBlocking env => s.partitionBuffer b leave owner nonBlocking env
  | .registerDataReference b blockSize => s.registerDataReference b blockSize
  | .transferOwnership b owner0 owner1 => s.transferOwnership b owner0 owner1
  | .incrementReferenceCount b owner => s.incrementReferenceCount b owner
  | .decrementReferenceCount b owner => s.decrementReferenceCount b owner
  | .attachBuffer b c => s.attachBuffer b c
  | .detachBuffer b c => s.detachBuffer b c
  | .resume => none

/-- One call, or one round of the release in progress, with its status. -/
def call (s : System) (c : Call) : Option (BufferStatus × System) :=
  if s.releasing = [] then s.perform c else if c = .resume then s.resume else none

/-- One step of the system. -/
def step (s : System) (c : Call) : Option System := (s.call c).map Prod.snd

/-- No pool has been created yet. -/
def start : System where
  pools := fun _ => PoolParameters.pool ⟨⟨.noAllocation, 0, false, false, 0⟩, 0, 0, none, false, false⟩ 0 0
  poolCount := 0
  buffers := fun _ => { Buffer.create 0 with listed := false }
  bufferCount := 0
  releasing := []

end System
end Player2
