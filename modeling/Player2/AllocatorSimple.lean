import Player2.Tiling

/-! # The simple allocator

`AllocatorSimple_c` hands out parts of a buffer as offsets from its start.  Its state is a
table of `ALLOCATOR_SIMPLE_MAX_BLOCKS` records, each describing one free range while its
`InUse` flag is set, and the index `HighestUsedBlockIndex` up to which the table is scanned.
No range crosses a 64 MB boundary of the physical address space.

The functions below are the sections the allocator executes under its lock.  `Allocate` and
`AllocateLargest` either grant a range or leave the table alone (the blocking variants then
wait and try again); `Free` reads `HighestUsedBlockIndex` before it takes the lock, so its
locked section `freeLocked` has the value read as a parameter. -/

namespace Player2

open Tiling

/-- Truncation to an `unsigned int`. -/
def u32 (n : ℕ) : ℕ := n % 2 ^ 32

theorem u32_of_lt {n : ℕ} (h : n < 2 ^ 32) : u32 n = n := Nat.mod_eq_of_lt h

/-- The allocator's status codes. -/
inductive AllocatorStatus where
  | allocatorError
  | allocatorNoMemory
  | allocatorUnableToAllocate
deriving DecidableEq, Repr

def allocatorSimpleMaxBlocks : ℕ := 256

/-- `AllocatorSimpleBlock_t`. -/
structure AllocatorSimpleBlock where
  inUse : Bool
  size : ℕ
  base : ℕ
deriving DecidableEq, Repr

namespace AllocatorSimpleBlock

/-- The record `memset` to zero. -/
def zero : AllocatorSimpleBlock := ⟨false, 0, 0⟩

/-- The free range a record describes. -/
def span (b : AllocatorSimpleBlock) : Span := ⟨b.base, b.size⟩

/-- `1` on the addresses of an in-use record. -/
def hits (x : ℕ) (b : AllocatorSimpleBlock) : ℕ := if b.inUse then b.span.hits x else 0

theorem hits_of_inUse {b : AllocatorSimpleBlock} (h : b.inUse = true) (x : ℕ) :
    hits x b = b.span.hits x := by simp [hits, h]

theorem hits_of_not_inUse {b : AllocatorSimpleBlock} (h : b.inUse = false) (x : ℕ) :
    hits x b = 0 := by simp [hits, h]

end AllocatorSimpleBlock

/-- `AllocatorSimple_c`. -/
structure AllocatorSimple where
  bufferSize : ℕ
  segmentSize : ℕ
  physicalAddress : ℕ
  highestUsedBlockIndex : ℕ
  blocks : ℕ → AllocatorSimpleBlock

namespace AllocatorSimple

def on64MBBoundary (a : AllocatorSimple) (offset : ℕ) : Bool :=
  decide ((u32 (offset + a.physicalAddress)) &&& 0x03ffffff = 0)

/-- `Size` rounded up to whole segments, in 32-bit arithmetic. -/
def roundToSegment (a : AllocatorSimple) (size : ℕ) : ℕ :=
  u32 (size + a.segmentSize - 1) / a.segmentSize * a.segmentSize

/-- The indices a scan of the table visits, in order. -/
def indices (a : AllocatorSimple) : List ℕ := List.range (a.highestUsedBlockIndex + 1)

def setBlock (a : AllocatorSimple) (i : ℕ) (b : AllocatorSimpleBlock) : AllocatorSimple :=
  { a with blocks := Function.update a.blocks i b }

/-! ### `Allocate` and `AllocateLargest` -/

/-- `Allocate`: the front of the first record that is large enough. -/
def allocate (a : AllocatorSimple) (size : ℕ) :
    Except AllocatorStatus (Span × AllocatorSimple) :=
  let size := a.roundToSegment size
  match a.indices.find? (fun i => (a.blocks i).inUse && decide (size ≤ (a.blocks i).size)) with
  | none => .error .allocatorUnableToAllocate
  | some i =>
    let b := a.blocks i
    .ok (⟨b.base, size⟩,
      a.setBlock i ⟨decide (b.size - size ≠ 0), b.size - size, b.base + size⟩)

/-- `LargestFreeBlock(void)`: the first of the largest in-use records. -/
def largestFreeBlock (a : AllocatorSimple) : Option ℕ :=
  a.indices.foldl (fun index i =>
    if (a.blocks i).inUse then
      match index with
      | none => some i
      | some j => if (a.blocks j).size < (a.blocks i).size then some i else some j
    else index) none

/-- `AllocateLargest`: the whole of the largest record, when it is large enough. -/
def allocateLargest (a : AllocatorSimple) (size : ℕ) :
    Except AllocatorStatus (Span × AllocatorSimple) :=
  match a.largestFreeBlock with
  | none => .error .allocatorUnableToAllocate
  | some i =>
    let b := a.blocks i
    if size ≤ b.size then .ok (b.span, a.setBlock i { b with size := 0, inUse := false })
    else .error .allocatorUnableToAllocate

/-! ### `ExtendToLargest` -/

/-- `ExtendToLargest`: take the whole of the free record that adjoins the block at its end
(`extendUpwards`) or at its start. -/
def extendToLargest (a : AllocatorSimple) (block : Span) (extendUpwards : Bool) :
    Except AllocatorStatus (Span × AllocatorSimple) :=
  if extendUpwards then
    let boundaryToExtend := block.base + block.size
    if a.on64MBBoundary boundaryToExtend ∨ u32 (a.physicalAddress + a.bufferSize) ≤ boundaryToExtend
    then .error .allocatorNoMemory
    else
      match a.indices.find? (fun i => (a.blocks i).inUse &&
        decide (boundaryToExtend = (a.blocks i).base)) with
      | none => .error .allocatorUnableToAllocate
      | some i =>
        let b := a.blocks i
        .ok (⟨block.base, block.size + b.size⟩, a.setBlock i { b with size := 0, inUse := false })
  else
    let boundaryToExtend := block.base
    if a.on64MBBoundary boundaryToExtend ∨ boundaryToExtend = a.physicalAddress
    then .error .allocatorNoMemory
    else
      match a.indices.find? (fun i => (a.blocks i).inUse &&
        decide (boundaryToExtend = (a.blocks i).base + (a.blocks i).size)) with
      | none => .error .allocatorUnableToAllocate
      | some i =>
        let b := a.blocks i
        .ok (⟨b.base, block.size + b.size⟩, a.setBlock i { b with size := 0, inUse := false })

/-! ### `Free` -/

/-- The loop of `Free(void)`: `slots` is the number of records still available from index
`i` on; the blocks stop at every 64 MB boundary. -/
def freeAllLoop (a : AllocatorSimple) : (slots i localBufferSize localOffset maxBlockSize : ℕ) →
    AllocatorSimple
  | 0, _, _, _, _ => a
  | slots + 1, i, localBufferSize, localOffset, maxBlockSize =>
    if localBufferSize = 0 then a
    else
      let size := min localBufferSize maxBlockSize
      freeAllLoop { a.setBlock i ⟨true, size, localOffset⟩ with highestUsedBlockIndex := i }
        slots (i + 1) (localBufferSize - size) (localOffset + size) 0x4000000

/-- `Free(void)`. -/
def freeAll (a : AllocatorSimple) : AllocatorSimple :=
  freeAllLoop { a with blocks := fun _ => .zero, highestUsedBlockIndex := 0 }
    allocatorSimpleMaxBlocks 0 a.bufferSize 0 (0x4000000 - (a.physicalAddress &&& 0x03ffffff))

/-- The constructor. -/
def create (bufferSize segmentSize physicalAddress : ℕ) : AllocatorSimple :=
  freeAll ⟨bufferSize, segmentSize, physicalAddress, 0, fun _ => .zero⟩

/-- The locals of `Free(Size, Block)` during its scan. -/
structure FreeScan where
  blocks : ℕ → AllocatorSimpleBlock
  size : ℕ
  block : ℕ
  lowestFreeBlock : ℕ
  nextHighestUsedBlockIndex : ℕ

/-- The first half of the loop body: an in-use record that adjoins the block being freed is
absorbed, unless the two meet at a 64 MB boundary. -/
def FreeScan.absorb (a : AllocatorSimple) (s : FreeScan) (i : ℕ) : FreeScan :=
  let b := s.blocks i
  if b.inUse then
    if s.block + s.size = b.base ∧ !a.on64MBBoundary b.base then
      { s with size := s.size + b.size
               blocks := Function.update s.blocks i { b with inUse := false } }
    else if s.block = b.base + b.size ∧ !a.on64MBBoundary s.block then
      { s with size := s.size + b.size, block := b.base
               blocks := Function.update s.blocks i { b with inUse := false } }
    else { s with nextHighestUsedBlockIndex := i }
  else s

/-- The loop body of `Free(Size, Block)`. -/
def FreeScan.step (a : AllocatorSimple) (s : FreeScan) (i : ℕ) : FreeScan :=
  let s := s.absorb a i
  if (s.blocks i).inUse then s else { s with lowestFreeBlock := min s.lowestFreeBlock i }

/-- The scan of `Free(Size, Block)` over the whole table. -/
def freeScan (a : AllocatorSimple) (size block lowestFreeBlock : ℕ) : FreeScan :=
  a.indices.foldl (FreeScan.step a) ⟨a.blocks, size, block, lowestFreeBlock, 0⟩

/-- The locked section of `Free(Size, Block)`: `lowestFreeBlock` is the value set up before
the lock is taken.  The state is also returned with an error, since the records absorbed by
the scan stay absorbed. -/
def freeLocked (a : AllocatorSimple) (size block lowestFreeBlock : ℕ) :
    Option AllocatorStatus × AllocatorSimple :=
  let s := a.freeScan size block lowestFreeBlock
  if s.lowestFreeBlock = allocatorSimpleMaxBlocks then
    (some .allocatorError, { a with blocks := s.blocks })
  else
    (none, { a with
      blocks := Function.update s.blocks s.lowestFreeBlock ⟨true, s.size, s.block⟩
      highestUsedBlockIndex := max s.lowestFreeBlock s.nextHighestUsedBlockIndex })

/-- `Free(Size, Block)` when no other thread intervenes. -/
def free (a : AllocatorSimple) (size block : ℕ) : Option AllocatorStatus × AllocatorSimple :=
  a.freeLocked (a.roundToSegment size) block (a.highestUsedBlockIndex + 1)

end AllocatorSimple
end Player2
