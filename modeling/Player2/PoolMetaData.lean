import Player2.BufferDataTypes

/-! # Meta data of a pool and of its buffers

Meta data is attached to a single buffer, or to all buffers of a pool at once: then one block of
memory is allocated for the pool, and a record for a part of it is threaded on the list of every
buffer.  `DetachMetaData` of the pool takes the first record of the type off every list, provided
that it belongs to the pool; `DetachMetaData` of a buffer takes the first one that does not.

`PartitionBuffer` attaches meta data to the second buffer one by one.  Each of these is a step of its
own, and no other call is made in between.  What the environment decides is in the labels: whether
there is memory, for a record and for the data.  Acting on a buffer that is not in use is a fatal
report; there is no step then. -/

namespace Player2.PoolMetaData

open BufferDataTypes (Descriptor Manager Status metaDataTypeBase)

/-! ### The data -/

/-- The part of the descriptor that concerns memory. -/
def memoryOf (d : Descriptor) : BufferDataDescriptor where
  allocationSource := d.allocationSource
  allocationUnitSize := d.allocationUnitSize.toNat
  hasFixedSize := d.hasFixedSize
  allocateOnPoolCreation := d.allocateOnPoolCreation
  fixedSize := d.fixedSize.toNat

/-- `BlockDescriptor_s`, for meta data.  `address` is `Address[CachedAddress]`, 0 when it is
`NULL`. -/
structure Block where
  descriptor : Descriptor
  attachedToPool : Bool
  size : ℕ
  address : ℕ
deriving DecidableEq

/-- `Descriptor->Type`. -/
def Block.type (block : Block) : UInt32 := block.descriptor.type

/-- `Buffer_Generic_c`; in use while its reference count is not zero. -/
structure Buffer where
  identity : ℕ
  index : ℕ
  inUse : Bool
  listOfMetaData : List Block
deriving DecidableEq

/-- Thread a block on the list. -/
def Buffer.thread (block : Block) (buf : Buffer) : Buffer :=
  { buf with listOfMetaData := block :: buf.listOfMetaData }

/-- A call of `PartitionBuffer` that duplicates meta data: the second buffer, the data that is left,
and the variable `MemoryBlock`. -/
structure Partition where
  second : ℕ
  data : List Block
  memoryBlock : ℕ
deriving DecidableEq

/-- `BufferPool_Generic_c`. -/
structure Pool where
  manager : Manager
  bufferDescriptor : BufferDataDescriptor
  numberOfBuffers : ℕ
  countOfBuffers : ℕ
  /-- The identity of the next buffer to be constructed. -/
  constructed : ℕ
  listOfMetaData : List Block
  listOfBuffers : List Buffer
  freeBuffer : List ℕ
  /-- The call of `PartitionBuffer` in progress. -/
  partitioning : Option Partition

/-- The constructor.  A pool without a number of buffers constructs them one by one. -/
def Pool.create (manager : Manager) (descriptor : BufferDataDescriptor) (numberOfBuffers : ℕ) :
    Pool where
  manager := manager
  bufferDescriptor := descriptor
  numberOfBuffers := numberOfBuffers
  countOfBuffers := 0
  constructed := if numberOfBuffers = notSpecified then 0 else numberOfBuffers
  listOfMetaData := []
  listOfBuffers :=
    if numberOfBuffers = notSpecified then []
    else (List.range numberOfBuffers).reverse.map fun i => ⟨i, i, false, []⟩
  freeBuffer := if numberOfBuffers = notSpecified then [] else List.range numberOfBuffers
  partitioning := none

/-- The arguments of `AttachMetaData`.  Pointers are 0 when they are `NULL`. -/
structure Request where
  type : UInt32
  size : ℕ
  memoryBlock : ℕ
  /-- `ArrayOfMemoryBlocks`, for pools -/
  arrayOfMemoryBlocks : Option (ℕ → ℕ)
  /-- `DeviceMemoryPartitionName` is not `NULL` and not empty. -/
  partitionName : Bool

/-- What the environment decides about a block: whether its record can be created, and the memory
that the system has for it. -/
structure Environment where
  record : Bool
  memory : Option ℕ

/-- What the environment decides about a buffer: whether the memory parameters of the pool are all
right, whether a new buffer can be constructed, and whether there is memory for it. -/
structure BufferEnvironment where
  parameters : Bool
  record : Bool
  memory : Bool

/-! ### Memory -/

/-- The memory comes from the system. -/
def fromSystem : AllocationSource → Bool
  | .allocateFromOSMemory | .allocateFromNamedDeviceMemory | .allocateFromDeviceVideoLMIMemory
  | .allocateFromDeviceMemory => true
  | _ => false

/-- `AllocateMemoryBlock`, for meta data. -/
def allocateMemoryBlock (block : Block) (memoryPool : ℕ) (memory : Option ℕ) : Block × Status :=
  let block := { block with address := 0 }
  if block.size = 0 then (block, .noError)
  else if fromSystem block.descriptor.allocationSource then
    match memory with
    | some address => ({ block with address := address }, .noError)
    | none => (block, .insufficientMemoryGeneral)
  else if block.descriptor.allocationSource = .allocateFromSuppliedBlock then
    ({ block with address := memoryPool }, .noError)
  else (block, .noError)

/-- `CheckMemoryParameters`, with the size of an item. -/
def checkMemoryParameters (d : Descriptor) (numberOfBuffers : ℕ) (arrayAllocate : Bool)
    (r : Request) : Except Status ℕ :=
  match BufferPool.checkMemoryParameters (memoryOf d) numberOfBuffers arrayAllocate r.size
      (r.memoryBlock ≠ 0) r.arrayOfMemoryBlocks.isSome r.partitionName with
  | .ok itemSize => .ok itemSize
  | .error _ => .error .error

namespace Pool

/-! ### Buffers -/

/-- The buffer is in the pool and in use. -/
def isInUse (s : Pool) (b : ℕ) : Bool := s.listOfBuffers.any fun buf => buf.identity == b && buf.inUse

/-- Change one buffer. -/
def modifyBuffer (s : Pool) (b : ℕ) (f : Buffer → Buffer) : Pool :=
  { s with listOfBuffers := s.listOfBuffers.map fun buf => if buf.identity = b then f buf else buf }

/-- The meta data of a buffer. -/
def metaDataOf (s : Pool) (b : ℕ) : List Block :=
  match s.listOfBuffers.find? fun buf => buf.identity == b with
  | some buf => buf.listOfMetaData
  | none => []

/-! ### Meta data of a buffer -/

/-- The record of a block for a buffer, before its memory is allocated, or what is wrong with the
request.  Where the memory is not allocated it is supplied. -/
def blockFor (s : Pool) (r : Request) (record : Bool) : Except Status Block := do
  let d ← s.manager.lookup r.type metaDataTypeBase
  if d.allocationSource ≠ .noAllocation then
    let itemSize ← checkMemoryParameters d s.numberOfBuffers false r
    if record then return ⟨d, false, itemSize, 0⟩ else throw .insufficientMemoryForMetaData
  else if r.memoryBlock = 0 then throw .parametersIncompatibleWithAllocationSource
  else if record then return ⟨d, false, r.size, r.memoryBlock⟩
  else throw .insufficientMemoryForMetaData

/-- The memory of a block for a buffer. -/
def memoryFor (block : Block) (r : Request) (memory : Option ℕ) : Block × Status :=
  if block.descriptor.allocationSource ≠ .noAllocation then
    allocateMemoryBlock block r.memoryBlock memory
  else (block, .noError)

/-- `AttachMetaData` of a buffer.  The record is on the list before the memory is allocated. -/
def attachMetaDataToBuffer (s : Pool) (b : ℕ) (r : Request) (env : Environment) : Pool × Status :=
  match s.blockFor r env.record with
  | .error status => (s, status)
  | .ok block =>
    let allocated := memoryFor block r env.memory
    (s.modifyBuffer b (Buffer.thread allocated.1), allocated.2)

/-- A block of the type that was attached to the buffer itself. -/
def ownOf (type : UInt32) (block : Block) : Bool := block.type == type && !block.attachedToPool

/-- `DetachMetaData` of a buffer. -/
def detachMetaDataFromBuffer (s : Pool) (b : ℕ) (type : UInt32) : Pool × Status :=
  if (s.metaDataOf b).any (ownOf type) then
    (s.modifyBuffer b fun buf =>
      { buf with listOfMetaData := buf.listOfMetaData.eraseP (ownOf type) }, .noError)
  else (s, .metaDataTypeNotFound)

/-! ### Meta data of the pool -/

/-- The block of memory for the whole pool, with the size of an item, or what is wrong with the
request. -/
def blockForPool (s : Pool) (r : Request) (env : Environment) : Except Status (Block × ℕ) := do
  let d ← s.manager.lookup r.type metaDataTypeBase
  let itemSize ← checkMemoryParameters d s.numberOfBuffers true r
  if !env.record then throw .insufficientMemoryForMetaData
  else
    let allocated := allocateMemoryBlock ⟨d, true, u32 (itemSize * s.numberOfBuffers), 0⟩
      r.memoryBlock env.memory
    if allocated.2 = .noError then return (allocated.1, itemSize) else throw allocated.2

/-- The record for the part of the block that is a buffer's. -/
def subBlock (block : Block) (itemSize : ℕ) (r : Request) (buf : Buffer) : Block where
  descriptor := block.descriptor
  attachedToPool := true
  size := itemSize
  address :=
    if block.descriptor.allocationSource = .allocateIndividualSuppliedBlocks then
      (r.arrayOfMemoryBlocks.map fun blocks => blocks buf.index).getD 0
    else block.address + buf.index * itemSize

/-- The loop that threads a record on the list of each buffer, until one cannot be created. -/
def threadSubBlocks (sub : Buffer → Block) (record : ℕ → Bool) : List Buffer → List Buffer × Status
  | [] => ([], .noError)
  | buf :: rest =>
    if record buf.identity then
      let threaded := threadSubBlocks sub record rest
      (Buffer.thread (sub buf) buf :: threaded.1, threaded.2)
    else (buf :: rest, .insufficientMemoryForMetaData)

/-- The type is attached to the pool. -/
def isAttached (s : Pool) (type : UInt32) : Bool := s.listOfMetaData.any fun m => m.type == type

/-- `AttachMetaData` of the pool.  `record` says of which buffers the record can be created. -/
def attachMetaData (s : Pool) (r : Request) (env : Environment) (record : ℕ → Bool) :
    Pool × Status :=
  if s.isAttached r.type then (s, .noError)
  else
    match s.blockForPool r env with
    | .error status => (s, status)
    | .ok (block, itemSize) =>
      let threaded := threadSubBlocks (subBlock block itemSize r) record s.listOfBuffers
      ({ s with
          listOfMetaData := block :: s.listOfMetaData
          listOfBuffers := threaded.1 }, threaded.2)

/-- Unthread the first block of the type, provided that it belongs to the pool. -/
def unthread (type : UInt32) (blocks : List Block) : List Block :=
  match blocks.find? fun m => m.type == type with
  | some m => if m.attachedToPool then blocks.eraseP fun m => m.type == type else blocks
  | none => blocks

/-- `DetachMetaData` of the pool. -/
def detachMetaData (s : Pool) (type : UInt32) : Pool × Status :=
  if s.isAttached type then
    ({ s with
        listOfMetaData := s.listOfMetaData.eraseP fun m => m.type == type
        listOfBuffers := s.listOfBuffers.map fun buf =>
          { buf with listOfMetaData := unthread type buf.listOfMetaData } }, .noError)
  else (s, .metaDataTypeNotFound)

/-! ### Obtaining, releasing and partitioning buffers -/

/-- The record of a buffer for `GetBuffer`: a new one, or one that is free. -/
def takeBuffer (s : Pool) (record : Bool) : Except Status (Pool × ℕ) :=
  if s.numberOfBuffers = notSpecified then
    if record then
      .ok ({ s with
        countOfBuffers := s.countOfBuffers + 1
        constructed := s.constructed + 1
        listOfBuffers := ⟨s.constructed, s.countOfBuffers, false, []⟩ :: s.listOfBuffers },
        s.constructed)
    else .error .failedToCreateBuffer
  else
    match s.freeBuffer with
    | b :: rest => .ok ({ s with freeBuffer := rest }, b)
    | [] => .error .noFreeBufferAvailable

/-- `GetBuffer`, with the buffer that is obtained. -/
def getBuffer (s : Pool) (env : BufferEnvironment) : Pool × Status × Option ℕ :=
  if !env.parameters then (s, .error, none)
  else
    match s.takeBuffer env.record with
    | .error status => (s, status, none)
    | .ok (s, b) =>
      if env.memory then
        (s.modifyBuffer b fun buf => { buf with inUse := true }, .noError, some b)
      else (s, .insufficientMemoryGeneral, none)

def releaseBuffer (s : Pool) (b : ℕ) : Pool :=
  let s := s.modifyBuffer b fun buf =>
    { buf with inUse := false, listOfMetaData := buf.listOfMetaData.filter (·.attachedToPool) }
  if s.numberOfBuffers = notSpecified then
    { s with
      countOfBuffers := s.countOfBuffers - 1
      listOfBuffers := s.listOfBuffers.filter fun buf => buf.identity != b }
  else { s with freeBuffer := s.freeBuffer ++ [b] }

/-- Go on with the duplication while there is data left. -/
def goOn (s : Pool) (second : ℕ) (data : List Block) (memoryBlock : ℕ) : Pool :=
  { s with partitioning := if data = [] then none else some ⟨second, data, memoryBlock⟩ }

/-- `PartitionBuffer`, up to the duplication of the meta data.  `MemoryBlock` is not
initialized. -/
def partitionBuffer (s : Pool) (b : ℕ) (duplicateMetaData : Bool) (env : BufferEnvironment)
    (memoryBlock : ℕ) : Pool × Status :=
  if s.bufferDescriptor.allocateOnPoolCreation ∨
      fromSystem s.bufferDescriptor.allocationSource ∨
      s.bufferDescriptor.allocationSource = .allocateIndividualSuppliedBlocks then
    (s, .operationNotSupportedByThisDescriptor)
  else
    match s.getBuffer env with
    | (s', status, none) => (s', status)
    | (s', status, some second) =>
      (s'.goOn second (if duplicateMetaData then s.metaDataOf b else []) memoryBlock, status)

/-- `MemoryBlock` for the duplicate of a block. -/
def memoryBlockFor (datum : Block) (memoryBlock : ℕ) : ℕ :=
  match datum.descriptor.allocationSource with
  | .noAllocation => datum.address
  | .allocateIndividualSuppliedBlocks => memoryBlock
  | _ => 0

/-- What the duplicate of a block is attached with. -/
def requestFor (datum : Block) (memoryBlock : ℕ) : Request where
  type := datum.type
  size := datum.size
  memoryBlock := memoryBlockFor datum memoryBlock
  arrayOfMemoryBlocks := none
  partitionName := false

def obtainMetaDataReference (s : Pool) (b : ℕ) (type : UInt32) : Option ℕ :=
  ((s.metaDataOf b).find? fun m => m.type == type).map Block.address

/-- One round of the loop of `PartitionBuffer` that duplicates the meta data, with the status of its
call of `AttachMetaData`. -/
def duplicate (s : Pool) (p : Partition) (datum : Block) (rest : List Block) (env : Environment) :
    Pool × Status :=
  let r := requestFor datum p.memoryBlock
  let attached := s.attachMetaDataToBuffer p.second r env
  if attached.2 ≠ .noError then ({ attached.1 with partitioning := none }, attached.2)
  else if r.memoryBlock ≠ 0 then (attached.1.goOn p.second rest r.memoryBlock, .noError)
  else
    match attached.1.obtainMetaDataReference p.second r.type with
    | some address => (attached.1.goOn p.second rest address, .noError)
    | none => ({ attached.1 with partitioning := none }, .noError)

/-! ### Steps -/

/-- The calls. -/
inductive Label
  | attachToPool (r : Request) (env : Environment) (record : ℕ → Bool)
  | detachFromPool (type : UInt32)
  | attach (b : ℕ) (r : Request) (env : Environment)
  | detach (b : ℕ) (type : UInt32)
  | getBuffer (env : BufferEnvironment)
  | releaseBuffer (b : ℕ)
  | partitionBuffer (b : ℕ) (duplicateMetaData : Bool) (env : BufferEnvironment) (memoryBlock : ℕ)
  | duplicate (env : Environment)

/-- What a call does. -/
def perform (s : Pool) (l : Label) : Option (Pool × Status) :=
  match s.partitioning, l with
  | some p, .duplicate env =>
    match p.data with
    | datum :: rest =>
      if s.isInUse p.second then some (s.duplicate p datum rest env) else none
    | [] => none
  | some _, _ => none
  | none, .attachToPool r env record => some (s.attachMetaData r env record)
  | none, .detachFromPool type => some (s.detachMetaData type)
  | none, .attach b r env =>
    if s.isInUse b then some (s.attachMetaDataToBuffer b r env) else none
  | none, .detach b type => if s.isInUse b then some (s.detachMetaDataFromBuffer b type) else none
  | none, .getBuffer env => some ((s.getBuffer env).1, (s.getBuffer env).2.1)
  | none, .releaseBuffer b => if s.isInUse b then some (s.releaseBuffer b, .noError) else none
  | none, .partitionBuffer b duplicateMetaData env memoryBlock =>
    if s.isInUse b then some (s.partitionBuffer b duplicateMetaData env memoryBlock) else none
  | none, .duplicate _ => none

/-- A step. -/
def step (s : Pool) (l : Label) : Option Pool := (s.perform l).map Prod.fst

end Pool
end Player2.PoolMetaData
