import Duckbox.BufferPool.ReferenceCounting

/-!
# The memory of a buffer pool

`BufferPool_Generic_c` with the memory of its buffers: `GetBuffer` with its
parameter checks and its two ways to a buffer record, the four functions that
allocate, free, shrink and extend a memory block, and `PartitionBuffer`. What
the outside answers is an argument: whether `new` returns a record, whether a
call that waits for a buffer is aborted, and what the source of the memory grants.

A buffer record is named by the number of records made before it. A call that
has to wait for a buffer is the same call made again after the next release; one
that waits for memory has taken its record, and goes on with it when the allocator
of the memory pool has enough (`memoryGranted`). That allocator is only deleted with
the pool, so the wait has no other end.

Not modelled: addresses (a block remembers its offset in the supplied block),
owner identifiers, meta data and attached buffers (the release of an attached
buffer is one more release), and the locks.
-/

namespace Duckbox.BufferPool

open Duckbox.Lib

/-- `NOT_SPECIFIED`. -/
abbrev notSpecified : UnsignedInt := 0xffffffff

/-- `BufferAllocationSource_t`. -/
inductive AllocationSource where
  | noAllocation
  | allocateFromOSMemory
  | allocateFromDeviceMemory
  | allocateFromDeviceVideoLMIMemory
  | allocateFromSuppliedBlock
  | allocateIndividualSuppliedBlocks
  | allocateFromNamedDeviceMemory
deriving DecidableEq, Repr

/-- The statuses of the pool's functions. -/
inductive BufferStatus where
  | bufferError
  | bufferFailedToCreateBuffer
  | bufferNoFreeBufferAvailable
  | bufferInsufficientMemoryGeneral
deriving DecidableEq, Repr

/-- The `BufferDataDescriptor_t` of a pool, and what its constructor is given. -/
structure PoolConfiguration where
  allocationSource : AllocationSource
  allocationUnitSize : UnsignedInt
  hasFixedSize : Bool
  allocateOnPoolCreation : Bool
  fixedSize : UnsignedInt
  /-- `none` is `NOT_SPECIFIED`. -/
  numberOfBuffers : Option Nat
  size : UnsignedInt
  /-- Whether a memory pool, individual blocks and a partition name are given. -/
  memoryPool : Bool
  arrayOfMemoryBlocks : Bool
  memoryPartitionName : Bool
deriving DecidableEq, Repr

/-- `BlockDescriptor_s`. -/
structure MemoryBlock where
  size : UnsignedInt
  poolAllocatedOffset : UnsignedInt
deriving DecidableEq, Repr

/-- `Buffer_Generic_c`. -/
structure BufferRecord where
  referenceCount : UnsignedInt
  bufferBlock : MemoryBlock
  dataSize : UnsignedInt
deriving DecidableEq, Repr

/-- What the source of the memory grants: a size (that of the largest block,
where that is asked for) and an offset. -/
structure Grant where
  size : UnsignedInt
  offset : UnsignedInt
deriving DecidableEq, Repr

/-- `BufferPool_Generic_c`. -/
structure MemoryPool where
  buffers : Nat → BufferRecord
  buffersMade : Nat
  listOfBuffers : List Nat
  countOfBuffers : UnsignedInt
  freeBuffer : Ring Nat
  referenceCount : UnsignedInt
  countOfReferencedBuffers : UnsignedInt
  totalAllocatedMemory : UnsignedInt
  totalUsedMemory : UnsignedInt

namespace PoolConfiguration

/-- Up to a multiple of `AllocationUnitSize`. -/
def roundUp (c : PoolConfiguration) (size : UnsignedInt) : UnsignedInt :=
  (size + c.allocationUnitSize - 1) / c.allocationUnitSize * c.allocationUnitSize

/-- Whether memory comes and goes with each buffer. -/
def allocatesPerBuffer (c : PoolConfiguration) : Bool :=
  !c.allocateOnPoolCreation && c.allocationSource != .noAllocation

/-- Whether the pool has an allocator of its memory pool. -/
def memoryPoolAllocator (c : PoolConfiguration) : Bool :=
  c.memoryPool && !c.allocateOnPoolCreation

/-- `CheckMemoryParameters`: the `ItemSize`, or `BufferError`. -/
def checkMemoryParameters (c : PoolConfiguration) (arrayAllocate : Bool) (size : UnsignedInt)
    (memoryPool arrayOfMemoryBlocks : Bool) : Option UnsignedInt :=
  let requiredSize :=
    if memoryPool then
      if c.hasFixedSize then c.fixedSize
      else if arrayAllocate then size / BitVec.ofNat 32 (c.numberOfBuffers.getD notSpecified.toNat)
      else size
    else if size ≠ notSpecified then size
    else if c.hasFixedSize then c.fixedSize else notSpecified
  if requiredSize = notSpecified then none
  else if c.hasFixedSize ∧ requiredSize ≠ c.fixedSize then none
  else if arrayAllocate ∧ c.numberOfBuffers = none then none
  else if ¬ arrayAllocate ∧ arrayOfMemoryBlocks then none
  else
    match c.allocationSource with
    | .noAllocation => none
    | .allocateFromNamedDeviceMemory =>
      if ¬ c.memoryPartitionName ∨ memoryPool ∨ arrayOfMemoryBlocks then none
      else some requiredSize
    | .allocateFromOSMemory | .allocateFromDeviceMemory | .allocateFromDeviceVideoLMIMemory =>
      if memoryPool ∨ arrayOfMemoryBlocks then none else some requiredSize
    | .allocateFromSuppliedBlock =>
      if size = notSpecified ∨ ¬ memoryPool then none else some requiredSize
    | .allocateIndividualSuppliedBlocks =>
      if ¬ arrayOfMemoryBlocks then none else some requiredSize

/-- `AllocateMemoryBlock`: whether the memory is there, and what the block then says. The
allocator of a memory pool is asked to block until it is. -/
def allocateMemoryBlock (c : PoolConfiguration) (block : MemoryBlock)
    (arrayAllocate poolAllocator requiredSizeIsLowerBound : Bool) (memory : Option Grant) :
    Bool × MemoryBlock :=
  if block.size = 0 then (true, block)
  else
    match c.allocationSource with
    | .allocateFromOSMemory | .allocateFromNamedDeviceMemory
    | .allocateFromDeviceVideoLMIMemory | .allocateFromDeviceMemory => (memory.isSome, block)
    | .allocateFromSuppliedBlock =>
      let block := { block with poolAllocatedOffset := 0 }
      if !arrayAllocate && poolAllocator then
        let block := { block with size := c.roundUp block.size }
        match memory with
        | none => (false, block)
        | some granted =>
          (true,
            { size := if requiredSizeIsLowerBound then granted.size else block.size
              poolAllocatedOffset := granted.offset })
      else (true, block)
    | .allocateIndividualSuppliedBlocks | .noAllocation => (true, block)

/-- `ShrinkMemoryBlock`; `none` is `BufferError`. -/
def shrinkMemoryBlock (c : PoolConfiguration) (block : MemoryBlock) (newSize : UnsignedInt) :
    Option MemoryBlock :=
  if c.allocateOnPoolCreation then none
  else if block.size ≤ newSize then none
  else
    match c.allocationSource with
    | .noAllocation => none
    | .allocateFromOSMemory | .allocateFromNamedDeviceMemory
    | .allocateFromDeviceVideoLMIMemory | .allocateFromDeviceMemory
    | .allocateIndividualSuppliedBlocks => some block
    | .allocateFromSuppliedBlock => some { block with size := c.roundUp newSize }

/-- `ExtendMemoryBlock`; `none` is `BufferError`. -/
def extendMemoryBlock (c : PoolConfiguration) (block : MemoryBlock) (memory : Option Grant) :
    Option MemoryBlock :=
  if c.allocateOnPoolCreation then none
  else if c.allocationSource = .allocateFromSuppliedBlock then
    memory.map fun granted =>
      { block with size := granted.size, poolAllocatedOffset := granted.offset }
  else none

/-- `PartitionBuffer`'s check of the descriptor. -/
def supportsPartitioning (c : PoolConfiguration) : Bool :=
  !c.allocateOnPoolCreation &&
    (c.allocationSource == .allocateFromSuppliedBlock || c.allocationSource == .noAllocation)

end PoolConfiguration

/-- What a call of `GetBuffer` meets outside the pool. -/
structure Surroundings where
  aborted : Bool
  newBuffer : Bool
  memory : Option Grant
deriving DecidableEq, Repr

/-- What a call of `GetBuffer` comes to. -/
inductive Got (σ : Type) where
  | waiting
  /-- It waits for memory, with the record that it has taken. -/
  | waitingForMemory (buffer : Nat) (s : σ)
  | failed (status : BufferStatus) (s : σ)
  | got (buffer : Nat) (s : σ)

namespace MemoryPool

def modifyBuffer (s : MemoryPool) (b : Nat) (f : BufferRecord → BufferRecord) : MemoryPool :=
  { s with buffers := Function.update s.buffers b (f (s.buffers b)) }

/-- The block of a buffer. -/
def block (s : MemoryPool) (b : Nat) : MemoryBlock := (s.buffers b).bufferBlock

def setBlock (s : MemoryPool) (b : Nat) (block : MemoryBlock) : MemoryPool :=
  s.modifyBuffer b fun x => { x with bufferBlock := block }

/-- "Get a buffer - two different paths": a new record, or one off the ring. -/
def takeRecord (c : PoolConfiguration) (s : MemoryPool) (nonBlocking : Bool) (o : Surroundings) :
    Got MemoryPool :=
  match c.numberOfBuffers with
  | none =>
    if o.newBuffer then
      .got s.buffersMade
        { s with
          buffers := Function.update s.buffers s.buffersMade ⟨0, ⟨0, 0⟩, 0⟩
          buffersMade := s.buffersMade + 1
          listOfBuffers := s.buffersMade :: s.listOfBuffers
          countOfBuffers := s.countOfBuffers + 1 }
    else .failed .bufferFailedToCreateBuffer s
  | some _ =>
    match s.freeBuffer.extract with
    | some (b, ring) => .got b { s with freeBuffer := ring }
    | none =>
      if nonBlocking || o.aborted then .failed .bufferNoFreeBufferAvailable s else .waiting

/-- "Deal with the memory". -/
def allocateFor (c : PoolConfiguration) (s : MemoryPool) (b : Nat) (itemSize : UnsignedInt)
    (requiredSizeIsLowerBound : Bool) (memory : Option Grant) : Bool × MemoryPool :=
  let (obtained, block) := c.allocateMemoryBlock { s.block b with size := itemSize } false
    c.memoryPoolAllocator requiredSizeIsLowerBound memory
  let s := s.setBlock b block
  (obtained,
    if obtained then { s with totalAllocatedMemory := s.totalAllocatedMemory + block.size } else s)

/-- The end of `GetBuffer`: the record is a buffer with one reference. -/
def handOver (s : MemoryPool) (b : Nat) : MemoryPool :=
  { s.modifyBuffer b fun x => { x with dataSize := 0, referenceCount := 1 } with
    referenceCount := s.referenceCount + 1
    countOfReferencedBuffers := s.countOfReferencedBuffers + 1 }

/-- `GetBuffer`. The memory pool handed to the check is the member array, so it
is never `NULL` there. -/
def getBuffer (c : PoolConfiguration) (s : MemoryPool) (requiredSize : UnsignedInt)
    (nonBlocking requiredSizeIsLowerBound : Bool) (o : Surroundings) : Got MemoryPool :=
  if c.allocatesPerBuffer then
    match c.checkMemoryParameters false requiredSize true false with
    | none => .failed .bufferError s
    | some itemSize =>
      match s.takeRecord c nonBlocking o with
      | .got b s =>
        match s.allocateFor c b itemSize requiredSizeIsLowerBound o.memory with
        | (true, s) => .got b (s.handOver b)
        | (false, s) =>
          if c.allocationSource = .allocateFromSuppliedBlock then .waitingForMemory b s
          else .failed .bufferInsufficientMemoryGeneral s
      | other => other
  else
    match s.takeRecord c nonBlocking o with
    | .got b s => .got b (s.handOver b)
    | other => other

/-- A record that a call of `GetBuffer` waits for memory with. -/
def Waits (s : MemoryPool) (b : Nat) : Prop :=
  b ∈ s.listOfBuffers ∧ (s.buffers b).referenceCount = 0 ∧ b ∉ s.freeBuffer.entries

instance (s : MemoryPool) (b : Nat) : Decidable (s.Waits b) :=
  inferInstanceAs (Decidable (_ ∧ _ ∧ _))

/-- The rest of that call, when the memory is there. -/
def memoryGranted (s : MemoryPool) (b : Nat) (requiredSizeIsLowerBound : Bool) (granted : Grant) :
    MemoryPool :=
  let block : MemoryBlock :=
    { size := if requiredSizeIsLowerBound then granted.size else (s.block b).size
      poolAllocatedOffset := granted.offset }
  { s.setBlock b block with
    totalAllocatedMemory := s.totalAllocatedMemory + block.size }.handOver b

/-- `DeAllocateMemoryBlock`. -/
def deAllocateMemoryBlock (s : MemoryPool) (b : Nat) : MemoryPool :=
  let block := s.block b
  if block.size = 0 then s
  else
    { s.setBlock b { block with size := 0 } with
      totalAllocatedMemory := s.totalAllocatedMemory - block.size }

/-- The end of `ReleaseBuffer`: the record goes to the ring, or is deleted. -/
def putBack (c : PoolConfiguration) (s : MemoryPool) (b : Nat) : MemoryPool :=
  match c.numberOfBuffers with
  | some _ =>
    { s with
      freeBuffer := s.freeBuffer.insert b
      countOfReferencedBuffers := s.countOfReferencedBuffers - 1 }
  | none =>
    { s with
      listOfBuffers := s.listOfBuffers.erase b
      countOfBuffers := s.countOfBuffers - 1
      countOfReferencedBuffers := s.countOfReferencedBuffers - 1 }

/-- `ReleaseBuffer`. -/
def releaseBuffer (c : PoolConfiguration) (s : MemoryPool) (b : Nat) : MemoryPool :=
  let s := if c.allocatesPerBuffer then s.deAllocateMemoryBlock b else s
  let s := { s.modifyBuffer b fun x => { x with dataSize := 0 } with
    totalUsedMemory := s.totalUsedMemory - (s.buffers b).dataSize }
  s.putBack c b

/-- `IncrementReferenceCount`. -/
def incrementReferenceCount (s : MemoryPool) (b : Nat) : MemoryPool :=
  { s.modifyBuffer b fun x => { x with referenceCount := x.referenceCount + 1 } with
    referenceCount := s.referenceCount + 1 }

/-- `DecrementReferenceCount`. -/
def decrementReferenceCount (c : PoolConfiguration) (s : MemoryPool) (b : Nat) : MemoryPool :=
  let s := { s.modifyBuffer b fun x => { x with referenceCount := x.referenceCount - 1 } with
    referenceCount := s.referenceCount - 1 }
  if (s.buffers b).referenceCount = 0 then s.releaseBuffer c b else s

/-- `SetUsedDataSize`; an error changes nothing. -/
def setUsedDataSize (s : MemoryPool) (b : Nat) (dataSize : UnsignedInt) : MemoryPool :=
  if (s.block b).size < dataSize then s
  else
    { s.modifyBuffer b fun x => { x with dataSize := dataSize } with
      totalUsedMemory := s.totalUsedMemory - (s.buffers b).dataSize + dataSize }

/-- What `ShrinkBuffer` leaves of the block, `none` for an error. -/
def shrunkBlock (c : PoolConfiguration) (s : MemoryPool) (b : Nat) (newSize : UnsignedInt) :
    Option MemoryBlock :=
  if newSize < (s.buffers b).dataSize then none else c.shrinkMemoryBlock (s.block b) newSize

/-- `ShrinkBuffer`; an error changes nothing. -/
def shrinkBuffer (c : PoolConfiguration) (s : MemoryPool) (b : Nat) (newSize : UnsignedInt) :
    MemoryPool :=
  match s.shrunkBlock c b newSize with
  | none => s
  | some block => s.setBlock b block

/-- `ExtendBuffer`; an error changes nothing. -/
def extendBuffer (c : PoolConfiguration) (s : MemoryPool) (b : Nat) (memory : Option Grant) :
    MemoryPool :=
  match c.extendMemoryBlock (s.block b) memory with
  | none => s
  | some block => s.setBlock b block

/-- The split of one block into two: `b` keeps the first bytes. -/
def split (s : MemoryPool) (b new : Nat) (leaveInFirstPartitionSize : UnsignedInt) : MemoryPool :=
  let first := s.buffers b
  let s := s.modifyBuffer new fun x =>
    { x with
      bufferBlock :=
        { first.bufferBlock with
          size := first.bufferBlock.size - leaveInFirstPartitionSize
          poolAllocatedOffset :=
            first.bufferBlock.poolAllocatedOffset + leaveInFirstPartitionSize }
      dataSize := first.dataSize - leaveInFirstPartitionSize }
  s.modifyBuffer b fun x =>
    { x with
      bufferBlock := { x.bufferBlock with size := leaveInFirstPartitionSize }
      dataSize := leaveInFirstPartitionSize }

/-- `PartitionBuffer`: "a new buffer of zero size", then the split. -/
def partitionBuffer (c : PoolConfiguration) (s : MemoryPool) (b : Nat)
    (leaveInFirstPartitionSize : UnsignedInt) (nonBlocking : Bool) (o : Surroundings) :
    MemoryPool :=
  if c.supportsPartitioning then
    match s.getBuffer c 0 nonBlocking false o with
    | .got new s => s.split b new leaveInFirstPartitionSize
    | .failed _ s | .waitingForMemory _ s => s
    | .waiting => s
  else s

/-- The pool before its buffers are made. -/
def empty : MemoryPool where
  buffers _ := ⟨0, ⟨0, 0⟩, 0⟩
  buffersMade := 0
  listOfBuffers := []
  countOfBuffers := 0
  freeBuffer := ⟨0, []⟩
  referenceCount := 0
  countOfReferencedBuffers := 0
  totalAllocatedMemory := 0
  totalUsedMemory := 0

/-- The pool with `n` buffers, each with the same block, all on the ring. -/
def withBuffers (n : Nat) (block : MemoryBlock) (totalAllocatedMemory : UnsignedInt) :
    MemoryPool :=
  { empty with
    buffers := fun _ => ⟨0, block, 0⟩
    buffersMade := n
    listOfBuffers := (List.range n).reverse
    freeBuffer := (List.range n).foldl Ring.insert (Ring.create n)
    totalAllocatedMemory := totalAllocatedMemory }

/-- The constructor; `none` when it ends in `TidyUp`. -/
def created (c : PoolConfiguration) (memory : Option Grant) : Option MemoryPool :=
  match c.numberOfBuffers with
  | none => some empty
  | some n =>
    if c.allocateOnPoolCreation then
      match c.checkMemoryParameters true c.size c.memoryPool c.arrayOfMemoryBlocks with
      | none => none
      | some itemSize =>
        -- one block for all buffers, each of which is a part of it
        match c.allocateMemoryBlock ⟨itemSize * BitVec.ofNat 32 n, 0⟩ true false false memory with
        | (false, _) => none
        | (true, block) => some (withBuffers n ⟨itemSize, 0⟩ block.size)
    else some (withBuffers n ⟨0, 0⟩ 0)

/-! ## Runs -/

/-- The calls of the users of a pool. -/
inductive Operation where
  | getBuffer (requiredSize : UnsignedInt) (nonBlocking requiredSizeIsLowerBound : Bool)
      (o : Surroundings)
  | incrementReferenceCount (b : Nat)
  | decrementReferenceCount (b : Nat)
  | setUsedDataSize (b : Nat) (dataSize : UnsignedInt)
  | shrinkBuffer (b : Nat) (newSize : UnsignedInt)
  | extendBuffer (b : Nat) (memory : Option Grant)
  | partitionBuffer (b : Nat) (leaveInFirstPartitionSize : UnsignedInt) (nonBlocking : Bool)
      (o : Surroundings)
  /-- A call of `GetBuffer` that has waited for memory goes on, and the `PartitionBuffer` that
  it may be for: of which buffer, and what that leaves in the first part. -/
  | memoryGranted (b : Nat) (requiredSizeIsLowerBound : Bool) (granted : Grant)
      (partitioned : Option (Nat × UnsignedInt))

/-- A buffer of the pool that somebody holds. -/
def Holds (s : MemoryPool) (b : Nat) : Prop :=
  b ∈ s.listOfBuffers ∧ (s.buffers b).referenceCount ≠ 0

instance (s : MemoryPool) (b : Nat) : Decidable (s.Holds b) :=
  inferInstanceAs (Decidable (_ ∧ _))

/-- Nobody calls on a buffer that is not held, or holds one 2^32 times. -/
def Callable (s : MemoryPool) : Operation → Prop
  | .getBuffer .. => True
  | .incrementReferenceCount b => s.Holds b ∧ (s.buffers b).referenceCount + 1 ≠ 0
  | .decrementReferenceCount b | .setUsedDataSize b _ | .shrinkBuffer b _ | .extendBuffer b _
  | .partitionBuffer b .. => s.Holds b
  | .memoryGranted b _ _ partitioned => s.Waits b ∧ ∀ p ∈ partitioned, s.Holds p.1

instance (s : MemoryPool) : ∀ op, Decidable (s.Callable op)
  | .getBuffer .. => inferInstanceAs (Decidable True)
  | .incrementReferenceCount b => inferInstanceAs (Decidable (s.Holds b ∧ _))
  | .decrementReferenceCount b | .setUsedDataSize b _ | .shrinkBuffer b _ | .extendBuffer b _
  | .partitionBuffer b .. => inferInstanceAs (Decidable (s.Holds b))
  | .memoryGranted b _ _ partitioned =>
    inferInstanceAs (Decidable (s.Waits b ∧ ∀ p ∈ partitioned, s.Holds p.1))

/-- One call. -/
def apply (c : PoolConfiguration) (s : MemoryPool) : Operation → MemoryPool
  | .getBuffer requiredSize nonBlocking requiredSizeIsLowerBound o =>
    match s.getBuffer c requiredSize nonBlocking requiredSizeIsLowerBound o with
    | .got _ s | .failed _ s | .waitingForMemory _ s => s
    | .waiting => s
  | .incrementReferenceCount b => s.incrementReferenceCount b
  | .decrementReferenceCount b => s.decrementReferenceCount c b
  | .setUsedDataSize b dataSize => s.setUsedDataSize b dataSize
  | .shrinkBuffer b newSize => s.shrinkBuffer c b newSize
  | .extendBuffer b memory => s.extendBuffer c b memory
  | .partitionBuffer b leave nonBlocking o => s.partitionBuffer c b leave nonBlocking o
  | .memoryGranted b requiredSizeIsLowerBound granted partitioned =>
    if c.allocatesPerBuffer && c.allocationSource == .allocateFromSuppliedBlock then
      let s := s.memoryGranted b requiredSizeIsLowerBound granted
      match partitioned with
      | none => s
      | some (first, leave) => s.split first b leave
    else s

/-- One call, if it can be made. -/
def step (c : PoolConfiguration) (s : MemoryPool) (op : Operation) : MemoryPool :=
  if s.Callable op then s.apply c op else s

end MemoryPool

end Duckbox.BufferPool
