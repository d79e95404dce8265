import Duckbox.Collator2.CodedFrames

/-!
# The second-generation base collator

`Collator2_Base_c` accumulates into one large operating buffer. A partition of it
is a frame to be: `AccumulateOnePartition` closes the current one and begins the
next, in forward play above it and in reverse below. `PartitionOutput` splits
those that are safe to output off the buffer, one by one, and then sees to it that
there is room to go on.

Addresses and sizes are 32 bit words, the memory is a function of the address. The
table of partition points is a function of the index: the source's has
`MAXIMUM_PARTITION_POINTS` entries, and what it writes past them is not in the
model. `NextPartition` is the entry after those used, which is where every function
below leaves it. What the coded frame buffer pool answers is an argument.

Not modelled: the promotion of glitches (it changes the parameters in the table
after they were copied to the buffer), the delay of an injection, and the lock.
-/

namespace Duckbox.Collator2

open BufferPool (UnsignedInt)
open Player (PlayDirection)

abbrev Address := BitVec 32

/-- `MINIMUM_ACCUMULATION_HEADROOM`. -/
abbrev minimumAccumulationHeadroom : UnsignedInt := 1024

/-- `MAXIMUM_ACCUMULATED_START_CODES`. -/
abbrev maximumAccumulatedStartCodes : Nat := 2048

/-- `CollatorStatus_t`. -/
inductive CollatorStatus where
  | collatorNoError
  | collatorError
  | collatorWouldBlock
  | collatorBufferOverflow
deriving DecidableEq

/-- What the base class reads of its `Configuration`, and what it is told when the
output ring is registered. -/
structure Configuration where
  generateStartCodeList : Bool
  insertFrameTerminateCode : Bool
  terminalCode : BitVec 8
  maximumCodedFrameSize : UnsignedInt
  /-- What a local variable holds that nothing has been stored in. -/
  uninitialized : UnsignedInt

/-- The configuration of `Collator2_PesVideoH264_c`, with the default frame size. -/
def h264Configuration : Configuration where
  generateStartCodeList := true
  insertFrameTerminateCode := true
  terminalCode := 0x0c
  maximumCodedFrameSize := 0x100000
  uninitialized := 0

/-- `PartitionPoint_t`. -/
structure PartitionPoint where
  partitionBase : Address
  partitionSize : UnsignedInt
  codedFrameParameters : CodedFrameParameters
  startCodeListIndex : UnsignedInt
  numberOfStartCodes : UnsignedInt
  frameFlags : FrameParserHeaderFlag
deriving DecidableEq

/-- A buffer the collator operates on. -/
structure OperatingBuffer where
  handle : Nat
  base : Address
  size : UnsignedInt
  dataSize : UnsignedInt
  /-- The collator has a reference on it. -/
  held : Bool
deriving DecidableEq

namespace OperatingBuffer

/-- `ObtainDataReference`, the size: of a buffer with no memory it stores nothing. -/
def obtainSize (b : OperatingBuffer) (c : Configuration) : UnsignedInt :=
  if b.size = 0 then c.uninitialized else b.size

/-- `ObtainDataReference`, the address. -/
def obtainBase (b : OperatingBuffer) (before : Address) : Address :=
  if b.size = 0 then before else b.base

/-- `SetUsedDataSize`; an error changes nothing. -/
def setUsedDataSize (b : OperatingBuffer) (dataSize : UnsignedInt) : OperatingBuffer :=
  if b.size < dataSize then b else { b with dataSize := dataSize }

/-- `PartitionBuffer`: what is left in the first partition, and the second. -/
def partitionBuffer (b : OperatingBuffer) (leaveInFirst : UnsignedInt) (new : Nat) :
    OperatingBuffer × OperatingBuffer :=
  ({ b with size := leaveInFirst, dataSize := leaveInFirst },
    { handle := new
      base := b.base + leaveInFirst
      size := b.size - leaveInFirst
      dataSize := b.dataSize - leaveInFirst
      held := true })

/-- `DecrementReferenceCount`: the memory goes back to the pool. -/
def release (b : OperatingBuffer) : OperatingBuffer :=
  { b with size := 0, dataSize := 0, held := false }

/-- `ExtendBuffer` to the size the allocator can grant, which is no less than it has. -/
def extendBuffer (b : OperatingBuffer) (upwards : Bool) (size : UnsignedInt) : OperatingBuffer :=
  { b with
    base := if upwards then b.base else b.base - (size - b.size)
    size := size }

end OperatingBuffer

/-- What the pool answers at one pass of the loop in `PartitionOutput`. -/
structure PassAnswer where
  /-- `TotalBuffers - BuffersUsed`. -/
  freeBuffers : UnsignedInt
  /-- The buffer `PartitionBuffer` gets, if it does. -/
  newPartition : Option Nat

/-- What the pool answers during one `PartitionOutput`. -/
structure PoolAnswers where
  pass : Nat → PassAnswer
  /-- The size of the operating buffer once extended. -/
  extendedSize : UnsignedInt
  freeBuffers : UnsignedInt
  largestFreeMemoryBlock : UnsignedInt
  /-- What `GetBuffer` gets, if it is not aborted. -/
  newBuffer : Option OperatingBuffer

/-- `Collator2_Base_c`. -/
structure Collator2Base where
  memory : Address → BitVec 8
  nonBlockingInput : Bool
  extendCodedFrameBufferAtEarliestOpportunity : Bool
  discardingData : Bool
  codedFrameBuffer : OperatingBuffer
  codedFrameBufferFreeSpace : UnsignedInt
  codedFrameBufferUsedSpace : UnsignedInt
  codedFrameBufferBase : Address
  playDirection : PlayDirection
  largestFrameSeen : UnsignedInt
  nextWriteInStartCodeList : UnsignedInt
  nextReadInStartCodeList : UnsignedInt
  accumulatedStartCodeList : Nat → PackedStartCode
  partitionPointUsedCount : UnsignedInt
  partitionPointMarkerCount : UnsignedInt
  partitionPointSafeToOutputCount : UnsignedInt
  partitionPoints : Nat → PartitionPoint
  output : FrameOutput

/-- The bytes at an address. -/
def readBytes (memory : Address → BitVec 8) (a : Address) (length : UnsignedInt) :
    List (BitVec 8) :=
  (List.range length.toNat).map fun i => memory (a + BitVec.ofNat 32 i)

/-- `memcpy` from outside. -/
def writeBytes (memory : Address → BitVec 8) (a : Address) (data : List (BitVec 8)) :
    Address → BitVec 8 :=
  fun x => data.getD (x - a).toNat (memory x)

/-- `memcpy` from one buffer to another. -/
def copyBytes (memory : Address → BitVec 8) (target source : Address) (length : UnsignedInt) :
    Address → BitVec 8 :=
  fun x => if x - target < length then memory (source + (x - target)) else memory x

/-- `memset` to zero. -/
def CodedFrameParameters.zero : CodedFrameParameters :=
  ⟨false, false, false, false, false, 0, 0, 0⟩

namespace Collator2Base

/-- `*NextPartition`. -/
def nextPartition (s : Collator2Base) : PartitionPoint :=
  s.partitionPoints s.partitionPointUsedCount.toNat

def modifyPartition (s : Collator2Base) (i : Nat) (f : PartitionPoint → PartitionPoint) :
    Collator2Base :=
  { s with partitionPoints := Function.update s.partitionPoints i (f (s.partitionPoints i)) }

def modifyNextPartition (s : Collator2Base) (f : PartitionPoint → PartitionPoint) :
    Collator2Base :=
  s.modifyPartition s.partitionPointUsedCount.toNat f

/-- `MoveCurrentPartitionBoundary`; `Bytes` may be negative. -/
def moveCurrentPartitionBoundary (s : Collator2Base) (bytes : UnsignedInt) : Collator2Base :=
  let s := s.modifyNextPartition fun p =>
    { p with
      partitionBase :=
        if s.playDirection ≠ .playForward then p.partitionBase - bytes else p.partitionBase
      partitionSize := p.partitionSize + bytes }
  { s with
    codedFrameBufferUsedSpace := s.codedFrameBufferUsedSpace + bytes
    codedFrameBufferFreeSpace := s.codedFrameBufferFreeSpace - bytes }

/-- `EmptyCurrentPartition`. -/
def emptyCurrentPartition (s : Collator2Base) : Collator2Base :=
  let s := s.moveCurrentPartitionBoundary (-s.nextPartition.partitionSize)
  let s := { s with nextWriteInStartCodeList := s.nextPartition.startCodeListIndex }
  s.modifyNextPartition fun p => { p with numberOfStartCodes := 0 }

/-- `InitializePartition`. -/
def initializePartition (c : Configuration) (s : Collator2Base) : Collator2Base :=
  s.modifyNextPartition fun _ =>
    { partitionBase :=
        match s.playDirection with
        | .playForward => s.codedFrameBufferBase + s.codedFrameBufferUsedSpace
        | .playBackward =>
          s.codedFrameBufferBase + s.codedFrameBuffer.obtainSize c - s.codedFrameBufferUsedSpace
      partitionSize := 0
      codedFrameParameters := .zero
      startCodeListIndex := s.nextWriteInStartCodeList
      numberOfStartCodes := 0
      frameFlags := ⟨false, false, false⟩ }

/-! ## Output -/

/-- The start code list of a partition. In reverse play the codes were found last
first, and their offsets counted from the end. -/
def partitionStartCodes (c : Configuration) (s : Collator2Base) (d : PartitionPoint) :
    List PackedStartCode :=
  if c.generateStartCodeList then
    (List.range d.numberOfStartCodes.toNat).map fun i =>
      let at_ (k : UnsignedInt) : PackedStartCode :=
        s.accumulatedStartCodeList (k.toNat % maximumAccumulatedStartCodes)
      match s.playDirection with
      | .playForward => at_ (s.nextReadInStartCodeList + BitVec.ofNat 32 i)
      | .playBackward =>
        let code :=
          at_ (s.nextReadInStartCodeList + d.numberOfStartCodes - 1 - BitVec.ofNat 32 i)
        packStartCode (d.partitionSize - extractStartCodeOffset code) (extractStartCodeCode code)
  else []

/-- What a pass of the loop in `PartitionOutput` makes of a partition: the size left
in the first part, the part that is output and the part that is retained. -/
def splitPartition (s : Collator2Base) (d : PartitionPoint) (new : Nat) :
    OperatingBuffer × OperatingBuffer :=
  match s.playDirection with
  | .playForward => s.codedFrameBuffer.partitionBuffer d.partitionSize new
  | .playBackward =>
    let (first, second) :=
      s.codedFrameBuffer.partitionBuffer (d.partitionBase - s.codedFrameBufferBase) new
    (second, first)

/-- `PerformOnePartition`, where `PartitionBuffer` gets a buffer: the frame, and the
part that is retained. -/
def performOnePartition (c : Configuration) (s : Collator2Base) (d : PartitionPoint) (new : Nat) :
    CodedFrame × OperatingBuffer × Collator2Base :=
  let (output, retained) := s.splitPartition d new
  let output := output.setUsedDataSize d.partitionSize
  (⟨⟨output.handle, readBytes s.memory output.base output.dataSize, s.partitionStartCodes c d⟩,
      d.codedFrameParameters⟩,
    retained,
    { s with
      codedFrameBufferUsedSpace := s.codedFrameBufferUsedSpace - d.partitionSize
      nextReadInStartCodeList :=
        if c.generateStartCodeList then s.nextReadInStartCodeList + d.numberOfStartCodes
        else s.nextReadInStartCodeList })

/-- `PerformOnePartition` and `OutputOnePartition` on the partition, and the retained
part made the operating buffer. -/
def outputPartition (c : Configuration) (s : Collator2Base) (d : PartitionPoint) (new : Nat) :
    Collator2Base :=
  let (frame, retained, s) := s.performOnePartition c d new
  { s with
    output := s.output.outputOnePartition s.playDirection (frame, d.frameFlags)
    codedFrameBuffer := retained }

/-- The loop of `PartitionOutput` from a partition on, so many to go: how many were
output successfully. -/
def outputPartitions (c : Configuration) (pass : Nat → PassAnswer) :
    Nat → Nat → UnsignedInt → Collator2Base → Nat × Collator2Base
  | 0, partition, _, s => (partition, s)
  | k + 1, partition, knownFreeBuffers, s =>
    let known := if knownFreeBuffers = 0 then (pass partition).freeBuffers else knownFreeBuffers
    if known = 0 ∧ s.nonBlockingInput then (partition, s)
    else
      match (pass partition).newPartition with
      | none => (partition, s)
      | some new =>
        outputPartitions c pass k (partition + 1) (known - 1)
          (s.outputPartition c (s.partitionPoints partition) new)

/-- The table compacted; the copying upwards reads only entries not yet written. -/
def compactPartitions (s : Collator2Base) (partitions : Nat) : Collator2Base :=
  if partitions = 0 then s
  else
    let used := s.partitionPointUsedCount - BitVec.ofNat 32 partitions
    { s with
      partitionPoints := fun i =>
        if i ≤ used.toNat then s.partitionPoints (partitions + i) else s.partitionPoints i
      partitionPointUsedCount := used
      partitionPointMarkerCount := s.partitionPointMarkerCount - BitVec.ofNat 32 partitions
      partitionPointSafeToOutputCount :=
        s.partitionPointSafeToOutputCount - BitVec.ofNat 32 partitions }

/-- The operating buffer extended as far as it goes. -/
def extendCodedFrameBuffer (c : Configuration) (s : Collator2Base) (size : UnsignedInt) :
    Collator2Base :=
  let buffer := s.codedFrameBuffer.extendBuffer (s.playDirection = .playForward) size
  { s with
    codedFrameBuffer := buffer
    codedFrameBufferBase := buffer.obtainBase s.codedFrameBufferBase
    codedFrameBufferFreeSpace := buffer.obtainSize c - s.codedFrameBufferUsedSpace }

/-- `AcceptableBufferSpace`. -/
def acceptableBufferSpace (c : Configuration) (s : Collator2Base) : UnsignedInt :=
  let size := s.nextPartition.partitionSize
  (if s.largestFrameSeen < size then
      if size + c.maximumCodedFrameSize / 16 < c.maximumCodedFrameSize then
        size + c.maximumCodedFrameSize / 16
      else c.maximumCodedFrameSize
    else s.largestFrameSeen + minimumAccumulationHeadroom) - size

/-- `MinimumSoughtSize`. -/
def minimumSoughtSize (c : Configuration) (s : Collator2Base) : UnsignedInt :=
  s.codedFrameBufferUsedSpace + s.acceptableBufferSpace c

/-- The move to a new operating buffer. -/
def moveToBuffer (c : Configuration) (s : Collator2Base) (new : OperatingBuffer) : Collator2Base :=
  let size := s.codedFrameBuffer.obtainSize c
  let (transferFrom, transferTo) :=
    match s.playDirection with
    | .playForward => (s.codedFrameBufferBase, new.base)
    | .playBackward =>
      (s.codedFrameBufferBase + size - s.codedFrameBufferUsedSpace,
        new.base + new.size - s.codedFrameBufferUsedSpace)
  { s with
    memory :=
      if s.codedFrameBufferUsedSpace ≠ 0 then
        copyBytes s.memory transferTo transferFrom s.codedFrameBufferUsedSpace
      else s.memory
    partitionPoints := fun i =>
      if i ≤ s.partitionPointUsedCount.toNat then
        { s.partitionPoints i with
          partitionBase := (s.partitionPoints i).partitionBase + (transferTo - transferFrom) }
      else s.partitionPoints i
    codedFrameBuffer := new
    codedFrameBufferBase := new.base
    codedFrameBufferFreeSpace := new.size - s.codedFrameBufferUsedSpace }

/-- The second half of `PartitionOutput`: a new operating buffer, if the one there is
has become too small. -/
def ensureAcceptableBuffer (c : Configuration) (pool : PoolAnswers) (s : Collator2Base) :
    CollatorStatus × Collator2Base :=
  let s := { s with extendCodedFrameBufferAtEarliestOpportunity := false }
  if s.codedFrameBufferFreeSpace < s.acceptableBufferSpace c then
    if !s.nonBlockingInput ∨
        pool.freeBuffers ≠ 0 ∧ s.minimumSoughtSize c ≤ pool.largestFreeMemoryBlock then
      match pool.newBuffer with
      | none =>
        -- the old buffer is given up first where it holds nothing
        (.collatorError,
          if s.codedFrameBufferUsedSpace = 0 then
            { s with codedFrameBuffer := s.codedFrameBuffer.release }
          else s)
      | some new => (.collatorNoError, s.moveToBuffer c new)
    else (.collatorNoError, { s with extendCodedFrameBufferAtEarliestOpportunity := true })
  else (.collatorNoError, s)

/-- The first half of `PartitionOutput`: what can be is output, and the operating
buffer extended. -/
def outputAndExtend (c : Configuration) (pool : PoolAnswers) (s : Collator2Base) : Collator2Base :=
  let (partitions, s) :=
    s.outputPartitions c pool.pass s.partitionPointSafeToOutputCount.toNat 0 0
  (s.compactPartitions partitions).extendCodedFrameBuffer c pool.extendedSize

/-- `PartitionOutput`. -/
def partitionOutput (c : Configuration) (pool : PoolAnswers) (s : Collator2Base) :
    CollatorStatus × Collator2Base :=
  (s.outputAndExtend c pool).ensureAcceptableBuffer c pool

end Collator2Base

end Duckbox.Collator2
