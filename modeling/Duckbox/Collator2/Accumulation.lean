import Duckbox.Collator2.Base

/-!
# Accumulation, flush and discard

The functions of `Collator2_Base_c` that accumulate, and those that its users call
to flush or discard what has been accumulated, over `PartitionOutput`.

`ProcessInputForward` and `ProcessInputBackward` are a subclass's; what they do to
the partitions is a sequence of the operations here, each under the condition the
code makes it. What their parsing finds (the bytes up to a start code, the flags of
a header, a time) comes with the operation.
-/

namespace Duckbox.Collator2

open BufferPool (UnsignedInt)
open Player (PlayDirection)

/-- The times of a frame. -/
structure FrameTimes where
  playbackTimeValid : Bool
  playbackTime : BitVec 64
  decodeTimeValid : Bool
  decodeTime : BitVec 64
deriving DecidableEq

/-- What `PlayerInputDescriptor_t` tells a collator. -/
structure InputDescriptor extends FrameTimes where
  dataSpecificFlags : UnsignedInt
deriving DecidableEq

def CodedFrameParameters.setTimes (p : CodedFrameParameters) (t : FrameTimes) :
    CodedFrameParameters :=
  { p with
    playbackTimeValid := t.playbackTimeValid
    playbackTime := t.playbackTime
    decodeTimeValid := t.decodeTimeValid
    decodeTime := t.decodeTime }

def PartitionPoint.modifyParameters (p : PartitionPoint)
    (f : CodedFrameParameters → CodedFrameParameters) : PartitionPoint :=
  { p with codedFrameParameters := f p.codedFrameParameters }

namespace Collator2Base

/-- What collected data is dumped. -/
def dumpCurrentPartition (c : Configuration) (s : Collator2Base) : Collator2Base :=
  s.emptyCurrentPartition.initializePartition c

/-- The end of `AccumulateData`, once there is room. -/
def appendData (s : Collator2Base) (data : List (BitVec 8)) : Collator2Base :=
  let length := BitVec.ofNat 32 data.length
  let target :=
    match s.playDirection with
    | .playForward => s.nextPartition.partitionBase + s.nextPartition.partitionSize
    | .playBackward => s.nextPartition.partitionBase - length
  { s with memory := writeBytes s.memory target data }.moveCurrentPartitionBoundary length

/-- `AccumulateData`. -/
def accumulateData (c : Configuration) (pool : PoolAnswers) (s : Collator2Base)
    (data : List (BitVec 8)) : CollatorStatus × Collator2Base :=
  let length := BitVec.ofNat 32 data.length
  if c.maximumCodedFrameSize < s.nextPartition.partitionSize + length then
    (.collatorBufferOverflow, s.dumpCurrentPartition c)
  else if s.codedFrameBufferFreeSpace < length then
    match s.partitionOutput c pool with
    | (.collatorNoError, s) =>
      if s.codedFrameBufferFreeSpace < length then (.collatorWouldBlock, s)
      else (.collatorNoError, s.appendData data)
    | failed => failed
  else (.collatorNoError, s.appendData data)

/-- `AccumulateStartCode`. -/
def accumulateStartCode (c : Configuration) (s : Collator2Base) (code : PackedStartCode) :
    CollatorStatus × Collator2Base :=
  if !c.generateStartCodeList then (.collatorNoError, s)
  else if maximumAccumulatedStartCodes ≤
      (s.nextWriteInStartCodeList - s.nextReadInStartCodeList).toNat then
    (.collatorBufferOverflow, s)
  else
    (.collatorNoError,
      { s with
        accumulatedStartCodeList :=
          Function.update s.accumulatedStartCodeList
            (s.nextWriteInStartCodeList.toNat % maximumAccumulatedStartCodes) code
        nextWriteInStartCodeList := s.nextWriteInStartCodeList + 1 })

/-- Nothing has been accumulated in the current partition, and nothing signalled. -/
def nothingToAccumulate (s : Collator2Base) : Bool :=
  s.nextPartition.partitionSize = 0 ∧
    !s.nextPartition.codedFrameParameters.streamDiscontinuity ∧
    !s.nextPartition.codedFrameParameters.continuousReverseJump

/-- The terminate code appended in forward play. Its status is only reported. -/
def appendTerminateCode (c : Configuration) (pool : PoolAnswers) (s : Collator2Base) :
    Collator2Base :=
  if s.playDirection = .playForward ∧ s.nextPartition.partitionSize ≠ 0 ∧
      c.insertFrameTerminateCode then
    (s.accumulateData c pool [0x00, 0x00, 0x01, c.terminalCode]).2
  else s

/-- The current partition made one of those used, and the next begun. -/
def closePartition (c : Configuration) (s : Collator2Base) : Collator2Base :=
  let s :=
    if s.largestFrameSeen < s.nextPartition.partitionSize then
      { s with largestFrameSeen := s.nextPartition.partitionSize }
    else s
  let s := s.modifyNextPartition fun p =>
    { p with numberOfStartCodes := s.nextWriteInStartCodeList - p.startCodeListIndex }
  { s with partitionPointUsedCount := s.partitionPointUsedCount + 1 }.initializePartition c

/-- `AccumulateOnePartition` of the base class. The terminate code of reverse play is
meant for a next partition that has something in it, which it never has here. -/
def accumulateOnePartition (c : Configuration) (pool : PoolAnswers) (s : Collator2Base) :
    Collator2Base :=
  let s := if s.discardingData then s.emptyCurrentPartition else s
  if s.nothingToAccumulate then s else (s.appendTerminateCode c pool).closePartition c

/-- `AccumulateOnePartition` of the video collators. -/
def accumulateOneVideoPartition (c : Configuration) (pool : PoolAnswers) (times : FrameTimes)
    (s : Collator2Base) : Collator2Base :=
  let s := { s.accumulateOnePartition c pool with discardingData := false }
  s.modifyNextPartition (·.modifyParameters (·.setTimes times))

/-- What `FrameFlush` does with the markers. -/
def flushMarkers (s : Collator2Base) : Collator2Base :=
  { s with
    partitionPointSafeToOutputCount :=
      match s.playDirection with
      | .playForward => 0
      | .playBackward => s.partitionPointMarkerCount
    partitionPointMarkerCount := s.partitionPointUsedCount }

/-- `FrameFlush`, with what the pool answers to each of its two `PartitionOutput`s. -/
def frameFlush (c : Configuration) (accumulatePool outputPool : PoolAnswers) (times : FrameTimes)
    (s : Collator2Base) : CollatorStatus × Collator2Base :=
  let s := (s.accumulateOneVideoPartition c accumulatePool times).flushMarkers
  let (status, t) := { s with nonBlockingInput := false }.partitionOutput c outputPool
  (status, { t with nonBlockingInput := s.nonBlockingInput })

/-- One pass of the loop of `DiscardAccumulatedData`. -/
def discardPartition (s : Collator2Base) : Collator2Base :=
  let s := s.emptyCurrentPartition
  { s with partitionPointUsedCount := s.partitionPointUsedCount - 1 }

/-- `DiscardAccumulatedData`. -/
def discardAccumulatedData (c : Configuration) (s : Collator2Base) : Collator2Base :=
  let s := Nat.iterate discardPartition
    (s.partitionPointUsedCount.toNat - s.partitionPointSafeToOutputCount.toNat) s
  { s with partitionPointMarkerCount := s.partitionPointSafeToOutputCount }.dumpCurrentPartition c

/-- What `InputJump` signals between its two flushes. -/
def signalDiscontinuity (s : Collator2Base) (surplusDataInjected continuousReverseJump : Bool) :
    Collator2Base :=
  s.modifyNextPartition (·.modifyParameters fun p =>
    { p with
      streamDiscontinuity := true
      flushBeforeDiscontinuity := surplusDataInjected
      continuousReverseJump := continuousReverseJump })

/-- The beginning of `Input`: a change of direction, which is refused where there is
something accumulated. -/
def setDirection (c : Configuration) (s : Collator2Base) (direction : PlayDirection) :
    CollatorStatus × Collator2Base :=
  if s.playDirection = direction then (.collatorNoError, s)
  else if s.partitionPointUsedCount ≠ 0 ∨ s.nextPartition.partitionSize ≠ 0 then
    (.collatorError, s)
  else (.collatorNoError, { s with playDirection := direction }.initializePartition c)

/-- What `InputEntry` notes of the input descriptor. -/
def noteDescriptor (s : Collator2Base) (input : InputDescriptor) : Collator2Base :=
  s.modifyNextPartition (·.modifyParameters fun p =>
    let p :=
      if input.playbackTimeValid ∧ !p.playbackTimeValid then
        { p with playbackTimeValid := true, playbackTime := input.playbackTime }
      else p
    let p :=
      if input.decodeTimeValid ∧ !p.decodeTimeValid then
        { p with decodeTimeValid := true, decodeTime := input.decodeTime }
      else p
    { p with dataSpecificFlags := p.dataSpecificFlags ||| input.dataSpecificFlags })

/-- `InputEntry`. -/
def inputEntry (c : Configuration) (pool : PoolAnswers) (s : Collator2Base)
    (input : InputDescriptor) (nonBlocking : Bool) : CollatorStatus × Collator2Base :=
  let s := { s.noteDescriptor input with nonBlockingInput := nonBlocking }
  if s.extendCodedFrameBufferAtEarliestOpportunity then s.partitionOutput c pool
  else (.collatorNoError, s)

/-- `InputExit`. -/
def inputExit (c : Configuration) (pool : PoolAnswers) (s : Collator2Base) :
    CollatorStatus × Collator2Base :=
  if s.partitionPointSafeToOutputCount ≠ 0 then s.partitionOutput c pool
  else (.collatorNoError, s)

/-- `ProcessInputForward`, where a header has terminated a frame. -/
def markSafeToOutput (s : Collator2Base) : Collator2Base :=
  { s with partitionPointSafeToOutputCount := s.partitionPointUsedCount }

/-- `ProcessInputBackward`, where a header terminates a frame. -/
def moveMarkers (s : Collator2Base) : Collator2Base :=
  { s with
    partitionPointSafeToOutputCount := s.partitionPointMarkerCount
    partitionPointMarkerCount := s.partitionPointUsedCount }

/-- `ProcessInputBackward` at a packet header, which is skipped: a time in it is for
the partition at the marker. -/
def recordPacketHeader (s : Collator2Base) (headerSize : UnsignedInt) (times : FrameTimes) :
    Collator2Base :=
  let s := s.moveCurrentPartitionBoundary (-headerSize)
  let s :=
    if times.playbackTimeValid ∧ (s.partitionPointUsedCount ≠ s.partitionPointMarkerCount ∨
        s.partitionPointUsedCount = 0) then
      (s.modifyNextPartition (·.modifyParameters fun p =>
          { p with playbackTimeValid := false, decodeTimeValid := false })).modifyPartition
        s.partitionPointMarkerCount.toNat (·.modifyParameters (·.setTimes times))
    else s
  { s with partitionPointMarkerCount := s.partitionPointUsedCount }

end Collator2Base

end Duckbox.Collator2
