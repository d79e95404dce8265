import Duckbox.Collator2.Accumulation

/-!
# Runs of the second-generation collator

The operations a collator is driven by, from the registration of its output ring
on, and what they do to the three counts of the partition table and the direction
of play (`Counters`): only `PartitionOutput` takes partitions off the front, only
`AccumulateOnePartition` adds one.

`Input` is a change of direction, `InputEntry`, the operations of the subclass's
processing, and `InputExit`. `FrameFlush` is five of the operations
(`frameFlush_eq`), and `InputJump` a discard or a flush, the signal, and a flush.
-/

namespace Duckbox.Collator2

open BufferPool (UnsignedInt)
open Player (PlayDirection)
open Lib (Along)

/-- What is done with a collator. -/
inductive Operation where
  | setDirection (direction : PlayDirection)
  | inputEntry (input : InputDescriptor) (nonBlocking : Bool) (pool : PoolAnswers)
  | inputExit (pool : PoolAnswers)
  | partitionOutput (pool : PoolAnswers)
  | accumulateData (data : List (BitVec 8)) (pool : PoolAnswers)
  | accumulateStartCode (code : PackedStartCode)
  /-- The partition is wound back to release a header. -/
  | releaseHeader (size : UnsignedInt)
  | emptyCurrentPartition
  | dumpCurrentPartition
  | accumulateOnePartition (times : FrameTimes) (pool : PoolAnswers)
  | noteHeaderFlags (flags : FrameParserHeaderFlag)
  | setTimes (times : FrameTimes)
  | setDiscardingData (discarding : Bool)
  | setNonBlockingInput (nonBlocking : Bool)
  /-- In forward play. -/
  | markSafeToOutput
  /-- In reverse play. -/
  | moveMarkers
  /-- In reverse play. -/
  | recordPacketHeader (size : UnsignedInt) (times : FrameTimes)
  | flushMarkers
  | discardAccumulatedData
  | signalDiscontinuity (surplusDataInjected continuousReverseJump : Bool)

namespace Collator2Base

/-- As `RegisterOutputBufferRing` leaves it, with the operating buffer it got. -/
def registered (c : Configuration) (memory : Address → BitVec 8) (buffer : OperatingBuffer) :
    Collator2Base :=
  initializePartition c
    { memory := memory
      nonBlockingInput := false
      extendCodedFrameBufferAtEarliestOpportunity := false
      discardingData := true
      codedFrameBuffer := buffer
      codedFrameBufferFreeSpace := buffer.obtainSize c
      codedFrameBufferUsedSpace := 0
      codedFrameBufferBase := buffer.obtainBase 0
      playDirection := .playForward
      largestFrameSeen := 0
      nextWriteInStartCodeList := 0
      nextReadInStartCodeList := 0
      accumulatedStartCodeList := fun _ => 0
      partitionPointUsedCount := 0
      partitionPointMarkerCount := 0
      partitionPointSafeToOutputCount := 0
      partitionPoints := fun _ => ⟨0, 0, .zero, 0, 0, ⟨false, false, false⟩⟩
      output := .initial }

/-- An operating buffer of two megabytes. -/
def largeBuffer : OperatingBuffer := ⟨0, 0x1000, 0x200000, 0, true⟩

/-- A pool with free buffers, and the operating buffer as large as it can be. -/
def amplePool (size : UnsignedInt) : PoolAnswers where
  pass := fun k => ⟨8, some (k + 1)⟩
  extendedSize := size
  freeBuffers := 8
  largestFreeMemoryBlock := 0
  newBuffer := none

/-- One operation. What the processing of one direction does is not done in the other. -/
def step (c : Configuration) (s : Collator2Base) : Operation → Collator2Base
  | .setDirection direction => (s.setDirection c direction).2
  | .inputEntry input nonBlocking pool => (s.inputEntry c pool input nonBlocking).2
  | .inputExit pool => (s.inputExit c pool).2
  | .partitionOutput pool => (s.partitionOutput c pool).2
  | .accumulateData data pool => (s.accumulateData c pool data).2
  | .accumulateStartCode code => (s.accumulateStartCode c code).2
  | .releaseHeader size => s.moveCurrentPartitionBoundary (-size)
  | .emptyCurrentPartition => s.emptyCurrentPartition
  | .dumpCurrentPartition => s.dumpCurrentPartition c
  | .accumulateOnePartition times pool => s.accumulateOneVideoPartition c pool times
  | .noteHeaderFlags flags =>
    s.modifyNextPartition fun p => { p with frameFlags := p.frameFlags.or flags }
  | .setTimes times => s.modifyNextPartition (·.modifyParameters (·.setTimes times))
  | .setDiscardingData discarding => { s with discardingData := discarding }
  | .setNonBlockingInput nonBlocking => { s with nonBlockingInput := nonBlocking }
  | .markSafeToOutput => if s.playDirection = .playForward then s.markSafeToOutput else s
  | .moveMarkers => if s.playDirection = .playBackward then s.moveMarkers else s
  | .recordPacketHeader size times =>
    if s.playDirection = .playBackward then s.recordPacketHeader size times else s
  | .flushMarkers => s.flushMarkers
  | .discardAccumulatedData => s.discardAccumulatedData c
  | .signalDiscontinuity surplus continuous => s.signalDiscontinuity surplus continuous

theorem frameFlush_eq (c : Configuration) (accumulatePool outputPool : PoolAnswers)
    (times : FrameTimes) (s : Collator2Base) :
    (s.frameFlush c accumulatePool outputPool times).2 =
      [Operation.accumulateOnePartition times accumulatePool, .flushMarkers,
        .setNonBlockingInput false, .partitionOutput outputPool,
        .setNonBlockingInput
          (s.accumulateOneVideoPartition c accumulatePool times).nonBlockingInput].foldl
        (step c) s := by
  unfold frameFlush
  simp only [List.foldl_cons, List.foldl_nil, step]
  generalize s.accumulateOneVideoPartition c accumulatePool times = t
  rfl

/-! ## The current partition -/

section

variable (c : Configuration) (s : Collator2Base)

@[simp] theorem nextPartition_modifyNextPartition (f : PartitionPoint → PartitionPoint) :
    (s.modifyNextPartition f).nextPartition = f s.nextPartition :=
  Function.update_self ..

@[simp] theorem nextPartition_moveCurrentPartitionBoundary (bytes : UnsignedInt) :
    (s.moveCurrentPartitionBoundary bytes).nextPartition =
      { s.nextPartition with
        partitionBase :=
          if s.playDirection ≠ .playForward then s.nextPartition.partitionBase - bytes
          else s.nextPartition.partitionBase
        partitionSize := s.nextPartition.partitionSize + bytes } :=
  Function.update_self ..

theorem nextPartition_emptyCurrentPartition :
    s.emptyCurrentPartition.nextPartition =
      { s.nextPartition with
        partitionBase :=
          if s.playDirection ≠ .playForward then
            s.nextPartition.partitionBase + s.nextPartition.partitionSize
          else s.nextPartition.partitionBase
        partitionSize := 0
        numberOfStartCodes := 0 } := by
  have hmoved := s.nextPartition_moveCurrentPartitionBoundary (-s.nextPartition.partitionSize)
  rw [BitVec.sub_neg, BitVec.add_right_neg] at hmoved
  have hempty : s.emptyCurrentPartition.nextPartition =
      { (s.moveCurrentPartitionBoundary (-s.nextPartition.partitionSize)).nextPartition with
        numberOfStartCodes := 0 } :=
    nextPartition_modifyNextPartition _ _
  rw [hempty, hmoved]
  rfl

end

/-! ## A new operating buffer -/

/-- `PartitionOutput` comes to ask for a new operating buffer. -/
def SeeksBuffer (c : Configuration) (pool : PoolAnswers) (s : Collator2Base) : Prop :=
  s.codedFrameBufferFreeSpace < s.acceptableBufferSpace c ∧
    (s.nonBlockingInput = false ∨
      pool.freeBuffers ≠ 0 ∧ s.minimumSoughtSize c ≤ pool.largestFreeMemoryBlock)

instance (c : Configuration) (pool : PoolAnswers) (s : Collator2Base) :
    Decidable (s.SeeksBuffer c pool) := inferInstanceAs (Decidable (_ ∧ _))

/-- What the second half of `PartitionOutput` can do: the buffer stays, it is given up with
nothing in it where no other is got, or what is used is moved to another. -/
theorem ensureAcceptableBuffer_cases (s : Collator2Base) (c : Configuration)
    (pool : PoolAnswers) :
    (∃ extend_, (s.ensureAcceptableBuffer c pool).2 =
      { s with extendCodedFrameBufferAtEarliestOpportunity := extend_ }) ∨
    (s.SeeksBuffer c pool ∧ pool.newBuffer = none ∧ s.codedFrameBufferUsedSpace = 0 ∧
      (s.ensureAcceptableBuffer c pool).2 =
        { s with
          extendCodedFrameBufferAtEarliestOpportunity := false
          codedFrameBuffer := s.codedFrameBuffer.release }) ∨
    ∃ new, s.SeeksBuffer c pool ∧ pool.newBuffer = some new ∧
      (s.ensureAcceptableBuffer c pool).2 =
        { s with extendCodedFrameBufferAtEarliestOpportunity := false }.moveToBuffer c new := by
  unfold ensureAcceptableBuffer
  simp only
  split
  · next hshort =>
    split
    · next hseeks =>
      have hseeks' : s.SeeksBuffer c pool :=
        ⟨hshort, hseeks.imp_left fun hblocking => by simpa using hblocking⟩
      split
      · next hnone =>
        split
        · next hempty => exact .inr (.inl ⟨hseeks', hnone, hempty, rfl⟩)
        · exact .inl ⟨false, rfl⟩
      · next new hsome => exact .inr (.inr ⟨new, hseeks', hsome, rfl⟩)
    · exact .inl ⟨true, rfl⟩
  · exact .inl ⟨false, rfl⟩

/-! ## The counts -/

/-- The counts of the partition table, and the direction of play. -/
structure Counters where
  direction : PlayDirection
  used : UnsignedInt
  marker : UnsignedInt
  safe : UnsignedInt

def counters (s : Collator2Base) : Counters :=
  ⟨s.playDirection, s.partitionPointUsedCount, s.partitionPointMarkerCount,
    s.partitionPointSafeToOutputCount⟩

/-- So many partitions taken off the front. -/
def Counters.output (k : Counters) (n : Nat) : Counters :=
  { k with
    used := k.used - BitVec.ofNat 32 n
    marker := k.marker - BitVec.ofNat 32 n
    safe := k.safe - BitVec.ofNat 32 n }

@[simp] theorem Counters.output_zero (k : Counters) : k.output 0 = k := by
  simp [Counters.output]

/-- One more partition. -/
def Counters.close (k : Counters) : Counters := { k with used := k.used + 1 }

section

variable (c : Configuration) (s : Collator2Base) (pool : PoolAnswers)

@[simp] theorem counters_modifyPartition (i : Nat) (f : PartitionPoint → PartitionPoint) :
    (s.modifyPartition i f).counters = s.counters := rfl

@[simp] theorem counters_modifyNextPartition (f : PartitionPoint → PartitionPoint) :
    (s.modifyNextPartition f).counters = s.counters := rfl

@[simp] theorem counters_moveCurrentPartitionBoundary (bytes : UnsignedInt) :
    (s.moveCurrentPartitionBoundary bytes).counters = s.counters := rfl

@[simp] theorem counters_emptyCurrentPartition :
    s.emptyCurrentPartition.counters = s.counters := rfl

@[simp] theorem counters_initializePartition :
    (s.initializePartition c).counters = s.counters := rfl

@[simp] theorem counters_dumpCurrentPartition :
    (s.dumpCurrentPartition c).counters = s.counters := rfl

@[simp] theorem counters_appendData (data : List (BitVec 8)) :
    (s.appendData data).counters = s.counters := rfl

@[simp] theorem counters_outputPartition (d : PartitionPoint) (new : Nat) :
    (s.outputPartition c d new).counters = s.counters := rfl

@[simp] theorem counters_extendCodedFrameBuffer (size : UnsignedInt) :
    (s.extendCodedFrameBuffer c size).counters = s.counters := rfl

@[simp] theorem counters_moveToBuffer (new : OperatingBuffer) :
    (s.moveToBuffer c new).counters = s.counters := rfl

theorem counters_compactPartitions (n : Nat) :
    (s.compactPartitions n).counters = s.counters.output n := by
  unfold compactPartitions
  split
  · next h =>
    rw [h]
    exact (Counters.output_zero _).symm
  · rfl

@[simp] theorem counters_ensureAcceptableBuffer :
    (s.ensureAcceptableBuffer c pool).2.counters = s.counters := by
  obtain ⟨_, h⟩ | ⟨_, _, _, h⟩ | ⟨new, _, _, h⟩ := s.ensureAcceptableBuffer_cases c pool
  all_goals rw [h]
  all_goals rfl

theorem counters_accumulateStartCode (code : PackedStartCode) :
    (s.accumulateStartCode c code).2.counters = s.counters := by
  unfold accumulateStartCode
  split
  · rfl
  · split <;> rfl

end

theorem outputPartitions_inv (c : Configuration) (pass : Nat → PassAnswer)
    (P : Nat → Collator2Base → Prop) (first count : Nat)
    (hstep : ∀ {i t} new, first ≤ i → i < first + count → P i t →
      P (i + 1) (t.outputPartition c (t.partitionPoints i) new)) :
    ∀ {k i : Nat} (known : UnsignedInt) {s : Collator2Base}, first ≤ i → i + k = first + count →
      P i s → ∃ n t, outputPartitions c pass k i known s = (n, t) ∧ i ≤ n ∧ n ≤ first + count ∧
        P n t := by
  intro k
  induction k with
  | zero => intro i known s _ hi h; exact ⟨i, s, rfl, Nat.le_refl i, by omega, h⟩
  | succ k ih =>
    intro i known s hfirst hi h
    unfold outputPartitions
    dsimp only
    generalize (if known = 0 then (pass i).freeBuffers else known) = known'
    split
    · exact ⟨i, s, rfl, Nat.le_refl i, by omega, h⟩
    · split
      · exact ⟨i, s, rfl, Nat.le_refl i, by omega, h⟩
      · next new hnew =>
        obtain ⟨n, t, heq, hle, hle', hP⟩ := ih (known' - 1) (by omega : first ≤ i + 1)
          (by omega : i + 1 + k = first + count) (hstep new hfirst (by omega) h)
        exact ⟨n, t, heq, by omega, hle', hP⟩

theorem partitionOutput_counters (c : Configuration) (pool : PoolAnswers) (s : Collator2Base) :
    ∃ n ≤ s.partitionPointSafeToOutputCount.toNat,
      (s.partitionOutput c pool).2.counters = s.counters.output n := by
  obtain ⟨n, t, heq, -, hle, hsame⟩ := outputPartitions_inv c pool.pass
    (fun _ t => t.counters = s.counters) 0 s.partitionPointSafeToOutputCount.toNat
    (fun _ _ _ h => h) 0 (Nat.le_refl 0) rfl rfl
  refine ⟨n, by omega, ?_⟩
  unfold partitionOutput outputAndExtend
  rw [heq]
  simp only [counters_ensureAcceptableBuffer, counters_extendCodedFrameBuffer,
    counters_compactPartitions, hsame]

end Collator2Base

end Duckbox.Collator2
