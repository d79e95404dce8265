import Duckbox.Collator2.PartitionCounts

/-!
# What a frame flush leaves behind

`FrameFlush` asserts that what has been accumulated is a complete frame, to be
transferred to the output ring. It closes the current partition, moves the markers
and calls `PartitionOutput`. In forward play it moves the count of what is safe to
output to zero.

> `frameFlush_leaves`: in forward play what has been accumulated is in the ring after
> a flush, and no partition pending, only where nothing was pending before it.
-/

namespace Duckbox.Collator2

open BufferPool (UnsignedInt)
open Player (PlayDirection)

namespace Collator2Base

/-- The bytes accumulated in the partitions, in the order of the table. -/
def pendingBytes (s : Collator2Base) : List (BitVec 8) :=
  ((List.range (s.partitionPointUsedCount.toNat + 1)).map fun i =>
    readBytes s.memory (s.partitionPoints i).partitionBase (s.partitionPoints i).partitionSize).flatten

/-- The bytes of the frames in the ring that were not there before. -/
def deliveredBytes (s t : Collator2Base) : List (BitVec 8) :=
  ((t.output.outputRing.drop s.output.outputRing.length).map (·.buffer.data)).flatten

/-- All that was accumulated has been delivered, as part of some frame (which may have a
terminate code as well), and no complete partition is pending. -/
structure Flushed (s t : Collator2Base) : Prop where
  delivered : s.pendingBytes.Sublist (deliveredBytes s t)
  nonePending : t.partitionPointUsedCount = 0

/-- Nothing is pending. -/
def NothingPending (s : Collator2Base) : Prop :=
  s.partitionPointUsedCount = 0 ∧ s.nothingToAccumulate = true

instance (s : Collator2Base) : Decidable s.NothingPending := inferInstanceAs (Decidable (_ ∧ _))

theorem ensureAcceptableBuffer_output (c : Configuration) (pool : PoolAnswers)
    (s : Collator2Base) : (s.ensureAcceptableBuffer c pool).2.output = s.output := by
  obtain ⟨_, h⟩ | ⟨_, _, _, h⟩ | ⟨new, _, _, h⟩ := s.ensureAcceptableBuffer_cases c pool
  all_goals rw [h]
  all_goals rfl

variable {s : Collator2Base}

theorem partitionOutput_none (c : Configuration) (pool : PoolAnswers)
    (hsafe : s.partitionPointSafeToOutputCount = 0) :
    (s.partitionOutput c pool).2.counters = s.counters ∧
      (s.partitionOutput c pool).2.output = s.output := by
  have hnone : s.outputPartitions c pool.pass s.partitionPointSafeToOutputCount.toNat 0 0 =
      (0, s) := by
    rw [hsafe]
    rfl
  unfold partitionOutput outputAndExtend
  rw [hnone, counters_ensureAcceptableBuffer, ensureAcceptableBuffer_output]
  exact ⟨rfl, rfl⟩

section

variable (c : Configuration) (accumulatePool outputPool : PoolAnswers) (times : FrameTimes)
  (s : Collator2Base)

theorem frameFlush_forward (hforward : s.playDirection = .playForward) :
    (s.frameFlush c accumulatePool outputPool times).2.partitionPointUsedCount =
        (s.accumulateOneVideoPartition c accumulatePool times).partitionPointUsedCount ∧
      (s.frameFlush c accumulatePool outputPool times).2.output =
        (s.accumulateOneVideoPartition c accumulatePool times).output := by
  have hdirection : (s.accumulateOneVideoPartition c accumulatePool times).playDirection =
      .playForward := by
    obtain ⟨-, hsame⟩ | ⟨-, n, -, -, hcounters⟩ :=
      accumulateOneVideoPartition_counters c s accumulatePool times
    · exact (congrArg Counters.direction hsame).trans hforward
    · exact (congrArg Counters.direction hcounters).trans hforward
  unfold frameFlush
  generalize s.accumulateOneVideoPartition c accumulatePool times = t at hdirection
  have hsafe : t.flushMarkers.partitionPointSafeToOutputCount = 0 := by
    simp only [flushMarkers, hdirection]
  obtain ⟨hcounters, houtput⟩ := partitionOutput_none c outputPool
    (s := { t.flushMarkers with nonBlockingInput := false }) hsafe
  exact ⟨congrArg Counters.used hcounters, houtput⟩

end

theorem nothingToAccumulate_emptied (s : Collator2Base) :
    s.emptyCurrentPartition.nothingToAccumulate = true ↔
      s.nextPartition.codedFrameParameters.streamDiscontinuity = false ∧
        s.nextPartition.codedFrameParameters.continuousReverseJump = false := by
  unfold nothingToAccumulate
  rw [nextPartition_emptyCurrentPartition]
  simp

theorem nothingToAccumulate_kept (h : s.nothingToAccumulate = true) :
    s.kept.nothingToAccumulate = true := by
  unfold kept
  split
  · exact s.nothingToAccumulate_emptied.mpr (s.nothingToAccumulate_iff.mp h).2
  · exact h

theorem accumulateOneVideoPartition_nothing (c : Configuration) (pool : PoolAnswers)
    (times : FrameTimes) (h : s.kept.nothingToAccumulate = true) :
    (s.accumulateOneVideoPartition c pool times).output = s.output := by
  have hkept : (if s.discardingData then s.emptyCurrentPartition else s) = s.kept := rfl
  have hvideo : (s.accumulateOneVideoPartition c pool times).output =
      (s.accumulateOnePartition c pool).output := rfl
  rw [hvideo]
  unfold accumulateOnePartition
  simp only
  rw [hkept, if_pos h]
  unfold kept
  split <;> rfl

theorem pendingBytes_of_none (h : s.partitionPointUsedCount = 0) :
    s.pendingBytes.length = s.nextPartition.partitionSize.toNat := by
  unfold pendingBytes nextPartition readBytes
  rw [h]
  simp

theorem frameFlush_flushed {c : Configuration} {accumulatePool outputPool : PoolAnswers}
    {times : FrameTimes} (hfits : s.counters.Fits) (hforward : s.playDirection = .playForward) :
    Flushed s (s.frameFlush c accumulatePool outputPool times).2 ↔ s.NothingPending := by
  obtain ⟨hused, houtput⟩ := frameFlush_forward c accumulatePool outputPool times s hforward
  constructor
  · intro h
    have hnone := hused ▸ h.nonePending
    obtain ⟨hnothing, hsame⟩ | ⟨-, n, hn, -, hcounters⟩ :=
      accumulateOneVideoPartition_counters c s accumulatePool times
    · have hzero : s.partitionPointUsedCount = 0 :=
        (congrArg Counters.used hsame).symm.trans hnone
      refine ⟨hzero, s.nothingToAccumulate_iff.mpr ?_⟩
      -- nothing was output, so there was nothing to deliver
      have hdelivered := h.delivered.length_le
      unfold deliveredBytes at hdelivered
      rw [houtput, accumulateOneVideoPartition_nothing c accumulatePool times hnothing,
        List.drop_length, pendingBytes_of_none hzero] at hdelivered
      have hsize : s.nextPartition.partitionSize = 0 :=
        BitVec.eq_of_toNat_eq (Nat.le_zero.mp hdelivered)
      unfold kept at hnothing
      split at hnothing
      · exact ⟨hsize, s.nothingToAccumulate_emptied.mp hnothing⟩
      · exact s.nothingToAccumulate_iff.mp hnothing
    · -- a partition has been closed, and is still there
      exfalso
      have hclosed : (s.counters.output n).used + 1 = 0 :=
        (congrArg Counters.used hcounters).symm.trans hnone
      have hlt := (hfits.output hn).used_lt
      have hnat := congrArg BitVec.toNat hclosed
      rw [Counters.toNat_add_one hlt] at hnat
      exact nomatch hnat
  · intro ⟨hzero, hnothing⟩
    have hkept := nothingToAccumulate_kept hnothing
    constructor
    · have hlength := pendingBytes_of_none hzero
      rw [(s.nothingToAccumulate_iff.mp hnothing).1] at hlength
      rw [List.length_eq_zero_iff.mp hlength]
      exact List.nil_sublist _
    · rw [hused]
      obtain ⟨-, hsame⟩ | ⟨hcloses, -⟩ :=
        accumulateOneVideoPartition_counters c s accumulatePool times
      · exact (congrArg Counters.used hsame).trans hzero
      · exact absurd hkept (by rw [hcloses]; exact Bool.false_ne_true)

/-- In every state reached, a flush in forward play delivers all that has been
accumulated, and leaves nothing pending, only where nothing was. -/
theorem frameFlush_leaves (c : Configuration) (memory : Address → BitVec 8)
    (buffer : OperatingBuffer) (ops : List Operation)
    (hok : Lib.Along (step c) InTable (registered c memory buffer) ops)
    (hforward : (ops.foldl (step c) (registered c memory buffer)).playDirection = .playForward)
    (accumulatePool outputPool : PoolAnswers) (times : FrameTimes) :
    let s := ops.foldl (step c) (registered c memory buffer)
    Flushed s (s.frameFlush c accumulatePool outputPool times).2 ↔ s.NothingPending :=
  frameFlush_flushed (run_fits (registered_fits c memory buffer) hok) hforward

/-- The first header of a frame in the operating buffer. -/
def frameBegun : Collator2Base :=
  [Operation.setDiscardingData false, .accumulateData [0, 0, 1, 0x65, 0x88] (amplePool 0x200000),
    .noteHeaderFlags ⟨true, true, false⟩].foldl (step h264Configuration)
    (registered h264Configuration (fun _ => 0) ⟨0, 0x1000, 0x200000, 0, true⟩)

/-- Its five bytes are not delivered by a flush. -/
theorem frameFlush_leaves_begun :
    ¬Flushed frameBegun (frameBegun.frameFlush h264Configuration (amplePool 0x200000)
      (amplePool 0x200000) ⟨false, 0, false, 0⟩).2 := by
  have hnot : ¬frameBegun.NothingPending := by decide +kernel
  intro h
  exact hnot ((frameFlush_leaves h264Configuration (fun _ => 0) ⟨0, 0x1000, 0x200000, 0, true⟩
    [Operation.setDiscardingData false, .accumulateData [0, 0, 1, 0x65, 0x88] (amplePool 0x200000),
      .noteHeaderFlags ⟨true, true, false⟩] (by decide +kernel) (by decide +kernel)
    (amplePool 0x200000) (amplePool 0x200000) ⟨false, 0, false, 0⟩).mp h)

/-- The flush succeeds, the frame is pending and the ring is empty. -/
theorem frameFlush_keeps :
    let flushed := frameBegun.frameFlush h264Configuration (amplePool 0x200000)
      (amplePool 0x200000) ⟨false, 0, false, 0⟩
    frameBegun.playDirection = .playForward ∧ flushed.1 = .collatorNoError ∧
      frameBegun.pendingBytes = [0, 0, 1, 0x65, 0x88] ∧ flushed.2.output.outputRing = [] ∧
        flushed.2.partitionPointUsedCount = 1 ∧ ¬Flushed frameBegun flushed.2 := by
  have hused : (frameBegun.frameFlush h264Configuration (amplePool 0x200000)
      (amplePool 0x200000) ⟨false, 0, false, 0⟩).2.partitionPointUsedCount = 1 := by
    decide +kernel
  refine ⟨by decide +kernel, by decide +kernel, by decide +kernel, by decide +kernel, hused, ?_⟩
  intro h
  exact absurd (hused.symm.trans h.nonePending) (by decide)

end Collator2Base

end Duckbox.Collator2
