import Duckbox.Collator2.PartitionSpaces

/-!
# The accounts of the partition table

Every operation keeps the spaces (`Spaces`), function by function in the order they
call each other: what grows, shrinks or begins the current partition, what closes it,
what discards it, and then the operations over `PartitionOutput`.

> `partition_accounts`: in every state reached the counts stay in the table and the
> spaces add up, and where forward play outputs only what the marker has passed, the
> marker stays in the table as well.

It needs what `InTable` and the pool say, and that a header wound back is in the
current partition: `ProcessInputForward` does not look at what its `AccumulateData`
of a spanning code returned.
-/

namespace Duckbox.Collator2

open BufferPool (UnsignedInt)
open Player (PlayDirection)
open Lib (Along)

namespace Collator2Base

theorem Tiled.emptied {s : Collator2Base} (h : s.Tiled) : s.emptyCurrentPartition.Tiled := by
  have hshrunk := h.shrink (Nat.le_refl s.nextPartition.partitionSize.toNat)
  have hwritten : Tiled
      { s.moveCurrentPartitionBoundary (-s.nextPartition.partitionSize) with
        nextWriteInStartCodeList := (s.moveCurrentPartitionBoundary
          (-s.nextPartition.partitionSize)).nextPartition.startCodeListIndex } :=
    Tiles.of_same hshrunk rfl rfl rfl rfl rfl
  exact hwritten.modifyPartition _ (fun _ => rfl) (fun _ => rfl)

theorem emptied_size (s : Collator2Base) :
    s.emptyCurrentPartition.nextPartition.partitionSize = 0 :=
  congrArg (·.partitionSize) s.nextPartition_emptyCurrentPartition

namespace Spaces

variable {c : Configuration} {memory : Nat} {s t : Collator2Base} {pool : PoolAnswers}
  {bytes : UnsignedInt}

theorem of_same (h : Spaces c memory s) (hpoints : t.partitionPoints = s.partitionPoints)
    (hcount : t.partitionPointUsedCount = s.partitionPointUsedCount)
    (hused : t.codedFrameBufferUsedSpace = s.codedFrameBufferUsedSpace)
    (hfree : t.codedFrameBufferFreeSpace = s.codedFrameBufferFreeSpace)
    (hbuffer : t.codedFrameBuffer = s.codedFrameBuffer)
    (hbase : t.codedFrameBufferBase = s.codedFrameBufferBase)
    (hdirection : t.playDirection = s.playDirection)
    (hlargest : t.largestFrameSeen = s.largestFrameSeen) : Spaces c memory t := by
  refine ⟨?_, ?_, ?_, ?_, ?_, ?_⟩
  · unfold Tiled
    rw [hpoints, hcount]
    exact h.tiled.of_same hused hfree hbuffer hbase hdirection
  · rw [hbase, hbuffer]
    exact h.base
  · rw [hbuffer]
    exact h.size_pos
  · rw [hbuffer]
    exact h.size_le
  · unfold nextPartition
    rw [hpoints, hcount]
    exact h.next_le
  · rw [hlargest]
    exact h.largest_le

theorem modifyPartition (h : Spaces c memory s) (i : Nat) {f : PartitionPoint → PartitionPoint}
    (hsize : ∀ p, (f p).partitionSize = p.partitionSize)
    (hbase : ∀ p, (f p).partitionBase = p.partitionBase) :
    Spaces c memory (s.modifyPartition i f) := by
  have hnext : (s.modifyPartition i f).nextPartition.partitionSize =
      s.nextPartition.partitionSize := by
    show (Function.update s.partitionPoints i _ s.partitionPointUsedCount.toNat).partitionSize = _
    by_cases hi : s.partitionPointUsedCount.toNat = i
    · rw [hi, Function.update_self, hsize, ← hi]
      rfl
    · rw [Function.update_of_ne hi]
      rfl
  refine ⟨h.tiled.modifyPartition i hsize hbase, h.base, h.size_pos, h.size_le, ?_, h.largest_le⟩
  rw [hnext]
  exact h.next_le

theorem modifyNextPartition (h : Spaces c memory s) {f : PartitionPoint → PartitionPoint}
    (hsize : ∀ p, (f p).partitionSize = p.partitionSize)
    (hbase : ∀ p, (f p).partitionBase = p.partitionBase) :
    Spaces c memory (s.modifyNextPartition f) :=
  h.modifyPartition _ hsize hbase

/-! ## The current partition -/

theorem grow (h : Spaces c memory s) (hroom : bytes.toNat ≤ s.codedFrameBufferFreeSpace.toNat)
    (hle : (s.nextPartition.partitionSize + bytes).toNat ≤ c.maximumCodedFrameSize.toNat) :
    Spaces c memory (s.moveCurrentPartitionBoundary bytes) := by
  refine ⟨h.tiled.grow hroom, h.base, h.size_pos, h.size_le, ?_, h.largest_le⟩
  rw [nextPartition_moveCurrentPartitionBoundary]
  exact hle

theorem shrink (h : Spaces c memory s) (hle : bytes ≤ s.nextPartition.partitionSize) :
    Spaces c memory (s.moveCurrentPartitionBoundary (-bytes)) := by
  refine ⟨h.tiled.shrink (BitVec.le_def.mp hle), h.base, h.size_pos, h.size_le, ?_, h.largest_le⟩
  have hnext := h.next_le
  rw [nextPartition_moveCurrentPartitionBoundary]
  show (s.nextPartition.partitionSize + -bytes).toNat ≤ _
  rw [← BitVec.sub_eq_add_neg, BitVec.toNat_sub_of_le hle]
  omega

theorem emptyCurrentPartition (h : Spaces c memory s) :
    Spaces c memory s.emptyCurrentPartition := by
  refine ⟨h.tiled.emptied, h.base, h.size_pos, h.size_le, ?_, h.largest_le⟩
  rw [emptied_size]
  exact Nat.zero_le _

theorem begin (h : Tiles s.partitionPoints s.partitionPointUsedCount.toNat s)
    (hbase : s.codedFrameBufferBase = s.codedFrameBuffer.base)
    (hsize : s.codedFrameBuffer.size ≠ 0) (hle : s.codedFrameBuffer.size.toNat ≤ memory)
    (hlargest : s.largestFrameSeen.toNat ≤ c.maximumCodedFrameSize.toNat) :
    Spaces c memory (s.initializePartition c) := by
  refine ⟨h.begin c hbase hsize, hbase, hsize, hle, ?_, hlargest⟩
  unfold initializePartition
  rw [nextPartition_modifyNextPartition]
  exact Nat.zero_le _

theorem dump (h : s.Tiled) (hbase : s.codedFrameBufferBase = s.codedFrameBuffer.base)
    (hsize : s.codedFrameBuffer.size ≠ 0) (hle : s.codedFrameBuffer.size.toNat ≤ memory)
    (hlargest : s.largestFrameSeen.toNat ≤ c.maximumCodedFrameSize.toNat) :
    Spaces c memory (s.dumpCurrentPartition c) :=
  begin (h.emptied.init s.emptied_size) hbase hsize hle hlargest

theorem dumpCurrentPartition (h : Spaces c memory s) : Spaces c memory (s.dumpCurrentPartition c) :=
  dump h.tiled h.base h.size_pos h.size_le h.largest_le

theorem closePartition (h : Spaces c memory s)
    (hroom : s.partitionPointUsedCount.toNat < maximumPartitionPoints) :
    Spaces c memory (s.closePartition c) := by
  -- the largest frame is noted before the partition is closed
  have hseen : ∃ largest : UnsignedInt, largest.toNat ≤ c.maximumCodedFrameSize.toNat ∧
      (if s.largestFrameSeen < s.nextPartition.partitionSize then
        { s with largestFrameSeen := s.nextPartition.partitionSize } else s) =
      { s with largestFrameSeen := largest } := by
    split
    · exact ⟨_, h.next_le, rfl⟩
    · exact ⟨_, h.largest_le, rfl⟩
  obtain ⟨largest, hlargest, heq⟩ := hseen
  unfold Collator2Base.closePartition
  rw [heq]
  have hnoted : Spaces c memory { s with largestFrameSeen := largest } :=
    ⟨h.tiled.of_same rfl rfl rfl rfl rfl, h.base, h.size_pos, h.size_le, h.next_le, hlargest⟩
  have hcounted := hnoted.modifyNextPartition
    (f := fun p => { p with numberOfStartCodes := s.nextWriteInStartCodeList - p.startCodeListIndex })
    (fun _ => rfl) (fun _ => rfl)
  refine begin ?_ hcounted.base hcounted.size_pos hcounted.size_le hcounted.largest_le
  show Tiles _ (s.partitionPointUsedCount + 1).toNat _
  rw [Counters.toNat_add_one hroom]
  exact hcounted.tiled.of_same rfl rfl rfl rfl rfl

/-! ## Accumulation -/

theorem appendData (h : Spaces c memory s) {data : List (BitVec 8)}
    (hroom : ¬s.codedFrameBufferFreeSpace < BitVec.ofNat 32 data.length)
    (hle : (s.nextPartition.partitionSize + BitVec.ofNat 32 data.length).toNat ≤
      c.maximumCodedFrameSize.toNat) : Spaces c memory (s.appendData data) := by
  have hwritten : ∀ m, Spaces c memory { s with memory := m } :=
    fun m => h.of_same rfl rfl rfl rfl rfl rfl rfl rfl
  exact (hwritten _).grow (BitVec.le_def.mp (BitVec.not_lt.mp hroom)) hle

theorem accumulateData (h : Spaces c memory s) (hfits : s.counters.Fits)
    (hmemory : memory + c.maximumCodedFrameSize.toNat + 1024 < 2 ^ 32) {data : List (BitVec 8)}
    (hanswers : s.NeedsRoom c (BitVec.ofNat 32 data.length) →
      s.Answers c memory pool ∧ s.KeepsBuffer c pool) :
    Spaces c memory (s.accumulateData c pool data).2 := by
  unfold Collator2Base.accumulateData
  simp only
  split
  · exact h.dumpCurrentPartition
  · next hframe =>
    have hle := BitVec.le_def.mp (BitVec.not_lt.mp hframe)
    split
    · next hshort =>
      obtain ⟨hanswer, hkeeps⟩ := hanswers ⟨hframe, hshort⟩
      obtain ⟨hafter, hsize⟩ := h.partitionOutput hfits hmemory hanswer hkeeps
      split
      · next t heq =>
        rw [heq] at hafter hsize
        split
        · exact hafter
        · next hroom =>
          refine hafter.appendData hroom ?_
          rw [hsize]
          exact hle
      · exact hafter
    · next hroom => exact h.appendData hroom hle

theorem appendTerminateCode (h : Spaces c memory s) (hfits : s.counters.Fits)
    (hmemory : memory + c.maximumCodedFrameSize.toNat + 1024 < 2 ^ 32)
    (hanswers : s.Terminates c ∧ s.NeedsRoom c 4 →
      s.Answers c memory pool ∧ s.KeepsBuffer c pool) :
    Spaces c memory (s.appendTerminateCode c pool) := by
  unfold Collator2Base.appendTerminateCode
  split
  · next hterminates =>
    exact h.accumulateData hfits hmemory fun hroom => hanswers ⟨hterminates, hroom⟩
  · exact h

theorem kept (h : Spaces c memory s) : Spaces c memory s.kept := by
  unfold Collator2Base.kept
  split
  · exact h.emptyCurrentPartition
  · exact h

theorem accumulateOneVideoPartition (h : Spaces c memory s) (hfits : s.counters.Fits)
    (hmemory : memory + c.maximumCodedFrameSize.toNat + 1024 < 2 ^ 32) (times : FrameTimes)
    (hanswers : s.kept.Terminates c ∧ s.kept.NeedsRoom c 4 →
      s.kept.Answers c memory pool ∧ s.kept.KeepsBuffer c pool) :
    Spaces c memory (s.accumulateOneVideoPartition c pool times) := by
  have hone : Spaces c memory (s.accumulateOnePartition c pool) := by
    have hkept : (if s.discardingData then s.emptyCurrentPartition else s) = s.kept := rfl
    unfold accumulateOnePartition
    rw [hkept]
    dsimp only
    split
    · exact h.kept
    · have hkeptFits : s.kept.counters.Fits := by
        rw [kept_counters]
        exact hfits
      obtain ⟨n, hn, -, hcounters⟩ := appendTerminateCode_counters c s.kept pool
      have hafter : (s.kept.appendTerminateCode c pool).counters.Fits := by
        rw [hcounters]
        exact hkeptFits.output hn
      exact (h.kept.appendTerminateCode hkeptFits hmemory hanswers).closePartition hafter.used_lt
  have hwanted : Spaces c memory { s.accumulateOnePartition c pool with discardingData := false } :=
    hone.of_same rfl rfl rfl rfl rfl rfl rfl rfl
  exact hwanted.modifyNextPartition (fun _ => rfl) (fun _ => rfl)

theorem accumulateStartCode (h : Spaces c memory s) (code : PackedStartCode) :
    Spaces c memory (s.accumulateStartCode c code).2 := by
  unfold Collator2Base.accumulateStartCode
  split
  · exact h
  · split
    · exact h
    · exact h.of_same rfl rfl rfl rfl rfl rfl rfl rfl

/-! ## The operations -/

/-- Each pass of a discard leaves the partitions before. -/
theorem iterate_discardPartition (h : s.Tiled) :
    ∀ {n : Nat}, n ≤ s.partitionPointUsedCount.toNat →
      (discardPartition^[n] s).Tiled ∧
        (discardPartition^[n] s).codedFrameBuffer = s.codedFrameBuffer ∧
          (discardPartition^[n] s).codedFrameBufferBase = s.codedFrameBufferBase ∧
            (discardPartition^[n] s).largestFrameSeen = s.largestFrameSeen := by
  intro n
  induction n with
  | zero => exact fun _ => ⟨h, rfl, rfl, rfl⟩
  | succ n ih =>
    intro hn
    obtain ⟨htiled, hbuffer, hbase, hlargest⟩ := ih (Nat.le_of_succ_le hn)
    have hcount : (discardPartition^[n] s).partitionPointUsedCount.toNat =
        s.partitionPointUsedCount.toNat - n :=
      (congrArg (fun k => BitVec.toNat (Counters.used k))
        (s.iterate_discardPartition_counters n)).trans
          (Lib.toNat_sub_ofNat (Nat.le_of_succ_le hn))
    rw [Function.iterate_succ_apply']
    generalize discardPartition^[n] s = t at htiled hbuffer hbase hlargest hcount
    refine ⟨?_, hbuffer, hbase, hlargest⟩
    have hless : (t.partitionPointUsedCount - 1).toNat + 1 = t.partitionPointUsedCount.toNat := by
      have hone : (1 : UnsignedInt) = BitVec.ofNat 32 1 := rfl
      rw [hone, Lib.toNat_sub_ofNat (by omega)]
      omega
    show Tiles _ ((t.partitionPointUsedCount - 1).toNat + 1) _
    rw [hless]
    exact (htiled.emptied.init t.emptied_size).of_same rfl rfl rfl rfl rfl

theorem discardAccumulatedData (h : Spaces c memory s) :
    Spaces c memory (s.discardAccumulatedData c) := by
  obtain ⟨htiled, hbuffer, hbase, hlargest⟩ := iterate_discardPartition h.tiled
    (Nat.sub_le s.partitionPointUsedCount.toNat s.partitionPointSafeToOutputCount.toNat)
  unfold Collator2Base.discardAccumulatedData
  refine dump (htiled.of_same rfl rfl rfl rfl rfl) ?_ ?_ ?_ ?_
  · exact hbase.trans (h.base.trans (congrArg (·.base) hbuffer.symm))
  · exact fun hzero => h.size_pos ((congrArg (·.size) hbuffer).symm.trans hzero)
  · exact (congrArg (·.size.toNat) hbuffer).trans_le h.size_le
  · exact (congrArg BitVec.toNat hlargest).trans_le h.largest_le

theorem setDirection (h : Spaces c memory s) (direction : PlayDirection) :
    Spaces c memory (s.setDirection c direction).2 := by
  unfold Collator2Base.setDirection
  split
  · exact h
  · split
    · exact h
    · next hflushed =>
      -- no partition is used, so that none has a base to account for
      obtain ⟨hused, hempty⟩ := not_or.mp hflushed
      have hnone : s.partitionPointUsedCount.toNat = 0 :=
        congrArg BitVec.toNat (not_not.mp hused)
      have htiles := h.tiled.init (not_not.mp hempty)
      rw [hnone] at htiles
      refine begin ?_ h.base h.size_pos h.size_le h.largest_le
      show Tiles _ s.partitionPointUsedCount.toNat _
      rw [hnone]
      exact ⟨htiles.used, htiles.spaces, fun _ => h.base, fun _ i hi => absurd hi (Nat.not_lt_zero i)⟩

theorem noteDescriptor (h : Spaces c memory s) (input : InputDescriptor) (nonBlocking : Bool) :
    Spaces c memory { s.noteDescriptor input with nonBlockingInput := nonBlocking } := by
  have hnoted : Spaces c memory (s.noteDescriptor input) :=
    h.modifyNextPartition (fun _ => rfl) (fun _ => rfl)
  exact hnoted.of_same rfl rfl rfl rfl rfl rfl rfl rfl

theorem recordPacketHeader (h : Spaces c memory s) {headerSize : UnsignedInt}
    (hle : headerSize ≤ s.nextPartition.partitionSize) (times : FrameTimes) :
    Spaces c memory (s.recordPacketHeader headerSize times) := by
  have hback := h.shrink hle
  unfold Collator2Base.recordPacketHeader
  dsimp only
  split
  · have htimed := (hback.modifyNextPartition
        (f := (·.modifyParameters fun p =>
          { p with playbackTimeValid := false, decodeTimeValid := false }))
        (fun _ => rfl) (fun _ => rfl)).modifyPartition
      (s.moveCurrentPartitionBoundary (-headerSize)).partitionPointMarkerCount.toNat
      (f := (·.modifyParameters (·.setTimes times))) (fun _ => rfl) (fun _ => rfl)
    exact htimed.of_same rfl rfl rfl rfl rfl rfl rfl rfl
  · exact hback.of_same rfl rfl rfl rfl rfl rfl rfl rfl

end Spaces

/-! ## Runs -/

/-- The state in which an operation calls `PartitionOutput`, and what it is answered. -/
def outputCall (s : Collator2Base) : Operation → Option (PoolAnswers × Collator2Base)
  | .inputEntry input nonBlocking pool =>
    some (pool, { s.noteDescriptor input with nonBlockingInput := nonBlocking })
  | .inputExit pool | .partitionOutput pool | .accumulateData _ pool => some (pool, s)
  | .accumulateOnePartition _ pool => some (pool, s.kept)
  | _ => none

/-- The pool answers the operation by its contract. -/
def PoolAnswered (c : Configuration) (memory : Nat) (s : Collator2Base) (op : Operation) : Prop :=
  s.ReachesOutput c op → ∀ call ∈ s.outputCall op, call.2.Answers c memory call.1

/-- The operation is left an operating buffer. -/
def BufferKept (c : Configuration) (s : Collator2Base) (op : Operation) : Prop :=
  s.ReachesOutput c op → ∀ call ∈ s.outputCall op, call.2.KeepsBuffer c call.1

/-- A header the operation winds back is in the current partition. -/
def HeaderHeld (s : Collator2Base) : Operation → Prop
  | .releaseHeader size => size ≤ s.nextPartition.partitionSize
  | .recordPacketHeader size _ =>
    s.playDirection = .playBackward → size ≤ s.nextPartition.partitionSize
  | _ => True

instance (c : Configuration) (memory : Nat) (pool : PoolAnswers) (s : Collator2Base) :
    Decidable (s.Answers c memory pool) :=
  decidable_of_iff
    ((s.outputPartitions c pool.pass
        s.partitionPointSafeToOutputCount.toNat 0 0).2.codedFrameBuffer.size ≤ pool.extendedSize ∧
      pool.extendedSize.toNat ≤ memory ∧
        ((s.outputAndExtend c pool).SeeksBuffer c pool → ∀ new ∈ pool.newBuffer,
          (s.outputAndExtend c pool).minimumSoughtSize c ≤ new.size ∧ new.size.toNat ≤ memory))
    ⟨fun ⟨hextends, hle, hnew⟩ => ⟨hextends, hle, hnew⟩,
      fun h => ⟨h.extends_, h.extended_le, h.new⟩⟩

instance (c : Configuration) (pool : PoolAnswers) (s : Collator2Base) :
    Decidable (s.KeepsBuffer c pool) :=
  decidable_of_iff
    (pool.extendedSize ≠ 0 ∧
      ((s.outputAndExtend c pool).SeeksBuffer c pool → pool.newBuffer.isNone →
        (s.outputAndExtend c pool).codedFrameBufferUsedSpace ≠ 0))
    ⟨fun ⟨hpos, hgranted⟩ => ⟨hpos, fun hseeks hnone => hgranted hseeks (hnone ▸ rfl)⟩,
      fun h => ⟨h.extended_pos, fun hseeks hnone => h.granted hseeks (Option.isNone_iff_eq_none.mp hnone)⟩⟩

instance (c : Configuration) (memory : Nat) (s : Collator2Base) (op : Operation) :
    Decidable (s.PoolAnswered c memory op) :=
  inferInstanceAs (Decidable (s.ReachesOutput c op → ∀ call ∈ s.outputCall op, _))

instance (c : Configuration) (s : Collator2Base) (op : Operation) :
    Decidable (s.BufferKept c op) :=
  inferInstanceAs (Decidable (s.ReachesOutput c op → ∀ call ∈ s.outputCall op, _))

instance (s : Collator2Base) : ∀ op, Decidable (s.HeaderHeld op)
  | .releaseHeader _ => inferInstanceAs (Decidable (_ ≤ _))
  | .recordPacketHeader .. => inferInstanceAs (Decidable (_ → _))
  | .inputEntry .. | .inputExit _ | .partitionOutput _ | .accumulateData .. | .setDirection _
  | .accumulateStartCode _ | .emptyCurrentPartition | .dumpCurrentPartition
  | .accumulateOnePartition .. | .noteHeaderFlags _ | .setTimes _ | .setDiscardingData _
  | .setNonBlockingInput _ | .markSafeToOutput | .moveMarkers | .flushMarkers
  | .discardAccumulatedData | .signalDiscontinuity .. => inferInstanceAs (Decidable True)

/-- What the accounts need of an operation. -/
structure KeepsAccounts (c : Configuration) (s : Collator2Base) (op : Operation) : Prop where
  inTable : s.InTable op
  headerHeld : s.HeaderHeld op
  bufferKept : s.BufferKept c op

instance (c : Configuration) (s : Collator2Base) (op : Operation) :
    Decidable (s.KeepsAccounts c op) :=
  decidable_of_iff (s.InTable op ∧ s.HeaderHeld op ∧ s.BufferKept c op)
    ⟨fun ⟨htable, hheader, hbuffer⟩ => ⟨htable, hheader, hbuffer⟩,
      fun h => ⟨h.inTable, h.headerHeld, h.bufferKept⟩⟩

theorem step_spaces {c : Configuration} {memory : Nat} {s : Collator2Base} {op : Operation}
    (hmemory : memory + c.maximumCodedFrameSize.toNat + 1024 < 2 ^ 32) (h : Spaces c memory s)
    (hfits : s.counters.Fits) (hanswered : s.PoolAnswered c memory op)
    (hkeeps : s.KeepsAccounts c op) : Spaces c memory (s.step c op) := by
  have hcall : ∀ {pool t}, s.outputCall op = some (pool, t) → s.ReachesOutput c op →
      t.Answers c memory pool ∧ t.KeepsBuffer c pool :=
    fun heq hreaches => ⟨hanswered hreaches _ heq, hkeeps.bufferKept hreaches _ heq⟩
  have hheld := hkeeps.headerHeld
  cases op with
  | setDirection direction => exact h.setDirection direction
  | inputEntry input nonBlocking pool =>
    show Spaces c memory (s.inputEntry c pool input nonBlocking).2
    unfold inputEntry
    dsimp only
    split
    · next hextend =>
      obtain ⟨hanswer, hkeep⟩ := hcall rfl hextend
      exact ((h.noteDescriptor input nonBlocking).partitionOutput hfits hmemory hanswer hkeep).1
    · exact h.noteDescriptor input nonBlocking
  | inputExit pool =>
    show Spaces c memory (s.inputExit c pool).2
    unfold inputExit
    split
    · next hsafe =>
      obtain ⟨hanswer, hkeep⟩ := hcall rfl hsafe
      exact (h.partitionOutput hfits hmemory hanswer hkeep).1
    · exact h
  | partitionOutput pool =>
    obtain ⟨hanswer, hkeep⟩ := hcall rfl trivial
    exact (h.partitionOutput hfits hmemory hanswer hkeep).1
  | accumulateData data pool => exact h.accumulateData hfits hmemory (hcall rfl)
  | accumulateStartCode code => exact h.accumulateStartCode code
  | releaseHeader size => exact h.shrink hheld
  | emptyCurrentPartition => exact h.emptyCurrentPartition
  | dumpCurrentPartition => exact h.dumpCurrentPartition
  | accumulateOnePartition times pool =>
    exact h.accumulateOneVideoPartition hfits hmemory times (hcall rfl)
  | noteHeaderFlags flags => exact h.modifyNextPartition (fun _ => rfl) (fun _ => rfl)
  | setTimes times => exact h.modifyNextPartition (fun _ => rfl) (fun _ => rfl)
  | setDiscardingData discarding => exact h.of_same rfl rfl rfl rfl rfl rfl rfl rfl
  | setNonBlockingInput nonBlocking => exact h.of_same rfl rfl rfl rfl rfl rfl rfl rfl
  | markSafeToOutput =>
    show Spaces c memory (if s.playDirection = _ then _ else s)
    split
    · exact h.of_same rfl rfl rfl rfl rfl rfl rfl rfl
    · exact h
  | moveMarkers =>
    show Spaces c memory (if s.playDirection = _ then _ else s)
    split
    · exact h.of_same rfl rfl rfl rfl rfl rfl rfl rfl
    · exact h
  | recordPacketHeader size times =>
    show Spaces c memory (if s.playDirection = _ then _ else s)
    split
    · next hbackward => exact h.recordPacketHeader (hheld hbackward) times
    · exact h
  | flushMarkers => exact h.of_same rfl rfl rfl rfl rfl rfl rfl rfl
  | discardAccumulatedData => exact h.discardAccumulatedData
  | signalDiscontinuity surplus continuous =>
    show Spaces c memory (s.signalDiscontinuity surplus continuous)
    unfold signalDiscontinuity
    exact h.modifyNextPartition (fun _ => rfl) (fun _ => rfl)

theorem registered_spaces (c : Configuration) (memory : Address → BitVec 8)
    {buffer : OperatingBuffer} {available : Nat} (hsize : buffer.size ≠ 0)
    (hle : buffer.size.toNat ≤ available) : Spaces c available (registered c memory buffer) := by
  have hbase : buffer.obtainBase 0 = buffer.base := if_neg hsize
  have hfree : (buffer.obtainSize c).toNat = buffer.size.toNat :=
    congrArg BitVec.toNat (if_neg hsize)
  exact Spaces.begin ⟨rfl, (Nat.zero_add _).trans hfree, fun hback => (nomatch hback),
    fun hback => (nomatch hback)⟩ hbase hsize hle (Nat.zero_le _)

/-- The accounts of the partition table, the marker apart. -/
structure Accounts (s : Collator2Base) : Prop where
  safe_le : s.partitionPointSafeToOutputCount.toNat ≤ s.partitionPointUsedCount.toNat
  used_lt : s.partitionPointUsedCount.toNat < maximumPartitionPoints
  used : s.codedFrameBufferUsedSpace.toNat =
    total s.partitionPoints (s.partitionPointUsedCount.toNat + 1)
  spaces : s.codedFrameBufferUsedSpace.toNat + s.codedFrameBufferFreeSpace.toNat =
    s.codedFrameBuffer.size.toNat

/-- The marker is in the table. -/
def MarkerHeld (s : Collator2Base) : Prop :=
  s.partitionPointMarkerCount.toNat ≤ s.partitionPointUsedCount.toNat

/-- In every state reached the accounts hold, and in runs that output in forward play only
what the marker has passed, the marker is in the table. -/
theorem partition_accounts (c : Configuration) (memory : Address → BitVec 8)
    (buffer : OperatingBuffer) (available : Nat) (ops : List Operation)
    (hmemory : available + c.maximumCodedFrameSize.toNat + 1024 < 2 ^ 32)
    (hsize : buffer.size ≠ 0) (hle : buffer.size.toNat ≤ available)
    (hanswered : Along (step c) (PoolAnswered c available) (registered c memory buffer) ops)
    (hkeeps : Along (step c) (KeepsAccounts c) (registered c memory buffer) ops) :
    (ops.foldl (step c) (registered c memory buffer)).Accounts ∧
      (Along (step c) (MarkerPassed c) (registered c memory buffer) ops →
        (ops.foldl (step c) (registered c memory buffer)).MarkerHeld) := by
  have hstart := registered_spaces c memory hsize hle
  have hfits := registered_fits c memory buffer
  constructor
  · have hrun := Lib.foldl_inv (P := fun s => Spaces c available s ∧ s.counters.Fits)
      (fun hok h => ⟨step_spaces hmemory h.1 h.2 hok.1 hok.2, step_fits h.2 hok.2.inTable⟩)
      ops (hanswered.and hkeeps) ⟨hstart, hfits⟩
    exact ⟨hrun.2.safe_le, hrun.2.used_lt, hrun.1.tiled.used, hrun.1.tiled.spaces⟩
  · intro hpassed
    have hrun := Lib.foldl_inv (P := fun s => s.counters.Marked ∧ s.counters.Fits)
      (fun hok h => ⟨step_marked h.1 h.2 hok.2, step_fits h.2 hok.1.inTable⟩)
      ops (hkeeps.and hpassed) ⟨registered_marked c memory buffer, hfits⟩
    exact hrun.1.marker_le

/-- A header that begins a frame, in reverse play. -/
def headerBackward (pool : PoolAnswers) : List Operation :=
  [.accumulateData [0, 0, 1, 0x65, 0x88] pool, .noteHeaderFlags ⟨true, true, false⟩, .moveMarkers,
    .accumulateOnePartition ⟨false, 0, false, 0⟩ pool]

/-- Of three frames in reverse play one is safe to output, and is. -/
theorem partition_accounts_backward :
    let ops := .setDirection .playBackward :: .setDiscardingData false ::
      (headerBackward (amplePool 0x200000) ++ headerBackward (amplePool 0x200000) ++
        headerBackward (amplePool 0x200000) ++ [.inputExit (amplePool 0x1ffffb)])
    let s := ops.foldl (step h264Configuration)
      (registered h264Configuration (fun _ => 0) largeBuffer)
    s.partitionPointUsedCount = 2 ∧ s.Accounts ∧ s.MarkerHeld := by
  intro ops s
  have haccounts := partition_accounts h264Configuration (fun _ => 0) largeBuffer 0x200000 ops
    (by decide) (by decide) (by decide) (by decide +kernel) (by decide +kernel)
  exact ⟨by decide +kernel, haccounts.1, haccounts.2 (by decide +kernel)⟩

/-- A header that begins a frame, in forward play. -/
def headerForward (pool : PoolAnswers) : List Operation :=
  [.accumulateData [0, 0, 1, 0x65, 0x88] pool, .noteHeaderFlags ⟨true, true, false⟩,
    .releaseHeader 5, .accumulateOnePartition ⟨false, 0, false, 0⟩ pool,
    .accumulateData [0, 0, 1, 0x65, 0x88] pool, .markSafeToOutput, .setDiscardingData false]

/-- `InputJump`, with data that is not surplus: a flush, the signal, and a flush. -/
def jump (pool : PoolAnswers) : List Operation :=
  let flush := [.accumulateOnePartition ⟨false, 0, false, 0⟩ pool, .flushMarkers,
    .setNonBlockingInput false, .partitionOutput pool, .setNonBlockingInput false]
  flush ++ .signalDiscontinuity false false :: flush

/-- Two headers in forward play, and the output of the frame between them. -/
def firstOutput : List Operation :=
  .setDiscardingData false :: (headerForward (amplePool 0x200000) ++
    headerForward (amplePool 0x200000) ++ [.inputExit (amplePool 0x1ffff7)])

/-- As many jumps as the table has entries, with nothing between them. -/
def repeatedJumps : List Operation :=
  (List.replicate maximumPartitionPoints (jump (amplePool 0x200000))).flatten

/-- A collator with the large buffer, as it is registered. -/
def fresh : Collator2Base := registered h264Configuration (fun _ => 0) largeBuffer

/-- The first output in forward play takes the marker below zero, and jumps with
nothing between them fill the table. -/
theorem partition_accounts_fail :
    (Along (step h264Configuration) (PoolAnswered h264Configuration 0x200000) fresh firstOutput ∧
      ¬(firstOutput.foldl (step h264Configuration) fresh).MarkerHeld) ∧
    Along (step h264Configuration) (PoolAnswered h264Configuration 0x200000) fresh repeatedJumps ∧
      ¬(repeatedJumps.foldl (step h264Configuration) fresh).Accounts := by
  have hmarker : 0 < (firstOutput.foldl (step h264Configuration)
      fresh).partitionPointMarkerCount.toNat := by decide +kernel
  have hused : (firstOutput.foldl (step h264Configuration)
      fresh).partitionPointUsedCount.toNat = 0 := by decide +kernel
  have hjumped : (repeatedJumps.foldl (step h264Configuration)
      fresh).partitionPointUsedCount.toNat = maximumPartitionPoints := by decide +kernel
  refine ⟨⟨by decide +kernel, fun hheld => ?_⟩, by decide +kernel, fun h => ?_⟩
  · exact absurd (Nat.lt_of_lt_of_le hmarker (hheld.trans_eq hused)) (Nat.lt_irrefl 0)
  · exact absurd h.used_lt (Nat.not_lt_of_le hjumped.ge)

end Collator2Base

end Duckbox.Collator2
