import Duckbox.Collator2.PartitionAccounts

/-!
# The buffer a failed output leaves

When the operating buffer has become too small, `PartitionOutput` asks the pool for another.
A buffer with nothing in it is given back first; and if no other is got, that is the buffer
the collator goes on with.

> `partitionOutput_error`: a `PartitionOutput` that fails leaves the collator a buffer it
> holds, and counters that describe it, exactly if something is left in the buffer behind
> what is output (`leftOver`); in runs where all that fail leave something, the buffer is
> held throughout.

Only a new buffer that is not got makes `PartitionOutput` fail: where a partition is not
split off, the loop ends, and the status with it.
-/

namespace Duckbox.Collator2

open BufferPool (UnsignedInt)
open Player (PlayDirection)
open Lib (Along)

/-- How many partitions the pool lets `PartitionOutput` split off, from one on, so many to
go. -/
def splitCount (pass : Nat → PassAnswer) (nonBlockingInput : Bool) : Nat → Nat → UnsignedInt → Nat
  | 0, partition, _ => partition
  | k + 1, partition, knownFreeBuffers =>
    let known := if knownFreeBuffers = 0 then (pass partition).freeBuffers else knownFreeBuffers
    if known = 0 ∧ nonBlockingInput then partition
    else if (pass partition).newPartition.isNone then partition
    else splitCount pass nonBlockingInput k (partition + 1) (known - 1)

namespace Collator2Base

/-- What is used less the sizes of the first so many partitions. -/
def usedBehind (s : Collator2Base) (n : Nat) : UnsignedInt :=
  (List.range n).foldl (fun used i => used - (s.partitionPoints i).partitionSize)
    s.codedFrameBufferUsedSpace

/-- What is left in the buffer behind the partitions that are output. -/
def leftOver (pool : PoolAnswers) (s : Collator2Base) : UnsignedInt :=
  s.usedBehind (splitCount pool.pass s.nonBlockingInput s.partitionPointSafeToOutputCount.toNat 0 0)

/-- The collator has a reference on its buffer, and its counters describe it. -/
structure Usable (s : Collator2Base) : Prop where
  held : s.codedFrameBuffer.held = true
  base : s.codedFrameBufferBase = s.codedFrameBuffer.base
  tiled : s.Tiled
  safe_le : s.partitionPointSafeToOutputCount.toNat ≤ s.partitionPointUsedCount.toNat

/-- The buffer that is extended gets no smaller. -/
def Extends (c : Configuration) (pool : PoolAnswers) (s : Collator2Base) : Prop :=
  (s.outputPartitions c pool.pass
    s.partitionPointSafeToOutputCount.toNat 0 0).2.codedFrameBuffer.size ≤ pool.extendedSize

section

variable {c : Configuration} {pool : PoolAnswers} {s : Collator2Base}

/-! ## What is left -/

theorem usedBehind_succ (s : Collator2Base) (n : Nat) :
    s.usedBehind (n + 1) = s.usedBehind n - (s.partitionPoints n).partitionSize := by
  unfold usedBehind
  rw [List.range_succ, List.foldl_append]
  rfl

theorem outputPartitions_count (pass : Nat → PassAnswer) (k i : Nat) (known : UnsignedInt) :
    (s.outputPartitions c pass k i known).1 = splitCount pass s.nonBlockingInput k i known := by
  induction k generalizing i known s with
  | zero => rfl
  | succ k ih =>
    unfold outputPartitions splitCount
    dsimp only
    generalize (if known = 0 then (pass i).freeBuffers else known) = known'
    by_cases hwould : known' = 0 ∧ s.nonBlockingInput = true
    · rw [if_pos hwould, if_pos hwould]
    · rw [if_neg hwould, if_neg hwould]
      cases (pass i).newPartition with
      | none => rfl
      | some new => exact ih (i + 1) (known' - 1)

theorem outputPartition_held (hheld : s.codedFrameBuffer.held = true) (d : PartitionPoint)
    (new : Nat) : (s.outputPartition c d new).codedFrameBuffer.held = true := by
  unfold outputPartition performOnePartition splitPartition
  cases s.playDirection with
  | playForward => rfl
  | playBackward => exact hheld

theorem outputPartitions_left (hheld : s.codedFrameBuffer.held = true) :
    ∃ n t, s.outputPartitions c pool.pass s.partitionPointSafeToOutputCount.toNat 0 0 = (n, t) ∧
      t.codedFrameBufferUsedSpace = s.leftOver pool ∧ t.codedFrameBuffer.held = true := by
  have hcount := @outputPartitions_count c s pool.pass s.partitionPointSafeToOutputCount.toNat 0 0
  have hloop := outputPartitions_inv c pool.pass
    (fun i t => t.codedFrameBufferUsedSpace = s.usedBehind i ∧
      t.partitionPoints = s.partitionPoints ∧ t.codedFrameBuffer.held = true)
    0 s.partitionPointSafeToOutputCount.toNat
    (fun {i t} new _ _ ⟨hused, hpoints, hkept⟩ => ?_) 0 (Nat.le_refl 0) rfl ⟨rfl, rfl, hheld⟩
  · obtain ⟨n, t, heq, -, -, hused, -, hkept⟩ := hloop
    rw [heq] at hcount
    refine ⟨n, t, heq, ?_, hkept⟩
    unfold leftOver
    rw [hused, ← hcount]
  · refine ⟨?_, hpoints, outputPartition_held hkept _ new⟩
    rw [usedBehind_succ, ← hused, ← hpoints]
    rfl

theorem outputAndExtend_left (hheld : s.codedFrameBuffer.held = true) :
    (s.outputAndExtend c pool).codedFrameBufferUsedSpace = s.leftOver pool ∧
      (s.outputAndExtend c pool).codedFrameBuffer.held = true := by
  obtain ⟨n, t, heq, hused, hkept⟩ := @outputPartitions_left c pool s hheld
  have hcompact : (t.compactPartitions n).codedFrameBuffer = t.codedFrameBuffer ∧
      (t.compactPartitions n).codedFrameBufferUsedSpace = t.codedFrameBufferUsedSpace := by
    unfold compactPartitions
    split
    · exact ⟨rfl, rfl⟩
    · exact ⟨rfl, rfl⟩
  unfold outputAndExtend
  rw [heq]
  exact ⟨hcompact.2.trans hused, (congrArg (·.held) hcompact.1).trans hkept⟩

theorem extendedSize_pos (h : s.Usable) (hextends : s.Extends c pool) (hleft : s.leftOver pool ≠ 0) :
    pool.extendedSize ≠ 0 := by
  obtain ⟨n, t, heq, hused, -⟩ := @outputPartitions_left c pool s h.held
  obtain ⟨n', t', heq', -, -, -, -, htiles⟩ := h.tiled.outputPartitions c h.safe_le pool.pass
  obtain ⟨rfl, rfl⟩ := Prod.mk.inj (heq.symm.trans heq')
  unfold Extends at hextends
  rw [heq] at hextends
  have hle := htiles.used_le
  have hsize := BitVec.le_def.mp hextends
  intro hzero
  rw [hzero] at hsize
  have hnone : t.codedFrameBufferUsedSpace.toNat = 0 := Nat.le_zero.mp (hle.trans hsize)
  exact hleft (hused.symm.trans (BitVec.eq_of_toNat_eq hnone))

/-! ## The end of `PartitionOutput` -/

theorem ensureAcceptableBuffer_error (herror : (s.ensureAcceptableBuffer c pool).1 ≠ .collatorNoError) :
    (s.ensureAcceptableBuffer c pool).2 =
      if s.codedFrameBufferUsedSpace = 0 then
        { s with
          extendCodedFrameBufferAtEarliestOpportunity := false
          codedFrameBuffer := s.codedFrameBuffer.release }
      else { s with extendCodedFrameBufferAtEarliestOpportunity := false } := by
  unfold ensureAcceptableBuffer at herror ⊢
  dsimp only at herror ⊢
  split at herror
  · split at herror
    · next hshort hseeks =>
      rw [if_pos hshort, if_pos hseeks]
      split at herror
      · rfl
      · exact absurd rfl herror
    · exact absurd rfl herror
  · exact absurd rfl herror

theorem partitionOutput_error_held (hheld : s.codedFrameBuffer.held = true)
    (herror : (s.partitionOutput c pool).1 ≠ .collatorNoError) :
    (s.partitionOutput c pool).2.codedFrameBuffer.held = true ↔ s.leftOver pool ≠ 0 := by
  obtain ⟨hused, hkept⟩ := @outputAndExtend_left c pool s hheld
  unfold partitionOutput at herror ⊢
  rw [ensureAcceptableBuffer_error herror, hused]
  by_cases hempty : s.leftOver pool = 0
  · rw [if_pos hempty]
    exact iff_of_false Bool.false_ne_true (not_not.mpr hempty)
  · rw [if_neg hempty]
    exact iff_of_true hkept hempty

theorem partitionOutput_safe_le
    (h : s.partitionPointSafeToOutputCount.toNat ≤ s.partitionPointUsedCount.toNat) :
    (s.partitionOutput c pool).2.partitionPointSafeToOutputCount.toNat ≤
      (s.partitionOutput c pool).2.partitionPointUsedCount.toNat := by
  obtain ⟨n, hn, hcounters⟩ := partitionOutput_counters c pool s
  have hsafe : (s.partitionOutput c pool).2.partitionPointSafeToOutputCount =
      s.partitionPointSafeToOutputCount - BitVec.ofNat 32 n := congrArg Counters.safe hcounters
  have hused : (s.partitionOutput c pool).2.partitionPointUsedCount =
      s.partitionPointUsedCount - BitVec.ofNat 32 n := congrArg Counters.used hcounters
  rw [hsafe, hused, Lib.toNat_sub_ofNat hn, Lib.toNat_sub_ofNat (hn.trans h)]
  omega

theorem partitionOutput_error_usable (h : s.Usable) (hextends : s.Extends c pool)
    (herror : (s.partitionOutput c pool).1 ≠ .collatorNoError) (hleft : s.leftOver pool ≠ 0) :
    (s.partitionOutput c pool).2.Usable := by
  have hheld := (partitionOutput_error_held h.held herror).mpr hleft
  have hsafe := @partitionOutput_safe_le c pool s h.safe_le
  obtain ⟨hused, -⟩ := @outputAndExtend_left c pool s h.held
  obtain ⟨htiled, hbase, -, -⟩ :=
    h.tiled.outputAndExtend h.safe_le hextends (extendedSize_pos h hextends hleft)
  have hafter : (s.partitionOutput c pool).2 =
      { s.outputAndExtend c pool with extendCodedFrameBufferAtEarliestOpportunity := false } := by
    unfold partitionOutput at herror ⊢
    rw [ensureAcceptableBuffer_error herror, if_neg (hused.symm ▸ hleft)]
  refine ⟨hheld, ?_, ?_, hsafe⟩
  · rw [hafter]
    exact hbase
  · rw [hafter]
    exact Tiles.of_same htiled rfl rfl rfl rfl rfl

/-! ## Runs -/

theorem ensureAcceptableBuffer_held (hheld : s.codedFrameBuffer.held = true)
    (hnew : ∀ new ∈ pool.newBuffer, new.held = true)
    (hok : (s.ensureAcceptableBuffer c pool).1 = .collatorNoError) :
    (s.ensureAcceptableBuffer c pool).2.codedFrameBuffer.held = true := by
  unfold ensureAcceptableBuffer at hok ⊢
  dsimp only at hok ⊢
  split
  · next hshort =>
    split
    · next hseeks =>
      rw [if_pos hshort, if_pos hseeks] at hok
      split
      · next hnone =>
        rw [hnone] at hok
        exact nomatch hok
      · next new hsome => exact hnew new hsome
    · exact hheld
  · exact hheld

theorem partitionOutput_held (hheld : s.codedFrameBuffer.held = true)
    (hnew : ∀ new ∈ pool.newBuffer, new.held = true)
    (hleft : (s.partitionOutput c pool).1 ≠ .collatorNoError → s.leftOver pool ≠ 0) :
    (s.partitionOutput c pool).2.codedFrameBuffer.held = true := by
  by_cases herror : (s.partitionOutput c pool).1 ≠ .collatorNoError
  · exact (partitionOutput_error_held hheld herror).mpr (hleft herror)
  · exact ensureAcceptableBuffer_held (outputAndExtend_left hheld).2 hnew (not_not.mp herror)

theorem accumulateData_held (hheld : s.codedFrameBuffer.held = true) {data : List (BitVec 8)}
    (hcall : s.NeedsRoom c (BitVec.ofNat 32 data.length) →
      (s.partitionOutput c pool).2.codedFrameBuffer.held = true) :
    (s.accumulateData c pool data).2.codedFrameBuffer.held = true := by
  unfold accumulateData
  dsimp only
  split
  · exact hheld
  · next hframe =>
    split
    · next hshort =>
      have hafter := hcall ⟨hframe, hshort⟩
      split
      · next t heq =>
        rw [heq] at hafter
        split
        · exact hafter
        · exact hafter
      · exact hafter
    · exact hheld

theorem accumulateOneVideoPartition_held (hheld : s.codedFrameBuffer.held = true)
    (times : FrameTimes) (hcall : s.kept.Terminates c ∧ s.kept.NeedsRoom c 4 →
      (s.kept.partitionOutput c pool).2.codedFrameBuffer.held = true) :
    (s.accumulateOneVideoPartition c pool times).codedFrameBuffer.held = true := by
  have hkept : s.kept.codedFrameBuffer.held = true := by
    unfold kept
    split
    · exact hheld
    · exact hheld
  have hterminated : (s.kept.appendTerminateCode c pool).codedFrameBuffer.held = true := by
    unfold appendTerminateCode
    split
    · next hterminates => exact accumulateData_held hkept fun hroom => hcall ⟨hterminates, hroom⟩
    · exact hkept
  show (s.accumulateOnePartition c pool).codedFrameBuffer.held = true
  unfold accumulateOnePartition
  show (if s.kept.nothingToAccumulate then s.kept
    else (s.kept.appendTerminateCode c pool).closePartition c).codedFrameBuffer.held = true
  split
  · exact hkept
  · unfold closePartition
    dsimp only
    split
    · exact hterminated
    · exact hterminated

theorem discardAccumulatedData_buffer (s : Collator2Base) (c : Configuration) :
    (s.discardAccumulatedData c).codedFrameBuffer = s.codedFrameBuffer := by
  have hdiscard : ∀ n, (discardPartition^[n] s).codedFrameBuffer = s.codedFrameBuffer := by
    intro n
    induction n with
    | zero => rfl
    | succ n ih =>
      rw [Function.iterate_succ_apply']
      exact ih
  exact hdiscard _

theorem step_held {op : Operation} (hheld : s.codedFrameBuffer.held = true)
    (hcall : ∀ {pool t}, s.outputCall op = some (pool, t) → s.ReachesOutput c op →
      (t.partitionOutput c pool).2.codedFrameBuffer.held = true) :
    (s.step c op).codedFrameBuffer.held = true := by
  cases op with
  | setDirection direction =>
    show (s.setDirection c direction).2.codedFrameBuffer.held = true
    unfold setDirection
    split
    · exact hheld
    · split
      · exact hheld
      · exact hheld
  | inputEntry input nonBlocking pool =>
    show (s.inputEntry c pool input nonBlocking).2.codedFrameBuffer.held = true
    unfold inputEntry
    dsimp only
    split
    · next hextend => exact hcall rfl hextend
    · exact hheld
  | inputExit pool =>
    show (s.inputExit c pool).2.codedFrameBuffer.held = true
    unfold inputExit
    split
    · next hsafe => exact hcall rfl hsafe
    · exact hheld
  | partitionOutput pool => exact hcall rfl trivial
  | accumulateData data pool => exact accumulateData_held hheld (hcall rfl)
  | accumulateStartCode code =>
    show (s.accumulateStartCode c code).2.codedFrameBuffer.held = true
    unfold accumulateStartCode
    split
    · exact hheld
    · split
      · exact hheld
      · exact hheld
  | accumulateOnePartition times pool =>
    exact accumulateOneVideoPartition_held hheld times (hcall rfl)
  | markSafeToOutput =>
    show (if s.playDirection = _ then _ else s).codedFrameBuffer.held = true
    split
    · exact hheld
    · exact hheld
  | moveMarkers =>
    show (if s.playDirection = _ then _ else s).codedFrameBuffer.held = true
    split
    · exact hheld
    · exact hheld
  | recordPacketHeader size times =>
    show (if s.playDirection = _ then _ else s).codedFrameBuffer.held = true
    split
    · unfold recordPacketHeader
      dsimp only
      split
      · exact hheld
      · exact hheld
    · exact hheld
  | discardAccumulatedData =>
    show (s.discardAccumulatedData c).codedFrameBuffer.held = true
    rw [discardAccumulatedData_buffer]
    exact hheld
  | releaseHeader _ | emptyCurrentPartition | dumpCurrentPartition | noteHeaderFlags _ | setTimes _
  | setDiscardingData _ | setNonBlockingInput _ | flushMarkers | signalDiscontinuity _ _ =>
    exact hheld

theorem outputCall_buffer {op : Operation} {t : Collator2Base} (h : s.outputCall op = some (pool, t)) :
    t.codedFrameBuffer = s.codedFrameBuffer := by
  unfold outputCall at h
  split at h
  · obtain ⟨-, rfl⟩ := Prod.mk.inj (Option.some.inj h)
    rfl
  · obtain ⟨-, rfl⟩ := Prod.mk.inj (Option.some.inj h)
    rfl
  · obtain ⟨-, rfl⟩ := Prod.mk.inj (Option.some.inj h)
    rfl
  · obtain ⟨-, rfl⟩ := Prod.mk.inj (Option.some.inj h)
    rfl
  · obtain ⟨-, rfl⟩ := Prod.mk.inj (Option.some.inj h)
    unfold kept
    split
    · rfl
    · rfl
  · exact nomatch h

/-- Buffers the pool gives are held. -/
def GivesHeld (c : Configuration) (s : Collator2Base) (op : Operation) : Prop :=
  s.ReachesOutput c op → ∀ call ∈ s.outputCall op, ∀ new ∈ call.1.newBuffer, new.held = true

/-- A `PartitionOutput` the operation comes to leaves something in the buffer if it fails. -/
def FailsLeaving (c : Configuration) (s : Collator2Base) (op : Operation) : Prop :=
  s.ReachesOutput c op → ∀ call ∈ s.outputCall op,
    (call.2.partitionOutput c call.1).1 ≠ .collatorNoError → call.2.leftOver call.1 ≠ 0

instance (c : Configuration) (s : Collator2Base) (op : Operation) : Decidable (s.GivesHeld c op) :=
  inferInstanceAs (Decidable (s.ReachesOutput c op → ∀ call ∈ s.outputCall op, _))

instance (c : Configuration) (s : Collator2Base) (op : Operation) :
    Decidable (s.FailsLeaving c op) :=
  inferInstanceAs (Decidable (s.ReachesOutput c op → ∀ call ∈ s.outputCall op, _))

theorem registered_usable {memory : Address → BitVec 8} {buffer : OperatingBuffer}
    (hheld : buffer.held = true) (hsize : buffer.size ≠ 0) :
    (registered c memory buffer).Usable := by
  have hspaces := registered_spaces c memory hsize (Nat.le_refl buffer.size.toNat)
  exact ⟨hheld, hspaces.base, hspaces.tiled, (registered_fits c memory buffer).safe_le⟩

end

/-- A `PartitionOutput` that fails leaves a buffer that is held, and counters that describe it,
exactly if something is left in it; and where all that fail leave something, each operation
finds its buffer held. -/
theorem partitionOutput_error (c : Configuration) :
    (∀ (pool : PoolAnswers) (s : Collator2Base), s.Usable → s.Extends c pool →
      (s.partitionOutput c pool).1 ≠ .collatorNoError →
      ((s.partitionOutput c pool).2.Usable ↔ s.leftOver pool ≠ 0)) ∧
    ∀ (memory : Address → BitVec 8) (buffer : OperatingBuffer) (ops : List Operation),
      buffer.held = true →
      Along (step c) (GivesHeld c) (registered c memory buffer) ops →
      Along (step c) (FailsLeaving c) (registered c memory buffer) ops →
      Along (step c) (fun s _ => s.codedFrameBuffer.held = true) (registered c memory buffer) ops ∧
        (ops.foldl (step c) (registered c memory buffer)).codedFrameBuffer.held = true := by
  constructor
  · intro pool s h hextends herror
    refine ⟨fun hafter => (partitionOutput_error_held h.held herror).mp hafter.held, fun hleft => ?_⟩
    exact partitionOutput_error_usable h hextends herror hleft
  · intro memory buffer ops hheld hgives hleaves
    have hstep : ∀ {s : Collator2Base} {op : Operation}, s.GivesHeld c op ∧ s.FailsLeaving c op →
        s.codedFrameBuffer.held = true → (s.step c op).codedFrameBuffer.held = true := by
      intro s op ⟨hnew, hleft⟩ hs
      refine step_held hs fun {pool t} hcall hreaches => ?_
      have hsame : t.codedFrameBuffer = s.codedFrameBuffer := outputCall_buffer hcall
      have hmem : (pool, t) ∈ s.outputCall op := hcall
      have hfails : (t.partitionOutput c pool).1 ≠ .collatorNoError → t.leftOver pool ≠ 0 :=
        hleft hreaches (pool, t) hmem
      exact partitionOutput_held (hsame ▸ hs) (hnew hreaches (pool, t) hmem) hfails
    have hok := hgives.and hleaves
    exact ⟨Along.of_inv hstep (fun _ hs => hs) hok hheld, Lib.foldl_inv hstep ops hok hheld⟩

/-- A buffer with less room than is acceptable, and a pool that has no other. -/
def smallBuffer : OperatingBuffer := ⟨0, 0x1000, 512, 0, true⟩

def emptyPool : PoolAnswers where
  pass := fun _ => ⟨0, none⟩
  extendedSize := 512
  freeBuffers := 0
  largestFreeMemoryBlock := 0
  newBuffer := none

/-- Of a collator with that buffer, empty or with a byte in it, the output fails. -/
theorem partitionOutput_error_small :
    ¬ ((registered h264Configuration (fun _ => 0) smallBuffer).partitionOutput h264Configuration
        emptyPool).2.Usable ∧
      ([.setDiscardingData false, .accumulateData [0x65] emptyPool, .partitionOutput emptyPool].foldl
        (step h264Configuration)
        (registered h264Configuration (fun _ => 0) smallBuffer)).codedFrameBuffer.held = true := by
  obtain ⟨hstate, hrun⟩ := partitionOutput_error h264Configuration
  constructor
  · have hafter := hstate emptyPool (registered h264Configuration (fun _ => 0) smallBuffer)
      (registered_usable rfl (by decide)) (by unfold Extends; decide) (by decide)
    exact fun h => absurd (by decide) (hafter.mp h)
  · exact (hrun (fun _ => 0) smallBuffer _ rfl (by decide) (by decide)).2

/-- The empty buffer is given back, and the collator goes on with it. -/
theorem smallBuffer_given_back : ∃ s : Collator2Base, s.Usable ∧ s.Extends h264Configuration emptyPool ∧
    (s.partitionOutput h264Configuration emptyPool).1 = .collatorError ∧
      (s.partitionOutput h264Configuration emptyPool).2.codedFrameBuffer.held = false := by
  refine ⟨registered h264Configuration (fun _ => 0) smallBuffer, registered_usable rfl (by decide),
    ?_, by decide, by decide⟩
  unfold Extends
  decide

end Collator2Base

end Duckbox.Collator2
