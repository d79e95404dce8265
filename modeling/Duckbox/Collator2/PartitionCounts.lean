import Duckbox.Collator2.Runs
import Duckbox.Lib.Word

/-!
# The counts of the partition table

What one operation can do to the counts, said once (`Counters.Move`,
`step_counters`), and the two invariants that follow.

`Fits`: no more is safe to output than is used, and the table holds what is used.
It needs that no partition is closed while the table is full, which is looked at in
forward play only, and that in reverse play the markers are not moved from a marker
past the end.

`Marked`: the marker is not past the end. Reverse play keeps it. In forward play
nothing but a flush raises the marker, and yet `PartitionOutput` takes from it all
that it outputs.
-/

namespace Duckbox.Collator2

open BufferPool (UnsignedInt)
open Player (PlayDirection)

namespace Collator2Base

/-- `AccumulateData` comes to `PartitionOutput`. -/
def NeedsRoom (c : Configuration) (s : Collator2Base) (length : UnsignedInt) : Prop :=
  ¬c.maximumCodedFrameSize < s.nextPartition.partitionSize + length ∧
    s.codedFrameBufferFreeSpace < length

instance (c : Configuration) (s : Collator2Base) (length : UnsignedInt) :
    Decidable (s.NeedsRoom c length) := inferInstanceAs (Decidable (_ ∧ _))

/-- `AccumulateOnePartition` appends a terminate code. -/
def Terminates (c : Configuration) (s : Collator2Base) : Prop :=
  s.playDirection = .playForward ∧ s.nextPartition.partitionSize ≠ 0 ∧
    c.insertFrameTerminateCode = true

instance (c : Configuration) (s : Collator2Base) : Decidable (s.Terminates c) :=
  inferInstanceAs (Decidable (_ ∧ _ ∧ _))

/-- The partition that `AccumulateOnePartition` finds, emptied if it is to be discarded. -/
def kept (s : Collator2Base) : Collator2Base :=
  if s.discardingData then s.emptyCurrentPartition else s

theorem nothingToAccumulate_iff (s : Collator2Base) :
    s.nothingToAccumulate = true ↔
      s.nextPartition.partitionSize = 0 ∧
        s.nextPartition.codedFrameParameters.streamDiscontinuity = false ∧
          s.nextPartition.codedFrameParameters.continuousReverseJump = false := by
  unfold nothingToAccumulate
  simp

/-- The operation comes to `PartitionOutput`. -/
def ReachesOutput (c : Configuration) (s : Collator2Base) : Operation → Prop
  | .inputEntry .. => s.extendCodedFrameBufferAtEarliestOpportunity = true
  | .inputExit _ => s.partitionPointSafeToOutputCount ≠ 0
  | .partitionOutput _ => True
  | .accumulateData data _ => s.NeedsRoom c (BitVec.ofNat 32 data.length)
  | .accumulateOnePartition .. => s.kept.Terminates c ∧ s.kept.NeedsRoom c 4
  | _ => False

/-- The operation closes a partition. -/
def Closes (s : Collator2Base) : Operation → Prop
  | .accumulateOnePartition .. => s.kept.nothingToAccumulate = false
  | _ => False

/-- The operation moves the markers of reverse play. -/
def MovesMarkers : Operation → Prop
  | .moveMarkers | .flushMarkers => True
  | _ => False

instance (c : Configuration) (s : Collator2Base) : ∀ op, Decidable (s.ReachesOutput c op)
  | .inputEntry .. => inferInstanceAs (Decidable (_ = true))
  | .inputExit _ => inferInstanceAs (Decidable (_ ≠ _))
  | .partitionOutput _ => inferInstanceAs (Decidable True)
  | .accumulateData .. => inferInstanceAs (Decidable (s.NeedsRoom c _))
  | .accumulateOnePartition .. => inferInstanceAs (Decidable (_ ∧ _))
  | .setDirection _ | .accumulateStartCode _ | .releaseHeader _ | .emptyCurrentPartition
  | .dumpCurrentPartition | .noteHeaderFlags _ | .setTimes _ | .setDiscardingData _
  | .setNonBlockingInput _ | .markSafeToOutput | .moveMarkers | .recordPacketHeader ..
  | .flushMarkers | .discardAccumulatedData | .signalDiscontinuity .. =>
    inferInstanceAs (Decidable False)

instance (s : Collator2Base) : ∀ op, Decidable (s.Closes op)
  | .accumulateOnePartition .. => inferInstanceAs (Decidable (_ = false))
  | .inputEntry .. | .inputExit _ | .partitionOutput _ | .accumulateData .. | .setDirection _
  | .accumulateStartCode _ | .releaseHeader _ | .emptyCurrentPartition
  | .dumpCurrentPartition | .noteHeaderFlags _ | .setTimes _ | .setDiscardingData _
  | .setNonBlockingInput _ | .markSafeToOutput | .moveMarkers | .recordPacketHeader ..
  | .flushMarkers | .discardAccumulatedData | .signalDiscontinuity .. =>
    inferInstanceAs (Decidable False)

instance : ∀ op, Decidable (MovesMarkers op)
  | .moveMarkers | .flushMarkers => inferInstanceAs (Decidable True)
  | .inputEntry .. | .inputExit _ | .partitionOutput _ | .accumulateData .. | .setDirection _
  | .accumulateStartCode _ | .releaseHeader _ | .emptyCurrentPartition
  | .dumpCurrentPartition | .accumulateOnePartition .. | .noteHeaderFlags _ | .setTimes _
  | .setDiscardingData _ | .setNonBlockingInput _ | .markSafeToOutput | .recordPacketHeader ..
  | .discardAccumulatedData | .signalDiscontinuity .. => inferInstanceAs (Decidable False)

namespace Counters

/-- What an operation can do to the counts. -/
inductive Move (reachesOutput closes movesMarkers : Prop) (k : Counters) : Counters → Prop where
  | output (n : Nat) (hn : n ≤ k.safe.toNat) (h : n ≠ 0 → reachesOutput) :
    Move reachesOutput closes movesMarkers k (k.output n)
  | close (n : Nat) (hn : n ≤ k.safe.toNat) (h : n ≠ 0 → reachesOutput) (hcloses : closes) :
    Move reachesOutput closes movesMarkers k (k.output n).close
  | turn (direction : PlayDirection) (h : k.used = 0) :
    Move reachesOutput closes movesMarkers k { k with direction := direction }
  | markSafe (h : k.direction = .playForward) :
    Move reachesOutput closes movesMarkers k { k with safe := k.used }
  | flush (h : k.direction = .playForward) :
    Move reachesOutput closes movesMarkers k { k with safe := 0, marker := k.used }
  | moveMarkers (h : k.direction = .playBackward) (hmoves : movesMarkers) :
    Move reachesOutput closes movesMarkers k { k with safe := k.marker, marker := k.used }
  | mark (h : k.direction = .playBackward) :
    Move reachesOutput closes movesMarkers k { k with marker := k.used }
  | discard :
    Move reachesOutput closes movesMarkers k
      { k with used := k.used - BitVec.ofNat 32 (k.used.toNat - k.safe.toNat), marker := k.safe }

theorem Move.same {reachesOutput closes movesMarkers : Prop} {k k' : Counters} (h : k' = k) :
    Move reachesOutput closes movesMarkers k k' := by
  rw [h]
  have hmove : Move reachesOutput closes movesMarkers k (k.output 0) :=
    .output 0 (Nat.zero_le _) fun h => absurd rfl h
  rwa [output_zero] at hmove

end Counters

section

variable (c : Configuration) (s : Collator2Base) (pool : PoolAnswers)

theorem accumulateData_counters (data : List (BitVec 8)) :
    ∃ n ≤ s.partitionPointSafeToOutputCount.toNat,
      (n ≠ 0 → s.NeedsRoom c (BitVec.ofNat 32 data.length)) ∧
        (s.accumulateData c pool data).2.counters = s.counters.output n := by
  have hsame : ∀ t : Collator2Base, t.counters = s.counters →
      ∃ n ≤ s.partitionPointSafeToOutputCount.toNat,
        (n ≠ 0 → s.NeedsRoom c (BitVec.ofNat 32 data.length)) ∧
          t.counters = s.counters.output n :=
    fun t ht => ⟨0, Nat.zero_le _, fun h => absurd rfl h, by rw [ht, Counters.output_zero]⟩
  unfold accumulateData
  simp only
  split
  · exact hsame _ (counters_dumpCurrentPartition c s)
  · next hfits =>
    split
    · next hroom =>
      obtain ⟨n, hn, hcounters⟩ := partitionOutput_counters c pool s
      refine ⟨n, hn, fun _ => ⟨hfits, hroom⟩, ?_⟩
      split
      · next t heq =>
        rw [heq] at hcounters
        split
        · exact hcounters
        · exact (counters_appendData t data).trans hcounters
      · exact hcounters
    · exact hsame _ (counters_appendData s data)

theorem appendTerminateCode_counters :
    ∃ n ≤ s.partitionPointSafeToOutputCount.toNat,
      (n ≠ 0 → s.Terminates c ∧ s.NeedsRoom c 4) ∧
        (s.appendTerminateCode c pool).counters = s.counters.output n := by
  unfold appendTerminateCode
  split
  · next hterminates =>
    obtain ⟨n, hn, hroom, hcounters⟩ := accumulateData_counters c s pool
      [0x00, 0x00, 0x01, c.terminalCode]
    exact ⟨n, hn, fun h => ⟨hterminates, hroom h⟩, hcounters⟩
  · exact ⟨0, Nat.zero_le _, fun h => absurd rfl h, (Counters.output_zero _).symm⟩

theorem closePartition_counters : (s.closePartition c).counters = s.counters.close := by
  unfold closePartition
  simp only
  split <;> rfl

theorem kept_counters : s.kept.counters = s.counters := by
  unfold kept
  split <;> rfl

theorem accumulateOneVideoPartition_counters (times : FrameTimes) :
    (s.kept.nothingToAccumulate = true ∧
        (s.accumulateOneVideoPartition c pool times).counters = s.counters) ∨
      s.kept.nothingToAccumulate = false ∧
        ∃ n ≤ s.partitionPointSafeToOutputCount.toNat,
          (n ≠ 0 → s.kept.Terminates c ∧ s.kept.NeedsRoom c 4) ∧
            (s.accumulateOneVideoPartition c pool times).counters = (s.counters.output n).close := by
  have hkept : (if s.discardingData then s.emptyCurrentPartition else s) = s.kept := rfl
  have hvideo : (s.accumulateOneVideoPartition c pool times).counters =
      (s.accumulateOnePartition c pool).counters := rfl
  rw [hvideo]
  unfold accumulateOnePartition
  simp only
  rw [hkept]
  cases hnothing : s.kept.nothingToAccumulate with
  | true => exact .inl ⟨rfl, s.kept_counters⟩
  | false =>
    have hsafe : s.kept.partitionPointSafeToOutputCount = s.partitionPointSafeToOutputCount :=
      congrArg Counters.safe s.kept_counters
    obtain ⟨n, hn, hroom, hcounters⟩ := appendTerminateCode_counters c s.kept pool
    rw [hsafe] at hn
    refine .inr ⟨rfl, n, hn, hroom, ?_⟩
    show (((s.kept).appendTerminateCode c pool).closePartition c).counters = _
    rw [closePartition_counters, hcounters, kept_counters]

theorem iterate_discardPartition_counters (n : Nat) :
    (discardPartition^[n] s).counters =
      { s.counters with used := s.counters.used - BitVec.ofNat 32 n } := by
  induction n generalizing s with
  | zero =>
    show s.counters = _
    simp
  | succ n ih =>
    have hused : s.partitionPointUsedCount - 1 - BitVec.ofNat 32 n =
        s.partitionPointUsedCount - BitVec.ofNat 32 (n + 1) := by
      rw [BitVec.sub_sub, BitVec.add_comm, BitVec.ofNat_add]
      rfl
    rw [Function.iterate_succ_apply, ih]
    exact congrArg (fun used => { s.counters with used := used }) hused

end

theorem step_counters (c : Configuration) (s : Collator2Base) (op : Operation) :
    Counters.Move (s.ReachesOutput c op) (s.Closes op) (MovesMarkers op) s.counters
      (s.step c op).counters := by
  cases op with
  | setDirection direction =>
    show Counters.Move _ _ _ _ (s.setDirection c direction).2.counters
    unfold setDirection
    split
    · exact .same rfl
    · split
      · exact .same rfl
      · next hflushed =>
        exact .turn direction (not_not.mp (not_or.mp hflushed).1)
  | inputEntry input nonBlocking pool =>
    show Counters.Move _ _ _ _ (s.inputEntry c pool input nonBlocking).2.counters
    unfold inputEntry
    simp only
    split
    · next hextend =>
      obtain ⟨n, hn, hcounters⟩ := partitionOutput_counters c pool
        { s.noteDescriptor input with nonBlockingInput := nonBlocking }
      rw [hcounters]
      exact .output n hn fun _ => hextend
    · exact .same rfl
  | inputExit pool =>
    show Counters.Move _ _ _ _ (s.inputExit c pool).2.counters
    unfold inputExit
    split
    · next hsafe =>
      obtain ⟨n, hn, hcounters⟩ := partitionOutput_counters c pool s
      rw [hcounters]
      exact .output n hn fun _ => hsafe
    · exact .same rfl
  | partitionOutput pool =>
    obtain ⟨n, hn, hcounters⟩ := partitionOutput_counters c pool s
    show Counters.Move _ _ _ _ (s.partitionOutput c pool).2.counters
    rw [hcounters]
    exact .output n hn fun _ => trivial
  | accumulateData data pool =>
    obtain ⟨n, hn, hroom, hcounters⟩ := accumulateData_counters c s pool data
    show Counters.Move _ _ _ _ (s.accumulateData c pool data).2.counters
    rw [hcounters]
    exact .output n hn hroom
  | accumulateStartCode code => exact .same (counters_accumulateStartCode c s code)
  | releaseHeader size => exact .same rfl
  | emptyCurrentPartition => exact .same rfl
  | dumpCurrentPartition => exact .same rfl
  | accumulateOnePartition times pool =>
    show Counters.Move _ _ _ _ (s.accumulateOneVideoPartition c pool times).counters
    obtain ⟨-, hsame⟩ | ⟨hcloses, n, hn, hroom, hcounters⟩ :=
      accumulateOneVideoPartition_counters c s pool times
    · exact .same hsame
    · rw [hcounters]
      exact .close n hn hroom hcloses
  | noteHeaderFlags flags => exact .same rfl
  | setTimes times => exact .same rfl
  | setDiscardingData discarding => exact .same rfl
  | setNonBlockingInput nonBlocking => exact .same rfl
  | markSafeToOutput =>
    show Counters.Move _ _ _ _ (if s.playDirection = _ then _ else s).counters
    split
    · next hforward => exact .markSafe hforward
    · exact .same rfl
  | moveMarkers =>
    show Counters.Move _ _ _ _ (if s.playDirection = _ then _ else s).counters
    split
    · next hbackward => exact .moveMarkers hbackward trivial
    · exact .same rfl
  | recordPacketHeader size times =>
    show Counters.Move _ _ _ _ (if s.playDirection = _ then _ else s).counters
    split
    · next hbackward =>
      have hcounters : (s.recordPacketHeader size times).counters =
          { s.counters with marker := s.counters.used } := by
        unfold recordPacketHeader
        simp only
        split <;> rfl
      rw [hcounters]
      exact .mark hbackward
    · exact .same rfl
  | flushMarkers =>
    show Counters.Move _ _ _ _ s.flushMarkers.counters
    cases hdirection : s.playDirection with
    | playForward =>
      have hcounters : s.flushMarkers.counters =
          { s.counters with safe := 0, marker := s.counters.used } := by
        simp only [counters, Collator2Base.flushMarkers, hdirection]
      rw [hcounters]
      exact .flush hdirection
    | playBackward =>
      have hcounters : s.flushMarkers.counters =
          { s.counters with safe := s.counters.marker, marker := s.counters.used } := by
        simp only [counters, Collator2Base.flushMarkers, hdirection]
      rw [hcounters]
      exact .moveMarkers hdirection trivial
  | discardAccumulatedData =>
    have hcounters := s.iterate_discardPartition_counters
      (s.partitionPointUsedCount.toNat - s.partitionPointSafeToOutputCount.toNat)
    have hdiscarded : (s.discardAccumulatedData c).counters =
        { s.counters with
          used := s.counters.used - BitVec.ofNat 32 (s.counters.used.toNat - s.counters.safe.toNat)
          marker := s.counters.safe } := by
      have hlast : (s.discardAccumulatedData c).counters =
          { (discardPartition^[s.partitionPointUsedCount.toNat -
              s.partitionPointSafeToOutputCount.toNat] s).counters with
            marker := (discardPartition^[s.partitionPointUsedCount.toNat -
              s.partitionPointSafeToOutputCount.toNat] s).counters.safe } := rfl
      rw [hlast, hcounters]
      rfl
    show Counters.Move _ _ _ _ (s.discardAccumulatedData c).counters
    rw [hdiscarded]
    exact .discard
  | signalDiscontinuity surplus continuous => exact .same rfl

/-! ## The table holds what is used -/

namespace Counters

/-- No more is safe to output than is used, and the table holds that and the next. -/
structure Fits (k : Counters) : Prop where
  safe_le : k.safe.toNat ≤ k.used.toNat
  used_lt : k.used.toNat < maximumPartitionPoints

/-- The marker is not past the end, and in reverse play is not before what is safe. -/
structure Marked (k : Counters) : Prop where
  marker_le : k.marker.toNat ≤ k.used.toNat
  safe_le : k.direction = .playBackward → k.safe.toNat ≤ k.marker.toNat

variable {k : Counters} {n : Nat}

theorem toNat_add_one {x : UnsignedInt} (h : x.toNat < maximumPartitionPoints) :
    (x + 1).toNat = x.toNat + 1 := by
  have hone : (1 : UnsignedInt).toNat = 1 := rfl
  rw [BitVec.toNat_add, hone, Nat.mod_eq_of_lt (by simp only [maximumPartitionPoints] at h; omega)]

theorem Fits.output (h : k.Fits) (hn : n ≤ k.safe.toNat) : (k.output n).Fits := by
  have hle := h.safe_le
  have hlt := h.used_lt
  constructor
  · show (k.safe - _).toNat ≤ (k.used - _).toNat
    rw [Lib.toNat_sub_ofNat hn, Lib.toNat_sub_ofNat (by omega)]
    omega
  · show (k.used - _).toNat < _
    rw [Lib.toNat_sub_ofNat (by omega)]
    omega

theorem Fits.close (h : k.Fits) (hroom : k.used.toNat + 1 < maximumPartitionPoints) :
    k.close.Fits := by
  have hle := h.safe_le
  constructor
  · show k.safe.toNat ≤ (k.used + 1).toNat
    rw [toNat_add_one h.used_lt]
    omega
  · show (k.used + 1).toNat < _
    rw [toNat_add_one h.used_lt]
    exact hroom

theorem Fits.move {reachesOutput closes movesMarkers : Prop} {k' : Counters} (h : k.Fits)
    (hcloses : closes → k.used.toNat + 1 < maximumPartitionPoints)
    (hmoves : movesMarkers → k.direction = .playBackward → k.marker.toNat ≤ k.used.toNat)
    (hmove : Move reachesOutput closes movesMarkers k k') : k'.Fits := by
  have hle := h.safe_le
  have hlt := h.used_lt
  cases hmove with
  | output n hn _ => exact h.output hn
  | close n hn _ hc =>
    refine (h.output hn).close ?_
    have hroom := hcloses hc
    show (k.used - _).toNat + 1 < _
    rw [Lib.toNat_sub_ofNat (by omega)]
    omega
  | turn direction _ => exact ⟨hle, hlt⟩
  | markSafe _ => exact ⟨Nat.le_refl _, hlt⟩
  | flush _ => exact ⟨Nat.zero_le _, hlt⟩
  | moveMarkers hbackward hm => exact ⟨hmoves hm hbackward, hlt⟩
  | mark _ => exact ⟨hle, hlt⟩
  | discard =>
    have hused : (k.used - BitVec.ofNat 32 (k.used.toNat - k.safe.toNat)).toNat = k.safe.toNat := by
      rw [Lib.toNat_sub_ofNat (Nat.sub_le _ _)]
      omega
    constructor
    · show k.safe.toNat ≤ (k.used - _).toNat
      rw [hused]
    · show (k.used - _).toNat < _
      rw [hused]
      omega

theorem Marked.output (h : k.Marked) (hfits : k.Fits) (hn : n ≤ k.safe.toNat)
    (hle : n ≤ k.marker.toNat) : (k.output n).Marked := by
  have hmarker := h.marker_le
  have hsafe := hfits.safe_le
  constructor
  · show (k.marker - _).toNat ≤ (k.used - _).toNat
    rw [Lib.toNat_sub_ofNat hle, Lib.toNat_sub_ofNat (by omega)]
    omega
  · intro hbackward
    have hbehind := h.safe_le hbackward
    show (k.safe - _).toNat ≤ (k.marker - _).toNat
    rw [Lib.toNat_sub_ofNat hn, Lib.toNat_sub_ofNat hle]
    omega

theorem Marked.move {reachesOutput closes movesMarkers : Prop} {k' : Counters} (h : k.Marked)
    (hfits : k.Fits)
    (houtput : reachesOutput → k.direction = .playForward → k.safe.toNat ≤ k.marker.toNat)
    (hmove : Move reachesOutput closes movesMarkers k k') : k'.Marked := by
  have hmarker := h.marker_le
  have hsafe := hfits.safe_le
  have hpassed : ∀ n, n ≤ k.safe.toNat → (n ≠ 0 → reachesOutput) → n ≤ k.marker.toNat := by
    intro n hn hreaches
    by_cases hzero : n = 0
    · rw [hzero]
      exact Nat.zero_le _
    · cases hdirection : k.direction with
      | playForward => exact Nat.le_trans hn (houtput (hreaches hzero) hdirection)
      | playBackward => exact Nat.le_trans hn (h.safe_le hdirection)
  cases hmove with
  | output n hn hreaches => exact h.output hfits hn (hpassed n hn hreaches)
  | close n hn hreaches _ =>
    have hout := h.output hfits hn (hpassed n hn hreaches)
    refine ⟨?_, hout.safe_le⟩
    show (k.marker - _).toNat ≤ ((k.output n).used + 1).toNat
    rw [toNat_add_one (hfits.output hn).used_lt]
    exact Nat.le_succ_of_le hout.marker_le
  | turn direction hzero =>
    refine ⟨hmarker, fun _ => ?_⟩
    have hused : k.used.toNat = 0 := congrArg BitVec.toNat hzero
    show k.safe.toNat ≤ k.marker.toNat
    omega
  | markSafe hforward => exact ⟨hmarker, fun hbackward => nomatch hforward.symm.trans hbackward⟩
  | flush hforward =>
    exact ⟨Nat.le_refl _, fun hbackward => nomatch hforward.symm.trans hbackward⟩
  | moveMarkers _ _ => exact ⟨Nat.le_refl _, fun _ => hmarker⟩
  | mark _ => exact ⟨Nat.le_refl _, fun _ => hsafe⟩
  | discard =>
    refine ⟨?_, fun _ => Nat.le_refl _⟩
    show k.safe.toNat ≤ (k.used - _).toNat
    rw [Lib.toNat_sub_ofNat (Nat.sub_le _ _)]
    omega

end Counters

/-- The operation closes no partition while the table is full, and in reverse play moves
no marker from past the end. -/
def InTable (s : Collator2Base) (op : Operation) : Prop :=
  (s.Closes op → s.partitionPointUsedCount.toNat + 1 < maximumPartitionPoints) ∧
    (MovesMarkers op → s.playDirection = .playBackward →
      s.partitionPointMarkerCount.toNat ≤ s.partitionPointUsedCount.toNat)

/-- The operation does not in forward play come to output what the marker has not
passed. -/
def MarkerPassed (c : Configuration) (s : Collator2Base) (op : Operation) : Prop :=
  s.ReachesOutput c op → s.playDirection = .playForward →
    s.partitionPointSafeToOutputCount.toNat ≤ s.partitionPointMarkerCount.toNat

instance (s : Collator2Base) (op : Operation) : Decidable (s.InTable op) :=
  inferInstanceAs (Decidable (_ ∧ _))

instance (c : Configuration) (s : Collator2Base) (op : Operation) :
    Decidable (s.MarkerPassed c op) := inferInstanceAs (Decidable (_ → _))

theorem registered_fits (c : Configuration) (memory : Address → BitVec 8)
    (buffer : OperatingBuffer) : (registered c memory buffer).counters.Fits :=
  ⟨Nat.le_refl _, Nat.succ_pos _⟩

theorem registered_marked (c : Configuration) (memory : Address → BitVec 8)
    (buffer : OperatingBuffer) : (registered c memory buffer).counters.Marked :=
  ⟨Nat.le_refl _, fun _ => Nat.le_refl _⟩

theorem step_fits {c : Configuration} {s : Collator2Base} {op : Operation}
    (h : s.counters.Fits) (hok : s.InTable op) : (s.step c op).counters.Fits :=
  h.move hok.1 hok.2 (step_counters c s op)

theorem step_marked {c : Configuration} {s : Collator2Base} {op : Operation}
    (h : s.counters.Marked) (hfits : s.counters.Fits) (hok : s.MarkerPassed c op) :
    (s.step c op).counters.Marked :=
  h.move hfits hok (step_counters c s op)

theorem run_fits {c : Configuration} {start : Collator2Base} (h : start.counters.Fits)
    {ops : List Operation} (hok : Lib.Along (step c) InTable start ops) :
    (ops.foldl (step c) start).counters.Fits :=
  Lib.foldl_inv (P := fun s => s.counters.Fits) (fun hok h => step_fits h hok) ops hok h

end Collator2Base

end Duckbox.Collator2
