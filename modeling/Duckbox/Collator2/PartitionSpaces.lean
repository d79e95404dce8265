import Duckbox.Collator2.PartitionCounts

/-!
# The space in the operating buffer

The partitions tile the used space: its size is the sum of theirs, and with the
free space it is the size of the buffer. In reverse play a partition is split off
at its base, so the bases are accounted for as well: each is as far below the end
of the buffer as the partitions up to it are long (`Tiles`).

> `Spaces.partitionOutput`: `PartitionOutput` keeps the spaces, if the pool answers by
> its contract and leaves it a buffer.

`Tiles` is stated of a table and a number of its entries, apart from the state's
own, for the loop of `PartitionOutput` takes entries off the front (`Tiles.tail`),
closing a partition leaves the next to be begun (`Tiles.begin`), and a discard takes
entries off the end (`Tiles.init`).
-/

namespace Duckbox.Collator2

open BufferPool (UnsignedInt)
open Player (PlayDirection)
open Lib (Along)

/-- The size of the first so many partitions. -/
def total (p : Nat → PartitionPoint) (n : Nat) : Nat :=
  ∑ i ∈ Finset.range n, (p i).partitionSize.toNat

@[simp] theorem total_zero (p : Nat → PartitionPoint) : total p 0 = 0 := rfl

theorem total_succ (p : Nat → PartitionPoint) (n : Nat) :
    total p (n + 1) = total p n + (p n).partitionSize.toNat := Finset.sum_range_succ _ n

theorem total_succ' (p : Nat → PartitionPoint) (n : Nat) :
    total p (n + 1) = total (fun i => p (i + 1)) n + (p 0).partitionSize.toNat :=
  Finset.sum_range_succ' _ n

variable {p : Nat → PartitionPoint} {n : Nat}

theorem total_congr {q : Nat → PartitionPoint}
    (h : ∀ i < n, (q i).partitionSize = (p i).partitionSize) : total q n = total p n :=
  Finset.sum_congr rfl fun i hi => congrArg BitVec.toNat (h i (Finset.mem_range.mp hi))

theorem total_update {m : Nat} (h : m ≤ n) (d : PartitionPoint) :
    total (Function.update p n d) m = total p m :=
  total_congr fun i hi => by rw [Function.update_of_ne (Nat.ne_of_lt (Nat.lt_of_lt_of_le hi h))]

namespace Collator2Base

/-- The first entries of a table tile the used space. -/
structure Tiles (p : Nat → PartitionPoint) (n : Nat) (s : Collator2Base) : Prop where
  used : s.codedFrameBufferUsedSpace.toNat = total p n
  spaces : s.codedFrameBufferUsedSpace.toNat + s.codedFrameBufferFreeSpace.toNat =
    s.codedFrameBuffer.size.toNat
  base : s.playDirection = .playBackward → s.codedFrameBufferBase = s.codedFrameBuffer.base
  bases : s.playDirection = .playBackward → ∀ i < n,
    (p i).partitionBase + BitVec.ofNat 32 (total p (i + 1)) =
      s.codedFrameBuffer.base + s.codedFrameBuffer.size

namespace Tiles

variable {p q : Nat → PartitionPoint} {n : Nat} {s t : Collator2Base}

theorem congr (h : Tiles p n s) (hsize : ∀ i < n, (q i).partitionSize = (p i).partitionSize)
    (hbase : ∀ i < n, (q i).partitionBase = (p i).partitionBase) : Tiles q n s := by
  refine ⟨h.used.trans (total_congr hsize).symm, h.spaces, h.base, fun hback i hi => ?_⟩
  rw [hbase i hi, total_congr fun j hj => hsize j (Nat.lt_of_lt_of_le hj hi)]
  exact h.bases hback i hi

theorem of_same (h : Tiles p n s) (hused : t.codedFrameBufferUsedSpace = s.codedFrameBufferUsedSpace)
    (hfree : t.codedFrameBufferFreeSpace = s.codedFrameBufferFreeSpace)
    (hbuffer : t.codedFrameBuffer = s.codedFrameBuffer)
    (hbase : t.codedFrameBufferBase = s.codedFrameBufferBase)
    (hdirection : t.playDirection = s.playDirection) : Tiles p n t := by
  refine ⟨hused ▸ h.used, ?_, ?_, ?_⟩
  · rw [hused, hfree, hbuffer]
    exact h.spaces
  · rw [hdirection, hbase, hbuffer]
    exact h.base
  · rw [hdirection, hbuffer]
    exact h.bases

theorem init (h : Tiles p (n + 1) s) (hempty : (p n).partitionSize = 0) : Tiles p n s := by
  have hzero : (p n).partitionSize.toNat = 0 := congrArg BitVec.toNat hempty
  refine ⟨?_, h.spaces, h.base, fun hback i hi => h.bases hback i (Nat.lt_succ_of_lt hi)⟩
  rw [h.used, total_succ, hzero, Nat.add_zero]

theorem used_le (h : Tiles p n s) :
    s.codedFrameBufferUsedSpace.toNat ≤ s.codedFrameBuffer.size.toNat := by
  have hspaces := h.spaces
  omega

end Tiles

/-! ## The current partition -/

/-- The partitions used and the current one tile the used space. -/
def Tiled (s : Collator2Base) : Prop :=
  Tiles s.partitionPoints (s.partitionPointUsedCount.toNat + 1) s

namespace Tiled

variable {s : Collator2Base} {bytes : UnsignedInt}

theorem modifyPartition (h : s.Tiled) (i : Nat) {f : PartitionPoint → PartitionPoint}
    (hsize : ∀ p, (f p).partitionSize = p.partitionSize)
    (hbase : ∀ p, (f p).partitionBase = p.partitionBase) : (s.modifyPartition i f).Tiled := by
  have hentry : ∀ j, (s.modifyPartition i f).partitionPoints j = s.partitionPoints j ∨
      (s.modifyPartition i f).partitionPoints j = f (s.partitionPoints j) := by
    intro j
    by_cases hj : j = i
    · rw [hj]
      exact .inr (Function.update_self ..)
    · exact .inl (Function.update_of_ne hj ..)
  have htiles : Tiles (s.modifyPartition i f).partitionPoints
      (s.partitionPointUsedCount.toNat + 1) s := by
    refine h.congr (fun j _ => ?_) (fun j _ => ?_)
    · rcases hentry j with hj | hj
      · rw [hj]
      · rw [hj, hsize]
    · rcases hentry j with hj | hj
      · rw [hj]
      · rw [hj, hbase]
  exact htiles.of_same rfl rfl rfl rfl rfl

theorem used_eq (h : s.Tiled) : s.codedFrameBufferUsedSpace.toNat =
    total s.partitionPoints s.partitionPointUsedCount.toNat +
      s.nextPartition.partitionSize.toNat :=
  h.used.trans (total_succ _ _)

theorem size_le_used (h : s.Tiled) :
    s.nextPartition.partitionSize.toNat ≤ s.codedFrameBufferUsedSpace.toNat := by
  rw [h.used_eq]
  exact Nat.le_add_left _ _

theorem move (h : s.Tiled)
    (hused : (s.codedFrameBufferUsedSpace + bytes).toNat =
      total s.partitionPoints s.partitionPointUsedCount.toNat +
        (s.nextPartition.partitionSize + bytes).toNat)
    (hspaces : (s.codedFrameBufferUsedSpace + bytes).toNat +
        (s.codedFrameBufferFreeSpace - bytes).toNat = s.codedFrameBuffer.size.toNat) :
    (s.moveCurrentPartitionBoundary bytes).Tiled := by
  have hnext := s.nextPartition_moveCurrentPartitionBoundary bytes
  have hother : ∀ i < s.partitionPointUsedCount.toNat,
      (s.moveCurrentPartitionBoundary bytes).partitionPoints i = s.partitionPoints i :=
    fun i hi => Function.update_of_ne (Nat.ne_of_lt hi) ..
  have htotal : ∀ i ≤ s.partitionPointUsedCount.toNat,
      total (s.moveCurrentPartitionBoundary bytes).partitionPoints i =
        total s.partitionPoints i := fun i hi => total_update hi _
  have hlast : total (s.moveCurrentPartitionBoundary bytes).partitionPoints
      (s.partitionPointUsedCount.toNat + 1) =
        total s.partitionPoints s.partitionPointUsedCount.toNat +
          (s.nextPartition.partitionSize + bytes).toNat := by
    rw [total_succ, htotal _ (Nat.le_refl _)]
    exact congrArg (_ + ·) (congrArg (·.partitionSize.toNat) hnext)
  refine ⟨hused.trans hlast.symm, hspaces, h.base, fun hback i hi => ?_⟩
  show _ = s.codedFrameBuffer.base + s.codedFrameBuffer.size
  rw [← h.bases hback i hi]
  rcases Nat.lt_or_eq_of_le (Nat.le_of_lt_succ hi) with hlt | heq
  · rw [hother i hlt, htotal (i + 1) hlt]
  · -- the current one, whose base moves the other way
    have hbase : ((s.moveCurrentPartitionBoundary bytes).partitionPoints
        s.partitionPointUsedCount.toNat).partitionBase = s.nextPartition.partitionBase - bytes := by
      have hne : s.playDirection ≠ .playForward := by
        intro hforward
        exact nomatch hforward.symm.trans hback
      exact (congrArg (·.partitionBase) hnext).trans (if_pos hne)
    have hlatest : i = s.partitionPointUsedCount.toNat := heq
    rw [hlatest, hbase, hlast, total_succ, BitVec.ofNat_add, BitVec.ofNat_add, BitVec.ofNat_toNat,
      BitVec.ofNat_toNat, BitVec.setWidth_eq, BitVec.setWidth_eq]
    unfold nextPartition
    grind

theorem grow (h : s.Tiled) (hroom : bytes.toNat ≤ s.codedFrameBufferFreeSpace.toNat) :
    (s.moveCurrentPartitionBoundary bytes).Tiled := by
  have hspaces := h.spaces
  have hlt := s.codedFrameBuffer.size.isLt
  have hused := h.used_eq
  apply h.move
  · rw [BitVec.toNat_add, BitVec.toNat_add, Nat.mod_eq_of_lt (by omega),
      Nat.mod_eq_of_lt (by omega)]
    omega
  · rw [BitVec.toNat_add, BitVec.toNat_sub_of_le (BitVec.le_def.mpr hroom),
      Nat.mod_eq_of_lt (by omega)]
    omega

theorem shrink (h : s.Tiled) (hle : bytes.toNat ≤ s.nextPartition.partitionSize.toNat) :
    (s.moveCurrentPartitionBoundary (-bytes)).Tiled := by
  have hspaces := h.spaces
  have hlt := s.codedFrameBuffer.size.isLt
  have hused := h.used_eq
  apply h.move
  · rw [← BitVec.sub_eq_add_neg, ← BitVec.sub_eq_add_neg,
      BitVec.toNat_sub_of_le (BitVec.le_def.mpr (by omega)),
      BitVec.toNat_sub_of_le (BitVec.le_def.mpr hle)]
    omega
  · rw [← BitVec.sub_eq_add_neg, BitVec.sub_neg,
      BitVec.toNat_sub_of_le (BitVec.le_def.mpr (by omega)), BitVec.toNat_add,
      Nat.mod_eq_of_lt (by omega)]
    omega

end Tiled

variable {s : Collator2Base}

theorem Tiles.begin (c : Configuration)
    (h : Tiles s.partitionPoints s.partitionPointUsedCount.toNat s)
    (hbase : s.codedFrameBufferBase = s.codedFrameBuffer.base)
    (hsize : s.codedFrameBuffer.size ≠ 0) :
    (s.initializePartition c).Tiled := by
  have hother : ∀ i < s.partitionPointUsedCount.toNat,
      (s.initializePartition c).partitionPoints i = s.partitionPoints i :=
    fun i hi => Function.update_of_ne (Nat.ne_of_lt hi) ..
  have htotal : ∀ i ≤ s.partitionPointUsedCount.toNat,
      total (s.initializePartition c).partitionPoints i = total s.partitionPoints i :=
    fun i hi => total_update hi _
  have hnext := s.nextPartition_modifyNextPartition
  have hempty : (s.initializePartition c).nextPartition.partitionSize = 0 := by
    unfold initializePartition
    rw [hnext]
  have hlast : total (s.initializePartition c).partitionPoints
      (s.partitionPointUsedCount.toNat + 1) =
        total s.partitionPoints s.partitionPointUsedCount.toNat := by
    rw [total_succ, htotal _ (Nat.le_refl _)]
    exact congrArg (_ + BitVec.toNat ·) hempty
  refine ⟨h.used.trans hlast.symm, h.spaces, h.base, fun hback i hi => ?_⟩
  show _ = s.codedFrameBuffer.base + s.codedFrameBuffer.size
  rcases Nat.lt_or_eq_of_le (Nat.le_of_lt_succ hi) with hlt | heq
  · rw [hother i hlt, htotal (i + 1) hlt]
    exact h.bases hback i hlt
  · have hlatest : i = s.partitionPointUsedCount.toNat := heq
    have hbackward : s.playDirection = .playBackward := hback
    have hnew : ((s.initializePartition c).partitionPoints
        s.partitionPointUsedCount.toNat).partitionBase =
          s.codedFrameBuffer.base + s.codedFrameBuffer.size - s.codedFrameBufferUsedSpace := by
      show (s.initializePartition c).nextPartition.partitionBase = _
      unfold initializePartition
      rw [hnext]
      simp only [hbackward, OperatingBuffer.obtainSize, if_neg hsize, hbase]
    rw [hlatest, hnew, hlast, ← h.used, BitVec.ofNat_toNat, BitVec.setWidth_eq]
    grind

/-! ## Output -/

theorem Tiles.tail (h : Tiles p (n + 1) s) (c : Configuration) (new : Nat) :
    Tiles (fun i => p (i + 1)) n (s.outputPartition c (p 0) new) := by
  have hspaces := h.spaces
  have hused := h.used
  rw [total_succ'] at hused
  have husedSpace : (s.codedFrameBufferUsedSpace - (p 0).partitionSize).toNat =
      total (fun i => p (i + 1)) n := by
    rw [BitVec.toNat_sub_of_le (BitVec.le_def.mpr (by omega))]
    omega
  have hfirst : (s.codedFrameBuffer.size - (p 0).partitionSize).toNat =
      s.codedFrameBuffer.size.toNat - (p 0).partitionSize.toNat :=
    BitVec.toNat_sub_of_le (BitVec.le_def.mpr (by omega))
  cases hdirection : s.playDirection with
  | playForward =>
    have hretained : (s.outputPartition c (p 0) new).codedFrameBuffer =
        (s.codedFrameBuffer.partitionBuffer (p 0).partitionSize new).2 := by
      simp only [outputPartition, performOnePartition, splitPartition, hdirection]
    refine ⟨husedSpace, ?_, fun hback => ?_, fun hback => ?_⟩
    · show (s.codedFrameBufferUsedSpace - _).toNat + s.codedFrameBufferFreeSpace.toNat = _
      rw [hretained, husedSpace]
      show _ = (s.codedFrameBuffer.size - (p 0).partitionSize).toNat
      omega
    all_goals exact nomatch hdirection.symm.trans hback
  | playBackward =>
    have hbase := h.base hdirection
    have hbases := h.bases hdirection
    have hleave : (p 0).partitionBase - s.codedFrameBufferBase =
        s.codedFrameBuffer.size - (p 0).partitionSize := by
      have hzero := hbases 0 (Nat.succ_pos n)
      rw [total_succ, total_zero, Nat.zero_add, BitVec.ofNat_toNat, BitVec.setWidth_eq] at hzero
      rw [hbase]
      grind
    have hretained : (s.outputPartition c (p 0) new).codedFrameBuffer =
        (s.codedFrameBuffer.partitionBuffer (s.codedFrameBuffer.size - (p 0).partitionSize)
          new).1 := by
      simp only [outputPartition, performOnePartition, splitPartition, hdirection, hleave]
    refine ⟨husedSpace, ?_, fun _ => ?_, fun _ i hi => ?_⟩
    · show (s.codedFrameBufferUsedSpace - _).toNat + s.codedFrameBufferFreeSpace.toNat = _
      rw [hretained, husedSpace]
      show _ = (s.codedFrameBuffer.size - (p 0).partitionSize).toNat
      omega
    · rw [hretained]
      exact hbase
    · have hi' := hbases (i + 1) (Nat.succ_lt_succ hi)
      rw [total_succ', BitVec.ofNat_add, BitVec.ofNat_toNat, BitVec.setWidth_eq] at hi'
      rw [hretained]
      show _ = s.codedFrameBuffer.base + (s.codedFrameBuffer.size - (p 0).partitionSize)
      grind

theorem Tiles.extend (h : Tiles p n s) (c : Configuration) {size : UnsignedInt}
    (hle : s.codedFrameBuffer.size ≤ size) (hpos : size ≠ 0) :
    Tiles p n (s.extendCodedFrameBuffer c size) ∧
      (s.extendCodedFrameBuffer c size).codedFrameBufferBase =
        (s.extendCodedFrameBuffer c size).codedFrameBuffer.base := by
  have hbase : (s.extendCodedFrameBuffer c size).codedFrameBufferBase =
      (s.extendCodedFrameBuffer c size).codedFrameBuffer.base := if_neg hpos
  have hfree : (s.extendCodedFrameBuffer c size).codedFrameBufferFreeSpace =
      size - s.codedFrameBufferUsedSpace :=
    congrArg (· - s.codedFrameBufferUsedSpace) (if_neg hpos)
  have hused := h.used_le
  have hsize := BitVec.le_def.mp hle
  refine ⟨⟨h.used, ?_, fun _ => hbase, fun hback i hi => ?_⟩, hbase⟩
  · rw [hfree, BitVec.toNat_sub_of_le (BitVec.le_def.mpr (by omega))]
    show s.codedFrameBufferUsedSpace.toNat + _ = size.toNat
    omega
  · have hbackward : s.playDirection = .playBackward := hback
    have hbuffer : (s.extendCodedFrameBuffer c size).codedFrameBuffer.base =
        s.codedFrameBuffer.base - (size - s.codedFrameBuffer.size) := by
      simp [extendCodedFrameBuffer, OperatingBuffer.extendBuffer, hbackward]
    rw [h.bases hbackward i hi, hbuffer]
    show _ = _ + size
    grind

theorem Tiles.moveTo (h : s.Tiled) (c : Configuration) (new : OperatingBuffer)
    (hbase : s.codedFrameBufferBase = s.codedFrameBuffer.base) (hsize : s.codedFrameBuffer.size ≠ 0)
    (hle : s.codedFrameBufferUsedSpace ≤ new.size) : (s.moveToBuffer c new).Tiled := by
  have hused := h.used_le
  have hfits := BitVec.le_def.mp hle
  have htotal : ∀ n, total (s.moveToBuffer c new).partitionPoints n = total s.partitionPoints n := by
    intro n
    refine total_congr fun i _ => ?_
    show (if i ≤ _ then _ else s.partitionPoints i).partitionSize = _
    split <;> rfl
  refine ⟨h.used.trans (htotal _).symm, ?_, fun _ => rfl, fun hback i hi => ?_⟩
  · show s.codedFrameBufferUsedSpace.toNat + (new.size - s.codedFrameBufferUsedSpace).toNat = _
    rw [BitVec.toNat_sub_of_le hle]
    show _ = new.size.toNat
    omega
  · have hbackward : s.playDirection = .playBackward := hback
    have hold := h.bases hbackward i hi
    have hmoved : ((s.moveToBuffer c new).partitionPoints i).partitionBase =
        (s.partitionPoints i).partitionBase + ((new.base + new.size - s.codedFrameBufferUsedSpace) -
          (s.codedFrameBuffer.base + s.codedFrameBuffer.size - s.codedFrameBufferUsedSpace)) := by
      have hle : i ≤ s.partitionPointUsedCount.toNat := Nat.le_of_lt_succ hi
      simp only [moveToBuffer, hbackward, if_pos hle, OperatingBuffer.obtainSize, if_neg hsize, hbase]
    rw [hmoved, htotal]
    show _ = new.base + new.size
    grind

section

variable {s : Collator2Base}

theorem Tiled.outputPartitions (h : s.Tiled) (c : Configuration)
    (hsafe : s.partitionPointSafeToOutputCount.toNat ≤ s.partitionPointUsedCount.toNat)
    (pass : Nat → PassAnswer) :
    ∃ n t, s.outputPartitions c pass s.partitionPointSafeToOutputCount.toNat 0 0 = (n, t) ∧
      n ≤ s.partitionPointSafeToOutputCount.toNat ∧
        t.counters = s.counters ∧ t.partitionPoints = s.partitionPoints ∧
          t.largestFrameSeen = s.largestFrameSeen ∧
            Tiles (fun i => s.partitionPoints (n + i))
              (s.partitionPointUsedCount.toNat + 1 - n) t := by
  have hstart : Tiles (fun i => s.partitionPoints (0 + i))
      (s.partitionPointUsedCount.toNat + 1 - 0) s := by
    simp only [Nat.zero_add]
    exact h
  have hloop := outputPartitions_inv c pass
    (fun k t => t.counters = s.counters ∧ t.partitionPoints = s.partitionPoints ∧
      t.largestFrameSeen = s.largestFrameSeen ∧
        Tiles (fun i => s.partitionPoints (k + i)) (s.partitionPointUsedCount.toNat + 1 - k) t)
    0 s.partitionPointSafeToOutputCount.toNat
    (fun {i t} new _ hi ⟨hcounters, hpoints, hlargest, htiles⟩ => ?_) 0
    (Nat.le_refl 0) rfl ⟨rfl, rfl, rfl, hstart⟩
  · obtain ⟨n, t, heq, -, hn, hinv⟩ := hloop
    exact ⟨n, t, heq, by omega, hinv⟩
  · have hleft : s.partitionPointUsedCount.toNat + 1 - i =
        s.partitionPointUsedCount.toNat + 1 - (i + 1) + 1 := by omega
    have hshift : (fun j => s.partitionPoints (i + (j + 1))) =
        fun j => s.partitionPoints (i + 1 + j) :=
      funext fun j => congrArg s.partitionPoints (by omega)
    rw [hleft] at htiles
    have htail := htiles.tail c new
    rw [hshift] at htail
    rw [hpoints]
    exact ⟨hcounters, hpoints, hlargest, htail⟩

theorem compactPartitions_next {t : Collator2Base} (hn : n ≤ t.partitionPointUsedCount.toNat) :
    (t.compactPartitions n).nextPartition = t.nextPartition := by
  unfold compactPartitions
  split
  · rfl
  · have hused := Lib.toNat_sub_ofNat hn
    show (if _ ≤ _ then _ else _) = t.nextPartition
    rw [if_pos (Nat.le_refl _)]
    refine congrArg t.partitionPoints ?_
    show n + (t.partitionPointUsedCount - BitVec.ofNat 32 n).toNat = _
    rw [hused]
    omega

theorem compactPartitions_tiled {t : Collator2Base} (hn : n ≤ t.partitionPointUsedCount.toNat)
    (h : Tiles (fun i => t.partitionPoints (n + i)) (t.partitionPointUsedCount.toNat + 1 - n) t) :
    (t.compactPartitions n).Tiled := by
  unfold compactPartitions
  split
  · next hzero =>
    rw [hzero] at h
    simp only [Nat.zero_add] at h
    exact h
  · have hused := Lib.toNat_sub_ofNat hn
    have hcount : (t.partitionPointUsedCount - BitVec.ofNat 32 n).toNat + 1 =
        t.partitionPointUsedCount.toNat + 1 - n := by
      rw [hused]
      omega
    have hentry : ∀ i < t.partitionPointUsedCount.toNat + 1 - n,
        (if i ≤ (t.partitionPointUsedCount - BitVec.ofNat 32 n).toNat then
          t.partitionPoints (n + i) else t.partitionPoints i) = t.partitionPoints (n + i) :=
      fun i hi => if_pos (by omega)
    refine Tiles.of_same (s := t) ?_ rfl rfl rfl rfl rfl
    show Tiles _ ((t.partitionPointUsedCount - BitVec.ofNat 32 n).toNat + 1) t
    rw [hcount]
    exact h.congr (fun i hi => congrArg (·.partitionSize) (hentry i hi))
      (fun i hi => congrArg (·.partitionBase) (hentry i hi))

theorem Tiled.outputAndExtend (h : s.Tiled) {c : Configuration} {pool : PoolAnswers}
    (hsafe : s.partitionPointSafeToOutputCount.toNat ≤ s.partitionPointUsedCount.toNat)
    (hextends : (s.outputPartitions c pool.pass
      s.partitionPointSafeToOutputCount.toNat 0 0).2.codedFrameBuffer.size ≤ pool.extendedSize)
    (hpos : pool.extendedSize ≠ 0) :
    (s.outputAndExtend c pool).Tiled ∧
      (s.outputAndExtend c pool).codedFrameBufferBase =
        (s.outputAndExtend c pool).codedFrameBuffer.base ∧
      (s.outputAndExtend c pool).nextPartition.partitionSize = s.nextPartition.partitionSize ∧
      (s.outputAndExtend c pool).largestFrameSeen = s.largestFrameSeen := by
  obtain ⟨n, t, heq, hn, hcounters, hpoints, hlargest, htiles⟩ :=
    h.outputPartitions c hsafe pool.pass
  have hused : t.partitionPointUsedCount = s.partitionPointUsedCount :=
    congrArg Counters.used hcounters
  have hn' : n ≤ t.partitionPointUsedCount.toNat := by
    rw [hused]
    omega
  have hstay : t.nextPartition = s.nextPartition := by
    unfold nextPartition
    rw [hused, hpoints]
  rw [← hpoints, ← hused] at htiles
  unfold Collator2Base.outputAndExtend
  rw [heq] at hextends ⊢
  have hcompact := compactPartitions_tiled hn' htiles
  have hnext := compactPartitions_next hn'
  have hbuffer : (t.compactPartitions n).codedFrameBuffer = t.codedFrameBuffer := by
    unfold compactPartitions
    split <;> rfl
  have hlargest' : (t.compactPartitions n).largestFrameSeen = s.largestFrameSeen := by
    rw [← hlargest]
    unfold compactPartitions
    split <;> rfl
  obtain ⟨htiled, hbase⟩ := hcompact.extend c (by rw [hbuffer]; exact hextends) hpos
  refine ⟨htiled, hbase, ?_, hlargest'⟩
  show (t.compactPartitions n).nextPartition.partitionSize = _
  rw [hnext, hstay]

end

/-- What holds of the spaces between operations; `memory` is that of the pool. -/
structure Spaces (c : Configuration) (memory : Nat) (s : Collator2Base) : Prop where
  tiled : s.Tiled
  base : s.codedFrameBufferBase = s.codedFrameBuffer.base
  size_pos : s.codedFrameBuffer.size ≠ 0
  size_le : s.codedFrameBuffer.size.toNat ≤ memory
  next_le : s.nextPartition.partitionSize.toNat ≤ c.maximumCodedFrameSize.toNat
  largest_le : s.largestFrameSeen.toNat ≤ c.maximumCodedFrameSize.toNat

/-- What the pool answers one `PartitionOutput`: a buffer is extended to no less than it
has, a new one is as large as was asked, and both are in the memory there is. -/
structure Answers (c : Configuration) (memory : Nat) (pool : PoolAnswers) (s : Collator2Base) :
    Prop where
  extends_ : (s.outputPartitions c pool.pass
    s.partitionPointSafeToOutputCount.toNat 0 0).2.codedFrameBuffer.size ≤ pool.extendedSize
  extended_le : pool.extendedSize.toNat ≤ memory
  new : (s.outputAndExtend c pool).SeeksBuffer c pool → ∀ new ∈ pool.newBuffer,
    (s.outputAndExtend c pool).minimumSoughtSize c ≤ new.size ∧ new.size.toNat ≤ memory

/-- One `PartitionOutput` leaves an operating buffer: the old one has some memory once it
is extended, and is given up only for a new one. -/
structure KeepsBuffer (c : Configuration) (pool : PoolAnswers) (s : Collator2Base) : Prop where
  extended_pos : pool.extendedSize ≠ 0
  granted : (s.outputAndExtend c pool).SeeksBuffer c pool → pool.newBuffer = none →
    (s.outputAndExtend c pool).codedFrameBufferUsedSpace ≠ 0

namespace Spaces

variable {c : Configuration} {memory : Nat} {s : Collator2Base} {pool : PoolAnswers}

theorem outputAndExtend (h : Spaces c memory s) (hfits : s.counters.Fits)
    (hanswers : s.Answers c memory pool) (hpos : pool.extendedSize ≠ 0) :
    Spaces c memory (s.outputAndExtend c pool) ∧
      (s.outputAndExtend c pool).nextPartition.partitionSize = s.nextPartition.partitionSize := by
  obtain ⟨htiled, hbase, hsize, hlargest⟩ :=
    h.tiled.outputAndExtend hfits.safe_le hanswers.extends_ hpos
  refine ⟨⟨htiled, hbase, hpos, hanswers.extended_le, ?_, ?_⟩, hsize⟩
  · rw [hsize]
    exact h.next_le
  · rw [hlargest]
    exact h.largest_le

theorem minimumSoughtSize (h : Spaces c memory s)
    (hmemory : memory + c.maximumCodedFrameSize.toNat + 1024 < 2 ^ 32) :
    (s.minimumSoughtSize c).toNat =
      s.codedFrameBufferUsedSpace.toNat + (s.acceptableBufferSpace c).toNat := by
  have hused := h.tiled.used_le
  have hnext := h.tiled.size_le_used
  have hsize := h.size_le
  have hle := h.next_le
  have hlargest := h.largest_le
  have hsixteenth : (c.maximumCodedFrameSize / 16).toNat = c.maximumCodedFrameSize.toNat / 16 :=
    BitVec.toNat_udiv
  have hacceptable : (s.acceptableBufferSpace c).toNat ≤ c.maximumCodedFrameSize.toNat + 1024 := by
    unfold acceptableBufferSpace
    generalize s.nextPartition.partitionSize = size at hnext hle
    simp only
    split
    · split
      · next hroom =>
        have hsum : (size + c.maximumCodedFrameSize / 16).toNat =
            size.toNat + c.maximumCodedFrameSize.toNat / 16 := by
          rw [BitVec.toNat_add, hsixteenth, Nat.mod_eq_of_lt (by omega)]
        rw [BitVec.toNat_sub_of_le (BitVec.le_def.mpr (by omega))]
        omega
      · rw [BitVec.toNat_sub_of_le (BitVec.le_def.mpr hle)]
        omega
    · next hseen =>
      have hsum : (s.largestFrameSeen + minimumAccumulationHeadroom).toNat =
          s.largestFrameSeen.toNat + 1024 := by
        have hheadroom : minimumAccumulationHeadroom.toNat = 1024 := rfl
        rw [BitVec.toNat_add, hheadroom, Nat.mod_eq_of_lt (by omega)]
      have hseen' := BitVec.le_def.mp (BitVec.not_lt.mp hseen)
      rw [BitVec.toNat_sub_of_le (BitVec.le_def.mpr (by omega))]
      omega
  unfold Collator2Base.minimumSoughtSize
  rw [BitVec.toNat_add, Nat.mod_eq_of_lt (by omega)]

theorem moveToBuffer_size (c : Configuration) (t : Collator2Base) (new : OperatingBuffer) :
    (t.moveToBuffer c new).nextPartition.partitionSize = t.nextPartition.partitionSize := by
  unfold nextPartition moveToBuffer
  simp only [Nat.le_refl, if_true]

theorem ensureAcceptableBuffer (h : Spaces c memory s)
    (hmemory : memory + c.maximumCodedFrameSize.toNat + 1024 < 2 ^ 32)
    (hnew : s.SeeksBuffer c pool → ∀ new ∈ pool.newBuffer,
      s.minimumSoughtSize c ≤ new.size ∧ new.size.toNat ≤ memory)
    (hgranted : s.SeeksBuffer c pool → pool.newBuffer = none → s.codedFrameBufferUsedSpace ≠ 0) :
    Spaces c memory (s.ensureAcceptableBuffer c pool).2 ∧
      (s.ensureAcceptableBuffer c pool).2.nextPartition.partitionSize =
        s.nextPartition.partitionSize := by
  have hsame : ∀ extend_, Spaces c memory
      { s with extendCodedFrameBufferAtEarliestOpportunity := extend_ } :=
    fun _ => ⟨h.tiled.of_same rfl rfl rfl rfl rfl, h.base, h.size_pos, h.size_le, h.next_le,
      h.largest_le⟩
  obtain ⟨extend_, heq⟩ | ⟨hseeks, hnone, hempty, -⟩ | ⟨new, hseeks, hsome, heq⟩ :=
    s.ensureAcceptableBuffer_cases c pool
  · rw [heq]
    exact ⟨hsame extend_, rfl⟩
  · exact absurd hempty (hgranted hseeks hnone)
  · obtain ⟨hsought, hle⟩ := hnew hseeks new hsome
    have hasked := h.minimumSoughtSize hmemory
    have hsought' := BitVec.le_def.mp hsought
    have hshort := BitVec.lt_def.mp hseeks.1
    have hfits : s.codedFrameBufferUsedSpace ≤ new.size := BitVec.le_def.mpr (by omega)
    have hpos : new.size ≠ 0 := by
      intro hzero
      have hnat : new.size.toNat = 0 := congrArg BitVec.toNat hzero
      omega
    have hmoved := Tiles.moveTo (hsame false).tiled c new h.base h.size_pos hfits
    have hsize := moveToBuffer_size c
      { s with extendCodedFrameBufferAtEarliestOpportunity := false } new
    rw [heq]
    refine ⟨⟨hmoved, rfl, hpos, hle, ?_, h.largest_le⟩, hsize⟩
    exact (congrArg BitVec.toNat hsize).trans_le h.next_le

theorem partitionOutput (h : Spaces c memory s) (hfits : s.counters.Fits)
    (hmemory : memory + c.maximumCodedFrameSize.toNat + 1024 < 2 ^ 32)
    (hanswers : s.Answers c memory pool) (hkeeps : s.KeepsBuffer c pool) :
    Spaces c memory (s.partitionOutput c pool).2 ∧
      (s.partitionOutput c pool).2.nextPartition.partitionSize =
        s.nextPartition.partitionSize := by
  obtain ⟨hspaces, hsize⟩ := h.outputAndExtend hfits hanswers hkeeps.extended_pos
  obtain ⟨hafter, hsize'⟩ := hspaces.ensureAcceptableBuffer hmemory hanswers.new hkeeps.granted
  exact ⟨hafter, hsize'.trans hsize⟩

end Spaces

end Collator2Base

end Duckbox.Collator2
