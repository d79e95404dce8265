import Duckbox.Infrastructure.AllocatorPartition

/-!
# Runs of the simple allocator

The partition holds of a new allocator (`AllocatorSimple.freeAll_partition`: the
whole-buffer `Free` cuts at every 64MB boundary, and 256 records are enough for
any 32-bit buffer), every call keeps it (`System.step_inv`), so it holds after
any sequence of calls.

`SysInv` adds what the table itself needs: `HighestUsedBlockIndex` stays inside
it and no record above that index is in use.
-/

namespace Duckbox.Infrastructure

open Duckbox.Lib
open Duckbox.Lib.Extent

/-! ## The whole buffer freed -/

/-- What holds of the whole-buffer `Free` after `k` passes. -/
structure FreeAllInv (p n k : Nat) (f : FreeAll) : Prop where
  total : f.localOffset + f.localBufferSize = n
  tiles : Tiles f.blocks.free f.localOffset
  pos : ∀ e ∈ f.blocks.free, 0 < e.size
  apart : ∀ x ∈ f.blocks.free, ∀ y ∈ f.blocks.free, Apart (Boundary p) x y
  uncut : ∀ e ∈ f.blocks.free, Uncut (Boundary p) e
  idle : ∀ i, k ≤ i → (f.blocks.at i).inUse = false
  inUse_le : ∀ i, (f.blocks.at i).inUse = true → i ≤ f.highestUsedBlockIndex
  highest_lt : f.highestUsedBlockIndex < maxBlocks
  chunk : 0 < f.localBufferSize → f.maxBlockSize
    = 0x4000000 - (f.localOffset + p) % 0x4000000
  aligned : 0 < f.localBufferSize → 0 < k → Boundary p f.localOffset
  first : k = 0 → f.localOffset = 0
  progress : 0 < f.localBufferSize → k * 0x4000000 ≤ f.localOffset + 0x3ffffff

theorem freeAllInit_inv {p n : Nat} : FreeAllInv p n 0 (freeAllInit n p) := by
  have hat : ∀ i, ((freeAllInit n p).blocks.at i).inUse = false := by
    intro i
    have hzero : (freeAllInit n p).blocks.at i = Block.zero := Table.read_replicate i
    rw [hzero]
    rfl
  have hempty : ∀ e, e ∉ (freeAllInit n p).blocks.free := by
    intro e he
    obtain ⟨i, hi, _⟩ := Blocks.mem_free.mp he
    rw [hat i] at hi
    cases hi
  constructor
  case total => exact Nat.zero_add n
  case tiles =>
    intro a
    rw [List.eq_nil_iff_forall_not_mem.mpr hempty]
    rfl
  case pos => exact fun e he => absurd he (hempty e)
  case apart => exact fun x hx => absurd hx (hempty x)
  case uncut => exact fun e he => absurd he (hempty e)
  case idle => exact fun i _ => hat i
  case inUse_le =>
    intro i hi
    rw [hat i] at hi
    cases hi
  case highest_lt => exact (by decide : 0 < maxBlocks)
  case chunk =>
    intro _
    show 0x4000000 - (p &&& 0x03ffffff) = _
    rw [show (0x03ffffff : Nat) = 2 ^ 26 - 1 from rfl, Nat.and_two_pow_sub_one_eq_mod]
    show _ = 0x4000000 - (0 + p) % 0x4000000
    rw [Nat.zero_add]
  case aligned => exact fun _ h => absurd h (Nat.lt_irrefl 0)
  case first => exact fun _ => rfl
  case progress =>
    intro _
    show 0 * _ ≤ _
    omega

theorem FreeAllInv.step {p n k : Nat} {f : FreeAll} (h : FreeAllInv p n k f)
    (hk : k < maxBlocks) : FreeAllInv p n (k + 1) (freeAllStep f k) := by
  unfold freeAllStep
  by_cases hloc : f.localBufferSize ≠ 0
  · rw [if_pos hloc]
    have hpos : 0 < f.localBufferSize := Nat.pos_of_ne_zero hloc
    have hchunk := h.chunk hpos
    have htotal := h.total
    have hprogress := h.progress hpos
    generalize hs : min f.localBufferSize f.maxBlockSize = size
    have hsize : 0 < size ∧ size ≤ f.maxBlockSize ∧ size ≤ f.localBufferSize ∧
        (size = f.maxBlockSize ∨ size = f.localBufferSize) := by omega
    have hidle : (f.blocks.at k).inUse = false := h.idle k (Nat.le_refl k)
    have hnew : ∀ e ∈ (f.blocks.put k ⟨true, size, f.localOffset⟩).free,
        e ∈ f.blocks.free ∨ e = ⟨f.localOffset, size⟩ := by
      intro e he
      rcases Blocks.mem_free_put he with hf | ⟨-, heq⟩
      · exact .inl hf
      · exact .inr heq
    have hinside : ∀ e ∈ f.blocks.free, e.stop ≤ f.localOffset :=
      fun e he => h.tiles.stop_le he (h.pos e he)
    constructor
    case total => show f.localOffset + size + (f.localBufferSize - size) = n; omega
    case tiles =>
      refine h.tiles.extend ?_
      intro a
      have hput := Blocks.cover_put f.blocks ⟨true, size, f.localOffset⟩ hk a
      simpa [Block.extent?, hidle] using hput
    case pos =>
      intro e he
      rcases hnew e he with hf | rfl
      · exact h.pos e hf
      · exact hsize.1
    case apart =>
      intro x hx y hy hstop
      rcases hnew x hx with hxf | rfl <;> rcases hnew y hy with hyf | rfl
      · exact h.apart x hxf y hyf hstop
      · -- a range already laid is no first pass's
        have hxpos := h.pos x hxf
        refine h.aligned hpos (Nat.pos_of_ne_zero ?_)
        intro hzero
        have hfirst := h.first hzero
        simp only [stop] at hstop
        omega
      · have hypos := h.pos y hyf
        have hyin := hinside y hyf
        simp only [stop] at hstop hyin
        omega
      · simp only [stop] at hstop
        omega
    case uncut =>
      intro e he
      rcases hnew e he with hf | rfl
      · exact h.uncut e hf
      · intro c hc hin
        simp only [Boundary] at hc
        simp only [stop] at hin
        omega
    case idle =>
      intro i hi
      show ((f.blocks.put k _).at i).inUse = false
      rw [Blocks.at_put_ne (by omega)]
      exact h.idle i (by omega)
    case inUse_le =>
      intro i hi
      by_cases hik : k ≤ i
      · by_cases hne : k = i
        · exact Nat.le_of_eq hne.symm
        · have hi' : ((f.blocks.put k ⟨true, size, f.localOffset⟩).at i).inUse = true := hi
          rw [Blocks.at_put_ne hne, h.idle i hik] at hi'
          cases hi'
      · exact Nat.le_of_lt (Nat.lt_of_not_le hik)
    case highest_lt => exact hk
    case chunk =>
      intro hrest
      show 0x4000000 = 0x4000000 - (f.localOffset + size + p) % 0x4000000
      have : 0 < f.localBufferSize - size := hrest
      omega
    case aligned =>
      intro hrest _
      show (f.localOffset + size + p) % 0x4000000 = 0
      have : 0 < f.localBufferSize - size := hrest
      omega
    case first => exact fun hk0 => absurd hk0 (Nat.succ_ne_zero k)
    case progress =>
      intro hrest
      have hrest : 0 < f.localBufferSize - size := hrest
      show (k + 1) * 0x4000000 ≤ f.localOffset + size + 0x3ffffff
      rw [Nat.succ_mul]
      by_cases hk0 : k = 0
      · subst hk0
        omega
      · have hal := h.aligned hpos (Nat.pos_of_ne_zero hk0)
        simp only [Boundary] at hal
        generalize k * 0x4000000 = laid at hprogress ⊢
        omega
  · rw [if_neg hloc]
    have hzero : ¬ 0 < f.localBufferSize := by omega
    exact
      { h with
        idle := fun i hi => h.idle i (Nat.le_of_succ_le hi)
        chunk := fun hpos => absurd hpos hzero
        aligned := fun hpos => absurd hpos hzero
        first := fun hk0 => absurd hk0 (Nat.succ_ne_zero k)
        progress := fun hpos => absurd hpos hzero }

/-! ## The invariant of a run -/

/-- What holds of the allocator of a buffer of `n` bytes at `p` and of its
callers after any sequence of calls. -/
structure SysInv (p n : Nat) (s : System) : Prop where
  partition : Partition p n s.allocator.blocks s.outstanding
  physical : s.allocator.physicalAddress = p
  segment : s.allocator.segmentSize = 1
  highest_lt : s.allocator.highestUsedBlockIndex < maxBlocks
  inUse_le : ∀ i, (s.allocator.blocks.at i).inUse = true →
    i ≤ s.allocator.highestUsedBlockIndex

theorem System.start_inv (bufferSize physicalAddress : UInt32) :
    SysInv physicalAddress.toNat bufferSize.toNat (System.start bufferSize physicalAddress) := by
  have hf := forUpTo_inv (f := freeAllStep)
    (P := FreeAllInv physicalAddress.toNat bufferSize.toNat) freeAllInit_inv
    (fun k t hk ht => ht.step (n := bufferSize.toNat) (k := k) (f := t) hk)
  generalize hall : forUpTo freeAllStep
    (freeAllInit bufferSize.toNat physicalAddress.toNat) maxBlocks = f at hf
  have hlt : bufferSize.toNat < 4294967296 := bufferSize.toNat_lt
  -- 256 ranges, all but the first of 64MB, are more than 32 bits can count
  have hused : f.localOffset = bufferSize.toNat := by
    have htotal := hf.total
    by_cases hpos : 0 < f.localBufferSize
    · have hprogress : 256 * 0x4000000 ≤ f.localOffset + 0x3ffffff := hf.progress hpos
      omega
    · omega
  have hblocks : (System.start bufferSize physicalAddress).allocator.blocks = f.blocks := by
    simp only [System.start, AllocatorSimple.new, AllocatorSimple.freeAll, hall]
  have hhighest : (System.start bufferSize physicalAddress).allocator.highestUsedBlockIndex
      = f.highestUsedBlockIndex := by
    simp only [System.start, AllocatorSimple.new, AllocatorSimple.freeAll, hall]
  have hout : (System.start bufferSize physicalAddress).outstanding = [] := rfl
  constructor
  case partition =>
    rw [hblocks, hout]
    constructor
    · rw [List.append_nil, ← hused]
      exact hf.tiles
    · rw [List.append_nil]
      exact hf.pos
    · exact hf.apart
    · rw [List.append_nil]
      exact hf.uncut
  case physical => rfl
  case segment => rfl
  case highest_lt => rw [hhighest]; exact hf.highest_lt
  case inUse_le => rw [hblocks, hhighest]; exact hf.inUse_le

variable {p n : Nat} {s s' : System} {e e' : Extent} {a : AllocatorSimple}

theorem SysInv.inUse_le_put {i : Nat} {b : Block} (h : SysInv p n s)
    (hi : (s.allocator.blocks.at i).inUse = true) :
    ∀ j, ((s.allocator.blocks.put i b).at j).inUse = true →
      j ≤ s.allocator.highestUsedBlockIndex := by
  intro j hj
  by_cases hij : i = j
  · exact hij ▸ h.inUse_le i hi
  · rw [Blocks.at_put_ne hij] at hj
    exact h.inUse_le j hj

theorem SysInv.allocate {size : Nat} (h : SysInv p n s) (hpos : 0 < size)
    (ha : s.allocator.allocate size = some (e, a)) : SysInv p n ⟨a, e :: s.outstanding⟩ := by
  have hround : s.allocator.roundUp size = size := by
    unfold AllocatorSimple.roundUp
    rw [h.segment]
    simp
  simp only [AllocatorSimple.allocate, hround] at ha
  cases hfind : s.allocator.findBlock (fun b => decide (size ≤ b.size)) with
  | none => rw [hfind] at ha; cases ha
  | some i =>
    rw [hfind] at ha
    obtain ⟨-, hi, hle⟩ := AllocatorSimple.findBlock_some hfind
    obtain ⟨rfl, rfl⟩ := Prod.mk.inj (Option.some.inj ha)
    exact
      { partition := h.partition.carve hi hpos (of_decide_eq_true hle)
        physical := h.physical
        segment := h.segment
        highest_lt := h.highest_lt
        inUse_le := h.inUse_le_put hi }

theorem AllocatorSimple.largestFreeBlock_inUse {i : Nat} (h : a.largestFreeBlock = some i) :
    (a.blocks.at i).inUse = true := by
  have hall := forUpTo_inv (f := a.largestStep) (s := none) (n := a.highestUsedBlockIndex + 1)
    (P := fun _ index => ∀ j, index = some j → (a.blocks.at j).inUse = true)
    (fun j hj => by cases hj)
    (by
      intro k index _ hindex j hj
      unfold AllocatorSimple.largestStep at hj
      split at hj
      · next hk =>
        cases index with
        | none => exact Option.some.inj hj ▸ hk
        | some l =>
          simp only at hj
          split at hj
          · exact Option.some.inj hj ▸ hk
          · exact hindex j hj
      · exact hindex j hj)
  exact hall i h

theorem SysInv.takeBlock {i : Nat} {out : List Extent} (h : SysInv p n s)
    (hi : (s.allocator.blocks.at i).inUse = true)
    (hpart : Partition p n (s.allocator.takeBlock i).blocks out) :
    SysInv p n ⟨s.allocator.takeBlock i, out⟩ :=
  { partition := hpart
    physical := h.physical
    segment := h.segment
    highest_lt := h.highest_lt
    inUse_le := h.inUse_le_put hi }

theorem SysInv.allocateLargest {size : Nat} (h : SysInv p n s)
    (ha : s.allocator.allocateLargest size = some (e, a)) :
    SysInv p n ⟨a, e :: s.outstanding⟩ := by
  unfold AllocatorSimple.allocateLargest at ha
  cases hlargest : s.allocator.largestFreeBlock with
  | none => rw [hlargest] at ha; cases ha
  | some i =>
    rw [hlargest] at ha
    have hi := AllocatorSimple.largestFreeBlock_inUse hlargest
    simp only at ha
    split at ha
    · obtain ⟨rfl, rfl⟩ := Prod.mk.inj (Option.some.inj ha)
      refine h.takeBlock hi (h.partition.retire hi rfl ?_ ?_)
      · exact fun x => cover_cons _ _ x
      · intro x hx
        rcases List.mem_cons.mp hx with rfl | hx
        · exact .inl (Partition.mem_at _ hi)
        · exact .inl (List.mem_append_right _ hx)
    · cases ha

theorem SysInv.extendToLargest {up : Bool} (h : SysInv p n s) (he : e ∈ s.outstanding)
    (ha : s.allocator.extendToLargest e up = some (e', a)) :
    SysInv p n ⟨a, e' :: s.outstanding.erase e⟩ := by
  unfold AllocatorSimple.extendToLargest at ha
  rw [h.physical] at ha
  cases up with
  | true =>
    simp only [if_true] at ha
    split at ha
    · cases ha
    · next hoff =>
      cases hfind : s.allocator.findBlock (fun b => e.base + e.size == b.base) with
      | none => rw [hfind] at ha; cases ha
      | some i =>
        rw [hfind] at ha
        obtain ⟨-, hi, htouch⟩ := AllocatorSimple.findBlock_some hfind
        have htouch : e.base + e.size = (s.allocator.blocks.at i).base := by simpa using htouch
        obtain ⟨rfl, rfl⟩ := Prod.mk.inj (Option.some.inj ha)
        have hoff : ¬ Boundary p (e.base + e.size) := by
          intro hb
          exact hoff (by rw [on64MBBoundary_iff.mpr hb]; rfl)
        exact h.takeBlock hi
          (h.partition.grow hi he hoff (.inl ⟨rfl, by rw [htouch]⟩) rfl)
  | false =>
    simp only [Bool.false_eq_true, if_false] at ha
    split at ha
    · cases ha
    · next hoff =>
      cases hfind : s.allocator.findBlock (fun b => e.base == b.base + b.size) with
      | none => rw [hfind] at ha; cases ha
      | some i =>
        rw [hfind] at ha
        obtain ⟨-, hi, htouch⟩ := AllocatorSimple.findBlock_some hfind
        have htouch : e.base = (s.allocator.blocks.at i).base + (s.allocator.blocks.at i).size := by
          simpa using htouch
        obtain ⟨rfl, rfl⟩ := Prod.mk.inj (Option.some.inj ha)
        have hoff : ¬ Boundary p e.base := by
          intro hb
          exact hoff (by rw [on64MBBoundary_iff.mpr hb]; rfl)
        rw [Nat.add_comm e.size]
        exact h.takeBlock hi
          (h.partition.grow hi he (by rw [← htouch]; exact hoff)
            (.inr ⟨rfl, by rw [← htouch]⟩) rfl)

theorem SysInv.free (h : SysInv p n s) (he : e ∈ s.outstanding)
    (ha : s.allocator.free e = some a) : SysInv p n ⟨a, s.outstanding.erase e⟩ := by
  have hpart : Partition s.allocator.physicalAddress n s.allocator.blocks s.outstanding := by
    rw [h.physical]
    exact h.partition
  have hscan := AllocatorSimple.freeScan_inv hpart h.segment he
  rw [h.physical] at hscan
  unfold AllocatorSimple.free at ha
  simp only at ha
  generalize s.allocator.freeScan e = t at hscan ha
  split at ha
  · cases ha
  · next hroom =>
    obtain rfl := Option.some.inj ha
    have hhighest := h.highest_lt
    have hlowest := hscan.lowest_le
    have hlt : t.lowestFreeBlock < maxBlocks := by omega
    have hidle : (t.blocks.at t.lowestFreeBlock).inUse = false := by
      by_cases hle : t.lowestFreeBlock ≤ s.allocator.highestUsedBlockIndex
      · exact hscan.lowest hle
      · rw [Bool.eq_false_iff]
        intro huse
        have hst := hscan.still _ huse
        exact hle (h.inUse_le _ (hst ▸ huse))
    have hbelow : ∀ i, (t.blocks.at i).inUse = true →
        i < s.allocator.highestUsedBlockIndex + 1 := by
      intro i hi
      have hst := hscan.still i hi
      exact Nat.lt_succ_of_le (h.inUse_le i (hst ▸ hi))
    have hfree : ∀ x ∈ t.blocks.free, x ∈ s.allocator.blocks.free ∧
        Apart (Boundary p) ⟨t.block, t.size⟩ x ∧ Apart (Boundary p) x ⟨t.block, t.size⟩ := by
      intro x hx
      obtain ⟨i, hi, rfl⟩ := Blocks.mem_free.mp hx
      exact ⟨hscan.mem_free hi, hscan.apart i (hbelow i hi) hi⟩
    refine
      { partition := h.partition.move ?_ ?_ ?_
        physical := h.physical
        segment := h.segment
        highest_lt := ?_
        inUse_le := ?_ }
    · intro x
      have hput := Blocks.cover_put t.blocks ⟨true, t.size, t.block⟩ hlt x
      have hcover := hscan.cover_eq x
      have herase := cover_erase he x
      simp only [Block.extent?, hidle, Option.toList, Bool.false_eq_true, if_false, if_true,
        cover_nil, Nat.add_zero] at hput
      show cover (Blocks.free (t.blocks.put _ _)) x + cover (s.outstanding.erase e) x = _
      omega
    · intro x hx
      rcases List.mem_append.mp hx with hf | ho
      · rcases Blocks.mem_free_put hf with hf | ⟨-, rfl⟩
        · exact .inl (List.mem_append_left _ (hfree x hf).1)
        · exact .inr ⟨hscan.pos, hscan.uncut⟩
      · exact .inl (List.mem_append_right _ (List.mem_of_mem_erase ho))
    · intro x hx y hy
      rcases Blocks.mem_free_put hx with hxf | ⟨-, rfl⟩ <;>
        rcases Blocks.mem_free_put hy with hyf | ⟨-, rfl⟩
      · exact h.partition.apart x (hfree x hxf).1 y (hfree y hyf).1
      · exact (hfree x hxf).2.2
      · exact (hfree y hyf).2.1
      · intro hstop
        have hpos := hscan.pos
        simp only [stop] at hstop
        omega
    · have hnext := hscan.next_le
      show max t.lowestFreeBlock t.nextHighestUsedBlockIndex < maxBlocks
      omega
    · intro i hi
      show i ≤ max t.lowestFreeBlock t.nextHighestUsedBlockIndex
      by_cases hij : t.lowestFreeBlock = i
      · omega
      · have hi' : ((t.blocks.put t.lowestFreeBlock ⟨true, t.size, t.block⟩).at i).inUse
            = true := hi
        rw [Blocks.at_put_ne hij] at hi'
        have hnext := hscan.next i (hbelow i hi') hi'
        omega

/-! ## Runs -/

theorem System.step_inv {op : Op} (h : s.step op = some s') (hi : SysInv p n s) :
    SysInv p n s' := by
  cases op with
  | allocate size =>
    simp only [System.step] at h
    split at h
    · next hpos =>
      cases hcall : s.allocator.allocate size with
      | none => rw [hcall] at h; exact Option.some.inj h ▸ hi
      | some r =>
        rw [hcall] at h
        obtain rfl := Option.some.inj h
        exact hi.allocate hpos hcall
    · cases h
  | allocateLargest size =>
    simp only [System.step] at h
    cases hcall : s.allocator.allocateLargest size with
    | none => rw [hcall] at h; exact Option.some.inj h ▸ hi
    | some r =>
      rw [hcall] at h
      obtain rfl := Option.some.inj h
      exact hi.allocateLargest hcall
  | extendToLargest e up =>
    simp only [System.step] at h
    split at h
    · next he =>
      cases hcall : s.allocator.extendToLargest e up with
      | none => rw [hcall] at h; exact Option.some.inj h ▸ hi
      | some r =>
        rw [hcall] at h
        obtain rfl := Option.some.inj h
        exact hi.extendToLargest he hcall
    · cases h
  | free e =>
    simp only [System.step] at h
    split at h
    · next he =>
      cases hcall : s.allocator.free e with
      | none => rw [hcall] at h; cases h
      | some r =>
        rw [hcall] at h
        obtain rfl := Option.some.inj h
        exact hi.free he hcall
    · cases h

/-- After any sequence of calls the free records and the outstanding ranges
partition the buffer, no free record touches another off a 64MB boundary, and
no range crosses one. -/
theorem allocatorSimple_partition (bufferSize physicalAddress : UInt32) {ops : List Op}
    {s : System} (h : run System.step (System.start bufferSize physicalAddress) ops = some s) :
    Partition physicalAddress.toNat bufferSize.toNat s.allocator.blocks s.outstanding :=
  (run_inv System.step_inv h (System.start_inv bufferSize physicalAddress)).partition

/-- A buffer of two bytes either side of a boundary: three ranges out, all of
them back in another order, and the two sides stay apart. -/
theorem allocatorSimple_partition_at_boundary :
    ∃ s, run System.step (System.start 4 0x3fffffe)
        [.allocate 1, .allocate 2, .allocate 1, .free ⟨2, 2⟩, .free ⟨0, 1⟩, .free ⟨1, 1⟩]
        = some s ∧
      s.allocator.blocks.free = [⟨2, 2⟩, ⟨0, 2⟩] ∧
      Partition 0x3fffffe 4 s.allocator.blocks s.outstanding := by
  have hrun : (run System.step (System.start 4 0x3fffffe)
      [.allocate 1, .allocate 2, .allocate 1, .free ⟨2, 2⟩, .free ⟨0, 1⟩, .free ⟨1, 1⟩]).map
        (·.allocator.blocks.free) = some [⟨2, 2⟩, ⟨0, 2⟩] := by decide +kernel
  obtain ⟨s, hs, hfree⟩ := Option.map_eq_some_iff.mp hrun
  exact ⟨s, hs, hfree, allocatorSimple_partition 4 0x3fffffe hs⟩

end Duckbox.Infrastructure
