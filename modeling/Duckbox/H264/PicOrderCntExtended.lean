import Duckbox.H264.PicOrderCnt

/-!
# Extended picture order counts

Order counts restart, so frames are re-ordered by a 64-bit extended count: the
order count plus an offset that grows by 2^32 at every IDR, and after every
clear. Counts are signed words, so the blocks of two restarts do not overlap,
and comparing extended counts compares first the restarts and then the counts.

> `Block s n`: after `n` restarts the offset is `n + 1` (or `n + 2`, for a
> stream entered without an IDR) times 2^32.

What the extended count adds up is `PicOrderCnt`, for a frame the minimum of its
two counts taken as unsigned words. On counts of one sign that is their signed
minimum (`toInt_unsignedMin`); of a negative and a non-negative count it is the
wrong one.
-/

namespace Duckbox.H264

/-- A picture of a run: its header, the restarts up to it and its counts. -/
structure Ordered where
  header : SliceHeader
  restarts : Nat
  counts : OrderCounts

namespace Ordered

/-- The order count of a picture: of a frame, the signed minimum of its two. -/
def signedOrderCnt (x : Ordered) : Int :=
  if x.header.fieldPicFlag then
    if x.header.bottomFieldFlag then x.counts.picOrderCntBot.toInt
    else x.counts.picOrderCntTop.toInt
  else min x.counts.picOrderCntTop.toInt x.counts.picOrderCntBot.toInt

/-- `x` is before `y`: fewer restarts, or as many and a smaller order count. -/
def Precedes (x y : Ordered) : Prop :=
  x.restarts < y.restarts ∨ (x.restarts = y.restarts ∧ x.signedOrderCnt < y.signedOrderCnt)

/-- A frame's two counts are both negative or neither. -/
def OneSign (x : Ordered) : Prop :=
  x.header.fieldPicFlag = false →
    (x.counts.picOrderCntTop.toInt < 0 ↔ x.counts.picOrderCntBot.toInt < 0)

end Ordered

/-- The pictures of a run with their restarts: an IDR restarts the counts
before itself, a clear after its picture. The second component of an input is
the output delay of its picture timing message. -/
def runOrdered (s : PicOrder) (restarts : Nat) : List (SliceHeader × Word) → List Ordered
  | [] => []
  | (h, dpbOutputDelay) :: rest =>
    let r := s.commitFrame h dpbOutputDelay
    let n := if h.idr then restarts + 1 else restarts
    ⟨h, n, r.2⟩ :: runOrdered r.1 (if h.memoryControlClearSeen then n + 1 else n) rest

/-! ## The arithmetic -/

theorem toInt_unsignedMin {a b : Word} (h : a.toInt < 0 ↔ b.toInt < 0) :
    (unsignedMin a b).toInt = min a.toInt b.toInt := by
  have ha := a.isLt
  have hb := b.isLt
  unfold unsignedMin
  rw [BitVec.toInt_eq_toNat_cond, BitVec.toInt_eq_toNat_cond] at h
  by_cases hlt : a < b
  · rw [if_pos hlt]
    rw [BitVec.lt_def] at hlt
    rw [BitVec.toInt_eq_toNat_cond, BitVec.toInt_eq_toNat_cond]
    omega
  · rw [if_neg hlt]
    rw [BitVec.lt_def] at hlt
    rw [BitVec.toInt_eq_toNat_cond, BitVec.toInt_eq_toNat_cond]
    omega

theorem toNat_add_signExtend {x : Word} {k : Nat} (h0 : 0 < k) (hk : k < 2 ^ 32) :
    (((BitVec.ofNat 64 (k * 2 ^ 32) + x.signExtend 64).toNat : Nat) : Int)
      = k * 2 ^ 32 + x.toInt := by
  have hsign : (x.signExtend 64).toInt = x.toInt := BitVec.toInt_signExtend_of_le (by decide)
  have hlow := BitVec.le_toInt x
  have hhigh := BitVec.toInt_lt (x := x)
  rw [BitVec.toInt_eq_toNat_cond] at hsign
  rw [BitVec.toNat_add, BitVec.toNat_ofNat]
  generalize (x.signExtend 64).toNat = y at hsign
  generalize x.toInt = v at *
  split at hsign <;> omega

/-! ## One picture -/

/-- After `n` restarts the offset is that of block `n + b`. -/
structure Block (b : Nat) (s : PicOrder) (n : Nat) : Prop where
  offset : s.picOrderCntOffset = BitVec.ofNat 64 ((n + b) * 2 ^ 32)
  adjust : s.picOrderCntOffsetAdjust = BitVec.ofNat 64 (2 ^ 32)
  counts : s.displayOrderByDpbValues = false
  seen : s.behaveAsIfSeenAnIDR = true

variable {b n : Nat} {s : PicOrder} {h : SliceHeader} {dpbOutputDelay : Word}

private theorem ofNat_block_succ (k : Nat) :
    BitVec.ofNat 64 (k * 2 ^ 32) + BitVec.ofNat 64 (2 ^ 32)
      = BitVec.ofNat 64 ((k + 1) * 2 ^ 32) := by
  rw [← BitVec.ofNat_add, Nat.succ_mul]

theorem Block.readNalSliceHeader (hs : Block b s n) (h : SliceHeader) :
    Block b (s.readNalSliceHeader h) n := by
  unfold PicOrder.readNalSliceHeader
  split
  · exact ⟨hs.offset, hs.adjust, hs.counts, rfl⟩
  · rw [hs.seen]
    exact hs

theorem Block.reset (h : SliceHeader) :
    Block (if h.idr then 1 else 2) (PicOrder.reset.readNalSliceHeader h) 0 := by
  unfold PicOrder.readNalSliceHeader
  cases h.idr with
  | true => exact ⟨rfl, rfl, rfl, rfl⟩
  | false => exact ⟨rfl, rfl, rfl, rfl⟩

theorem Block.openBlock (hs : Block b s n) (h : SliceHeader) :
    Block b (s.openBlock h) (if h.idr then n + 1 else n) := by
  unfold PicOrder.openBlock
  split
  · refine ⟨?_, hs.adjust, hs.counts, hs.seen⟩
    show s.picOrderCntOffset + s.picOrderCntOffsetAdjust = _
    rw [hs.offset, hs.adjust, ofNat_block_succ, Nat.add_right_comm n 1 b]
  · exact hs

theorem Block.closeBlock (hs : Block b s n) (h : SliceHeader) :
    Block b (s.closeBlock h) (if h.memoryControlClearSeen then n + 1 else n) := by
  have hcond : (h.memoryControlClearSeen && !s.displayOrderByDpbValues)
      = h.memoryControlClearSeen := by
    rw [hs.counts, Bool.not_false, Bool.and_true]
  unfold PicOrder.closeBlock
  rw [hcond]
  split
  · refine ⟨?_, hs.adjust, hs.counts, hs.seen⟩
    show s.picOrderCntOffset + s.picOrderCntOffsetAdjust = _
    rw [hs.offset, hs.adjust, ofNat_block_succ, Nat.add_right_comm n 1 b]
  · exact hs

theorem Block.updateCarried (hs : Block b s n) (h : SliceHeader) :
    Block b (s.updateCarried h) n := by
  have h0 : Block b (s.update0 h) n := by
    unfold PicOrder.update0
    split
    · split
      · exact ⟨hs.offset, hs.adjust, hs.counts, hs.seen⟩
      · exact ⟨hs.offset, hs.adjust, hs.counts, hs.seen⟩
    · exact ⟨hs.offset, hs.adjust, hs.counts, hs.seen⟩
  have hf : Block b (s.updateFrameNum h) n := ⟨hs.offset, hs.adjust, hs.counts, hs.seen⟩
  unfold PicOrder.updateCarried
  split
  · exact h0
  · exact hf
  · exact hf
  · exact hs

theorem Block.markClear (hs : Block b s n) (h : SliceHeader) : Block b (s.markClear h) n := by
  unfold PicOrder.markClear
  split
  · exact ⟨hs.offset, hs.adjust, hs.counts, hs.seen⟩
  · exact hs

theorem Block.commitFrame (hs : Block b (s.readNalSliceHeader h) n) :
    Block b (s.commitFrame h dpbOutputDelay).1
      (if h.memoryControlClearSeen then (if h.idr then n + 1 else n) + 1
        else if h.idr then n + 1 else n) := by
  exact (((hs.updateCarried h).openBlock h).closeBlock h).markClear h

theorem Block.extendedPicOrderCnt {x : Ordered} (hs : Block b (s.readNalSliceHeader h) n)
    (hx : x = ⟨h, if h.idr then n + 1 else n, (s.commitFrame h dpbOutputDelay).2⟩)
    (hb : 0 < b) (hbound : x.restarts + b < 2 ^ 32) (hsign : x.OneSign) :
    (x.counts.extendedPicOrderCnt.toNat : Int)
      = (x.restarts + b) * 2 ^ 32 + x.signedOrderCnt := by
  generalize ht : s.readNalSliceHeader h = t at hs
  have hcounts : x.counts = t.orderCounts h dpbOutputDelay := by
    rw [hx, ← ht]
    rfl
  have hheader : x.header = h := by rw [hx]
  have hrestarts : x.restarts = if h.idr then n + 1 else n := by rw [hx]
  have hextended : x.counts.extendedPicOrderCnt
      = BitVec.ofNat 64 ((x.restarts + b) * 2 ^ 32)
        + x.counts.picOrderCnt.signExtend 64 := by
    have hopen := (hs.openBlock h).offset
    rw [← hrestarts] at hopen
    rw [hcounts]
    unfold PicOrder.orderCounts
    simp only [hs.counts, Bool.false_eq_true, if_false]
    rw [hopen]
  have hpoc : x.counts.picOrderCnt.toInt = x.signedOrderCnt := by
    unfold Ordered.signedOrderCnt
    unfold Ordered.OneSign at hsign
    rw [hheader] at hsign ⊢
    rw [hcounts] at hsign ⊢
    unfold PicOrder.orderCounts at hsign ⊢
    cases hf : h.fieldPicFlag with
    | false =>
      simp only [Bool.false_eq_true, if_false]
      exact toInt_unsignedMin (hsign hf)
    | true =>
      simp only [if_true]
      split <;> rfl
  rw [hextended, toNat_add_signExtend (Nat.add_pos_right _ hb) hbound, hpoc]
  push_cast
  rfl

/-! ## Runs -/

theorem runOrdered_extended (hb : 0 < b) (inputs : List (SliceHeader × Word)) :
    ∀ {s : PicOrder} {n : Nat}, (∀ i ∈ inputs.head?, Block b (s.readNalSliceHeader i.1) n) →
      (∀ x ∈ runOrdered s n inputs, x.restarts + b < 2 ^ 32 ∧ x.OneSign) →
      ∀ x ∈ runOrdered s n inputs, (x.counts.extendedPicOrderCnt.toNat : Int)
        = (x.restarts + b) * 2 ^ 32 + x.signedOrderCnt := by
  induction inputs with
  | nil => intro s n _ _ x hx; cases hx
  | cons i rest ih =>
    obtain ⟨h, dpbOutputDelay⟩ := i
    intro s n hblock hok x hx
    have hs := hblock _ rfl
    rcases List.mem_cons.mp hx with heq | hrest
    · obtain ⟨hbound, hsign⟩ := hok x hx
      exact hs.extendedPicOrderCnt heq hb hbound hsign
    · exact ih (fun j _ => (Block.commitFrame hs).readNalSliceHeader j.1)
        (fun y hy => hok y (List.mem_cons_of_mem _ hy)) x hrest

theorem Ordered.signedOrderCnt_bounds (x : Ordered) :
    -2 ^ 31 ≤ x.signedOrderCnt ∧ x.signedOrderCnt < 2 ^ 31 := by
  have ht := BitVec.le_toInt x.counts.picOrderCntTop
  have ht' := BitVec.toInt_lt (x := x.counts.picOrderCntTop)
  have hb := BitVec.le_toInt x.counts.picOrderCntBot
  have hb' := BitVec.toInt_lt (x := x.counts.picOrderCntBot)
  unfold signedOrderCnt
  split
  · split
    · exact ⟨hb, hb'⟩
    · exact ⟨ht, ht'⟩
  · omega

/-- **Extended counts order pictures by restarts and order count**, in every run
from reset with fewer than 2^32 - 2 restarts in which the two counts of each
frame have one sign. -/
theorem extendedPicOrderCnt_lt_iff {inputs : List (SliceHeader × Word)}
    (hbound : ∀ x ∈ runOrdered PicOrder.reset 0 inputs, x.restarts + 2 < 2 ^ 32)
    (hsign : ∀ x ∈ runOrdered PicOrder.reset 0 inputs, x.OneSign) :
    ∀ x ∈ runOrdered PicOrder.reset 0 inputs, ∀ y ∈ runOrdered PicOrder.reset 0 inputs,
      x.counts.extendedPicOrderCnt < y.counts.extendedPicOrderCnt ↔ x.Precedes y := by
  intro x hx y hy
  have hvalue : ∃ b, ∀ z ∈ runOrdered PicOrder.reset 0 inputs,
      (z.counts.extendedPicOrderCnt.toNat : Int)
        = (z.restarts + b) * 2 ^ 32 + z.signedOrderCnt := by
    cases inputs with
    | nil => cases hx
    | cons i rest =>
      have hb : 0 < (if i.1.idr then 1 else 2) ∧ (if i.1.idr then 1 else 2) ≤ 2 := by
        split <;> decide
      refine ⟨((if i.1.idr then 1 else 2 : Nat) : Int), runOrdered_extended hb.1 _ ?_ ?_⟩
      · intro j hj
        obtain rfl := Option.some.inj hj
        exact Block.reset i.1
      · intro z hz
        have hz' := hbound z hz
        exact ⟨by omega, hsign z hz⟩
  obtain ⟨b, hvalue⟩ := hvalue
  have hxv := hvalue x hx
  have hyv := hvalue y hy
  have hxb := x.signedOrderCnt_bounds
  have hyb := y.signedOrderCnt_bounds
  unfold Ordered.Precedes
  rw [BitVec.lt_def]
  omega

/-- An IDR and three frames with a clear, the last with both counts negative. -/
theorem extendedPicOrderCnt_lt_iff_around_clear :
    let inputs := [(shortHeader true 0 0 0 [], 0), (shortHeader false 1 4 0 [.clear], 0),
      (shortHeader false 1 6 0 [], 0), (shortHeader false 2 15 0 [], (0 : Word))]
    ∀ x ∈ runOrdered PicOrder.reset 0 inputs, ∀ y ∈ runOrdered PicOrder.reset 0 inputs,
      x.counts.extendedPicOrderCnt < y.counts.extendedPicOrderCnt ↔ x.Precedes y := by
  refine extendedPicOrderCnt_lt_iff ?_ ?_
  · decide
  · unfold Ordered.OneSign
    decide

/-- A frame with a positive top and a negative bottom count is displayed by its
top count: it comes after an IDR with counts of zero that it should precede. -/
theorem extendedPicOrderCnt_wrong_on_mixed_signs :
    let inputs := [(shortHeader true 0 0 0 [], 0), (shortHeader false 1 1 (-2) [], (0 : Word))]
    ∃ x ∈ runOrdered PicOrder.reset 0 inputs, ∃ y ∈ runOrdered PicOrder.reset 0 inputs,
      x.Precedes y ∧ ¬ x.counts.extendedPicOrderCnt < y.counts.extendedPicOrderCnt := by
  refine ⟨_, List.mem_cons_of_mem _ List.mem_cons_self, _, List.mem_cons_self, ?_, ?_⟩
  · exact .inr (by decide)
  · decide

end Duckbox.H264
