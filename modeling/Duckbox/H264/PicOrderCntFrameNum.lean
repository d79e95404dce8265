import Duckbox.H264.PicOrderCntType0
import Duckbox.Lib.Loop
import Mathlib.Data.List.Chain

/-!
# Order counts from the frame number over a run

Types 1 and 2 take the order counts from the absolute frame number: the wraps of
`frame_num` since the last restart, times `MaxFrameNum`, plus `frame_num`. The
standard works on integers (`FrameNumbers.truePicture`); the source carries
`PrevFrameNum` and `PrevFrameNumOffset` and computes in unsigned words.

> `Carries s g`: the offset carried is that of the wraps counted since the
> last restart.

A clear restarts the numbers after its picture. `CalculatePicOrderCnts` clears
the offset itself, but `PrevFrameNum` is left to `MarkReferencePictures`, which
is not reached when the processing of the picture fails before it: too few
references, a duplicate field, a picture discarded in reverse play. Then the
picture after it is counted as a wrap if its number is lower
(`picOrderCnt_frameNum_wrong_after_unmarked_clear`). And the count of type 1
divides the absolute frame number, which is only right while it fits its word.
-/

namespace Duckbox.H264

open Duckbox.Lib

/-! ## The pictures of a run -/

/-- A picture as it is processed: `marked` if `MarkReferencePictures` is reached. -/
structure CountedPicture where
  header : SliceHeader
  dpbOutputDelay : Word
  marked : Bool

/-- The first slice of a picture, and the marking where it is reached. -/
def PicOrder.countPicture (s : PicOrder) (p : CountedPicture) : PicOrder × OrderCounts :=
  let r := (s.readNalSliceHeader p.header).calculatePicOrderCnts p.header p.dpbOutputDelay
  (if p.marked then r.1.markClear p.header else r.1, r.2)

/-- The counts of a run. -/
def countPictures (s : PicOrder) : List CountedPicture → List OrderCounts
  | [] => []
  | p :: ps => (s.countPicture p).2 :: countPictures (s.countPicture p).1 ps

/-! ## The standard -/

/-- The frame numbers since the last restart. -/
structure FrameNumbers where
  wraps : Nat
  prevFrameNum : Nat
  maxFrameNum : Nat

namespace FrameNumbers

/-- Nothing counted yet. -/
def restart : FrameNumbers := ⟨0, 0, 0⟩

/-- The wraps up to a picture: an IDR restarts before it is counted. -/
def wrapsAt (g : FrameNumbers) (p : CountedPicture) : Nat :=
  if p.header.idr then 0
  else if p.header.frameNum < g.prevFrameNum then g.wraps + 1
  else g.wraps

/-- The absolute frame number. -/
def absolute (g : FrameNumbers) (p : CountedPicture) : Nat :=
  g.wrapsAt p * p.header.sps.maxFrameNum + p.header.frameNum

/-- What the next picture is counted from: after a clear the picture is taken
to have had the number zero. -/
def next (g : FrameNumbers) (p : CountedPicture) : FrameNumbers :=
  if p.header.memoryControlClearSeen then ⟨0, 0, p.header.sps.maxFrameNum⟩
  else ⟨g.wrapsAt p, p.header.frameNum, p.header.sps.maxFrameNum⟩

/-- `absFrameNum` of type 1. -/
def absFrameNum (g : FrameNumbers) (p : CountedPicture) : Nat :=
  let abs := if p.header.sps.offsetForRefFrame.length ≠ 0 then g.absolute p else 0
  if p.header.nalRefIdc = 0 ∧ 0 < abs then abs - 1 else abs

/-- `expectedPicOrderCnt` of type 1. -/
def expectedPicOrderCnt (g : FrameNumbers) (p : CountedPicture) : Int :=
  let cycle := p.header.sps.offsetForRefFrame.map BitVec.toInt
  let expected : Int :=
    if 0 < g.absFrameNum p then
      let picOrderCntCycleCnt := (g.absFrameNum p - 1) / cycle.length
      let frameNumInCycle := (g.absFrameNum p - 1) % cycle.length
      picOrderCntCycleCnt * cycle.sum + (cycle.take (frameNumInCycle + 1)).sum
    else 0
  if p.header.nalRefIdc = 0 then expected + p.header.sps.offsetForNonRefPic.toInt else expected

/-- `tempPicOrderCnt` of type 2. -/
def tempPicOrderCnt (g : FrameNumbers) (p : CountedPicture) : Int :=
  if p.header.idr then 0
  else if p.header.nalRefIdc = 0 then 2 * g.absolute p - 1
  else 2 * g.absolute p

/-- A picture with the counts of the standard. -/
def truePicture (g : FrameNumbers) (p : CountedPicture) : TruePicture :=
  let h := p.header
  if h.sps.picOrderCntType = 1 then
    let expected := g.expectedPicOrderCnt p
    { header := h
      dpbOutputDelay := p.dpbOutputDelay
      top := expected + h.deltaPicOrderCnt0.toInt
      bottom :=
        if h.fieldPicFlag then
          expected + h.sps.offsetForTopToBottomField.toInt + h.deltaPicOrderCnt0.toInt
        else
          expected + h.deltaPicOrderCnt0.toInt + h.sps.offsetForTopToBottomField.toInt
            + h.deltaPicOrderCnt1.toInt }
  else
    { header := h
      dpbOutputDelay := p.dpbOutputDelay
      top := g.tempPicOrderCnt p
      bottom := g.tempPicOrderCnt p }

/-- The pictures of a run with the counts of the standard. -/
def truePictures (g : FrameNumbers) : List CountedPicture → List TruePicture
  | [] => []
  | p :: ps => g.truePicture p :: (g.next p).truePictures ps

/-- `p` may follow: its counts are of type 1 or 2, the cycle is one the parser
takes, and the modulus of `frame_num` only changes while nothing has wrapped. -/
structure Admits (g : FrameNumbers) (p : CountedPicture) : Prop where
  type : p.header.sps.picOrderCntType = 1 ∨ p.header.sps.picOrderCntType = 2
  cycle : p.header.sps.offsetForRefFrame.length ≤ 255
  modulus : p.header.idr = true ∨ g.wraps = 0 ∨ p.header.sps.maxFrameNum = g.maxFrameNum

instance (g : FrameNumbers) (p : CountedPicture) : Decidable (g.Admits p) :=
  decidable_of_iff
    ((p.header.sps.picOrderCntType = 1 ∨ p.header.sps.picOrderCntType = 2) ∧
      p.header.sps.offsetForRefFrame.length ≤ 255 ∧
      (p.header.idr = true ∨ g.wraps = 0 ∨ p.header.sps.maxFrameNum = g.maxFrameNum))
    ⟨fun h => ⟨h.1, h.2.1, h.2.2⟩, fun h => ⟨h.type, h.cycle, h.modulus⟩⟩

/-- Where type 1 divides the absolute frame number, it fits `AbsFrameNum`. -/
def FitsWord (g : FrameNumbers) (p : CountedPicture) : Prop :=
  p.header.sps.picOrderCntType = 1 → p.header.sps.offsetForRefFrame.length ≠ 0 →
    g.absolute p < 2 ^ 32

instance (g : FrameNumbers) (p : CountedPicture) : Decidable (g.FitsWord p) :=
  inferInstanceAs (Decidable (_ → _ → _))

end FrameNumbers

/-- A clear is marked, or followed by an IDR or a picture with no lower number. -/
def ClearMarked (p q : CountedPicture) : Prop :=
  p.header.memoryControlClearSeen = true → p.marked = false →
    q.header.idr = true ∨ p.header.frameNum ≤ q.header.frameNum

instance (p q : CountedPicture) : Decidable (ClearMarked p q) :=
  inferInstanceAs (Decidable (_ → _ → _))

/-! ## Words and integers -/

theorem ofInt_sum_toInt (xs : List Word) : BitVec.ofInt 32 (xs.map BitVec.toInt).sum = xs.sum := by
  induction xs with
  | nil => rfl
  | cons x xs ih =>
    rw [List.map_cons, List.sum_cons, List.sum_cons, BitVec.ofInt_add, BitVec.ofInt_toInt, ih]

theorem ofNat_div {a n : Nat} (ha : a < 2 ^ 32) (hn : n < 2 ^ 32) :
    BitVec.ofNat 32 a / BitVec.ofNat 32 n = BitVec.ofNat 32 (a / n) := by
  have hle := Nat.div_le_self a n
  apply BitVec.eq_of_toNat_eq
  rw [BitVec.toNat_udiv, BitVec.toNat_ofNat, BitVec.toNat_ofNat, BitVec.toNat_ofNat,
    Nat.mod_eq_of_lt ha, Nat.mod_eq_of_lt hn, Nat.mod_eq_of_lt (Nat.lt_of_le_of_lt hle ha)]

theorem toNat_ofNat_mod {a n : Nat} (ha : a < 2 ^ 32) (hn : n < 2 ^ 32) :
    (BitVec.ofNat 32 a % BitVec.ofNat 32 n).toNat = a % n := by
  rw [BitVec.toNat_umod, BitVec.toNat_ofNat, BitVec.toNat_ofNat, Nat.mod_eq_of_lt ha,
    Nat.mod_eq_of_lt hn]

theorem ofNat_pos {a : Nat} (ha : a < 2 ^ 32) : (0 : Word) < BitVec.ofNat 32 a ↔ 0 < a := by
  rw [BitVec.lt_def, BitVec.toNat_ofNat, Nat.mod_eq_of_lt ha]
  rfl

theorem ofNat_sub_one {a : Nat} (ha : 0 < a) : BitVec.ofNat 32 a - 1 = BitVec.ofNat 32 (a - 1) := by
  obtain ⟨b, rfl⟩ := Nat.exists_eq_add_of_lt ha
  rw [Nat.zero_add, Nat.add_sub_cancel, BitVec.ofNat_add]
  exact BitVec.add_sub_cancel _ _

/-! ## One picture -/

/-- The offset carried is that of the wraps. -/
structure FrameNumbers.Carried (g : FrameNumbers) (s : PicOrder) : Prop where
  offset : s.prevFrameNumOffset = BitVec.ofNat 32 (g.wraps * g.maxFrameNum)

/-- The source takes `p` for a wrap when the standard does. -/
def FrameNumbers.SameWrap (g : FrameNumbers) (s : PicOrder) (p : CountedPicture) : Prop :=
  p.header.idr = true ∨
    (p.header.frameNum < s.prevFrameNum ↔ p.header.frameNum < g.prevFrameNum)

variable {s : PicOrder} {g : FrameNumbers} {p : CountedPicture}

theorem frameNumOffset_eq (hs : p.header.idr = true ∨ g.Carried s) (hwrap : g.SameWrap s p)
    (ha : g.Admits p) :
    s.frameNumOffset p.header
      = BitVec.ofNat 32 (g.wrapsAt p * p.header.sps.maxFrameNum) := by
  unfold PicOrder.frameNumOffset FrameNumbers.wrapsAt
  by_cases hi : p.header.idr = true
  · rw [if_pos hi, if_pos hi, Nat.zero_mul]
    rfl
  · rw [if_neg hi, if_neg hi, (hs.resolve_left hi).offset]
    -- the wraps so far, in the modulus of this picture
    have hsame : g.wraps * g.maxFrameNum = g.wraps * p.header.sps.maxFrameNum := by
      rcases ha.modulus.resolve_left hi with hzero | heq
      · rw [hzero, Nat.zero_mul, Nat.zero_mul]
      · rw [heq]
    rw [hsame]
    by_cases hlt : p.header.frameNum < g.prevFrameNum
    · rw [if_pos ((hwrap.resolve_left hi).mpr hlt), if_pos hlt, ← BitVec.ofNat_add, Nat.succ_mul]
    · rw [if_neg (fun h => hlt ((hwrap.resolve_left hi).mp h)), if_neg hlt]

theorem frameNumOffset_add (hs : p.header.idr = true ∨ g.Carried s) (hwrap : g.SameWrap s p)
    (ha : g.Admits p) :
    s.frameNumOffset p.header + BitVec.ofNat 32 p.header.frameNum
      = BitVec.ofNat 32 (g.absolute p) := by
  rw [frameNumOffset_eq hs hwrap ha, ← BitVec.ofNat_add]
  rfl

theorem cyclePicOrderCnt_eq {cycle : List Word} {abs : Nat} (habs : abs < 2 ^ 32)
    (hcycle : cycle.length ≤ 255) :
    (BitVec.ofNat 32 (abs - 1) / BitVec.ofNat 32 cycle.length) * cycle.sum
        + (cycle.take ((BitVec.ofNat 32 (abs - 1) % BitVec.ofNat 32 cycle.length).toNat + 1)).sum
      = BitVec.ofInt 32 (((abs - 1) / cycle.length : Nat) * (cycle.map BitVec.toInt).sum
        + ((cycle.map BitVec.toInt).take ((abs - 1) % cycle.length + 1)).sum) := by
  have hless : abs - 1 < 2 ^ 32 := Nat.lt_of_le_of_lt (Nat.sub_le abs 1) habs
  have hlength : cycle.length < 2 ^ 32 := by omega
  rw [ofNat_div hless hlength, toNat_ofNat_mod hless hlength, ← List.map_take, BitVec.ofInt_add,
    BitVec.ofInt_mul, ofInt_sum_toInt, ofInt_sum_toInt, BitVec.ofInt_natCast]

theorem expectedPicOrderCnt_eq (hs : p.header.idr = true ∨ g.Carried s) (hwrap : g.SameWrap s p)
    (ha : g.Admits p) (htype : p.header.sps.picOrderCntType = 1) (hfits : g.FitsWord p) :
    s.expectedPicOrderCnt p.header = BitVec.ofInt 32 (g.expectedPicOrderCnt p) := by
  have hcycle := ha.cycle
  have hfits := hfits htype
  unfold PicOrder.expectedPicOrderCnt FrameNumbers.expectedPicOrderCnt FrameNumbers.absFrameNum
  rw [frameNumOffset_add hs hwrap ha]
  dsimp only
  generalize p.header.sps.offsetForRefFrame = cycle at hcycle hfits ⊢
  -- the absolute frame number, or zero where there is no cycle
  obtain ⟨abs, hword, hnat, hlt⟩ : ∃ abs : Nat,
      (if cycle.length ≠ 0 then BitVec.ofNat 32 (g.absolute p) else 0) = BitVec.ofNat 32 abs ∧
      (if cycle.length ≠ 0 then g.absolute p else 0) = abs ∧ abs < 2 ^ 32 := by
    by_cases hempty : cycle.length ≠ 0
    · rw [if_pos hempty, if_pos hempty]
      exact ⟨_, rfl, rfl, hfits hempty⟩
    · rw [if_neg hempty, if_neg hempty]
      exact ⟨0, rfl, rfl, by decide⟩
  rw [hword, hnat]
  -- one less for a picture that is no reference
  obtain ⟨frames, hword, hnat, hlt⟩ : ∃ frames : Nat,
      (if (p.header.nalRefIdc == 0 && decide ((0 : Word) < BitVec.ofNat 32 abs)) = true then
        BitVec.ofNat 32 abs - 1 else BitVec.ofNat 32 abs) = BitVec.ofNat 32 frames ∧
      (if p.header.nalRefIdc = 0 ∧ 0 < abs then abs - 1 else abs) = frames ∧
      frames < 2 ^ 32 := by
    have hcondition : (p.header.nalRefIdc == 0 && decide ((0 : Word) < BitVec.ofNat 32 abs)) = true
        ↔ p.header.nalRefIdc = 0 ∧ 0 < abs := by
      rw [Bool.and_eq_true, beq_iff_eq, decide_eq_true_iff, ofNat_pos hlt]
    by_cases hless : p.header.nalRefIdc = 0 ∧ 0 < abs
    · rw [if_pos hless, ofNat_sub_one hless.2]
      exact ⟨abs - 1, if_pos (hcondition.mpr hless), rfl, by omega⟩
    · rw [if_neg hless]
      exact ⟨abs, if_neg (fun h => hless (hcondition.mp h)), rfl, hlt⟩
  rw [hword, hnat]
  have hexpected :
      (if (0 : Word) < BitVec.ofNat 32 frames then
        (BitVec.ofNat 32 frames - 1) / BitVec.ofNat 32 cycle.length * cycle.sum
          + (cycle.take (((BitVec.ofNat 32 frames - 1) % BitVec.ofNat 32 cycle.length).toNat
            + 1)).sum
      else 0) = BitVec.ofInt 32 (if 0 < frames then
        ((frames - 1) / (cycle.map BitVec.toInt).length : Nat) * (cycle.map BitVec.toInt).sum
          + ((cycle.map BitVec.toInt).take ((frames - 1) % (cycle.map BitVec.toInt).length
            + 1)).sum
      else 0) := by
    by_cases hpos : 0 < frames
    · rw [if_pos ((ofNat_pos hlt).mpr hpos), if_pos hpos, ofNat_sub_one hpos, List.length_map]
      exact cyclePicOrderCnt_eq hlt hcycle
    · rw [if_neg (fun h => hpos ((ofNat_pos hlt).mp h)), if_neg hpos]
      rfl
  rw [hexpected]
  by_cases hnon : p.header.nalRefIdc = 0
  · rw [if_pos (beq_iff_eq.mpr hnon), if_pos hnon, BitVec.ofInt_add, BitVec.ofInt_toInt]
  · rw [if_neg (fun h => hnon (beq_iff_eq.mp h)), if_neg hnon]

theorem tempPicOrderCnt_eq (hs : p.header.idr = true ∨ g.Carried s) (hwrap : g.SameWrap s p)
    (ha : g.Admits p) :
    (if p.header.idr then (0 : Word)
      else if p.header.nalRefIdc == 0 then
        2 * (s.frameNumOffset p.header + BitVec.ofNat 32 p.header.frameNum) - 1
      else 2 * (s.frameNumOffset p.header + BitVec.ofNat 32 p.header.frameNum))
      = BitVec.ofInt 32 (g.tempPicOrderCnt p) := by
  rw [frameNumOffset_add hs hwrap ha]
  have htwice : (2 : Word) * BitVec.ofNat 32 (g.absolute p)
      = BitVec.ofInt 32 (2 * g.absolute p) := by
    rw [BitVec.ofInt_mul, BitVec.ofInt_natCast]
    rfl
  unfold FrameNumbers.tempPicOrderCnt
  by_cases hi : p.header.idr = true
  · rw [if_pos hi, if_pos hi]
    rfl
  · rw [if_neg hi, if_neg hi]
    by_cases hnon : p.header.nalRefIdc = 0
    · rw [if_pos (beq_iff_eq.mpr hnon), if_pos hnon, htwice, Int.sub_eq_add_neg,
        BitVec.ofInt_add, BitVec.ofInt_neg, ← BitVec.sub_eq_add_neg]
      rfl
    · rw [if_neg (fun h => hnon (beq_iff_eq.mp h)), if_neg hnon, htwice]

theorem fieldOrderCnts_frameNum (hs : p.header.idr = true ∨ g.Carried s)
    (hwrap : g.SameWrap s p) (ha : g.Admits p) (hfits : g.FitsWord p) :
    (p.header.bottomField = false →
      (s.fieldOrderCnts p.header).1 = BitVec.ofInt 32 (g.truePicture p).top) ∧
    (p.header.fieldPicFlag = false ∨ p.header.bottomFieldFlag = true →
      (s.fieldOrderCnts p.header).2 = BitVec.ofInt 32 (g.truePicture p).bottom) := by
  unfold PicOrder.fieldOrderCnts FrameNumbers.truePicture SliceHeader.bottomField
  rcases ha.type with htype | htype
  · simp only [htype, if_true]
    unfold PicOrder.fieldOrderCnts1
    rw [expectedPicOrderCnt_eq hs hwrap ha htype hfits]
    generalize g.expectedPicOrderCnt p = expected
    cases p.header.fieldPicFlag <;> cases p.header.bottomFieldFlag <;>
      simp [BitVec.ofInt_add, BitVec.ofInt_toInt]
  · simp only [htype]
    unfold PicOrder.fieldOrderCnts2
    dsimp only
    rw [tempPicOrderCnt_eq hs hwrap ha]
    cases p.header.fieldPicFlag <;> cases p.header.bottomFieldFlag <;> simp

/-! ## What is carried -/

theorem PicOrder.readNalSliceHeader_frameNum (s : PicOrder) (h : SliceHeader) :
    (s.readNalSliceHeader h).prevFrameNum = s.prevFrameNum ∧
      (s.readNalSliceHeader h).prevFrameNumOffset = s.prevFrameNumOffset := by
  unfold PicOrder.readNalSliceHeader
  split
  · exact ⟨rfl, rfl⟩
  · split
    · exact ⟨rfl, rfl⟩
    · exact ⟨rfl, rfl⟩

theorem PicOrder.blocks_frameNum (s : PicOrder) (h : SliceHeader) :
    ((s.openBlock h).closeBlock h).prevFrameNum = s.prevFrameNum ∧
      ((s.openBlock h).closeBlock h).prevFrameNumOffset = s.prevFrameNumOffset := by
  unfold PicOrder.openBlock PicOrder.closeBlock
  split <;> split <;> exact ⟨rfl, rfl⟩

theorem PicOrder.countPicture_frameNum (s : PicOrder) (p : CountedPicture)
    (htype : p.header.sps.picOrderCntType = 1 ∨ p.header.sps.picOrderCntType = 2) :
    (s.countPicture p).1.prevFrameNum
        = (if p.header.memoryControlClearSeen && p.marked then 0 else p.header.frameNum) ∧
      (s.countPicture p).1.prevFrameNumOffset
        = if p.header.memoryControlClearSeen then 0 else s.frameNumOffset p.header := by
  have hcarried : ∀ t : PicOrder, t.updateCarried p.header = t.updateFrameNum p.header := by
    intro t
    unfold PicOrder.updateCarried
    rcases htype with htype | htype <;> simp only [htype]
  have hread := s.readNalSliceHeader_frameNum p.header
  have hoffset : (s.readNalSliceHeader p.header).frameNumOffset p.header
      = s.frameNumOffset p.header := by
    unfold PicOrder.frameNumOffset
    rw [hread.1, hread.2]
  unfold PicOrder.countPicture PicOrder.calculatePicOrderCnts
  dsimp only
  rw [hcarried]
  have hblocks := ((s.readNalSliceHeader p.header).updateFrameNum p.header).blocks_frameNum p.header
  rw [← hoffset]
  generalize s.readNalSliceHeader p.header = t at hblocks ⊢
  generalize ((t.updateFrameNum p.header).openBlock p.header).closeBlock p.header = u at hblocks ⊢
  unfold PicOrder.markClear
  cases p.marked <;> cases hclear : p.header.memoryControlClearSeen <;>
    simp [hblocks, PicOrder.updateFrameNum, hclear]

theorem FrameNumbers.Carried.next (hs : p.header.idr = true ∨ g.Carried s)
    (hwrap : g.SameWrap s p) (ha : g.Admits p) : (g.next p).Carried (s.countPicture p).1 := by
  refine ⟨?_⟩
  rw [(s.countPicture_frameNum p ha.type).2]
  unfold FrameNumbers.next
  cases p.header.memoryControlClearSeen with
  | true =>
    simp only [if_true, Nat.zero_mul]
    rfl
  | false =>
    simp only [Bool.false_eq_true, if_false]
    exact frameNumOffset_eq hs hwrap ha

theorem FrameNumbers.SameWrap.next {q : CountedPicture} (ha : g.Admits p)
    (hmarked : ClearMarked p q) : (g.next p).SameWrap (s.countPicture p).1 q := by
  unfold FrameNumbers.SameWrap
  rw [(s.countPicture_frameNum p ha.type).1]
  unfold FrameNumbers.next
  cases hclear : p.header.memoryControlClearSeen with
  | false => exact .inr Iff.rfl
  | true =>
    cases hmark : p.marked with
    | true => exact .inr Iff.rfl
    | false =>
      -- the number of the clear is still there: no lower one may follow
      rcases hmarked hclear hmark with hi | hle
      · exact .inl hi
      · right
        show q.header.frameNum < p.header.frameNum ↔ q.header.frameNum < 0
        omega

/-! ## Runs -/

theorem countPicture_correct (hs : p.header.idr = true ∨ g.Carried s) (hwrap : g.SameWrap s p)
    (ha : g.Admits p) (hfits : g.FitsWord p) :
    Correct (g.truePicture p) (s.countPicture p).2 := by
  have hread := s.readNalSliceHeader_frameNum p.header
  have hs' : p.header.idr = true ∨ g.Carried (s.readNalSliceHeader p.header) := by
    rcases hs with hi | hs
    · exact .inl hi
    · exact .inr ⟨hread.2.trans hs.offset⟩
  have hwrap' : g.SameWrap (s.readNalSliceHeader p.header) p := by
    unfold FrameNumbers.SameWrap
    rw [hread.1]
    exact hwrap
  have hheader : (g.truePicture p).header = p.header := by
    unfold FrameNumbers.truePicture
    dsimp only
    split <;> rfl
  have hcounts := fieldOrderCnts_frameNum hs' hwrap' ha hfits
  unfold Correct
  rw [hheader]
  exact hcounts

theorem countPictures_correct (ps : List CountedPicture) :
    ∀ {s : PicOrder} {g : FrameNumbers},
      (∀ p ∈ ps.head?, (p.header.idr = true ∨ g.Carried s) ∧ g.SameWrap s p) →
      Along FrameNumbers.next FrameNumbers.Admits g ps →
      Along FrameNumbers.next FrameNumbers.FitsWord g ps → ps.IsChain ClearMarked →
      ∀ pc ∈ (g.truePictures ps).zip (countPictures s ps), Correct pc.1 pc.2 := by
  induction ps with
  | nil => intro s g _ _ _ _ pc hpc; cases hpc
  | cons p rest ih =>
    intro s g hstart ha hfits hmarked pc hpc
    obtain ⟨hs, hwrap⟩ := hstart p rfl
    rcases List.mem_cons.mp hpc with rfl | hrest
    · exact countPicture_correct hs hwrap ha.1 hfits.1
    · refine ih ?_ ha.2 hfits.2 hmarked.tail pc hrest
      intro q hq
      refine ⟨.inr (FrameNumbers.Carried.next hs hwrap ha.1), FrameNumbers.SameWrap.next ha.1 ?_⟩
      cases rest with
      | nil => cases hq
      | cons r rest =>
        cases hq
        exact (List.isChain_cons_cons.mp hmarked).1

/-- **Order counts of types 1 and 2 are those of the standard** in every run that
begins with an IDR or with nothing carried, in which a clear that is not marked
is followed by no lower number and the divided numbers fit their word. -/
theorem picOrderCnt_frameNum_correct {ps : List CountedPicture} {s : PicOrder}
    (hstart : (∀ p ∈ ps.head?, p.header.idr = true) ∨
      s.prevFrameNum = 0 ∧ s.prevFrameNumOffset = 0)
    (hrun : Along FrameNumbers.next FrameNumbers.Admits .restart ps)
    (hmarked : ps.IsChain ClearMarked)
    (hfits : Along FrameNumbers.next FrameNumbers.FitsWord .restart ps) :
    ∀ pc ∈ (FrameNumbers.restart.truePictures ps).zip (countPictures s ps), Correct pc.1 pc.2 := by
  refine countPictures_correct ps ?_ hrun hfits hmarked
  intro p hp
  rcases hstart with hi | ⟨hnum, hoffset⟩
  · exact ⟨.inl (hi p hp), .inl (hi p hp)⟩
  · refine ⟨.inr ⟨hoffset⟩, .inr ?_⟩
    rw [hnum]
    exact Iff.rfl

/-! ## A clear that is not marked -/

/-- A reference frame with counts of type 2, frame numbers of four bits. -/
def numberedFrame (idr : Bool) (frameNum : Fin 16) (ops : List MemoryManagementControl)
    (marked : Bool) : CountedPicture where
  header :=
    { shortHeader idr frameNum 0 0 ops with
      sps :=
        { shortSps with
          picOrderCntType := 2 } }
  dpbOutputDelay := 0
  marked := marked

/-- Frame 5 clears, and is refused for want of references before the clear is
marked: frame 1 after it is taken for 17, and its counts are 34 for 2. -/
theorem picOrderCnt_frameNum_wrong_after_unmarked_clear :
    let ps := [numberedFrame false 5 [.clear] false, numberedFrame false 1 [] true]
    Along FrameNumbers.next FrameNumbers.Admits .restart ps ∧
      Along FrameNumbers.next FrameNumbers.FitsWord .restart ps ∧
      ¬ ∀ pc ∈ (FrameNumbers.restart.truePictures ps).zip (countPictures PicOrder.reset ps),
        Correct pc.1 pc.2 := by
  refine ⟨by decide, by decide, ?_⟩
  intro h
  have hlast := h (⟨(numberedFrame false 1 [] true).header, 0, 2, 2⟩,
    ⟨34, 34, 34, 0x300000022⟩) (by
    refine List.mem_of_getElem? (i := 1) ?_
    rfl)
  exact absurd (hlast.1 rfl) (by decide)

/-- The clear marked, and a wrap after it. -/
theorem picOrderCnt_frameNum_correct_after_clear :
    let ps := [numberedFrame true 0 [] true, numberedFrame false 5 [.clear] true,
      numberedFrame false 9 [] true, numberedFrame false 1 [] true]
    ∀ pc ∈ (FrameNumbers.restart.truePictures ps).zip (countPictures PicOrder.reset ps),
      Correct pc.1 pc.2 :=
  picOrderCnt_frameNum_correct (.inl (by decide)) (by decide) (by decide) (by decide)

end Duckbox.H264
