import Mathlib.Algebra.Order.Ring.Int
import Mathlib.Data.BitVec

/-!
# H.264 slice headers

The part of a parsed slice header that picture order counts and reference
marking read. `unsigned int` and `int` members are 32-bit words, read with
`toNat` or `toInt` as the C type says. What the parser guarantees by
construction is a field: the marking syntax of an IDR picture has no
memory-management commands, that of any other picture no long-term flag, a
picture that is not a reference has neither, and the order-count lsb is read
with the width its sequence parameter set gives.
-/

namespace Duckbox.H264

/-- A 32-bit machine integer. -/
abbrev Word := BitVec 32

/-- The order-count and reference members of a sequence parameter set;
`num_ref_frames_in_pic_order_cnt_cycle` is the length of `offsetForRefFrame`. -/
structure SequenceParameterSet where
  log2MaxFrameNumMinus4 : Nat
  picOrderCntType : Nat
  log2MaxPicOrderCntLsbMinus4 : Nat
  offsetForNonRefPic : Word
  offsetForTopToBottomField : Word
  offsetForRefFrame : List Word
  numRefFrames : Nat
  /-- `Assert( inrange( …, 0, 12 ) )`. -/
  log2MaxFrameNum_le : log2MaxFrameNumMinus4 ≤ 12
  log2MaxPicOrderCntLsb_le : log2MaxPicOrderCntLsbMinus4 ≤ 12
  /-- Checked against `H264_MAX_REFERENCE_FRAMES`. -/
  numRefFrames_le : numRefFrames ≤ 16

/-- `1 << (log2_max_frame_num_minus4 + 4)`. -/
def SequenceParameterSet.maxFrameNum (sps : SequenceParameterSet) : Nat :=
  2 ^ (sps.log2MaxFrameNumMinus4 + 4)

/-- `1 << (log2_max_pic_order_cnt_lsb_minus4 + 4)`. -/
def SequenceParameterSet.maxPicOrderCntLsb (sps : SequenceParameterSet) : Nat :=
  2 ^ (sps.log2MaxPicOrderCntLsbMinus4 + 4)

/-- A memory-management control operation with its arguments; `H264_MMC_END`
is the end of the list they come in. -/
inductive MemoryManagementControl where
  | markShortTermUnusedForReference (differenceOfPicNumsMinus1 : Word)
  | markLongTermUnusedForReference (longTermPicNum : Word)
  | assignLongTermIndexToShortTermPicture (differenceOfPicNumsMinus1 longTermFrameIdx : Word)
  | specifyMaxLongTermIndex (maxLongTermFrameIdxPlus1 : Word)
  | clear
  | assignLongTermIndexToCurrentDecodedPicture (longTermFrameIdx : Word)
deriving DecidableEq, Repr

/-- `H264DecRefPicMarking_t`. -/
structure DecRefPicMarking where
  longTermReferenceFlag : Bool
  adaptiveRefPicMarkingModeFlag : Bool
  memoryManagementControlOperation : List MemoryManagementControl
deriving DecidableEq, Repr

/-- What `SetDefaultSliceHeader` puts there. -/
def DecRefPicMarking.default : DecRefPicMarking := ⟨false, false, []⟩

/-- A slice header. -/
structure SliceHeader where
  sps : SequenceParameterSet
  /-- `nal_unit_type == NALU_TYPE_IDR`. -/
  idr : Bool
  nalRefIdc : Nat
  frameNum : Nat
  fieldPicFlag : Bool
  bottomFieldFlag : Bool
  picOrderCntLsb : Word
  deltaPicOrderCntBottom : Word
  deltaPicOrderCnt0 : Word
  deltaPicOrderCnt1 : Word
  decRefPicMarking : DecRefPicMarking
  frameNum_lt : frameNum < sps.maxFrameNum
  picOrderCntLsb_lt : picOrderCntLsb.toNat < sps.maxPicOrderCntLsb
  idr_marking : idr = true → decRefPicMarking.adaptiveRefPicMarkingModeFlag = false
  nonIdr_marking : idr = false → decRefPicMarking.longTermReferenceFlag = false
  nonReference_marking : nalRefIdc = 0 → decRefPicMarking = DecRefPicMarking.default

namespace SliceHeader

/-- The slice of a reference picture. -/
def reference (h : SliceHeader) : Bool := h.nalRefIdc != 0

/-- The bottom field of a frame, by itself. -/
def bottomField (h : SliceHeader) : Bool := h.fieldPicFlag && h.bottomFieldFlag

/-- The loop that looks for `H264_MMC_CLEAR`. -/
def memoryControlClearSeen (h : SliceHeader) : Bool :=
  h.nalRefIdc != 0 && h.decRefPicMarking.adaptiveRefPicMarkingModeFlag
    && h.decRefPicMarking.memoryManagementControlOperation.any (· == .clear)

end SliceHeader

/-! ## The smallest streams -/

/-- Order counts of type 0 with lsbs of four bits, frame numbers of four, four
reference frames. -/
def shortSps : SequenceParameterSet where
  log2MaxFrameNumMinus4 := 0
  picOrderCntType := 0
  log2MaxPicOrderCntLsbMinus4 := 0
  offsetForNonRefPic := 0
  offsetForTopToBottomField := 0
  offsetForRefFrame := []
  numRefFrames := 4
  log2MaxFrameNum_le := by decide
  log2MaxPicOrderCntLsb_le := by decide
  numRefFrames_le := by decide

/-- A reference frame under `shortSps`: an IDR, or a picture with the commands `ops`. -/
def shortHeader (idr : Bool) (frameNum lsb : Fin 16) (delta : Word)
    (ops : List MemoryManagementControl) : SliceHeader where
  sps := shortSps
  idr := idr
  nalRefIdc := 1
  frameNum := frameNum
  fieldPicFlag := false
  bottomFieldFlag := false
  picOrderCntLsb := BitVec.ofNat 32 lsb
  deltaPicOrderCntBottom := delta
  deltaPicOrderCnt0 := 0
  deltaPicOrderCnt1 := 0
  decRefPicMarking := ⟨false, !idr && !ops.isEmpty, ops⟩
  frameNum_lt := frameNum.isLt
  picOrderCntLsb_lt := by
    have hn := lsb.isLt
    rw [BitVec.toNat_ofNat, Nat.mod_eq_of_lt (by omega)]
    exact hn
  idr_marking := fun h => by rw [h]; rfl
  nonIdr_marking := fun _ => rfl
  nonReference_marking := fun h => absurd h (by decide)

end Duckbox.H264
