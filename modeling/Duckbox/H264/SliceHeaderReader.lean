import Duckbox.FrameParser.HeaderReader
import Duckbox.H264.CodedHeaders
import Duckbox.H264.PicOrderCnt

/-!
# Reading a slice header

`ReadNalSliceHeader` and the functions it calls: `ReadRefPicListReordering`,
`ReadPredWeightTable`, `ReadDecRefPicMarking`. The `l0` and `l1` halves of the
first two, which the source writes out twice, are one definition with the half
as an argument. An array element that is compared after it has been read is
the value read.

`GetNewFrameParameters` is the status it returns; the pointers that are followed
are the headers they point to.
-/

namespace Duckbox.H264.Coded

open Duckbox.Lib Duckbox.FrameParser
open Duckbox.Lib.Parse Duckbox.FrameParser.HeaderParser

/-- The members of `FrameParser_VideoH264_c` that reading a slice header uses. -/
structure SliceMembers where
  /-- `FrameParameters != NULL`. -/
  frameParameters : Bool
  /-- `SliceHeader != NULL`. -/
  sliceHeader : Bool
  /-- What `GetNewFrameParameters` returns, `none` for `FrameParserNoError`. -/
  getNewFrameParameters : Option FrameParserStatus
  /-- The headers of the entries with a buffer. -/
  pictureParameterSetTable : Vector (Option PictureParameterSetHeader) maxPictureParameterSets
  nalUnitType : Word
  nalRefIdc : Word
  /-- `ParsedFrameParameters->IndependentFrame`. -/
  independentFrame : Bool
  streamUnPlayable : Bool
  picOrder : PicOrder

abbrev SliceState (σ : Type) := HeaderState σ SliceHeader SliceMembers

abbrev SliceParser (σ : Type) := HeaderParser σ SliceHeader SliceMembers

/-! ## Reference list reordering -/

/-- The `l0` members. -/
def reorderingL0 : Member SliceHeader ReorderingCommands :=
  ⟨(·.refPicListReordering.l0), fun c h =>
    { h with refPicListReordering := { h.refPicListReordering with l0 := c } }⟩

/-- The `l1` members. -/
def reorderingL1 : Member SliceHeader ReorderingCommands :=
  ⟨(·.refPicListReordering.l1), fun c h =>
    { h with refPicListReordering := { h.refPicListReordering with l1 := c } }⟩

namespace ReorderingCommands

abbrev Commands := Member ReorderingCommands (Vector Word maxRefPicReorderOperations)

def idc : Commands := ⟨reorderingOfPicNumsIdc, fun v c => { c with reorderingOfPicNumsIdc := v }⟩

def absDiff : Commands := ⟨absDiffPicNumMinus1, fun v c => { c with absDiffPicNumMinus1 := v }⟩

def longTerm : Commands := ⟨longTermPicNum, fun v c => { c with longTermPicNum := v }⟩

end ReorderingCommands

section Readers

variable {σ : Type} [BitSource σ]

/-- One command; the last one breaks. -/
def reorderingPass (list : Member SliceHeader ReorderingCommands) (i : Nat) :
    SliceParser σ Bool := do
  let idc ← readAt ue (list.comp ReorderingCommands.idc) i
  assertThat (decide (idc ≤ 3))
  when (idc == 0 || idc == 1) (readInto ue (list.comp ReorderingCommands.absDiff) i)
  when (idc == 2) (readInto ue (list.comp ReorderingCommands.longTerm) i)
  pure (idc == 3)

/-- The commands of one list. -/
def readReorderingCommands (list : Member SliceHeader ReorderingCommands) :
    SliceParser σ Unit := do
  let flag ← take (u 1)
  setHeader fun h => list.set { list.get h with refPicListReorderingFlag := flag } h
  when (flag != 0) do
    -- REF_LIST_REORDER_ANTI_EMULATION_REQUEST
    checkAntiEmulationBuffer 128
    let ended ← forBreak (reorderingPass list) maxRefPicReorderOperations 0
    -- "Too many list re-ordering commands"
    assertThat ended

/-- `ReadRefPicListReordering`. -/
def readRefPicListReordering : SliceParser σ Unit := do
  let h ← header
  when (!sliceTypeIs h.sliceType sliceTypeI && !sliceTypeIs h.sliceType sliceTypeSI)
    (readReorderingCommands reorderingL0)
  when (sliceTypeIs h.sliceType sliceTypeB) (readReorderingCommands reorderingL1)
  assertAntiEmulationOk

/-! ## Prediction weights -/

/-- The `l0` members. -/
def weightsL0 : Member SliceHeader PredWeights :=
  ⟨(·.predWeightTable.l0), fun w h =>
    { h with predWeightTable := { h.predWeightTable with l0 := w } }⟩

/-- The `l1` members. -/
def weightsL1 : Member SliceHeader PredWeights :=
  ⟨(·.predWeightTable.l1), fun w h =>
    { h with predWeightTable := { h.predWeightTable with l1 := w } }⟩

/-- The weights of one reference. -/
def weightsPass (list : Member SliceHeader PredWeights) (chromaFormatIdc : Word) (i : Nat) :
    SliceParser σ Unit := do
  let flag ← readAt (u 1)
    (list.comp ⟨(·.lumaWeightFlag), fun v w => { w with lumaWeightFlag := v }⟩) i
  when (flag != 0) do
    readInto se (list.comp ⟨(·.lumaWeight), fun v w => { w with lumaWeight := v }⟩) i
    readInto se (list.comp ⟨(·.lumaOffset), fun v w => { w with lumaOffset := v }⟩) i
  when (chromaFormatIdc != 0) do
    let flag ← readAt (u 1)
      (list.comp ⟨(·.chromaWeightFlag), fun v w => { w with chromaWeightFlag := v }⟩) i
    when (flag != 0) do
      readInto se (list.comp ⟨(·.chromaWeight0), fun v w => { w with chromaWeight0 := v }⟩) i
      readInto se (list.comp ⟨(·.chromaOffset0), fun v w => { w with chromaOffset0 := v }⟩) i
      readInto se (list.comp ⟨(·.chromaWeight1), fun v w => { w with chromaWeight1 := v }⟩) i
      readInto se (list.comp ⟨(·.chromaOffset1), fun v w => { w with chromaOffset1 := v }⟩) i

/-- The active references of the first list, less one. -/
def SliceHeader.activeL0 (h : SliceHeader) : Word :=
  if h.numRefIdxActiveOverrideFlag != 0 then h.numRefIdxL0ActiveMinus1
  else h.pictureParameterSet.numRefIdxL0ActiveMinus1

/-- The active references of the second list, less one. -/
def SliceHeader.activeL1 (h : SliceHeader) : Word :=
  if h.numRefIdxActiveOverrideFlag != 0 then h.numRefIdxL1ActiveMinus1
  else h.pictureParameterSet.numRefIdxL1ActiveMinus1

/-- The weights of one list, as many as there are active references. -/
def readWeights (list : Member SliceHeader PredWeights) (chromaFormatIdc active : Word) :
    SliceParser σ Unit := do
  -- PRED_WEIGHT_TABLE_ANTI_EMULATION_REQUEST
  checkAntiEmulationBuffer 256
  forFrom (weightsPass list chromaFormatIdc) (active.toNat + 1) 0

/-- The checks behind the weights. -/
def checkPredWeightTable : SliceParser σ Unit := do
  assertAntiEmulationOk
  let h ← header
  assertThat (decide (h.predWeightTable.lumaLog2WeightDenom ≤ 7))
  assertThat (decide (h.predWeightTable.chromaLog2WeightDenom ≤ 7))

/-- The denominators before the weights. -/
def readWeightDenoms (chromaFormatIdc : Word) : SliceParser σ Unit := do
  read ue fun v h => { h with predWeightTable := { h.predWeightTable with lumaLog2WeightDenom := v } }
  when (chromaFormatIdc != 0) <| read ue fun v h =>
    { h with predWeightTable := { h.predWeightTable with chromaLog2WeightDenom := v } }

/-- `ReadPredWeightTable`. -/
def readPredWeightTable : SliceParser σ Unit := do
  let h ← header
  let chromaFormatIdc := h.sequenceParameterSet.chromaFormatIdc
  readWeightDenoms chromaFormatIdc
  readWeights weightsL0 chromaFormatIdc h.activeL0
  when (sliceTypeIs h.sliceType sliceTypeB) (readWeights weightsL1 chromaFormatIdc h.activeL1)
  checkPredWeightTable

/-! ## Marking commands -/

/-- `dec_ref_pic_marking`. -/
def marking : Member SliceHeader DecRefPicMarking :=
  ⟨(·.decRefPicMarking), fun m h => { h with decRefPicMarking := m }⟩

/-- One command; `H264_MMC_END` breaks. -/
def markingPass (i : Nat) : SliceParser σ Bool := do
  let op ← readAt ue (marking.comp ⟨(·.memoryManagementControlOperation), fun v m =>
    { m with memoryManagementControlOperation := v }⟩) i
  assertThat (decide (op ≤ 6))
  when (op == 1 || op == 3) <| readInto ue (marking.comp ⟨(·.differenceOfPicNumsMinus1),
    fun v m => { m with differenceOfPicNumsMinus1 := v }⟩) i
  when (op == 2) <| readInto ue (marking.comp ⟨(·.longTermPicNum),
    fun v m => { m with longTermPicNum := v }⟩) i
  when (op == 3) <| readInto ue (marking.comp ⟨(·.longTermFrameIdx),
    fun v m => { m with longTermFrameIdx := v }⟩) i
  when (op == 6) <| readInto ue (marking.comp ⟨(·.longTermFrameIdx),
    fun v m => { m with longTermFrameIdx := v }⟩) i
  when (op == 4) <| readInto ue (marking.comp ⟨(·.maxLongTermFrameIdxPlus1),
    fun v m => { m with maxLongTermFrameIdxPlus1 := v }⟩) i
  pure (op == 0)

/-- `ReadDecRefPicMarking`. -/
def readDecRefPicMarking : SliceParser σ Unit := do
  let h ← header
  if h.nalUnitType == naluTypeIdr then
    read (u 1) fun v h =>
      { h with decRefPicMarking := { h.decRefPicMarking with noOutputOfPriorPicsFlag := v } }
    read (u 1) fun v h =>
      { h with decRefPicMarking := { h.decRefPicMarking with longTermReferenceFlag := v } }
    assertAntiEmulationOk
  else
    let flag ← take (u 1)
    setHeader fun h =>
      { h with decRefPicMarking := { h.decRefPicMarking with adaptiveRefPicMarkingModeFlag := flag } }
    when (flag != 0) do
      -- MEM_MANAGEMENT_ANTI_EMULATION_REQUEST
      checkAntiEmulationBuffer 64
      let ended ← forBreak markingPass maxMemoryManagementOperations 0
      -- "Too many memory management control operations"
      assertThat ended
    assertAntiEmulationOk

/-! ## The slice header -/

/-- A slice that is not the first of its picture. -/
def readLaterSlice (firstMbInSlice sliceType : Word) : SliceParser σ Unit := do
  let m ← members
  let h ← header
  assertThat (m.frameParameters && m.sliceHeader && h.valid)
  -- "Baseline profile with arbitrary slice ordering not supported"
  when (h.sequenceParameterSet.profileIdc == 66 && decide (firstMbInSlice < h.firstMbInSlice)) do
    setMembers fun m => { m with streamUnPlayable := true }
    Parse.stop (.status .error)
  when (h.sliceType != sliceType) (setMembers fun m => { m with independentFrame := false })

/-- `GetNewFrameParameters`, zeroed, and the defaults. -/
def startSliceHeader (firstMbInSlice sliceType : Word) : SliceParser σ Unit := do
  let m ← members
  match m.getNewFrameParameters with
  | some status => Parse.stop (.status status)
  | none =>
    setMembers fun m => { m with frameParameters := true, sliceHeader := true }
    setHeader fun _ =>
      { (default : SliceHeader) with
        nalUnitType := m.nalUnitType
        nalRefIdc := m.nalRefIdc
        firstMbInSlice := firstMbInSlice
        sliceType := sliceType }

/-- `PictureParameterSetTable[i].Buffer` and its header. -/
def pictureParameterSet (i : Nat) : SliceParser σ (Option PictureParameterSetHeader) := do
  let m ← members
  if h : i < maxPictureParameterSets then pure (m.pictureParameterSetTable[i])
  else Parse.stop .outOfBounds

/-- The parameter set of the slice. -/
def readParameterSetId : SliceParser σ Unit := do
  let id ← take ue
  setHeader fun h => { h with picParameterSetId := id }
  assertThat (decide (id.toNat ≤ maxPictureParameterSets))
  match ← pictureParameterSet id.toNat with
  | none => Parse.stop (.status .error)
  | some set => setHeader fun h => { h with pictureParameterSet := set }

/-- The order counts of type 0 and 1. -/
def readOrderCounts : SliceParser σ Unit := do
  let h ← header
  let pps := h.pictureParameterSet
  let sps := h.sequenceParameterSet
  if sps.picOrderCntType == 0 then
    read (u (sps.log2MaxPicOrderCntLsbMinus4 + 4).toNat) fun v h => { h with picOrderCntLsb := v }
    when (pps.picOrderPresentFlag != 0 && h.fieldPicFlag == 0) <|
      read se fun v h => { h with deltaPicOrderCntBottom := v }
  else
    when (sps.picOrderCntType == 1 && sps.deltaPicOrderAlwaysZeroFlag == 0) do
      read se fun v h => { h with deltaPicOrderCnt0 := v }
      when (pps.picOrderPresentFlag != 0 && h.fieldPicFlag == 0) <|
        read se fun v h => { h with deltaPicOrderCnt1 := v }

/-- The frame number and the picture structure. -/
def readPicture : SliceParser σ Unit := do
  let h ← header
  read (u (h.sequenceParameterSet.log2MaxFrameNumMinus4 + 4).toNat) fun v h => { h with frameNum := v }
  when (h.sequenceParameterSet.frameMbsOnlyFlag == 0) do
    let flag ← take (u 1)
    setHeader fun h => { h with fieldPicFlag := flag }
    when (flag != 0) <| read (u 1) fun v h => { h with bottomFieldFlag := v }
  when (h.nalUnitType == naluTypeIdr) <| read ue fun v h => { h with idrPicId := v }
  readOrderCounts
  when (h.pictureParameterSet.redundantPicCntPresentFlag != 0) <|
    read ue fun v h => { h with redundantPicCnt := v }

/-- The active references. -/
def readActiveReferences : SliceParser σ Unit := do
  let h ← header
  when (sliceTypeIs h.sliceType sliceTypeB) <|
    read (u 1) fun v h => { h with directSpatialMvPredFlag := v }
  when (sliceTypeIs h.sliceType sliceTypeP || sliceTypeIs h.sliceType sliceTypeSP
      || sliceTypeIs h.sliceType sliceTypeB) do
    let flag ← take (u 1)
    setHeader fun h => { h with numRefIdxActiveOverrideFlag := flag }
    when (flag != 0) do
      read ue fun v h => { h with numRefIdxL0ActiveMinus1 := v }
      when (sliceTypeIs h.sliceType sliceTypeB) <|
        read ue fun v h => { h with numRefIdxL1ActiveMinus1 := v }

/-- Weights follow the reordering commands. -/
def SliceHeader.weighted (h : SliceHeader) : Bool :=
  (h.pictureParameterSet.weightedPredFlag != 0
      && (sliceTypeIs h.sliceType sliceTypeP || sliceTypeIs h.sliceType sliceTypeSP))
    || (h.pictureParameterSet.weightedBipredIdc == 1 && sliceTypeIs h.sliceType sliceTypeB)

/-- `Log2Ceil( v )`. -/
def log2Ceil (v : Word) : Nat := if v = 0 then 0 else v.toNat.log2 + 1

/-- The quantisation, deblocking and slice group members. -/
def readSliceCoding : SliceParser σ Unit := do
  -- DEFAULT_ANTI_EMULATION_REQUEST
  checkAntiEmulationBuffer 32
  let h ← header
  let pps := h.pictureParameterSet
  let sps := h.sequenceParameterSet
  when (pps.entropyCodingModeFlag != 0 && !sliceTypeIs h.sliceType sliceTypeI
      && !sliceTypeIs h.sliceType sliceTypeSI) <|
    read ue fun v h => { h with cabacInitIdc := v }
  read se fun v h => { h with sliceQpDelta := v }
  when (sliceTypeIs h.sliceType sliceTypeSP || sliceTypeIs h.sliceType sliceTypeSI) do
    when (sliceTypeIs h.sliceType sliceTypeSP) <|
      read (u 1) fun v h => { h with spForSwitchFlag := v }
    read se fun v h => { h with sliceQsDelta := v }
  when (pps.deblockingFilterControlPresentFlag != 0) do
    let idc ← take ue
    setHeader fun h => { h with disableDeblockingFilterIdc := idc }
    when (idc != 1) do
      read se fun v h => { h with sliceAlphaC0OffsetDiv2 := v }
      read se fun v h => { h with sliceBetaOffsetDiv2 := v }
  when (decide (0 < pps.numSliceGroupsMinus1) && decide (3 ≤ pps.sliceGroupMapType)
      && decide (pps.sliceGroupMapType ≤ 5)) do
    let picSizeInMapUnits := (sps.picWidthInMbsMinus1 + 1) * (sps.picHeightInMapUnitsMinus1 + 1)
    let sliceGroupChangeRate := pps.sliceGroupChangeRateMinus1 + 1
    read (u (log2Ceil (picSizeInMapUnits / sliceGroupChangeRate + 1)))
      fun v h => { h with sliceGroupChangeCycle := v }

/-- "Pretend we have seen an idr". -/
def PicOrder.enterWithoutIdr (s : PicOrder) (picOrderCntLsb : Word) : PicOrder :=
  if s.behaveAsIfSeenAnIDR then s
  else
    { s with
      prevPicOrderCntLsb := picOrderCntLsb - 1
      prevPicOrderCntMsb := 0
      behaveAsIfSeenAnIDR := true
      picOrderCntOffset := s.picOrderCntOffset + s.picOrderCntOffsetAdjust }

/-- The end of the header and its checks. -/
def finishSliceHeader : SliceParser σ Unit := do
  let h ← header
  setMembers fun m => { m with picOrder := PicOrder.enterWithoutIdr m.picOrder h.picOrderCntLsb }
  setHeader fun h => { h with valid := true }
  assertAntiEmulationOk
  assertThat (decide (h.sliceType ≤ 9))
  assertThat (decide (h.idrPicId ≤ 65535))
  assertThat (decide (h.numRefIdxL0ActiveMinus1 ≤ 31))
  assertThat (decide (h.numRefIdxL1ActiveMinus1 ≤ 31))
  assertThat (decide (h.cabacInitIdc ≤ 2))
  assertThat (decide (h.sliceQpDelta.toInt ≤ 51))
  assertThat (decide (-6 ≤ h.sliceAlphaC0OffsetDiv2.toInt ∧ h.sliceAlphaC0OffsetDiv2.toInt ≤ 6))
  assertThat (decide (-6 ≤ h.sliceBetaOffsetDiv2.toInt ∧ h.sliceBetaOffsetDiv2.toInt ≤ 6))

/-- The first slice of a picture, up to the weights. -/
def readToWeights (firstMbInSlice sliceType : Word) : SliceParser σ Unit := do
  startSliceHeader firstMbInSlice sliceType
  readParameterSetId
  readPicture
  readActiveReferences
  readRefPicListReordering

/-- The first slice of a picture, behind the weights. -/
def readFromMarking : SliceParser σ Unit := do
  let h ← header
  when (h.nalRefIdc != 0) readDecRefPicMarking
  readSliceCoding
  finishSliceHeader

/-- The first slice of a picture. -/
def readFirstSlice (firstMbInSlice sliceType : Word) : SliceParser σ Unit := do
  readToWeights firstMbInSlice sliceType
  let h ← header
  when h.weighted readPredWeightTable
  readFromMarking

/-- `ReadNalSliceHeader`. -/
def readNalSliceHeader : SliceParser σ Unit := do
  let firstMbInSlice ← take ue
  let sliceType ← take ue
  if firstMbInSlice != 0 then readLaterSlice firstMbInSlice sliceType
  else readFirstSlice firstMbInSlice sliceType

end Readers

end Duckbox.H264.Coded
