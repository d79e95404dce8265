import Duckbox.H264.SliceHeader

/-!
# H.264 headers as they are coded

The header structures of the standard as the parser fills them in, every member
a 32-bit word. Pointers to other headers are those headers' contents.
-/

namespace Duckbox.H264.Coded

/-! ## Constants -/

/-- `H264_MAX_SEQUENCE_PARAMETER_SETS`, and the standard's. -/
abbrev maxSequenceParameterSets : Nat := 32

/-- `H264_STANDARD_MAX_PICTURE_PARAMETER_SETS`. -/
abbrev maxPictureParameterSets : Nat := 256

abbrev maxRefFramesInPicOrderCntCycle : Nat := 255
abbrev hrdMaxCpbCnt : Nat := 8
abbrev maxSliceGroups : Nat := 1
abbrev maxPicSizeInMapUnits : Nat := 1

/-- `H264_MAX_REF_L0_IDX_ACTIVE` and `H264_MAX_REF_L1_IDX_ACTIVE`. -/
abbrev maxRefIdxActive : Nat := 32

abbrev maxRefPicReorderOperations : Nat := 64
abbrev maxMemoryManagementOperations : Nat := 32

/-- `NALU_TYPE_IDR`. -/
def naluTypeIdr : Word := 5

/-! ## Parameter sets -/

/-- `H264HrdParameters_t`. -/
structure HrdParameters where
  cpbCntMinus1 : Word
  bitRateScale : Word
  cpbSizeScale : Word
  bitRateValueMinus1 : Vector Word hrdMaxCpbCnt
  cpbSizeValueMinus1 : Vector Word hrdMaxCpbCnt
  cbrFlag : Vector Word hrdMaxCpbCnt
  initialCpbRemovalDelayLengthMinus1 : Word
  cpbRemovalDelayLengthMinus1 : Word
  cpbOutputDelayLengthMinus1 : Word
  timeOffsetLength : Word
deriving Inhabited, DecidableEq

/-- `H264VUISequenceParameters_t`. -/
structure VUISequenceParameters where
  aspectRatioInfoPresentFlag : Word
  aspectRatioIdc : Word
  sarWidth : Word
  sarHeight : Word
  overscanInfoPresentFlag : Word
  overscanAppropriateFlag : Word
  videoSignalTypePresentFlag : Word
  videoFormat : Word
  videoFullRangeFlag : Word
  colourDescriptionPresentFlag : Word
  colourPrimaries : Word
  transferCharacteristics : Word
  matrixCoefficients : Word
  chromaLocInfoPresentFlag : Word
  chromaSampleLocTypeTopField : Word
  chromaSampleLocTypeBottomField : Word
  timingInfoPresentFlag : Word
  numUnitsInTick : Word
  timeScale : Word
  fixedFrameRateFlag : Word
  nalHrdParametersPresentFlag : Word
  nalHrdParameters : HrdParameters
  vclHrdParametersPresentFlag : Word
  vclHrdParameters : HrdParameters
  lowDelayHrdFlag : Word
  pictStructPresentFlag : Word
  bitstreamRestrictionFlag : Word
  motionVectorsOverPicBoundariesFlag : Word
  maxBytesPerPicDenom : Word
  maxBitsPerMbDenom : Word
  log2MaxMvLengthHorizontal : Word
  log2MaxMvLengthVertical : Word
  numReorderFrames : Word
  maxDecFrameBuffering : Word
deriving Inhabited, DecidableEq

/-- The scaling matrix members of both parameter sets. -/
structure ScalingMatrix where
  scalingListPresentFlag : Vector Word 8
  scalingList4x4 : Vector (Vector Word 16) 6
  useDefaultScalingMatrix4x4Flag : Vector Word 6
  scalingList8x8 : Vector (Vector Word 64) 2
  useDefaultScalingMatrix8x8Flag : Vector Word 2
deriving Inhabited, DecidableEq

/-- `H264SequenceParameterSetHeader_t`. -/
structure SequenceParameterSetHeader where
  profileIdc : Word
  constrainedSet0Flag : Word
  constrainedSet1Flag : Word
  constrainedSet2Flag : Word
  constrainedSet3Flag : Word
  levelIdc : Word
  seqParameterSetId : Word
  chromaFormatIdc : Word
  residualColourTransformFlag : Word
  bitDepthLumaMinus8 : Word
  bitDepthChromaMinus8 : Word
  qpprimeYZeroTransformBypassFlag : Word
  seqScalingMatrixPresentFlag : Word
  scaling : ScalingMatrix
  log2MaxFrameNumMinus4 : Word
  picOrderCntType : Word
  log2MaxPicOrderCntLsbMinus4 : Word
  deltaPicOrderAlwaysZeroFlag : Word
  offsetForNonRefPic : Word
  offsetForTopToBottomField : Word
  numRefFramesInPicOrderCntCycle : Word
  offsetForRefFrame : Vector Word maxRefFramesInPicOrderCntCycle
  numRefFrames : Word
  gapsInFrameNumValueAllowedFlag : Word
  picWidthInMbsMinus1 : Word
  picHeightInMapUnitsMinus1 : Word
  frameMbsOnlyFlag : Word
  mbAdaptiveFrameFieldFlag : Word
  direct8x8InferenceFlag : Word
  frameCroppingFlag : Word
  frameCroppingRectLeftOffset : Word
  frameCroppingRectRightOffset : Word
  frameCroppingRectTopOffset : Word
  frameCroppingRectBottomOffset : Word
  vuiParametersPresentFlag : Word
  vuiSeqParameters : VUISequenceParameters
deriving Inhabited, DecidableEq

/-- `H264SequenceParameterSetExtensionHeader_t`. -/
structure SequenceParameterSetExtensionHeader where
  seqParameterSetId : Word
  auxFormatIdc : Word
  bitDepthAuxMinus8 : Word
  alphaIncrFlag : Word
  alphaOpaqueValue : Word
  alphaTransparentValue : Word
  additionalExtensionFlag : Word
deriving Inhabited, DecidableEq

/-- `H264PictureParameterSetHeader_t`. -/
structure PictureParameterSetHeader where
  picParameterSetId : Word
  seqParameterSetId : Word
  entropyCodingModeFlag : Word
  picOrderPresentFlag : Word
  numSliceGroupsMinus1 : Word
  sliceGroupMapType : Word
  runLengthMinus1 : Vector Word maxSliceGroups
  topLeft : Vector Word maxSliceGroups
  bottomRight : Vector Word maxSliceGroups
  sliceGroupChangeDirectionFlag : Word
  sliceGroupChangeRateMinus1 : Word
  picSizeInMapUnitsMinus1 : Word
  sliceGroupId : Vector Word maxPicSizeInMapUnits
  numRefIdxL0ActiveMinus1 : Word
  numRefIdxL1ActiveMinus1 : Word
  weightedPredFlag : Word
  weightedBipredIdc : Word
  picInitQpMinus26 : Word
  picInitQsMinus26 : Word
  chromaQpIndexOffset : Word
  deblockingFilterControlPresentFlag : Word
  constrainedIntraPredFlag : Word
  redundantPicCntPresentFlag : Word
  transform8x8ModeFlag : Word
  picScalingMatrixPresentFlag : Word
  scaling : ScalingMatrix
  secondChromaQpIndexOffset : Word
  sequenceParameterSet : SequenceParameterSetHeader
deriving Inhabited, DecidableEq

/-! ## Slice headers -/

/-- The `l0` or the `l1` members of `H264RefPicListReordering_t`. -/
structure ReorderingCommands where
  refPicListReorderingFlag : Word
  reorderingOfPicNumsIdc : Vector Word maxRefPicReorderOperations
  absDiffPicNumMinus1 : Vector Word maxRefPicReorderOperations
  longTermPicNum : Vector Word maxRefPicReorderOperations
deriving Inhabited

/-- `H264RefPicListReordering_t`. -/
structure RefPicListReordering where
  l0 : ReorderingCommands
  l1 : ReorderingCommands
deriving Inhabited

/-- The `l0` or the `l1` members of `H264PredWeightTable_t`. -/
structure PredWeights where
  lumaWeightFlag : Vector Word maxRefIdxActive
  lumaWeight : Vector Word maxRefIdxActive
  lumaOffset : Vector Word maxRefIdxActive
  chromaWeightFlag : Vector Word maxRefIdxActive
  /-- `chroma_weight[i][0]`, and so on. -/
  chromaWeight0 : Vector Word maxRefIdxActive
  chromaOffset0 : Vector Word maxRefIdxActive
  chromaWeight1 : Vector Word maxRefIdxActive
  chromaOffset1 : Vector Word maxRefIdxActive
deriving Inhabited

/-- `H264PredWeightTable_t`. -/
structure PredWeightTable where
  lumaLog2WeightDenom : Word
  chromaLog2WeightDenom : Word
  l0 : PredWeights
  l1 : PredWeights
deriving Inhabited

/-- `H264DecRefPicMarking_t`. -/
structure DecRefPicMarking where
  noOutputOfPriorPicsFlag : Word
  longTermReferenceFlag : Word
  adaptiveRefPicMarkingModeFlag : Word
  memoryManagementControlOperation : Vector Word maxMemoryManagementOperations
  differenceOfPicNumsMinus1 : Vector Word maxMemoryManagementOperations
  longTermPicNum : Vector Word maxMemoryManagementOperations
  longTermFrameIdx : Vector Word maxMemoryManagementOperations
  maxLongTermFrameIdxPlus1 : Vector Word maxMemoryManagementOperations
deriving Inhabited

/-- `H264SliceHeader_t`, the coded members. -/
structure SliceHeader where
  firstMbInSlice : Word
  sliceType : Word
  picParameterSetId : Word
  frameNum : Word
  fieldPicFlag : Word
  bottomFieldFlag : Word
  idrPicId : Word
  picOrderCntLsb : Word
  deltaPicOrderCntBottom : Word
  /-- `delta_pic_order_cnt[0]` and `[1]`. -/
  deltaPicOrderCnt0 : Word
  deltaPicOrderCnt1 : Word
  redundantPicCnt : Word
  directSpatialMvPredFlag : Word
  numRefIdxActiveOverrideFlag : Word
  numRefIdxL0ActiveMinus1 : Word
  numRefIdxL1ActiveMinus1 : Word
  refPicListReordering : RefPicListReordering
  predWeightTable : PredWeightTable
  decRefPicMarking : DecRefPicMarking
  cabacInitIdc : Word
  sliceQpDelta : Word
  spForSwitchFlag : Word
  sliceQsDelta : Word
  disableDeblockingFilterIdc : Word
  sliceAlphaC0OffsetDiv2 : Word
  sliceBetaOffsetDiv2 : Word
  sliceGroupChangeCycle : Word
  nalUnitType : Word
  nalRefIdc : Word
  pictureParameterSet : PictureParameterSetHeader
  valid : Bool
deriving Inhabited

/-- `SequenceParameterSet` of a slice, always that of its picture parameter set. -/
def SliceHeader.sequenceParameterSet (h : SliceHeader) : SequenceParameterSetHeader :=
  h.pictureParameterSet.sequenceParameterSet

/-- `SLICE_TYPE_IS( v, slice_type )`. -/
def sliceTypeIs (v sliceType : Word) : Bool := v == sliceType || v == sliceType + 5

def sliceTypeP : Word := 0
def sliceTypeB : Word := 1
def sliceTypeI : Word := 2
def sliceTypeSP : Word := 3
def sliceTypeSI : Word := 4

end Duckbox.H264.Coded
