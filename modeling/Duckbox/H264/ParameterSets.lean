import Duckbox.BufferPool.ReferenceCounting
import Duckbox.H264.ParameterSetReader

/-!
# Parameter sets and their buffers

`ReadNalSequenceParameterSet` and `ReadNalPictureParameterSet` with the tables
they install the sets in and the buffers the sets are read into. A set is in a
buffer of its pool; a table entry is the buffer and what was read into it. All
returns between the parts of a reader do the same with the buffer: nothing in
the first part, after which a macro returns, `DecrementReferenceCount` in the
second, and nothing in the checks, where the table has it.

Not modelled: sequence parameter set extensions, the reports, and the addresses
of the buffers.
-/

namespace Duckbox.H264.Coded

open Duckbox.Lib Duckbox.FrameParser Duckbox.BufferPool
open Duckbox.Lib.Parse Duckbox.FrameParser.HeaderParser

section Readers

variable {σ : Type} [BitSource σ]

abbrev SpsParser (σ : Type) := HeaderParser σ SequenceParameterSetHeader SetMembers

abbrev PpsParser (σ : Type) := HeaderParser σ PictureParameterSetHeader SetMembers

/-! ## Sequence parameter sets -/

namespace Sps

/-- Zeroed, and `SetDefaultSequenceParameterSet` for the header. -/
def defaultHeader : SequenceParameterSetHeader :=
  let zeroed : SequenceParameterSetHeader := default
  { zeroed with
    chromaFormatIdc := 1
    scaling :=
      { zeroed.scaling with
        scalingList4x4 := Vector.replicate 6 (Vector.replicate 16 16)
        scalingList8x8 := Vector.replicate 2 (Vector.replicate 64 16) }
    vuiSeqParameters :=
      { zeroed.vuiSeqParameters with
        videoFullRangeFlag := 0
        colourPrimaries := 2
        transferCharacteristics := 2
        matrixCoefficients := 2
        motionVectorsOverPicBoundariesFlag := 1
        maxBytesPerPicDenom := 2
        maxBitsPerMbDenom := 1
        log2MaxMvLengthHorizontal := 16
        log2MaxMvLengthVertical := 16 } }

/-- `SetDefaultSequenceParameterSet` for the members. -/
def setDefaultMembers (m : SetMembers) : SetMembers :=
  { m with
    cpbDpbDelaysPresentFlag := 0
    cpbRemovalDelayLength := 0
    dpbOutputDelayLength := 0
    seenDpbValue := false
    displayOrderByDpbValues := false
    picStructPresentFlag := 0
    timeOffsetLength := 0 }

def scaling : Member SequenceParameterSetHeader ScalingMatrix :=
  ⟨(·.scaling), fun v h => { h with scaling := v }⟩

def vuiSeqParameters : Member SequenceParameterSetHeader VUISequenceParameters :=
  ⟨(·.vuiSeqParameters), fun v h => { h with vuiSeqParameters := v }⟩

def offsetForRefFrame :
    Member SequenceParameterSetHeader (Vector Word maxRefFramesInPicOrderCntCycle) :=
  ⟨(·.offsetForRefFrame), fun v h => { h with offsetForRefFrame := v }⟩

/-- The profile; `MarkerBits` returns where the reserved bits are not 0. -/
def readProfile : SpsParser σ Unit := do
  read (u 8) fun v h => { h with profileIdc := v }
  read (u 1) fun v h => { h with constrainedSet0Flag := v }
  read (u 1) fun v h => { h with constrainedSet1Flag := v }
  read (u 1) fun v h => { h with constrainedSet2Flag := v }
  read (u 1) fun v h => { h with constrainedSet3Flag := v }
  markerBits 4 0

/-- `H264_PROFILE_IDC_HIGH`, `HIGH10`, `HIGH422` or `HIGH444`. -/
def highProfile (profileIdc : Word) : Bool :=
  profileIdc == 100 || profileIdc == 110 || profileIdc == 122 || profileIdc == 144

/-- The members that high profiles have. -/
def readHighProfile : SpsParser σ Unit := do
  let chromaFormatIdc ← take ue
  setHeader fun h => { h with chromaFormatIdc := chromaFormatIdc }
  when (chromaFormatIdc == 3) <| read (u 1) fun v h => { h with residualColourTransformFlag := v }
  read ue fun v h => { h with bitDepthLumaMinus8 := v }
  read ue fun v h => { h with bitDepthChromaMinus8 := v }
  read (u 1) fun v h => { h with qpprimeYZeroTransformBypassFlag := v }
  let seqScalingMatrix ← take (u 1)
  setHeader fun h => { h with seqScalingMatrixPresentFlag := seqScalingMatrix }
  when (seqScalingMatrix != 0) (within scaling (readScalingMatrix true fallbackRuleA))

/-- "exceeds our soft restriction", "Too many reference frames!!!". -/
def markStreamUnPlayable : SpsParser σ Unit := do
  setMembers fun m => { m with streamUnPlayable := true }
  Parse.stop (.status .error)

/-- The order counts. -/
def readOrderCounts : SpsParser σ Unit := do
  read ue fun v h => { h with log2MaxFrameNumMinus4 := v }
  let picOrderCntType ← take ue
  setHeader fun h => { h with picOrderCntType := picOrderCntType }
  if picOrderCntType == 0 then
    read ue fun v h => { h with log2MaxPicOrderCntLsbMinus4 := v }
  else
    when (picOrderCntType == 1) do
      read (u 1) fun v h => { h with deltaPicOrderAlwaysZeroFlag := v }
      read se fun v h => { h with offsetForNonRefPic := v }
      read se fun v h => { h with offsetForTopToBottomField := v }
      let cycle ← take ue
      setHeader fun h => { h with numRefFramesInPicOrderCntCycle := cycle }
      when (decide (maxRefFramesInPicOrderCntCycle < cycle.toNat)) markStreamUnPlayable
      forFrom (fun i => readInto se offsetForRefFrame i) cycle.toNat 0

/-- `H264_MAX_REFERENCE_FRAMES`. -/
def maxReferenceFrames : Nat := 16

/-- The references, the picture and its cropping. -/
def readPicture : SpsParser σ Unit := do
  let numRefFrames ← take ue
  setHeader fun h => { h with numRefFrames := numRefFrames }
  when (decide (maxReferenceFrames < numRefFrames.toNat)) markStreamUnPlayable
  read (u 1) fun v h => { h with gapsInFrameNumValueAllowedFlag := v }
  read ue fun v h => { h with picWidthInMbsMinus1 := v }
  read ue fun v h => { h with picHeightInMapUnitsMinus1 := v }
  let frameMbsOnly ← take (u 1)
  setHeader fun h => { h with frameMbsOnlyFlag := frameMbsOnly }
  when (frameMbsOnly == 0) <| read (u 1) fun v h => { h with mbAdaptiveFrameFieldFlag := v }
  read (u 1) fun v h => { h with direct8x8InferenceFlag := v }
  let frameCropping ← take (u 1)
  setHeader fun h => { h with frameCroppingFlag := frameCropping }
  when (frameCropping != 0) do
    read ue fun v h => { h with frameCroppingRectLeftOffset := v }
    read ue fun v h => { h with frameCroppingRectRightOffset := v }
    read ue fun v h => { h with frameCroppingRectTopOffset := v }
    read ue fun v h => { h with frameCroppingRectBottomOffset := v }

/-- From `level_idc` to the end; the id that was read. -/
def readBody : SpsParser σ (Fin maxSequenceParameterSets) := do
  read (u 8) fun v h => { h with levelIdc := v }
  let id ← take ue
  setHeader fun h => { h with seqParameterSetId := id }
  if hid : id.toNat < maxSequenceParameterSets then
    let h ← header
    when (highProfile h.profileIdc) readHighProfile
    readOrderCounts
    readPicture
    let vuiParameters ← take (u 1)
    setHeader fun h => { h with vuiParametersPresentFlag := vuiParameters }
    when (vuiParameters != 0) (within vuiSeqParameters readVUISequenceParameters)
    pure ⟨id.toNat, hid⟩
  else Parse.stop (.status .error)

/-- Behind the installation. -/
def checks : SpsParser σ Unit := do
  setMembers fun m => { m with lastCpbDpbDelaysPresentFlag := m.cpbDpbDelaysPresentFlag }
  assertAntiEmulationOk
  let h ← header
  assertThat (decide (h.chromaFormatIdc ≤ 3))
  assertThat (decide (h.bitDepthLumaMinus8 ≤ 4))
  assertThat (decide (h.bitDepthChromaMinus8 ≤ 4))
  assertThat (decide (h.log2MaxFrameNumMinus4 ≤ 12))
  assertThat (decide (h.picOrderCntType ≤ 2))
  assertThat (decide (h.log2MaxPicOrderCntLsbMinus4 ≤ 12))
  assertThat (decide (h.numRefFramesInPicOrderCntCycle ≤ 255))

end Sps

/-! ## Picture parameter sets -/

namespace Pps

def scaling : Member PictureParameterSetHeader ScalingMatrix :=
  ⟨(·.scaling), fun v h => { h with scaling := v }⟩

def runLengthMinus1 : Member PictureParameterSetHeader (Vector Word maxSliceGroups) :=
  ⟨(·.runLengthMinus1), fun v h => { h with runLengthMinus1 := v }⟩

def topLeft : Member PictureParameterSetHeader (Vector Word maxSliceGroups) :=
  ⟨(·.topLeft), fun v h => { h with topLeft := v }⟩

def bottomRight : Member PictureParameterSetHeader (Vector Word maxSliceGroups) :=
  ⟨(·.bottomRight), fun v h => { h with bottomRight := v }⟩

def sliceGroupId : Member PictureParameterSetHeader (Vector Word maxPicSizeInMapUnits) :=
  ⟨(·.sliceGroupId), fun v h => { h with sliceGroupId := v }⟩

/-- The ids, of which `Assert` returns those that are out of range. -/
def readIds : PpsParser σ (Fin maxPictureParameterSets × Fin maxSequenceParameterSets) := do
  let picId ← take ue
  setHeader fun h => { h with picParameterSetId := picId }
  let seqId ← take ue
  setHeader fun h => { h with seqParameterSetId := seqId }
  read (u 1) fun v h => { h with entropyCodingModeFlag := v }
  read (u 1) fun v h => { h with picOrderPresentFlag := v }
  read ue fun v h => { h with numSliceGroupsMinus1 := v }
  if hpic : picId.toNat < maxPictureParameterSets then
    if hseq : seqId.toNat < maxSequenceParameterSets then
      pure (⟨picId.toNat, hpic⟩, ⟨seqId.toNat, hseq⟩)
    else Parse.stop (.status .error)
  else Parse.stop (.status .error)

/-- The slice groups of a picture with more than one. -/
def readSliceGroups (numSliceGroupsMinus1 : Word) : PpsParser σ Unit := do
  let mapType ← take ue
  setHeader fun h => { h with sliceGroupMapType := mapType }
  if mapType == 0 then
    forFrom (fun i => readInto ue runLengthMinus1 i) (numSliceGroupsMinus1.toNat + 1) 0
  else if mapType == 2 then
    forFrom (fun i => do
      readInto ue topLeft i
      readInto ue bottomRight i) (numSliceGroupsMinus1.toNat + 1) 0
  else if mapType == 3 || mapType == 4 || mapType == 5 then
    read (u 1) fun v h => { h with sliceGroupChangeDirectionFlag := v }
    read ue fun v h => { h with sliceGroupChangeRateMinus1 := v }
  else when (mapType == 6) do
    let picSize ← take ue
    setHeader fun h => { h with picSizeInMapUnitsMinus1 := picSize }
    if maxPicSizeInMapUnits ≤ picSize.toNat then Parse.stop (.status .error)
    else
      forFrom (fun i => readInto (u (log2Ceil (numSliceGroupsMinus1 + 1))) sliceGroupId i)
        (picSize.toNat + 1) 0

/-- The active references and the quantisation. -/
def readReferences : PpsParser σ Unit := do
  let l0 ← take ue
  setHeader fun h => { h with numRefIdxL0ActiveMinus1 := l0 }
  let l1 ← take ue
  setHeader fun h => { h with numRefIdxL1ActiveMinus1 := l1 }
  read (u 1) fun v h => { h with weightedPredFlag := v }
  read (u 2) fun v h => { h with weightedBipredIdc := v }
  read se fun v h => { h with picInitQpMinus26 := v }
  read se fun v h => { h with picInitQsMinus26 := v }
  read se fun v h => { h with chromaQpIndexOffset := v }
  read (u 1) fun v h => { h with deblockingFilterControlPresentFlag := v }
  read (u 1) fun v h => { h with constrainedIntraPredFlag := v }
  read (u 1) fun v h => { h with redundantPicCntPresentFlag := v }
  -- "num_ref_idx_l?_active_minus1 out of supported range"
  when (decide (maxRefIdxActive ≤ l0.toNat) || decide (maxRefIdxActive ≤ l1.toNat)) <|
    Parse.stop (.status .error)

/-- What may follow the set of earlier versions of the standard. -/
def readExtension : PpsParser σ Unit := do
  -- the default for the second QP index
  setHeader fun h => { h with secondChromaQpIndexOffset := h.chromaQpIndexOffset }
  if ← take BitSource.moreRsbpData then
    let transform8x8 ← take (u 1)
    setHeader fun h => { h with transform8x8ModeFlag := transform8x8 }
    let picScalingMatrix ← take (u 1)
    setHeader fun h => { h with picScalingMatrixPresentFlag := picScalingMatrix }
    when (picScalingMatrix != 0) do
      let h ← header
      let sps := h.sequenceParameterSet
      let rule := if sps.seqScalingMatrixPresentFlag != 0 then fallbackRuleB sps else fallbackRuleA
      within scaling (readScalingMatrix (transform8x8 != 0) rule)
    read se fun v h => { h with secondChromaQpIndexOffset := v }

/-- Behind the attachment of the sequence parameter set. -/
def readBody : PpsParser σ Unit := do
  let h ← header
  -- "num_slice_groups_minus1 exceeds our soft restriction"
  when (decide (maxSliceGroups ≤ h.numSliceGroupsMinus1.toNat)) <| Parse.stop (.status .error)
  when (decide (0 < h.numSliceGroupsMinus1)) (readSliceGroups h.numSliceGroupsMinus1)
  readReferences
  readExtension

/-- Behind the installation. -/
def checks : PpsParser σ Unit := do
  assertAntiEmulationOk
  let h ← header
  assertThat (decide (h.sliceGroupMapType ≤ 6))
  assertThat (decide (h.numRefIdxL0ActiveMinus1 ≤ 31))
  assertThat (decide (h.numRefIdxL1ActiveMinus1 ≤ 31))
  assertThat (decide (h.weightedBipredIdc ≤ 2))
  assertThat (decide (h.picInitQpMinus26.toInt ≤ 25))
  assertThat (decide (-26 ≤ h.picInitQsMinus26.toInt ∧ h.picInitQsMinus26.toInt ≤ 25))
  assertThat (decide (-12 ≤ h.chromaQpIndexOffset.toInt ∧ h.chromaQpIndexOffset.toInt ≤ 12))
  assertThat (decide
    (-12 ≤ h.secondChromaQpIndexOffset.toInt ∧ h.secondChromaQpIndexOffset.toInt ≤ 12))

end Pps

end Readers

/-! ## The tables -/

/-- An entry of `SequenceParameterSetTable` with a buffer. -/
structure SequenceEntry (n : Nat) where
  buffer : Fin n
  header : SequenceParameterSetHeader

/-- An entry of `PictureParameterSetTable` with a buffer; `SequenceParameterSet`
points into `sequenceBuffer`. -/
structure PictureEntry (n : Nat) where
  buffer : Fin n
  sequenceBuffer : Fin n
  header : PictureParameterSetHeader
deriving DecidableEq

/-- `Header->SequenceParameterSet` is that of an entry. -/
def Pps.withSequence {σ : Type} {n : Nat} (sps : SequenceEntry n)
    (t : HeaderState σ PictureParameterSetHeader SetMembers) :
    HeaderState σ PictureParameterSetHeader SetMembers :=
  { t with header := { t.header with sequenceParameterSet := sps.header } }

/-- The tables, and the buffers of all pools. -/
structure ParameterSets (n m : Nat) where
  manager : Manager n m
  sequenceParameterSetTable : Fin maxSequenceParameterSets → Option (SequenceEntry n)
  pictureParameterSetTable : Fin maxPictureParameterSets → Option (PictureEntry n)

/-- Which pool a buffer is of, `SequenceParameterSetPool` and `PictureParameterSetPool`. -/
structure Pools (n m : Nat) where
  poolOf : Fin n → Fin m
  sequenceParameterSetPool : Fin m
  pictureParameterSetPool : Fin m

/-- The errors that the readers return. -/
inductive ReadError where
  /-- The status of `GetBuffer`. -/
  | getBuffer
  | stop (s : Stop)
deriving DecidableEq, Repr

/-- A return and what it leaves. -/
structure Returned (σ : Type) (n m : Nat) where
  result : Except ReadError Unit
  sets : ParameterSets n m
  bits : σ
  members : SetMembers

namespace ParameterSets

variable {n m : Nat} (pools : Pools n m)

/-- `Buffer->DecrementReferenceCount()`. -/
def decrementReferenceCount (s : ParameterSets n m) (b : Fin n) : Option (ParameterSets n m) :=
  (s.manager.decrementReferenceCount pools.poolOf b).map fun manager => { s with manager := manager }

/-- The same for an entry, if there is one. -/
def dropEntry (s : ParameterSets n m) : Option (Fin n) → Option (ParameterSets n m)
  | none => some s
  | some b => s.decrementReferenceCount pools b

/-- "This header is complete, if we have one with the same ID then release it,
otherwise, just save this one." -/
def installSequence (s : ParameterSets n m) (id : Fin maxSequenceParameterSets)
    (entry : SequenceEntry n) : Option (ParameterSets n m) :=
  (s.dropEntry pools ((s.sequenceParameterSetTable id).map (·.buffer))).map fun s =>
    { s with
      sequenceParameterSetTable := Function.update s.sequenceParameterSetTable id (some entry) }

/-- The same for a picture parameter set. -/
def installPicture (s : ParameterSets n m) (id : Fin maxPictureParameterSets)
    (entry : PictureEntry n) : Option (ParameterSets n m) :=
  (s.dropEntry pools ((s.pictureParameterSetTable id).map (·.buffer))).map fun s =>
    { s with
      pictureParameterSetTable := Function.update s.pictureParameterSetTable id (some entry) }

end ParameterSets

section Nal

variable {σ : Type} [BitSource σ] {n m : Nat} (pools : Pools n m)

/-- What is returned behind the last part of a reader. -/
def Returned.of {H A : Type} (sets : ParameterSets n m)
    (end_ : Except Stop A × HeaderState σ H SetMembers) : Returned σ n m where
  result := match end_.1 with
    | .ok _ => .ok ()
    | .error e => .error (.stop e)
  sets := sets
  bits := end_.2.bits
  members := end_.2.members

/-- `ReadNalSequenceParameterSet`; `none` if it does not return. -/
def readNalSequenceParameterSet (s : ParameterSets n m) (bits : σ) (members : SetMembers) :
    Option (Returned σ n m) := do
  match s.manager.getBuffer pools.sequenceParameterSetPool with
  | none => pure ⟨.error .getBuffer, s, bits, members⟩
  | some (spsBuffer, manager) =>
    let s := { s with manager := manager }
    match Sps.readProfile ⟨bits, Sps.defaultHeader, Sps.setDefaultMembers members⟩ with
    | (.error e, t) => pure (Returned.of (A := Unit) s (.error e, t))
    | (.ok _, t) =>
      match Sps.readBody t with
      | (.error e, t) =>
        let s ← s.decrementReferenceCount pools spsBuffer
        pure (Returned.of (A := Unit) s (.error e, t))
      | (.ok id, t) =>
        let s ← s.installSequence pools id ⟨spsBuffer, t.header⟩
        pure (Returned.of s (Sps.checks t))

/-- `ReadNalPictureParameterSet`; `none` if it does not return. -/
def readNalPictureParameterSet (s : ParameterSets n m) (bits : σ) (members : SetMembers) :
    Option (Returned σ n m) := do
  match s.manager.getBuffer pools.pictureParameterSetPool with
  | none => pure ⟨.error .getBuffer, s, bits, members⟩
  | some (ppsBuffer, manager) =>
    let s := { s with manager := manager }
    match Pps.readIds ⟨bits, default, members⟩ with
    | (.error e, t) => pure (Returned.of (A := Unit) s (.error e, t))
    | (.ok (picId, seqId), t) =>
      match s.sequenceParameterSetTable seqId with
      | none =>
        -- "Appropriate sequence parameter set not found"
        let s ← s.decrementReferenceCount pools ppsBuffer
        pure (Returned.of (A := Unit) s (.error (.status .error), t))
      | some sps =>
        let s := { s with manager := s.manager.attachBuffer pools.poolOf ppsBuffer sps.buffer }
        match Pps.readBody (Pps.withSequence sps t) with
        | (.error e, t) =>
          let s ← s.decrementReferenceCount pools ppsBuffer
          pure (Returned.of (A := Unit) s (.error e, t))
        | (.ok _, t) =>
          let s ← s.installPicture pools picId ⟨ppsBuffer, sps.buffer, t.header⟩
          pure (Returned.of s (Pps.checks t))

end Nal

end Duckbox.H264.Coded
