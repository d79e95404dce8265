import Duckbox.H264.SliceHeaderReader
import Duckbox.Lib.Slots

/-!
# Reading parameter sets

What `ReadNalSequenceParameterSet` and `ReadNalPictureParameterSet` read, and
the functions they call: `ReadScalingList`, `ReadHrdParameters`,
`ReadVUISequenceParameters`. Each is here in three parts, between which buffers
change hands: up to the last return that leaves the buffer behind, up to the
installation, and the checks that follow it.
-/

namespace Duckbox.H264.Coded

open Duckbox.Lib Duckbox.FrameParser
open Duckbox.Lib.Parse Duckbox.FrameParser.HeaderParser

/-- The members of `FrameParser_VideoH264_c` that reading a parameter set uses. -/
structure SetMembers where
  cpbDpbDelaysPresentFlag : Word
  lastCpbDpbDelaysPresentFlag : Word
  cpbRemovalDelayLength : Word
  dpbOutputDelayLength : Word
  picStructPresentFlag : Word
  timeOffsetLength : Word
  seenDpbValue : Bool
  displayOrderByDpbValues : Bool
  streamUnPlayable : Bool
deriving Inhabited

/-! ## Scaling lists -/

def zzScan4x4 : List (Fin 16) := [0, 1, 4, 8, 5, 2, 3, 6, 9, 12, 13, 10, 7, 11, 14, 15]

def zzScan8x8 : List (Fin 64) :=
  [0, 1, 8, 16, 9, 2, 3, 10, 17, 24, 32, 25, 18, 11, 4, 5,
   12, 19, 26, 33, 40, 48, 41, 34, 27, 20, 13, 6, 7, 14, 21, 28,
   35, 42, 49, 56, 57, 50, 43, 36, 29, 22, 15, 23, 30, 37, 44, 51,
   58, 59, 52, 45, 38, 31, 39, 46, 53, 60, 61, 54, 47, 55, 62, 63]

def defaultScalingList4x4Intra : List Word :=
  [6, 13, 13, 20, 20, 20, 28, 28, 28, 28, 32, 32, 32, 37, 37, 42]

def defaultScalingList4x4Inter : List Word :=
  [10, 14, 14, 20, 20, 20, 24, 24, 24, 24, 27, 27, 27, 30, 30, 34]

def defaultScalingList8x8Intra : List Word :=
  [6, 10, 10, 13, 11, 13, 16, 16, 16, 16, 18, 18, 18, 18, 18, 23,
   23, 23, 23, 23, 23, 25, 25, 25, 25, 25, 25, 25, 27, 27, 27, 27,
   27, 27, 27, 27, 29, 29, 29, 29, 29, 29, 29, 31, 31, 31, 31, 31,
   31, 33, 33, 33, 33, 33, 36, 36, 36, 36, 38, 38, 38, 40, 40, 42]

def defaultScalingList8x8Inter : List Word :=
  [9, 13, 13, 15, 13, 15, 17, 17, 17, 17, 19, 19, 19, 19, 19, 21,
   21, 21, 21, 21, 21, 22, 22, 22, 22, 22, 22, 22, 24, 24, 24, 24,
   24, 24, 24, 24, 25, 25, 25, 25, 25, 25, 25, 27, 27, 27, 27, 27,
   27, 28, 28, 28, 28, 28, 30, 30, 30, 30, 32, 32, 32, 33, 33, 35]

/-- `DefaultScalingList[i]` of the first six. -/
def defaultScalingList4x4 (i : Fin 6) : List Word :=
  if i.val < 3 then defaultScalingList4x4Intra else defaultScalingList4x4Inter

/-- `DefaultScalingList[i + 6]`. -/
def defaultScalingList8x8 (i : Fin 2) : List Word :=
  if i = 0 then defaultScalingList8x8Intra else defaultScalingList8x8Inter

/-- `List[Scan[i]] = Values[i]`, for all of them. -/
def putScanned {n : Nat} (scan : List (Fin n)) (values : List Word) (list : Vector Word n) :
    Vector Word n :=
  (scan.zip values).foldl (fun l p => l.set p.1 p.2) list

/-- The lists that a list that is not present is copied from, by fallback rule:
the first of a kind, the others being copied from the list before. -/
structure FallbackRule where
  intra4x4 : Vector Word 16
  inter4x4 : Vector Word 16
  intra8x8 : Vector Word 64
  inter8x8 : Vector Word 64

/-- "Fallback rule A", from `DefaultScanOrderScalingList`. -/
def fallbackRuleA : FallbackRule where
  intra4x4 := putScanned zzScan4x4 defaultScalingList4x4Intra default
  inter4x4 := putScanned zzScan4x4 defaultScalingList4x4Inter default
  intra8x8 := putScanned zzScan8x8 defaultScalingList8x8Intra default
  inter8x8 := putScanned zzScan8x8 defaultScalingList8x8Inter default

/-- "Fallback rule B". -/
def fallbackRuleB (sps : SequenceParameterSetHeader) : FallbackRule where
  intra4x4 := sps.scaling.scalingList4x4[0]
  inter4x4 := sps.scaling.scalingList4x4[3]
  intra8x8 := sps.scaling.scalingList8x8[0]
  inter8x8 := sps.scaling.scalingList8x8[1]

/-- `FallbackScalingList[i]` of the first six. -/
def FallbackRule.list4x4 (rule : FallbackRule) (matrix : ScalingMatrix) (i : Fin 6) :
    Vector Word 16 :=
  if i = 0 then rule.intra4x4
  else if i = 3 then rule.inter4x4
  else matrix.scalingList4x4[i - 1]

/-- `FallbackScalingList[i + 6]`. -/
def FallbackRule.list8x8 (rule : FallbackRule) (i : Fin 2) : Vector Word 64 :=
  if i = 0 then rule.intra8x8 else rule.inter8x8

/-- What `ReadScalingList` is passed pointers to. -/
structure ScalingList (n : Nat) where
  scalingList : Vector Word n
  useDefaultScalingMatrixFlag : Word

def list4x4 (i : Fin 6) : Member ScalingMatrix (ScalingList 16) where
  get h := ⟨h.scalingList4x4[i], h.useDefaultScalingMatrix4x4Flag[i]⟩
  set l h :=
    { h with
      scalingList4x4 := h.scalingList4x4.set i l.scalingList
      useDefaultScalingMatrix4x4Flag :=
        h.useDefaultScalingMatrix4x4Flag.set i l.useDefaultScalingMatrixFlag }

def list8x8 (i : Fin 2) : Member ScalingMatrix (ScalingList 64) where
  get h := ⟨h.scalingList8x8[i], h.useDefaultScalingMatrix8x8Flag[i]⟩
  set l h :=
    { h with
      scalingList8x8 := h.scalingList8x8.set i l.scalingList
      useDefaultScalingMatrix8x8Flag :=
        h.useDefaultScalingMatrix8x8Flag.set i l.useDefaultScalingMatrixFlag }

section Readers

variable {σ : Type} [BitSource σ] {n : Nat} {M : Type}

/-- The passes for what is left of the scan order; `j` is 0 in the first. -/
def scalingPasses : List (Fin n) → Nat → Word → Word → HeaderParser σ (ScalingList n) M Unit
  | [], _, _, _ => pure ()
  | position :: scan, j, lastScale, nextScale => do
    let nextScale ←
      if nextScale != 0 then do
        let deltaScale ← take se
        let nextScale := (lastScale + deltaScale + 256).srem 256
        setHeader fun x =>
          { x with useDefaultScalingMatrixFlag := if j == 0 && nextScale == 0 then 1 else 0 }
        pure nextScale
      else pure nextScale
    let scale := if nextScale == 0 then lastScale else nextScale
    setHeader fun x => { x with scalingList := x.scalingList.set position scale }
    scalingPasses scan (j + 1) scale nextScale

/-- `ReadScalingList`. -/
def readScalingList (scalingListPresent : Bool) (scan : List (Fin n)) (defaults : List Word)
    (fallback : Vector Word n) : HeaderParser σ (ScalingList n) M Unit := do
  if scalingListPresent then
    scalingPasses scan 0 8 8
    setHeader fun x =>
      if x.useDefaultScalingMatrixFlag != 0 then
        { x with scalingList := putScanned scan defaults x.scalingList }
      else x
  else setHeader fun x => { x with scalingList := fallback }
  assertAntiEmulationOk

/-- `seq_scaling_list_present_flag`, or `pic_`. -/
def presentFlag : Member ScalingMatrix (Vector Word 8) :=
  ⟨(·.scalingListPresentFlag), fun v h => { h with scalingListPresentFlag := v }⟩

def scalingPass4x4 (rule : FallbackRule) (i : Fin 6) : HeaderParser σ ScalingMatrix M Unit := do
  let present ← readAt (u 1) presentFlag i
  let h ← header
  within (list4x4 i) (readScalingList (present != 0) zzScan4x4 (defaultScalingList4x4 i)
    (rule.list4x4 h i))

def scalingPass8x8 (rule : FallbackRule) (i : Fin 2) : HeaderParser σ ScalingMatrix M Unit := do
  let present ← readAt (u 1) presentFlag (i + 6)
  within (list8x8 i) (readScalingList (present != 0) zzScan8x8 (defaultScalingList8x8 i)
    (rule.list8x8 i))

/-- The scaling matrix of either parameter set. -/
def readScalingMatrix (lists8x8 : Bool) (rule : FallbackRule) :
    HeaderParser σ ScalingMatrix M Unit := do
  (List.finRange 6).forM (scalingPass4x4 rule)
  when lists8x8 ((List.finRange 2).forM (scalingPass8x8 rule))

/-! ## VUI parameters -/

namespace Hrd

def bitRateValueMinus1 : Member HrdParameters (Vector Word hrdMaxCpbCnt) :=
  ⟨(·.bitRateValueMinus1), fun v h => { h with bitRateValueMinus1 := v }⟩

def cpbSizeValueMinus1 : Member HrdParameters (Vector Word hrdMaxCpbCnt) :=
  ⟨(·.cpbSizeValueMinus1), fun v h => { h with cpbSizeValueMinus1 := v }⟩

def cbrFlag : Member HrdParameters (Vector Word hrdMaxCpbCnt) :=
  ⟨(·.cbrFlag), fun v h => { h with cbrFlag := v }⟩

end Hrd

/-- `ReadHrdParameters`. -/
def readHrdParameters : HeaderParser σ HrdParameters SetMembers Unit := do
  let cpbCntMinus1 ← take ue
  setHeader fun h => { h with cpbCntMinus1 := cpbCntMinus1 }
  if hrdMaxCpbCnt ≤ cpbCntMinus1.toNat then Parse.stop (.status .error) else
    read (u 4) fun v h => { h with bitRateScale := v }
    read (u 4) fun v h => { h with cpbSizeScale := v }
    forFrom (fun i => do
      readInto ue Hrd.bitRateValueMinus1 i
      readInto ue Hrd.cpbSizeValueMinus1 i
      readInto (u 1) Hrd.cbrFlag i) (cpbCntMinus1.toNat + 1) 0
    read (u 5) fun v h => { h with initialCpbRemovalDelayLengthMinus1 := v }
    read (u 5) fun v h => { h with cpbRemovalDelayLengthMinus1 := v }
    read (u 5) fun v h => { h with cpbOutputDelayLengthMinus1 := v }
    read (u 5) fun v h => { h with timeOffsetLength := v }
    let h ← header
    setMembers fun m =>
      { m with
        cpbDpbDelaysPresentFlag := 1
        cpbRemovalDelayLength := h.cpbRemovalDelayLengthMinus1 + 1
        dpbOutputDelayLength := h.cpbOutputDelayLengthMinus1 + 1
        timeOffsetLength := h.timeOffsetLength }
    assertAntiEmulationOk

namespace Vui

def nalHrdParameters : Member VUISequenceParameters HrdParameters :=
  ⟨(·.nalHrdParameters), fun v h => { h with nalHrdParameters := v }⟩

def vclHrdParameters : Member VUISequenceParameters HrdParameters :=
  ⟨(·.vclHrdParameters), fun v h => { h with vclHrdParameters := v }⟩

/-- `H264_ASPECT_RATIO_EXTENDED_SAR`. -/
def aspectRatioExtendedSar : Word := 255

/-- Aspect ratio and overscan. -/
def readAspect : HeaderParser σ VUISequenceParameters SetMembers Unit := do
  let aspectRatioInfo ← take (u 1)
  setHeader fun h => { h with aspectRatioInfoPresentFlag := aspectRatioInfo }
  when (aspectRatioInfo != 0) do
    let aspectRatioIdc ← take (u 8)
    setHeader fun h => { h with aspectRatioIdc := aspectRatioIdc }
    when (aspectRatioIdc == aspectRatioExtendedSar) do
      read (u 16) fun v h => { h with sarWidth := v }
      read (u 16) fun v h => { h with sarHeight := v }
  let overscanInfo ← take (u 1)
  setHeader fun h => { h with overscanInfoPresentFlag := overscanInfo }
  when (overscanInfo != 0) <| read (u 1) fun v h => { h with overscanAppropriateFlag := v }

/-- The video signal type, chroma locations and timing. -/
def readSignal : HeaderParser σ VUISequenceParameters SetMembers Unit := do
  let videoSignalType ← take (u 1)
  setHeader fun h => { h with videoSignalTypePresentFlag := videoSignalType }
  when (videoSignalType != 0) do
    read (u 3) fun v h => { h with videoFormat := v }
    read (u 1) fun v h => { h with videoFullRangeFlag := v }
    let colourDescription ← take (u 1)
    setHeader fun h => { h with colourDescriptionPresentFlag := colourDescription }
    when (colourDescription != 0) do
      read (u 8) fun v h => { h with colourPrimaries := v }
      read (u 8) fun v h => { h with transferCharacteristics := v }
      read (u 8) fun v h => { h with matrixCoefficients := v }
  let chromaLocInfo ← take (u 1)
  setHeader fun h => { h with chromaLocInfoPresentFlag := chromaLocInfo }
  when (chromaLocInfo != 0) do
    read ue fun v h => { h with chromaSampleLocTypeTopField := v }
    read ue fun v h => { h with chromaSampleLocTypeBottomField := v }
  let timingInfo ← take (u 1)
  setHeader fun h => { h with timingInfoPresentFlag := timingInfo }
  when (timingInfo != 0) do
    read (u 32) fun v h => { h with numUnitsInTick := v }
    read (u 32) fun v h => { h with timeScale := v }
    read (u 1) fun v h => { h with fixedFrameRateFlag := v }

/-- The hypothetical reference decoders. -/
def readHrds : HeaderParser σ VUISequenceParameters SetMembers Unit := do
  let nalHrd ← take (u 1)
  setHeader fun h => { h with nalHrdParametersPresentFlag := nalHrd }
  when (nalHrd != 0) (within nalHrdParameters readHrdParameters)
  let vclHrd ← take (u 1)
  setHeader fun h => { h with vclHrdParametersPresentFlag := vclHrd }
  when (vclHrd != 0) (within vclHrdParameters readHrdParameters)
  when (nalHrd != 0 || vclHrd != 0) <| read (u 1) fun v h => { h with lowDelayHrdFlag := v }

end Vui

/-- `ReadVUISequenceParameters`. -/
def readVUISequenceParameters : HeaderParser σ VUISequenceParameters SetMembers Unit := do
  Vui.readAspect
  Vui.readSignal
  Vui.readHrds
  let pictStruct ← take (u 1)
  setHeader fun h => { h with pictStructPresentFlag := pictStruct }
  let bitstreamRestriction ← take (u 1)
  setHeader fun h => { h with bitstreamRestrictionFlag := bitstreamRestriction }
  when (bitstreamRestriction != 0) do
    read (u 1) fun v h => { h with motionVectorsOverPicBoundariesFlag := v }
    read ue fun v h => { h with maxBytesPerPicDenom := v }
    read ue fun v h => { h with maxBitsPerMbDenom := v }
    read ue fun v h => { h with log2MaxMvLengthHorizontal := v }
    read ue fun v h => { h with log2MaxMvLengthVertical := v }
    read ue fun v h => { h with numReorderFrames := v }
    read ue fun v h => { h with maxDecFrameBuffering := v }
  setMembers fun m => { m with picStructPresentFlag := pictStruct }
  assertAntiEmulationOk

end Readers

end Duckbox.H264.Coded
