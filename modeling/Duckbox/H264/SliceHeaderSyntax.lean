import Duckbox.FrameParser.HeaderReader
import Duckbox.H264.CodedHeaders

/-!
# What a slice header codes

The syntax of the first slice of a picture up to its quantisation, as far as it says where
the members are: which are there, how many commands and weights there are, and which bits
follow. No member is stored anywhere.

The frame parser requests bytes five times on the way. `SliceFits` says that each request
has room in its buffer (`Room`), and that the weights have their places; it asks this as far
as the header is not refused before.
-/

namespace Duckbox.H264.Coded

open Duckbox.Lib Duckbox.FrameParser Duckbox.FrameParser.HeaderParser

variable {σ : Type} [BitSource σ]

/-- A request has room in the buffer, and so on from there. -/
def Room (size : Nat) (next : σ → Prop) (s : σ) : Prop :=
  ∃ t, BitSource.checkAntiEmulationBuffer size s = some t ∧ next t

/-- So on, unless more bits have been read than there are. -/
def Tested (next : σ → Prop) (s : σ) : Prop := BitSource.testAntiEmulationBuffer s = true → next s

/-! ## Commands -/

/-- Behind commands up to the one that ends them, each with so many arguments; `none` where
one is not known or there are too many. -/
def commandsEnd (last : Word) (arguments : Word → Option Nat) : Nat → σ → Option σ
  | 0, _ => none
  | most + 1, s =>
    let command := ue s
    if command.1 = last then some command.2
    else
      (arguments command.1).bind fun n =>
        commandsEnd last arguments most (skip (List.replicate n ue) command.2)

/-- Commands, if a flag says so, for which bytes are requested. -/
def CommandsFit (size : Nat) (last : Word) (arguments : Word → Option Nat) (most : Nat)
    (next : σ → Prop) (s : σ) : Prop :=
  let flag := u 1 s
  if flag.1 = 0 then next flag.2
  else Room size (fun t => ∀ e, commandsEnd last arguments most t = some e → next e) flag.2

/-- How many arguments a reordering command has. -/
def reorderingArguments (idc : Word) : Option Nat := if idc ≤ 2 then some 1 else none

/-- How many a memory management control operation has. -/
def markingArguments (op : Word) : Option Nat :=
  if op ≤ 6 then some (if op = 3 then 2 else if op = 5 then 0 else 1) else none

/-- `ref_pic_list_reordering`. -/
def ReorderingFits (type : Word) (next : σ → Prop) (s : σ) : Prop :=
  let list := CommandsFit 128 3 reorderingArguments maxRefPicReorderOperations (σ := σ)
  let second := if sliceTypeIs type sliceTypeB then list (Tested next) else Tested next
  if !sliceTypeIs type sliceTypeI && !sliceTypeIs type sliceTypeSI then list second s else second s

/-- `dec_ref_pic_marking`. -/
def MarkingFits (nalUnitType : Word) (next : σ → Prop) (s : σ) : Prop :=
  if nalUnitType = naluTypeIdr then Tested next (skip [u 1, u 1] s)
  else CommandsFit 64 0 markingArguments maxMemoryManagementOperations (Tested next) s

/-! ## Weights -/

/-- Behind the weights of one reference. -/
def weightEnd (chromaFormatIdc : Word) (s : σ) : σ :=
  let luma := u 1 s
  let s := if luma.1 != 0 then skip [se, se] luma.2 else luma.2
  if chromaFormatIdc != 0 then
    let chroma := u 1 s
    if chroma.1 != 0 then skip [se, se, se, se] chroma.2 else chroma.2
  else s

/-- The weights of one list have room and places. -/
def WeightsFit (chromaFormatIdc active : Word) (next : σ → Prop) : σ → Prop :=
  Room 256 fun t =>
    active.toNat < maxRefIdxActive ∧ next ((weightEnd chromaFormatIdc)^[active.toNat + 1] t)

/-- `pred_weight_table`, for so many references less one in each list. -/
def WeightTableFits (chromaFormatIdc type : Word) (active : Word × Word) (next : σ → Prop)
    (s : σ) : Prop :=
  let luma := ue s
  let chroma := if chromaFormatIdc != 0 then ue luma.2 else (0, luma.2)
  let accepted := Tested fun t => luma.1 ≤ 7 → chroma.1 ≤ 7 → next t
  WeightsFit chromaFormatIdc active.1
    (if sliceTypeIs type sliceTypeB then WeightsFit chromaFormatIdc active.2 accepted else accepted)
    chroma.2

/-- It follows the reordering commands. -/
def weightsFollow (pps : PictureParameterSetHeader) (type : Word) : Bool :=
  (pps.weightedPredFlag != 0 && (sliceTypeIs type sliceTypeP || sliceTypeIs type sliceTypeSP))
    || (pps.weightedBipredIdc == 1 && sliceTypeIs type sliceTypeB)

/-! ## The members before -/

/-- `field_pic_flag`, 0 where it is not there. -/
def fieldFlag (sps : SequenceParameterSetHeader) (s : σ) : Word :=
  if sps.frameMbsOnlyFlag == 0 then (u 1 s).1 else 0

/-- Behind `field_pic_flag` and `bottom_field_flag`. -/
def fieldEnd (sps : SequenceParameterSetHeader) (s : σ) : σ :=
  if sps.frameMbsOnlyFlag == 0 then
    let flag := u 1 s
    if flag.1 != 0 then skip [u 1] flag.2 else flag.2
  else s

/-- Behind the order counts. -/
def orderCountsEnd (pps : PictureParameterSetHeader) (field : Word) (s : σ) : σ :=
  let sps := pps.sequenceParameterSet
  let bottom := pps.picOrderPresentFlag != 0 && field == 0
  if sps.picOrderCntType == 0 then
    let s := skip [u (sps.log2MaxPicOrderCntLsbMinus4 + 4).toNat] s
    if bottom then skip [se] s else s
  else if sps.picOrderCntType == 1 && sps.deltaPicOrderAlwaysZeroFlag == 0 then
    let s := skip [se] s
    if bottom then skip [se] s else s
  else s

/-- Behind `redundant_pic_cnt`, from the frame number on. -/
def pictureEnd (pps : PictureParameterSetHeader) (nalUnitType : Word) (s : σ) : σ :=
  let sps := pps.sequenceParameterSet
  let s := skip [u (sps.log2MaxFrameNumMinus4 + 4).toNat] s
  let field := fieldFlag sps s
  let s := fieldEnd sps s
  let s := if nalUnitType == naluTypeIdr then skip [ue] s else s
  let s := orderCountsEnd pps field s
  if pps.redundantPicCntPresentFlag != 0 then skip [ue] s else s

/-- The active references of both lists, less one, and what is behind them. An override of
a slice with one list leaves the other at 0. -/
def activeReferences (pps : PictureParameterSetHeader) (type : Word) (s : σ) :
    (Word × Word) × σ :=
  let s := if sliceTypeIs type sliceTypeB then skip [u 1] s else s
  let ofSet := (pps.numRefIdxL0ActiveMinus1, pps.numRefIdxL1ActiveMinus1)
  if sliceTypeIs type sliceTypeP || sliceTypeIs type sliceTypeSP || sliceTypeIs type sliceTypeB then
    let override := u 1 s
    if override.1 != 0 then
      let l0 := ue override.2
      let l1 := if sliceTypeIs type sliceTypeB then ue l0.2 else (0, l0.2)
      ((l0.1, l1.1), l1.2)
    else (ofSet, override.2)
  else (ofSet, s)

/-! ## The slice -/

/-- From the marking commands on; the last request is before the quantisation. -/
def SliceEndFits (nalUnitType nalRefIdc : Word) : σ → Prop :=
  let coding := Room 32 fun _ => True
  if nalRefIdc != 0 then MarkingFits nalUnitType coding else coding

/-- All requests from the frame number on have room, and the weights their places. -/
def SliceFits (pps : PictureParameterSetHeader) (nalUnitType nalRefIdc type : Word) (s : σ) :
    Prop :=
  let active := activeReferences pps type (pictureEnd pps nalUnitType s)
  let rest := SliceEndFits nalUnitType nalRefIdc
  ReorderingFits type
    (if weightsFollow pps type then
      WeightTableFits pps.sequenceParameterSet.chromaFormatIdc type active.1 rest
    else rest)
    active.2

end Duckbox.H264.Coded
