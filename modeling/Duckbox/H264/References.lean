import Duckbox.H264.PicOrderCnt
import Duckbox.Lib.Loop
import Duckbox.Lib.Table
import Duckbox.Lib.Slots

/-!
# Decoded reference picture marking

`MarkReferencePictures` and `ReleaseReference`: the reference frame table with
its usage bits, the two counters kept beside it, and the decode frame indices
passed to `CodecFnReleaseReferenceFrame`, oldest first, in `released`. The
source's one long function is cut where its comments cut it: second field, IDR,
insertion, sliding window, and one definition for each memory-management
command, for frames and fields. The frame and field cases of a command that the
source writes under one label are one definition here.

Not modelled: the frame numbers that a clear resets outside the table
(`PicOrder.markClear` has the one the order counts read), the deferred display
numbering that a release sets off, and the block compiled for `ADB_BOX` only.
-/

namespace Duckbox.H264

open Duckbox.Lib

/-! ## Usage codes -/

/-- The usage codes: bit 0 top short, 1 top long, 2 bottom short, 3 bottom long. -/
abbrev Usage := BitVec 4

def notUsedForReference : Usage := 0
def usedForTopShortTermReference : Usage := 1
def usedForTopLongTermReference : Usage := 2
def usedForBotShortTermReference : Usage := 4
def usedForBotLongTermReference : Usage := 8
def anyUsedForShortTermReference : Usage :=
  usedForTopShortTermReference ||| usedForBotShortTermReference
def anyUsedForLongTermReference : Usage :=
  usedForTopLongTermReference ||| usedForBotLongTermReference
def anyUsedForReference : Usage := anyUsedForShortTermReference ||| anyUsedForLongTermReference

/-- `(u & mask) != 0`. -/
def Usage.has (u mask : Usage) : Bool := u &&& mask != 0

/-- The masks of a picture: its own codes and those of the other field. -/
structure Masks where
  short : Usage
  long : Usage
  otherShort : Usage
  otherLong : Usage
deriving DecidableEq, Repr

namespace Masks

def top : Masks :=
  ⟨usedForTopShortTermReference, usedForTopLongTermReference,
    usedForBotShortTermReference, usedForBotLongTermReference⟩

def bottom : Masks :=
  ⟨usedForBotShortTermReference, usedForBotLongTermReference,
    usedForTopShortTermReference, usedForTopLongTermReference⟩

def frame : Masks := ⟨anyUsedForShortTermReference, anyUsedForLongTermReference, 0, 0⟩

end Masks

/-- "Setup appropriate masking values". -/
def SliceHeader.masks (h : SliceHeader) : Masks :=
  if h.fieldPicFlag then
    if h.bottomFieldFlag then Masks.bottom else Masks.top
  else Masks.frame

/-! ## The table -/

/-- `H264ReferenceFrameData_t`. -/
structure ReferenceFrame where
  decodeFrameIndex : Nat
  field : Bool
  usage : Usage
  longTermFrameIdx : Word
  frameNum : Nat
  picNum : Word
  longTermPicNum : Word
  picOrderCnt : Word
  picOrderCntTop : Word
  picOrderCntBot : Word
  extendedPicOrderCnt : BitVec 64

/-- What `memset` leaves. -/
def ReferenceFrame.zero : ReferenceFrame := ⟨0, false, 0, 0, 0, 0, 0, 0, 0, 0, 0⟩

/-- `H264_MAX_REFERENCE_FRAMES + 1`. -/
abbrev maxEntries : Nat := 17

/-- `NO_LONG_TERM_FRAME_INDICES`. -/
def noLongTermFrameIndices : Word := 0xffffffff

/-- The reference frame members of the parser. -/
structure References where
  frames : Vector ReferenceFrame maxEntries
  numReferenceFrames : Nat
  numLongTerm : Word
  numShortTerm : Word
  maxLongTermFrameIdx : Word
  released : List Nat

/-- After `Reset`. -/
def References.reset : References where
  frames := Vector.replicate maxEntries ReferenceFrame.zero
  numReferenceFrames := 0
  numLongTerm := 0
  numShortTerm := 0
  maxLongTermFrameIdx := 0
  released := []

namespace References

/-- `ReferenceFrames[i]`. -/
def entry (s : References) (i : Nat) : ReferenceFrame := Table.read ReferenceFrame.zero s.frames i

/-- Writing `ReferenceFrames[i]`. -/
def setEntry (s : References) (i : Nat) (f : ReferenceFrame) : References :=
  { s with frames := Table.write s.frames i f }

/-- `ReferenceFrames[i].Usage = u`. -/
def setUsage (s : References) (i : Nat) (u : Usage) : References :=
  s.setEntry i { s.entry i with usage := u }

/-- `CodecFnReleaseReferenceFrame`. -/
def codecRelease (s : References) (actually : Bool) (decodeFrameIndex : Nat) : References :=
  if actually then { s with released := s.released ++ [decodeFrameIndex] } else s

/-- The first entry a loop that breaks would act on. -/
def firstEntry (s : References) (q : ReferenceFrame → Bool) : Option Nat :=
  (List.range (s.numReferenceFrames + 1)).find? fun i => q (s.entry i)

/-- `ReleaseReference`. -/
def releaseReference (s : References) (actually : Bool) (i : Nat) (releaseUsage : Usage) :
    References :=
  let oldUsage := (s.entry i).usage
  let newUsage := oldUsage &&& ~~~releaseUsage
  let s := s.setUsage i newUsage
  let s := s.codecRelease (actually && newUsage == notUsedForReference) (s.entry i).decodeFrameIndex
  { s with
    numShortTerm :=
      if oldUsage.has anyUsedForShortTermReference && !newUsage.has anyUsedForShortTermReference
      then s.numShortTerm - 1 else s.numShortTerm
    numLongTerm :=
      if oldUsage.has anyUsedForLongTermReference && !newUsage.has anyUsedForLongTermReference
      then s.numLongTerm - 1 else s.numLongTerm }

end References

/-! ## Second field of a frame in the table -/

/-- A reference picture to be marked. -/
structure MarkedPicture where
  header : SliceHeader
  decodeFrameIndex : Nat
  counts : OrderCounts

/-- The locals of the second-field loop. -/
structure SecondField where
  refs : References
  currentEntry : Nat
  secondFieldEntry : Bool
  syntaxError : Bool

/-- The entry is the first field of this picture's frame. -/
def MarkedPicture.isFirstField (p : MarkedPicture) (f : ReferenceFrame) : Bool :=
  f.usage != notUsedForReference && f.field && f.frameNum == p.header.frameNum
    && f.decodeFrameIndex + 1 == p.decodeFrameIndex

/-- The signed `min` of the table's members. -/
def signedMin (a b : Word) : Word := if a.slt b then a else b

/-- The first field's entry with the second field in it. -/
def pairedEntry (f : ReferenceFrame) (p : MarkedPicture) : ReferenceFrame :=
  let top := if p.header.bottomFieldFlag then f.picOrderCntTop else p.counts.picOrderCntTop
  let bot := if p.header.bottomFieldFlag then p.counts.picOrderCntBot else f.picOrderCntBot
  let f := { f with
    picOrderCntTop := top
    picOrderCntBot := bot
    picOrderCnt := signedMin top bot }
  if p.header.decRefPicMarking.longTermReferenceFlag then
    { f with
      usage := f.usage ||| p.header.masks.long
      longTermFrameIdx := BitVec.ofNat 32 p.header.frameNum }
  else { f with usage := f.usage ||| p.header.masks.short, frameNum := p.header.frameNum }

/-- The first field's entry takes the second field in. -/
def References.addSecondField (s : References) (actually : Bool) (p : MarkedPicture) (i : Nat) :
    References :=
  let longTerm := p.header.decRefPicMarking.longTermReferenceFlag
  let f := pairedEntry (s.entry i) p
  let s := { s.setEntry i f with
    numLongTerm :=
      if longTerm && !f.usage.has p.header.masks.otherLong then s.numLongTerm + 1
      else s.numLongTerm
    numShortTerm :=
      if !longTerm && !f.usage.has p.header.masks.otherShort then s.numShortTerm + 1
      else s.numShortTerm }
  -- released at once: the buffer is held by the first field
  s.codecRelease actually p.decodeFrameIndex

/-- One pass of the loop, idle after the error return. -/
def SecondField.step (actually : Bool) (p : MarkedPicture) (t : SecondField) (i : Nat) :
    SecondField :=
  let m := p.header.masks
  let f := t.refs.entry i
  if !t.syntaxError && p.isFirstField f then
    if f.usage.has (m.short ||| m.long) || !f.usage.has (m.otherShort ||| m.otherLong) then
      { t with syntaxError := true }
    else
      { t with
        refs := t.refs.addSecondField actually p i
        currentEntry := i
        secondFieldEntry := true }
  else t

/-- "Is this a field of a pre-existing frame". -/
def References.secondField (s : References) (actually : Bool) (p : MarkedPicture) : SecondField :=
  if p.header.fieldPicFlag then
    forUpTo (SecondField.step actually p) ⟨s, 0, false, false⟩ (s.numReferenceFrames + 1)
  else ⟨s, 0, false, false⟩

namespace References

/-! ## IDR and insertion -/

/-- One pass of the IDR loop. -/
def releaseEntry (actually : Bool) (s : References) (i : Nat) : References :=
  if (s.entry i).usage != notUsedForReference then
    (s.codecRelease actually (s.entry i).decodeFrameIndex).setUsage i notUsedForReference
  else s

/-- "If we have a non-pre-existing IDR release everyone". -/
def releaseEveryone (s : References) (actually : Bool) : References :=
  { forUpTo (releaseEntry actually) s (s.numReferenceFrames + 1) with
    numLongTerm := 0
    numShortTerm := 0 }

/-- The first entry not used for reference. -/
def freeEntry (s : References) : Option Nat := s.firstEntry (·.usage == notUsedForReference)

/-- The record of a new reference frame or first field. -/
def newEntry (old : ReferenceFrame) (p : MarkedPicture) : ReferenceFrame :=
  let f := { old with
    field := p.header.fieldPicFlag
    decodeFrameIndex := p.decodeFrameIndex
    picOrderCnt := p.counts.picOrderCnt
    picOrderCntTop := p.counts.picOrderCntTop
    picOrderCntBot := p.counts.picOrderCntBot
    extendedPicOrderCnt := p.counts.extendedPicOrderCnt
    frameNum := p.header.frameNum }
  if p.header.decRefPicMarking.longTermReferenceFlag then
    { f with
      usage := p.header.masks.long
      longTermFrameIdx := BitVec.ofNat 32 p.header.frameNum }
  else { f with usage := p.header.masks.short }

/-- "Insert the current frame" at a free entry. -/
def insertAt (s : References) (p : MarkedPicture) (i : Nat) : References :=
  let s := s.setEntry i (newEntry (s.entry i) p)
  if p.header.decRefPicMarking.longTermReferenceFlag then
    { s with
      numLongTerm := s.numLongTerm + 1
      maxLongTermFrameIdx := if p.header.idr then 0 else s.maxLongTermFrameIdx }
  else
    { s with
      numShortTerm := s.numShortTerm + 1
      maxLongTermFrameIdx :=
        if p.header.idr then noLongTermFrameIndices else s.maxLongTermFrameIdx }

/-- The insertion and the `CurrentEntry` it leaves, 0 when no entry is free. -/
def insertCurrent (s : References) (p : MarkedPicture) : References × Nat :=
  match s.freeEntry with
  | none => (s, 0)
  | some i => (s.insertAt p i, i)

/-! ## Sliding window -/

/-- `FrameNumWrap` of an entry, an `int`. -/
def frameNumWrap (h : SliceHeader) (f : ReferenceFrame) : Int :=
  if h.frameNum < f.frameNum then (f.frameNum : Int) - h.sps.maxFrameNum else f.frameNum

/-- One pass of the search for the lowest `FrameNumWrap`: (lowest, entry). -/
def lowestStep (h : SliceHeader) (s : References) (currentEntry : Nat) (t : Int × Nat)
    (i : Nat) : Int × Nat :=
  if i != currentEntry && (s.entry i).usage.has anyUsedForShortTermReference then
    if frameNumWrap h (s.entry i) < t.1 then (frameNumWrap h (s.entry i), i) else t
  else t

/-- The entry the window drops, 0 when no other entry is used for short term. -/
def slidingEntry (s : References) (h : SliceHeader) (currentEntry : Nat) : Nat :=
  (forUpTo (lowestStep h s currentEntry) (0x7fffffff, 0) (s.numReferenceFrames + 1)).2

/-- The window is full. -/
def windowFull (s : References) : Bool :=
  decide (s.numReferenceFrames < (s.numLongTerm + s.numShortTerm).toNat)

/-- "Follow sliding window decoded reference picture marking process". -/
def slidingWindow (s : References) (actually : Bool) (h : SliceHeader) (currentEntry : Nat) :
    References :=
  if s.windowFull then
    s.releaseReference actually (s.slidingEntry h currentEntry) anyUsedForShortTermReference
  else s

/-! ## Memory-management commands -/

/-- One pass of "re-calculate picnum and long term pic num". -/
def picNumStep (h : SliceHeader) (s : References) (i : Nat) : References :=
  let f := s.entry i
  if f.usage != notUsedForReference then
    let wrap : Word := BitVec.ofInt 32 (frameNumWrap h f)
    s.setEntry i { f with
      picNum := if h.fieldPicFlag then 2 * wrap else wrap
      longTermPicNum := if h.fieldPicFlag then 2 * f.longTermFrameIdx else f.longTermFrameIdx }
  else s

def calculatePicNums (s : References) (h : SliceHeader) : References :=
  forUpTo (picNumStep h) s (s.numReferenceFrames + 1)

/-- `PicNumX`. -/
def picNumX (h : SliceHeader) (differenceOfPicNumsMinus1 : Word) : Word :=
  if h.fieldPicFlag then
    2 * BitVec.ofNat 32 h.frameNum + 1 - (differenceOfPicNumsMinus1 + 1)
  else BitVec.ofNat 32 h.frameNum - (differenceOfPicNumsMinus1 + 1)

/-- A short-term entry, or field of one, with picture number `x`. -/
def matchesShort (h : SliceHeader) (x : Word) (f : ReferenceFrame) : Bool :=
  f.usage.has anyUsedForShortTermReference
    && (f.picNum == x || (h.fieldPicFlag && f.picNum + 1 == x))

/-- A long-term entry, or field of one, with long-term picture number `x`. -/
def matchesLong (h : SliceHeader) (x : Word) (f : ReferenceFrame) : Bool :=
  f.usage.has anyUsedForLongTermReference
    && (f.longTermPicNum == x || (h.fieldPicFlag && f.longTermPicNum + 1 == x))

/-- A long-term entry with index `idx`. -/
def matchesIndex (idx : Word) (f : ReferenceFrame) : Bool :=
  f.usage.has anyUsedForLongTermReference && f.longTermFrameIdx == idx

/-- `H264_MMC_MARK_SHORT_TERM_UNUSED_FOR_REFERENCE`. -/
def markShortTermUnused (s : References) (actually : Bool) (h : SliceHeader)
    (differenceOfPicNumsMinus1 : Word) : References :=
  let x := picNumX h differenceOfPicNumsMinus1
  match s.firstEntry (matchesShort h x) with
  | none => s
  | some j =>
    let releaseCode :=
      if h.fieldPicFlag then
        if (s.entry j).picNum == x then h.masks.otherShort else h.masks.short
      else anyUsedForShortTermReference
    s.releaseReference actually j releaseCode

/-- `H264_MMC_MARK_LONG_TERM_UNUSED_FOR_REFERENCE`. -/
def markLongTermUnused (s : References) (actually : Bool) (h : SliceHeader)
    (longTermPicNum : Word) : References :=
  match s.firstEntry (matchesLong h longTermPicNum) with
  | none => s
  | some j =>
    let releaseCode :=
      if h.fieldPicFlag then
        if (s.entry j).longTermPicNum == longTermPicNum then h.masks.otherLong else h.masks.long
      else anyUsedForLongTermReference
    s.releaseReference actually j releaseCode

/-- Release the first entry using the index, other than `except`. -/
def releaseIndex (s : References) (actually : Bool) (idx : Word) (except : Option Nat) :
    References :=
  match (List.range (s.numReferenceFrames + 1)).find? fun j =>
      matchesIndex idx (s.entry j) && except != some j with
  | none => s
  | some j => s.releaseReference actually j anyUsedForLongTermReference

/-- `H264_MMC_ASSIGN_LONG_TERM_INDEX_TO_SHORT_TERM_PICTURE`, frame: the assignment. -/
def assignFrame (s : References) (longTermFrameIdx : Word) (h : SliceHeader) (j : Nat) :
    References :=
  let f := s.entry j
  let s := s.setEntry j { f with
    longTermFrameIdx := longTermFrameIdx
    usage := (f.usage ^^^ h.masks.short) ||| h.masks.long }
  { s with numShortTerm := s.numShortTerm - 1, numLongTerm := s.numLongTerm + 1 }

/-- The codes of the field a picture number names: the other field's if it is
the entry's own number. -/
def fieldCodes (h : SliceHeader) (x : Word) (f : ReferenceFrame) : Usage × Usage :=
  if f.picNum == x then (h.masks.otherShort, h.masks.otherLong) else (h.masks.short, h.masks.long)

/-- `H264_MMC_ASSIGN_LONG_TERM_INDEX_TO_SHORT_TERM_PICTURE`, field: the assignment. -/
def assignField (s : References) (longTermFrameIdx x : Word) (h : SliceHeader) (j : Nat) :
    References :=
  let f := s.entry j
  let codes := fieldCodes h x f
  let usage := (f.usage ^^^ codes.1) ||| codes.2
  let s := s.setEntry j { f with longTermFrameIdx := longTermFrameIdx, usage := usage }
  { s with
    numShortTerm :=
      if usage.has anyUsedForShortTermReference then s.numShortTerm else s.numShortTerm - 1
    numLongTerm :=
      if usage &&& anyUsedForLongTermReference != anyUsedForLongTermReference
      then s.numLongTerm + 1 else s.numLongTerm }

/-- `H264_MMC_ASSIGN_LONG_TERM_INDEX_TO_SHORT_TERM_PICTURE`: of a frame the index
is released before the assignment, of a field after it. -/
def assignLongTermIndex (s : References) (actually : Bool) (h : SliceHeader)
    (differenceOfPicNumsMinus1 longTermFrameIdx : Word) : References :=
  let x := picNumX h differenceOfPicNumsMinus1
  if h.fieldPicFlag then
    match s.firstEntry (matchesShort h x) with
    | none => s.releaseIndex actually longTermFrameIdx none
    | some j =>
      (s.assignField longTermFrameIdx x h j).releaseIndex actually longTermFrameIdx (some j)
  else
    let s := s.releaseIndex actually longTermFrameIdx none
    match s.firstEntry (matchesShort h x) with
    | none => s
    | some j => s.assignFrame longTermFrameIdx h j

/-- One pass of `H264_MMC_SPECIFY_MAX_LONG_TERM_INDEX`. -/
def maxIndexStep (actually : Bool) (maxLongTermFrameIdxPlus1 : Word) (s : References) (j : Nat) :
    References :=
  let f := s.entry j
  if f.usage.has anyUsedForLongTermReference
      && decide (maxLongTermFrameIdxPlus1 - 1 < f.longTermFrameIdx) then
    s.releaseReference actually j anyUsedForLongTermReference
  else s

/-- `H264_MMC_SPECIFY_MAX_LONG_TERM_INDEX`. -/
def specifyMaxLongTermIndex (s : References) (actually : Bool)
    (maxLongTermFrameIdxPlus1 : Word) : References :=
  { forUpTo (maxIndexStep actually maxLongTermFrameIdxPlus1) s (s.numReferenceFrames + 1) with
    maxLongTermFrameIdx :=
      if maxLongTermFrameIdxPlus1 == 0 then noLongTermFrameIndices
      else maxLongTermFrameIdxPlus1 - 1 }

/-- One pass of `H264_MMC_CLEAR`. -/
def clearStep (actually : Bool) (currentEntry : Nat) (s : References) (j : Nat) : References :=
  if j != currentEntry then s.releaseReference actually j anyUsedForReference else s

/-- The release loop of `H264_MMC_CLEAR`. -/
def clearOthers (s : References) (actually : Bool) (currentEntry : Nat) : References :=
  forUpTo (clearStep actually currentEntry) s (s.numReferenceFrames + 1)

/-- "Post process current picture on a clear". -/
def restartedEntry (f : ReferenceFrame) (p : MarkedPicture) : ReferenceFrame :=
  { f with
    picOrderCnt := 0
    picOrderCntTop := f.picOrderCntTop - p.counts.picOrderCnt
    picOrderCntBot := f.picOrderCntBot - p.counts.picOrderCnt
    frameNum := 0 }

/-- `H264_MMC_CLEAR`. -/
def clear (s : References) (actually : Bool) (p : MarkedPicture) (currentEntry : Nat) :
    References :=
  let s := s.clearOthers actually currentEntry
  let longTerm := p.header.decRefPicMarking.longTermReferenceFlag
  { s.setEntry currentEntry (restartedEntry (s.entry currentEntry) p) with
    numLongTerm := if longTerm then 1 else 0
    numShortTerm := if longTerm then 0 else 1
    maxLongTermFrameIdx := noLongTermFrameIndices }

/-- `H264_MMC_ASSIGN_LONG_TERM_INDEX_TO_CURRENT_DECODED_PICTURE`: the assignment. -/
def assignCurrent (s : References) (h : SliceHeader) (longTermFrameIdx : Word)
    (currentEntry : Nat) : References :=
  let f := s.entry currentEntry
  let usage := (f.usage &&& ~~~h.masks.short) ||| h.masks.long
  let s := s.setEntry currentEntry { f with longTermFrameIdx := longTermFrameIdx, usage := usage }
  if h.decRefPicMarking.longTermReferenceFlag then s
  else
    { s with
      numShortTerm :=
        if usage.has anyUsedForShortTermReference then s.numShortTerm else s.numShortTerm - 1
      numLongTerm :=
        if !h.fieldPicFlag || usage &&& anyUsedForLongTermReference != anyUsedForLongTermReference
        then s.numLongTerm + 1 else s.numLongTerm }

/-- One command. -/
def applyControl (actually : Bool) (p : MarkedPicture) (currentEntry : Nat) (s : References) :
    MemoryManagementControl → References
  | .markShortTermUnusedForReference difference => s.markShortTermUnused actually p.header difference
  | .markLongTermUnusedForReference longTermPicNum =>
    s.markLongTermUnused actually p.header longTermPicNum
  | .assignLongTermIndexToShortTermPicture difference longTermFrameIdx =>
    s.assignLongTermIndex actually p.header difference longTermFrameIdx
  | .specifyMaxLongTermIndex maxPlus1 => s.specifyMaxLongTermIndex actually maxPlus1
  | .clear => s.clear actually p currentEntry
  | .assignLongTermIndexToCurrentDecodedPicture longTermFrameIdx =>
    (s.releaseIndex actually longTermFrameIdx (some currentEntry)).assignCurrent p.header
      longTermFrameIdx currentEntry

/-! ## Marking -/

/-- The table and `CurrentEntry` when the list management begins. -/
def enter (s : References) (actually : Bool) (p : MarkedPicture) : References × Nat :=
  let t := s.secondField actually p
  if t.secondFieldEntry then (t.refs, t.currentEntry)
  else
    let s := if p.header.idr then t.refs.releaseEveryone actually else t.refs
    s.insertCurrent p

/-- "Now apply the appropriate list management algorithms". -/
def manage (s : References) (actually : Bool) (p : MarkedPicture) (currentEntry : Nat) :
    References :=
  if p.header.idr then s
  else if !p.header.decRefPicMarking.adaptiveRefPicMarkingModeFlag then
    s.slidingWindow actually p.header currentEntry
  else
    p.header.decRefPicMarking.memoryManagementControlOperation.foldl
      (applyControl actually p currentEntry) (s.calculatePicNums p.header)

/-- `MarkReferencePictures`. The error return of a duplicate field leaves what
the loop had done. -/
def markReferencePictures (s : References) (actually : Bool) (p : MarkedPicture) : References :=
  let t := s.secondField actually p
  if t.syntaxError then t.refs
  else
    let r := s.enter actually p
    r.1.manage actually p r.2

/-- `NumReferenceFrames` from the parameter set of a picture. -/
def withLimit (s : References) (p : MarkedPicture) : References :=
  { s with numReferenceFrames := p.header.sps.numRefFrames }

/-- `ForPlayUpdateReferenceFrameList` and `RevPlayAppendToReferenceFrameList` on a
reference picture. -/
def updateReferenceFrameList (s : References) (actually : Bool) (p : MarkedPicture) :
    References :=
  (s.withLimit p).markReferencePictures actually p

/-! ## Runs -/

/-- After `Reset`, with the limit of the first parameter set. -/
def start (sps : SequenceParameterSet) : References :=
  { reset with numReferenceFrames := sps.numRefFrames }

/-- No entry of the list is the first field of the picture's frame. -/
def NoFirstField (s : References) (p : MarkedPicture) : Prop :=
  p.header.fieldPicFlag = true →
    ∀ i, i < p.header.sps.numRefFrames + 1 → p.isFirstField (s.entry i) = false

instance (s : References) (p : MarkedPicture) : Decidable (NoFirstField s p) :=
  inferInstanceAs (Decidable (_ → ∀ _, _ < _ → _))

/-- `NumReferenceFrames` is fixed between IDRs: it changes with a picture that
opens one. -/
def LimitFixed (s : References) (p : MarkedPicture) : Prop :=
  p.header.sps.numRefFrames = s.numReferenceFrames ∨
    (p.header.idr = true ∧ NoFirstField s p)

instance (s : References) (p : MarkedPicture) : Decidable (LimitFixed s p) :=
  inferInstanceAs (Decidable (_ ∨ _))

end References

/-- A reference frame under `shortSps` with order counts of zero. -/
def shortPicture (idr : Bool) (frameNum : Fin 16) (ops : List MemoryManagementControl)
    (decodeFrameIndex : Nat) : MarkedPicture where
  header := shortHeader idr frameNum 0 0 ops
  decodeFrameIndex := decodeFrameIndex
  counts := ⟨0, 0, 0, 0⟩

end Duckbox.H264
