import Duckbox.H264.SliceHeader

/-!
# Picture order counts

`CalculatePicOrderCnts`, in the machine arithmetic of the source. The locals of
the function are unsigned, the members of the slice header that receive them
are signed, so a count is a 32-bit word whose reader decides which it is:
`min(TopFieldOrderCnt, BottomFieldOrderCnt)` compares the locals.

`PicOrder` holds the members carried from picture to picture. Those that only
reverse play reads (the entry and exit msb of a picture) are left out.
`commitFrame` is what a first slice does to them: the initialisation of
`ReadNalSliceHeader` for a stream entered without an IDR, then the calculation.
-/

namespace Duckbox.H264

/-- The members carried from picture to picture. -/
structure PicOrder where
  prevPicOrderCntMsb : Word
  prevPicOrderCntLsb : Word
  prevFrameNum : Nat
  prevFrameNumOffset : Word
  picOrderCntOffset : BitVec 64
  picOrderCntOffsetAdjust : BitVec 64
  baseDpbValue : Word
  displayOrderByDpbValues : Bool
  behaveAsIfSeenAnIDR : Bool

/-- What `Reset`, and the first `ReadHeaders` in forward play, leave. -/
def PicOrder.reset : PicOrder where
  prevPicOrderCntMsb := 0
  prevPicOrderCntLsb := 0
  prevFrameNum := 0
  prevFrameNumOffset := 0
  picOrderCntOffset := 0x100000000
  picOrderCntOffsetAdjust := 0x100000000
  baseDpbValue := 0
  displayOrderByDpbValues := false
  behaveAsIfSeenAnIDR := false

/-- The counts written into the slice header. -/
structure OrderCounts where
  picOrderCntTop : Word
  picOrderCntBot : Word
  picOrderCnt : Word
  extendedPicOrderCnt : BitVec 64

/-- The two locals before the switch. -/
def unsetOrderCnt : Word := 9999

/-- The macro `min` on unsigned operands. -/
def unsignedMin (a b : Word) : Word := if a < b then a else b

/-! ## Type 0: lsb transmitted -/

/-- `PicOrderCntMsb` from the carried msb and lsb. -/
def picOrderCntMsb (max prevMsb prevLsb lsb : Word) : Word :=
  if lsb < prevLsb ∧ max / 2 ≤ prevLsb - lsb then prevMsb + max
  else if prevLsb < lsb ∧ max / 2 < lsb - prevLsb then prevMsb - max
  else prevMsb

namespace PicOrder

/-- The carried values a picture starts from: an IDR clears them. -/
def entry (s : PicOrder) (h : SliceHeader) : Word × Word :=
  if h.idr then (0, 0) else (s.prevPicOrderCntMsb, s.prevPicOrderCntLsb)

/-- The msb of a picture. -/
def msb (s : PicOrder) (h : SliceHeader) : Word :=
  picOrderCntMsb (BitVec.ofNat 32 h.sps.maxPicOrderCntLsb) (s.entry h).1 (s.entry h).2
    h.picOrderCntLsb

/-- The top and bottom field order counts, type 0. -/
def fieldOrderCnts0 (s : PicOrder) (h : SliceHeader) : Word × Word :=
  let top := if h.bottomField then unsetOrderCnt else s.msb h + h.picOrderCntLsb
  let bottom :=
    if !h.fieldPicFlag then top + h.deltaPicOrderCntBottom
    else if h.bottomFieldFlag then s.msb h + h.picOrderCntLsb
    else unsetOrderCnt
  (top, bottom)

/-- The values carried to the next picture, type 0. -/
def update0 (s : PicOrder) (h : SliceHeader) : PicOrder :=
  if h.nalRefIdc != 0 then
    if h.memoryControlClearSeen then
      { s with
        prevPicOrderCntMsb := 0
        prevPicOrderCntLsb := if h.bottomField then 0 else (s.fieldOrderCnts0 h).1 }
    else
      { s with
        prevPicOrderCntMsb := s.msb h
        prevPicOrderCntLsb := h.picOrderCntLsb }
  else { s with prevPicOrderCntMsb := (s.entry h).1, prevPicOrderCntLsb := (s.entry h).2 }

/-! ## Types 1 and 2: counts from the frame number -/

/-- `FrameNumOffset`. -/
def frameNumOffset (s : PicOrder) (h : SliceHeader) : Word :=
  if h.idr then 0
  else if h.frameNum < s.prevFrameNum then
    s.prevFrameNumOffset + BitVec.ofNat 32 h.sps.maxFrameNum
  else s.prevFrameNumOffset

/-- `ExpectedPicOrderCnt`. -/
def expectedPicOrderCnt (s : PicOrder) (h : SliceHeader) : Word :=
  let cycle := h.sps.offsetForRefFrame
  let abs : Word :=
    if cycle.length ≠ 0 then s.frameNumOffset h + BitVec.ofNat 32 h.frameNum else 0
  let abs := if h.nalRefIdc == 0 && decide (0 < abs) then abs - 1 else abs
  let expected : Word :=
    if 0 < abs then
      let picOrderCntCycleCnt := (abs - 1) / BitVec.ofNat 32 cycle.length
      let frameNumInCycle := ((abs - 1) % BitVec.ofNat 32 cycle.length).toNat
      picOrderCntCycleCnt * cycle.sum + (cycle.take (frameNumInCycle + 1)).sum
    else 0
  if h.nalRefIdc == 0 then expected + h.sps.offsetForNonRefPic else expected

/-- The top and bottom field order counts, type 1. -/
def fieldOrderCnts1 (s : PicOrder) (h : SliceHeader) : Word × Word :=
  let expected := s.expectedPicOrderCnt h
  let top := expected + h.deltaPicOrderCnt0
  if !h.fieldPicFlag then
    (top, top + h.sps.offsetForTopToBottomField + h.deltaPicOrderCnt1)
  else if !h.bottomFieldFlag then (top, unsetOrderCnt)
  else (unsetOrderCnt, expected + h.sps.offsetForTopToBottomField + h.deltaPicOrderCnt0)

/-- The top and bottom field order counts, type 2. -/
def fieldOrderCnts2 (s : PicOrder) (h : SliceHeader) : Word × Word :=
  let frames := s.frameNumOffset h + BitVec.ofNat 32 h.frameNum
  let temp : Word :=
    if h.idr then 0 else if h.nalRefIdc == 0 then 2 * frames - 1 else 2 * frames
  if !h.fieldPicFlag then (temp, temp)
  else if h.bottomFieldFlag then (unsetOrderCnt, temp)
  else (temp, unsetOrderCnt)

/-- The values carried to the next picture, types 1 and 2. -/
def updateFrameNum (s : PicOrder) (h : SliceHeader) : PicOrder :=
  { s with
    prevFrameNumOffset := if h.memoryControlClearSeen then 0 else s.frameNumOffset h
    prevFrameNum := h.frameNum }

/-! ## All types -/

/-- The switch on `pic_order_cnt_type`: the counts. -/
def fieldOrderCnts (s : PicOrder) (h : SliceHeader) : Word × Word :=
  match h.sps.picOrderCntType with
  | 0 => s.fieldOrderCnts0 h
  | 1 => s.fieldOrderCnts1 h
  | 2 => s.fieldOrderCnts2 h
  | _ => (unsetOrderCnt, unsetOrderCnt)

/-- The switch on `pic_order_cnt_type`: the carried values. -/
def updateCarried (s : PicOrder) (h : SliceHeader) : PicOrder :=
  match h.sps.picOrderCntType with
  | 0 => s.update0 h
  | 1 => s.updateFrameNum h
  | 2 => s.updateFrameNum h
  | _ => s

/-- An IDR opens a new block of extended counts. -/
def openBlock (s : PicOrder) (h : SliceHeader) : PicOrder :=
  if h.idr then
    { s with
      picOrderCntOffset := s.picOrderCntOffset + s.picOrderCntOffsetAdjust
      baseDpbValue := 0 }
  else s

/-- A clear opens one for the pictures after it. -/
def closeBlock (s : PicOrder) (h : SliceHeader) : PicOrder :=
  if h.memoryControlClearSeen && !s.displayOrderByDpbValues then
    { s with picOrderCntOffset := s.picOrderCntOffset + s.picOrderCntOffsetAdjust }
  else s

/-- The counts of a picture; `dpbOutputDelay` is that of its picture timing message. -/
def orderCounts (s : PicOrder) (h : SliceHeader) (dpbOutputDelay : Word) : OrderCounts :=
  let cnts := s.fieldOrderCnts h
  let picOrderCnt :=
    if h.fieldPicFlag then (if h.bottomFieldFlag then cnts.2 else cnts.1)
    else unsignedMin cnts.1 cnts.2
  let t := s.openBlock h
  { picOrderCntTop := cnts.1
    picOrderCntBot := cnts.2
    picOrderCnt := picOrderCnt
    extendedPicOrderCnt :=
      if s.displayOrderByDpbValues then
        t.picOrderCntOffset + t.baseDpbValue.setWidth 64 + dpbOutputDelay.setWidth 64
      else t.picOrderCntOffset + picOrderCnt.signExtend 64 }

/-- `CalculatePicOrderCnts`. -/
def calculatePicOrderCnts (s : PicOrder) (h : SliceHeader) (dpbOutputDelay : Word) :
    PicOrder × OrderCounts :=
  ((((s.updateCarried h).openBlock h).closeBlock h), s.orderCounts h dpbOutputDelay)

/-- The end of `ReadNalSliceHeader`: a stream entered without an IDR. An IDR
sets `BehaveAsIfSeenAnIDR` before its header is read. -/
def readNalSliceHeader (s : PicOrder) (h : SliceHeader) : PicOrder :=
  if h.idr then { s with behaveAsIfSeenAnIDR := true }
  else if !s.behaveAsIfSeenAnIDR then
    { s with
      prevPicOrderCntLsb := h.picOrderCntLsb - 1
      prevPicOrderCntMsb := 0
      behaveAsIfSeenAnIDR := true
      picOrderCntOffset := s.picOrderCntOffset + s.picOrderCntOffsetAdjust }
  else s

/-- `MarkReferencePictures` on `H264_MMC_CLEAR`, its part in the order counts. -/
def markClear (s : PicOrder) (h : SliceHeader) : PicOrder :=
  if h.memoryControlClearSeen then { s with prevFrameNum := 0 } else s

/-- The first slice of a picture. -/
def commitFrame (s : PicOrder) (h : SliceHeader) (dpbOutputDelay : Word) :
    PicOrder × OrderCounts :=
  let r := (s.readNalSliceHeader h).calculatePicOrderCnts h dpbOutputDelay
  (r.1.markClear h, r.2)

end PicOrder

end Duckbox.H264
