import Duckbox.ClassDefinitions.Rational

/-!
# The video output timer

`OutputTimer_Video_c::FillOutFrameTimingRecord` as far as it decides for how
many fields, or frames of a progressive display, a frame is shown. A content
count is multiplied by `CountMultiplier`; the integer part is shown, and
`AccumulatedError` carries the rest to the next count.

Members that only time a frame (durations, the playback time, the pan scan
vectors) have no part in this.
-/

namespace Duckbox.OutputTimer

open ClassDefinitions

/-- `StructureEmpty` to `StructureFrame`. -/
inductive PictureStructure where
  | empty
  | topField
  | bottomField
  | frame
deriving DecidableEq, Repr

/-- What `ParsedVideoParameters_t` says about the counts. `progressive` and
`frameRate` are those of its `Content`. -/
structure ParsedVideoParameters where
  pictureStructure : PictureStructure
  progressive : Bool
  frameRate : Rational
  interlacedFrame : Bool
  displayCount0 : BitVec 32
  displayCount1 : BitVec 32
deriving DecidableEq, Repr

/-- The `DisplayCount` of `VideoOutputTiming_t`. -/
structure DisplayCount where
  first : BitVec 32
  second : BitVec 32
deriving DecidableEq, Repr

/-- What is played on and how: the rate and scan of `VideoOutputSurfaceDescriptor`,
the playback speed and direction, and `AdjustedSpeedAfterFrameDrop`. -/
structure Playback where
  frameRate : Rational
  progressive : Bool
  speed : Rational
  backward : Bool
  adjustedSpeedAfterFrameDrop : Rational
deriving DecidableEq, Repr

/-- The members of `OutputTimer_Video_c`. -/
structure Video where
  threeTwoPulldownDetected : Bool
  seenInterlacedContentOnInterlacedDisplay : Bool
  lastAdjustedSpeedAfterFrameDrop : Rational
  previousFrameRate : Rational
  previousDisplayFrameRate : Rational
  previousContentProgressive : Bool
  countMultiplier : Rational
  accumulatedError : Rational
  loseFramesForSynchronization : BitVec 32
deriving DecidableEq, Repr

namespace Video

/-- `Reset`. -/
def reset : Video where
  threeTwoPulldownDetected := false
  seenInterlacedContentOnInterlacedDisplay := false
  lastAdjustedSpeedAfterFrameDrop := .ofInt 0
  previousFrameRate := .ofInt 0
  previousDisplayFrameRate := .ofInt 0
  previousContentProgressive := false
  countMultiplier := .ofInt 1
  accumulatedError := .ofInt 0
  loseFramesForSynchronization := 0

section FillOut

variable (p : Playback)

/-! ## Before the counts -/

/-- "Adjust data for a non-paired field". -/
def adjustPartialFrame (parsed : ParsedVideoParameters) : ParsedVideoParameters :=
  if parsed.pictureStructure ≠ .frame then
    { parsed with progressive := false, interlacedFrame := true, displayCount0 := 1 }
  else parsed

/-- `InterlacedContentOnInterlacedDisplay`. -/
def interlacedOnInterlaced (parsed : ParsedVideoParameters) : Bool :=
  parsed.interlacedFrame && !p.progressive

/-- "Validate the incoming frame rate". -/
def validFrameRate (rate : Rational) (progressive : Bool) : Rational :=
  if rate.assign.geInt 1 && rate.assign.leInt 120 then rate.assign
  else if progressive then p.frameRate.assign
  else (p.frameRate.assign.divInt 2).assign

/-- `RemoveAnyThreeTwoPulldown`. -/
def removeAnyThreeTwoPulldown (rate : Rational) : Bool :=
  (rate.geInt 29 && rate.leInt 31) && (p.frameRate.ltInt 51 || p.speed.neInt 1)

/-- "If we ever see a repeated field, for a progressive frame, but in a
non-progressive sequence, we assume 3:2 pulldown is in operation." -/
def entersPulldown (t : Video) (parsed : ParsedVideoParameters) : Bool :=
  !t.threeTwoPulldownDetected && !parsed.progressive && !parsed.interlacedFrame &&
    parsed.displayCount0 == 2

def detectPulldown (t : Video) (rate : Rational) (parsed : ParsedVideoParameters) : Video :=
  if t.entersPulldown parsed then
    if removeAnyThreeTwoPulldown p rate then
      let error := (t.accumulatedError.mul (.ofLongLongs 4 4)).assign
      { t with
        threeTwoPulldownDetected := true
        accumulatedError := (error.add (p.frameRate.div (.intMul 4 rate))).assign }
    else { t with threeTwoPulldownDetected := true }
  else if parsed.displayCount0 > 2 then { t with threeTwoPulldownDetected := false }
  else t

/-- The frame rate with 3:2 pulldown removed: "e.g. 29.970 -> 23.976". -/
def pulledDownRate (removing : Bool) (rate : Rational) : Rational :=
  if removing then ((rate.mulInt 4).divInt 5).assign else rate

/-- "Remove the extra field". -/
def removeExtraField (removing : Bool) (parsed : ParsedVideoParameters) : ParsedVideoParameters :=
  if removing && parsed.displayCount0 == 2 then { parsed with displayCount0 := 1 } else parsed

/-- Whether the field/frame count multiplier is for other rates than these. -/
def outdated (t : Video) (rate : Rational) (progressive : Bool) : Bool :=
  p.adjustedSpeedAfterFrameDrop.ne t.lastAdjustedSpeedAfterFrameDrop ||
    rate.ne t.previousFrameRate ||
    p.frameRate.ne t.previousDisplayFrameRate ||
    progressive != t.previousContentProgressive

/-- The multiplier for these rates. -/
def multiplierFor (rate : Rational) (progressive : Bool) : Rational :=
  let multiplier := (p.frameRate.div (p.adjustedSpeedAfterFrameDrop.mul rate)).assign
  if progressive then multiplier else (multiplier.divInt 2).assign

/-- "NOTE we do not reset the accumulated error, we leave it accumulating, except
when we transit to a mode where there is no error IE when the multiplier is 1." -/
def recalculate (t : Video) (rate : Rational) (progressive : Bool) : Video :=
  if t.outdated p rate progressive then
    { t with
      countMultiplier := multiplierFor p rate progressive
      accumulatedError :=
        if (multiplierFor p rate progressive).eqInt 1 then .ofInt 0 else t.accumulatedError
      previousFrameRate := rate.assign
      previousDisplayFrameRate := p.frameRate.assign
      previousContentProgressive := progressive
      lastAdjustedSpeedAfterFrameDrop := p.adjustedSpeedAfterFrameDrop.assign }
  else t

/-- The timer and the frame as the calculation of the counts finds them. -/
def prepare (t : Video) (parsed : ParsedVideoParameters) : Video × ParsedVideoParameters :=
  let parsed' := adjustPartialFrame parsed
  let t := { t with
    seenInterlacedContentOnInterlacedDisplay := t.seenInterlacedContentOnInterlacedDisplay ||
      (interlacedOnInterlaced p parsed' && parsed.pictureStructure == PictureStructure.frame) }
  let rate := validFrameRate p parsed'.frameRate parsed'.progressive
  let t := t.detectPulldown p rate parsed'
  let removing := t.threeTwoPulldownDetected && removeAnyThreeTwoPulldown p rate
  (t.recalculate p (pulledDownRate removing rate) parsed'.progressive,
    removeExtraField removing parsed')

/-! ## The counts -/

/-- `FrameCount` for one content count. -/
def frameCount (multiplier error : Rational) (count : BitVec 32) : Rational :=
  ((multiplier.mulInt count).add error).assign

/-- "Calculate the field counts", for a whole frame; with the error that is left. -/
def fieldCounts (t : Video) (parsed : ParsedVideoParameters) : DisplayCount × Rational :=
  let first := frameCount t.countMultiplier t.accumulatedError parsed.displayCount0
  if interlacedOnInterlaced p parsed then
    (⟨first.integerPart, first.integerPart⟩, first.remainder.assign)
  else if parsed.progressive then (⟨first.integerPart, 0⟩, first.remainder.assign)
  else
    let second := frameCount t.countMultiplier first.remainder.assign parsed.displayCount1
    (⟨first.integerPart, second.integerPart⟩, second.remainder.assign)

/-- A single field is shown once, whatever is calculated for it. -/
def displayCounts (t : Video) (parsed : ParsedVideoParameters) : DisplayCount × Rational :=
  if parsed.pictureStructure ≠ .frame then
    (⟨1, 0⟩,
      (frameCount t.countMultiplier t.accumulatedError parsed.displayCount0).remainder.assign)
  else t.fieldCounts p parsed

/-! ## After the counts -/

/-- `min`. -/
def minimum (x y : BitVec 32) : BitVec 32 := if x < y then x else y

/-- "Are we in the process of performing an avsync correction": what is shown, and
what is still to lose. -/
def loseFrames (pair : Bool) (lose : BitVec 32) (shown : DisplayCount) : DisplayCount × BitVec 32 :=
  if lose ≠ 0 ∧ shown.first + shown.second ≠ 0 then
    if pair then
      let lost := minimum (lose / 2) shown.first
      (⟨shown.first - lost, shown.second - lost⟩, lose - 2 * lost)
    else
      let lost := minimum lose shown.first
      let lost' := minimum (lose - lost) shown.second
      (⟨shown.first - lost, shown.second - lost'⟩, lose - lost - lost')
  else (shown, lose)

/-- "Override the lot of it if we are single stepping." -/
def singleStep (progressive : Bool) (shown : DisplayCount) : DisplayCount :=
  if p.speed.eqInt 0 then ⟨1, if progressive then shown.second else 1⟩ else shown

/-- "If we are running in reverse and an interlaced frame, then reverse the fields". -/
def reverseFields (progressive : Bool) (shown : DisplayCount) : DisplayCount :=
  if !progressive && p.backward then ⟨shown.second, shown.first⟩ else shown

/-- "If we have a zero first field count we move the second field count up". -/
def moveUp (shown : DisplayCount) : DisplayCount :=
  if shown.first = 0 then ⟨shown.second, 0⟩ else shown

/-- `FillOutFrameTimingRecord`. -/
def fillOutFrameTimingRecord (t : Video) (parsed : ParsedVideoParameters) : Video × DisplayCount :=
  if parsed.pictureStructure = .empty then (t, ⟨0, 0⟩)
  else
    let (t, parsed) := t.prepare p parsed
    let (shown, error) := t.displayCounts p parsed
    let pair := interlacedOnInterlaced p parsed && parsed.pictureStructure == PictureStructure.frame
    let (shown, lose) := loseFrames pair t.loseFramesForSynchronization shown
    ({ t with accumulatedError := error, loseFramesForSynchronization := lose },
      moveUp (reverseFields p parsed.progressive (singleStep p parsed.progressive shown)))

/-- The counts of one frame after another. -/
def fillOutAll (t : Video) : List ParsedVideoParameters → Video × List DisplayCount
  | [] => (t, [])
  | parsed :: frames =>
    let (t, shown) := t.fillOutFrameTimingRecord p parsed
    let (t, rest) := fillOutAll t frames
    (t, shown :: rest)

end FillOut

end Video

end Duckbox.OutputTimer
