import Duckbox.BufferPool.ReferenceCounting

/-!
# The base video frame parser

`FrameParser_Video_c` numbers pictures for display without looking at temporal
references: a non-reference picture is numbered as it is parsed, a reference
picture is held back (with an extra reference on its coded frame buffer) until
the first picture of the next reference frame, a stream terminate or a
discontinuity. The functions below are the source's, one each; a picture's
coded frame buffer is named by the decode frame index the picture is queued
under, and what the source writes into the buffers it holds is recorded in `log`.

The presentation times that `CalculateFrameIndexAndPts` derives from the field
index, and the decode times, feed nothing back into the numbering and are left
out.
-/

namespace Duckbox.FrameParser

/-- `StructureTopField`. -/
abbrev structureTopField : Nat := 1

/-- `StructureFrame`. -/
abbrev structureFrame : Nat := 3

/-- What the headers of a picture say: the parsed frame and video parameters
the numbering reads. `FirstDecodeOfFrame` is the value the codec's parser copies
into `FirstParsedParametersForOutputFrame`. -/
structure Picture where
  pictureStructure : Nat
  topFieldFirst : Bool
  displayCount0 : Int
  displayCount1 : Int
  referenceFrame : Bool
  firstDecodeOfFrame : Bool
deriving DecidableEq, Repr

/-- A coded frame buffer with the parameters attached to it. -/
structure CodedFrame where
  decodeFrameIndex : Nat
  picture : Picture
deriving DecidableEq, Repr

/-- What is done to a coded frame buffer. -/
inductive Effect where
  /-- `DisplayFrameIndex`, the field index behind its times and
  `CollapseHolesInDisplayIndices` are written. -/
  | labelled (frame displayFrameIndex : Nat) (fieldIndex : Int) (collapse : Bool)
  | incrementReferenceCount (frame : Nat)
  | decrementReferenceCount (frame : Nat)
deriving DecidableEq, Repr

/-- The members of `FrameParser_Video_c` that the forward numbering uses. A
deferred buffer and its two parameter pointers are set and cleared together. -/
structure Video where
  nextDisplayFieldIndex : Int
  nextDisplayFrameIndex : Nat
  nextDecodeFrameIndex : Nat
  collapseHolesInDisplayIndices : Bool
  deferred : Option CodedFrame
  deferredSecondField : Option CodedFrame
  log : List Effect

/-- After `Reset`. -/
def Video.reset : Video where
  nextDisplayFieldIndex := 0
  nextDisplayFrameIndex := 0
  nextDecodeFrameIndex := 0
  collapseHolesInDisplayIndices := true
  deferred := none
  deferredSecondField := none
  log := []

namespace Video

def record (s : Video) (e : Effect) : Video := { s with log := s.log ++ [e] }

/-- `CalculateFrameIndexAndPts`, forward, up to the times. -/
def calculateFrameIndexAndPts (s : Video) (f : CodedFrame) : Video :=
  let p := f.picture
  let fieldIndex := s.nextDisplayFieldIndex
  let s := { s with
    nextDisplayFieldIndex := s.nextDisplayFieldIndex + (p.displayCount0 + p.displayCount1) }
  if !p.firstDecodeOfFrame then s
  else
    -- a field that is decoded first but displayed second
    let fieldIndex :=
      if p.pictureStructure != structureFrame
          && ((p.pictureStructure == structureTopField) != p.topFieldFirst)
      then fieldIndex - 1 else fieldIndex
    { s with
      nextDisplayFrameIndex := s.nextDisplayFrameIndex + 1
      collapseHolesInDisplayIndices := false
      log := s.log ++ [.labelled f.decodeFrameIndex s.nextDisplayFrameIndex fieldIndex
        s.collapseHolesInDisplayIndices] }

/-- Number a deferred buffer and drop the reference taken on it. -/
def release (s : Video) (f : CodedFrame) : Video :=
  (s.calculateFrameIndexAndPts f).record (.decrementReferenceCount f.decodeFrameIndex)

/-- `ForPlayPurgeQueuedPostDecodeParameterSettings`. -/
def forPlayPurgeQueued (s : Video) : Video :=
  match s.deferred with
  | none => s
  | some f =>
    let s := s.release f
    let s := match s.deferredSecondField with
      | none => s
      | some g => s.release g
    { s with deferred := none, deferredSecondField := none }

/-- `ForPlayProcessQueuedPostDecodeParameterSettings`: the same body under the
condition that the picture begins a reference frame. -/
def forPlayProcessQueued (s : Video) (p : Picture) : Video :=
  if p.firstDecodeOfFrame && p.referenceFrame then s.forPlayPurgeQueued else s

/-- The two complaints of the deferral: the picture is not the other field of
the deferred one, or the deferred one has its second field already. -/
def purgeInconsistent (s : Video) (p : Picture) : Video :=
  let s := match s.deferred with
    | none => s
    | some f =>
      if (f.picture.pictureStructure ^^^ p.pictureStructure) != structureFrame
      then s.forPlayPurgeQueued else s
  match s.deferredSecondField with
  | none => s
  | some _ => s.forPlayPurgeQueued

/-- The deferred slot the picture goes to. -/
def deferPicture (s : Video) (f : CodedFrame) : Video :=
  match s.deferred with
  | some _ => { s with deferredSecondField := some f }
  | none => { s with deferred := some f }

/-- `ForPlayGeneratePostDecodeParameterSettings`. -/
def forPlayGenerate (s : Video) (p : Picture) : Video :=
  let f : CodedFrame := ⟨s.nextDecodeFrameIndex, p⟩
  if !p.referenceFrame then s.calculateFrameIndexAndPts f
  else ((s.record (.incrementReferenceCount f.decodeFrameIndex)).purgeInconsistent p).deferPicture f

/-- `ForPlayProcessFrame`, its queueing reduced to the decode frame index. `prepared` is whether
`PrepareReferenceFrameList` has the reference frames that the picture needs; the other hook,
`ForPlayUpdateReferenceFrameList`, fails only in the parser that numbers in its own way. -/
def forPlayProcessFrame (s : Video) (p : Picture) (prepared followedByStreamTerminate : Bool) :
    Video :=
  if !prepared then s
  else
    let s := (s.forPlayProcessQueued p).forPlayGenerate p
    let s := { s with nextDecodeFrameIndex := s.nextDecodeFrameIndex + 1 }
    if followedByStreamTerminate then s.forPlayPurgeQueued else s

end Video

/-- What arrives at the parser: a picture, or a discontinuity of the stream. -/
inductive Input where
  | picture (p : Picture) (prepared followedByStreamTerminate : Bool)
  | discontinuity

/-- `ProcessBuffer` in forward play. -/
def Video.processBuffer (s : Video) : Input → Video
  | .picture p prepared followedByStreamTerminate =>
    s.forPlayProcessFrame p prepared followedByStreamTerminate
  | .discontinuity => { s.forPlayPurgeQueued with collapseHolesInDisplayIndices := true }

/-- The parser after a sequence of inputs. -/
def Video.runInputs (inputs : List Input) : Video := inputs.foldl Video.processBuffer Video.reset

end Duckbox.FrameParser

/-!
## Display numbering in reverse play

`RevPlayGeneratePostDecodeParameterSettings` of `FrameParser_Video_c`, which is
given the frames of a group as the decode stack is unwound, last decoded first:
a non-reference picture goes to a ring, a reference picture is numbered and, if
it is a first field or a frame, what is on the ring is numbered after it. At the
end of an unwinding the ring is flushed.

The ring has two entries for each frame, the pointers to its frame and its video
parameters, which go in and come out together, and room for `FrameBufferCount`
frames; it is modelled as a ring of frames.
-/

namespace Duckbox.FrameParser

/-- `CalculateFrameIndexAndPts`, in reverse play, up to the times. -/
def Video.calculateFrameIndexAndPtsReverse (s : Video) (f : CodedFrame) : Video :=
  let p := f.picture
  let s := { s with
    nextDisplayFieldIndex := s.nextDisplayFieldIndex - (p.displayCount0 + p.displayCount1) }
  if !p.firstDecodeOfFrame then s
  else
    let fieldIndex :=
      if p.pictureStructure != structureFrame
          && ((p.pictureStructure == structureTopField) != p.topFieldFirst)
      then s.nextDisplayFieldIndex - 1 else s.nextDisplayFieldIndex
    { s with
      nextDisplayFrameIndex := s.nextDisplayFrameIndex + 1
      collapseHolesInDisplayIndices := false
      log := s.log ++ [.labelled f.decodeFrameIndex s.nextDisplayFrameIndex fieldIndex
        s.collapseHolesInDisplayIndices] }

/-- The members of `FrameParser_Video_c` that the reverse numbering uses. -/
structure ReverseNumbering where
  video : Video
  reverseQueuedPostDecodeSettingsRing : BufferPool.Ring CodedFrame

namespace ReverseNumbering

/-- `while( …->NonEmpty() )`: extract a frame and number it. -/
def numberRing : List CodedFrame → Video → Video
  | [], s => s
  | f :: rest, s => numberRing rest (s.calculateFrameIndexAndPtsReverse f)

/-- `RevPlayGeneratePostDecodeParameterSettings`. -/
def revPlayGenerate (r : ReverseNumbering) (f : CodedFrame) : ReverseNumbering :=
  let ring := r.reverseQueuedPostDecodeSettingsRing
  if !f.picture.referenceFrame then
    { r with reverseQueuedPostDecodeSettingsRing := ring.insert f }
  else
    let video := r.video.calculateFrameIndexAndPtsReverse f
    if f.picture.firstDecodeOfFrame then
      { video := numberRing ring.entries video
        reverseQueuedPostDecodeSettingsRing := { ring with entries := [] } }
    else { r with video := video }

/-- `ReverseQueuedPostDecodeSettingsRing->Flush()`. -/
def flush (r : ReverseNumbering) : ReverseNumbering :=
  { r with
    reverseQueuedPostDecodeSettingsRing :=
      { r.reverseQueuedPostDecodeSettingsRing with entries := [] } }

/-- The unwinding of the stacked frames of a group, as far as the numbering goes. -/
def unwind (r : ReverseNumbering) (group : List CodedFrame) : ReverseNumbering :=
  (group.reverse.foldl revPlayGenerate r).flush

/-- The groups of a stream, played backwards. -/
def playGroups (r : ReverseNumbering) (groups : List (List CodedFrame)) : ReverseNumbering :=
  groups.reverse.foldl unwind r

end ReverseNumbering

/-- The pictures of a stream that are played forwards, then a flush: the next reference
frame, a stream terminate or a discontinuity. -/
def Video.playPictures (s : Video) (pictures : List Picture) : Video :=
  (pictures.foldl (fun s p => s.forPlayProcessFrame p true false) s).forPlayPurgeQueued

end Duckbox.FrameParser
