import Duckbox.H264.ParameterSets

/-!
# Stream parameters

How the frames that are queued for decode come to point to parameter sets:
`ReadNalSliceHeader` as far as it finds the sets of a slice,
`NewStreamParametersCheck`, `PrepareNewStreamParameters`, and
`CommitFrameForDecode` as far as it claims the parameters for a frame. A
`StreamParameters` structure is in a buffer, to which the picture parameter set
is attached when the structure is filled in; frames have that buffer attached.

What is read of a slice beyond its parameter set is part of the event, as is
whether `CommitFrameForDecode` accepts it. The slice header of a frame is not
written again, so a frame has its pointers; the `StreamParameters` structure is,
so it has the buffer.
-/

namespace Duckbox.H264.Coded

open Duckbox.Lib Duckbox.FrameParser Duckbox.BufferPool

/-- The pools of the frame parser. -/
structure ParserPools (n m : Nat) extends Pools n m where
  streamParametersPool : Fin m
  frameParametersPool : Fin m
  codedFramePool : Fin m
  /-- A count can count the references to all buffers. -/
  few : 5 * n + 1 < 2 ^ 32

/-- `H264StreamParameters_t`: what `SequenceParameterSet` and
`PictureParameterSet` point into. -/
structure SetPointers (n : Nat) where
  sequence : Option (Fin n)
  picture : Option (Fin n)
deriving DecidableEq

/-- A frame queued for decode. -/
structure Frame (n : Nat) where
  buffer : Fin n
  streamParameters : Fin n
  sliceHeader : PictureEntry n

/-- What `SliceHeader` points to, once a first slice has been read. -/
structure CurrentSlice (n : Nat) where
  picParameterSetId : Fin maxPictureParameterSets
  sets : PictureEntry n
  valid : Bool

/-- A picture parameter set as memory: the pointer in it, and the rest. -/
abbrev PictureImage (n : Nat) := Option (Fin n) × PictureParameterSetHeader

/-- The memory of the picture parameter set of an entry. -/
def PictureEntry.image {n : Nat} (entry : PictureEntry n) : PictureImage n :=
  (some entry.sequenceBuffer, { entry.header with sequenceParameterSet := default })

/-- The pointers to the sets of an entry. -/
def PictureEntry.pointers {n : Nat} (sets : PictureEntry n) : SetPointers n :=
  ⟨some sets.sequenceBuffer, some sets.buffer⟩

/-- The members of the frame parser that parameter sets, slices and frames use. -/
structure Parser (n m : Nat) where
  sets : ParameterSets n m
  members : SetMembers
  /-- The extension that a sequence parameter set buffer has room for. -/
  extension : Fin n → SequenceParameterSetExtensionHeader
  readNewSPS : Bool
  readNewSPSExtension : Bool
  readNewPPS : Bool
  copyOfSequenceParameterSet : SequenceParameterSetHeader
  copyOfSequenceParameterSetExtension : SequenceParameterSetExtensionHeader
  copyOfPictureParameterSet : PictureImage n
  streamParametersBuffer : Option (Fin n)
  /-- The buffer that `StreamParameters` points into. -/
  streamParameters : Option (Fin n)
  /-- The structures in the buffers of `StreamParametersPool`. -/
  streamParametersIn : Fin n → SetPointers n
  frameParametersBuffer : Option (Fin n)
  /-- `FrameParameters != NULL`. -/
  frameParameters : Bool
  sliceHeader : Option (CurrentSlice n)
  buffer : Option (Fin n)
  frameToDecode : Bool
  frames : List (Frame n)

/-- A slice: its parameter set unless `Assert` refuses the id, and what is found
of the rest. -/
structure SliceNal where
  /-- `first_mb_in_slice == 0`. -/
  first : Bool
  picParameterSetId : Option (Fin maxPictureParameterSets)
  /-- The header is read to where it is marked valid. -/
  valid : Bool
  /-- `ReadNalSliceHeader` returns no error. -/
  accepted : Bool
  /-- `CommitFrameForDecode` returns no error once it has the stream parameters. -/
  supported : Bool

/-- What the frame parser is given, and frames that are released. -/
inductive ParserEvent (σ : Type) where
  /-- A coded frame. -/
  | input
  | sequenceParameterSet (bits : σ)
  | sequenceParameterSetExtension (id : Fin maxSequenceParameterSets)
      (header : SequenceParameterSetExtensionHeader)
  | pictureParameterSet (bits : σ)
  | slice (nal : SliceNal)
  /-- The end of a coded frame. -/
  | finish
  /-- The frame at a place among the queued is done with. -/
  | release (k : Nat)

namespace Parser

variable {σ : Type} [BitSource σ] {n m : Nat} (pools : ParserPools n m)

/-- `RegisterOutputBufferRing`; the copies are not initialised. -/
def created (members : SetMembers) (copyOfSequenceParameterSet : SequenceParameterSetHeader)
    (copyOfSequenceParameterSetExtension : SequenceParameterSetExtensionHeader)
    (copyOfPictureParameterSet : PictureImage n) : Parser n m where
  sets := ⟨Manager.created pools.poolOf, fun _ => none, fun _ => none⟩
  members := members
  extension _ := default
  readNewSPS := false
  readNewSPSExtension := false
  readNewPPS := false
  copyOfSequenceParameterSet := copyOfSequenceParameterSet
  copyOfSequenceParameterSetExtension := copyOfSequenceParameterSetExtension
  copyOfPictureParameterSet := copyOfPictureParameterSet
  streamParametersBuffer := none
  streamParameters := none
  streamParametersIn _ := ⟨none, none⟩
  frameParametersBuffer := none
  frameParameters := false
  sliceHeader := none
  buffer := none
  frameToDecode := false
  frames := []

def setManager (s : Parser n m) (manager : Manager n m) : Parser n m :=
  { s with sets := { s.sets with manager := manager } }

/-- `Buffer->DecrementReferenceCount()`, for a buffer if there is one. -/
def drop (s : Parser n m) : Option (Fin n) → Option (Parser n m)
  | none => some s
  | some b => (s.sets.manager.decrementReferenceCount pools.poolOf b).map s.setManager

/-- `Buffer->AttachBuffer( Other )`. -/
def attach (s : Parser n m) (a b : Fin n) : Parser n m :=
  s.setManager (s.sets.manager.attachBuffer pools.poolOf a b)

/-! ## Parameter set NALs -/

/-- `NALU_TYPE_SPS`; the buffer that is read into is cleared whole. -/
def sequenceParameterSet (s : Parser n m) (bits : σ) : Option (Parser n m) :=
  (readNalSequenceParameterSet pools.toPools s.sets bits s.members).map fun r =>
    { s with
      sets := r.sets
      members := r.members
      extension :=
        match s.sets.manager.getBuffer pools.sequenceParameterSetPool with
        | none => s.extension
        | some (b, _) => Function.update s.extension b default
      readNewSPS := true }

/-- `NALU_TYPE_SPS_EXT`. -/
def sequenceParameterSetExtension (s : Parser n m) (id : Fin maxSequenceParameterSets)
    (header : SequenceParameterSetExtensionHeader) : Parser n m :=
  { s with
    extension :=
      match s.sets.sequenceParameterSetTable id with
      | none => s.extension
      | some entry => Function.update s.extension entry.buffer header
    readNewSPSExtension := true }

/-- `NALU_TYPE_PPS`. -/
def pictureParameterSet (s : Parser n m) (bits : σ) : Option (Parser n m) :=
  (readNalPictureParameterSet pools.toPools s.sets bits s.members).map fun r =>
    { s with
      sets := r.sets
      members := r.members
      readNewPPS := true }

/-! ## Slices -/

/-- `GetNewFrameParameters`; with no free buffer, no slice header is begun. -/
def getNewFrameParameters (s : Parser n m) : Option (Bool × Parser n m) :=
  (s.drop pools s.frameParametersBuffer).map fun s =>
    match s.sets.manager.getBuffer pools.frameParametersPool with
    | none => (false, { s with frameParametersBuffer := none })
    | some (b, manager) =>
      (true, { s.setManager manager with
        frameParametersBuffer := some b
        frameParameters := true
        sliceHeader := none })

/-- `ReadNalSliceHeader`, whether it returns no error. -/
def readNalSliceHeader (s : Parser n m) (nal : SliceNal) : Option (Bool × Parser n m) :=
  if nal.first then
    (s.getNewFrameParameters pools).map fun (obtained, s) =>
      match nal.picParameterSetId, nal.picParameterSetId.bind s.sets.pictureParameterSetTable with
      | some id, some entry =>
        if obtained then
          (nal.valid && nal.accepted, { s with sliceHeader := some ⟨id, entry, nal.valid⟩ })
        else (false, s)
      | _, _ => (false, s)
  else
    match s.sliceHeader with
    | some slice => some (s.frameParameters && slice.valid && nal.accepted, s)
    | none => some (false, s)

/-- What `NewStreamParametersCheck` finds: no stream parameters yet, or sets that
differ from the copies. -/
def differs (s : Parser n m) (sets : PictureEntry n) : Bool :=
  match s.streamParameters with
  | none => true
  | some b =>
    let p := s.streamParametersIn b
    ((s.readNewSPS || p.sequence != some sets.sequenceBuffer)
        && s.copyOfSequenceParameterSet != sets.header.sequenceParameterSet)
      || ((s.readNewSPSExtension || p.sequence != some sets.sequenceBuffer)
        && s.copyOfSequenceParameterSetExtension != s.extension sets.sequenceBuffer)
      || ((s.readNewPPS || p.picture != some sets.buffer)
        && s.copyOfPictureParameterSet != sets.image)

/-- `NewStreamParametersCheck`. -/
def newStreamParametersCheck (s : Parser n m) (sets : PictureEntry n) : Bool × Parser n m :=
  match s.streamParameters with
  | none => (true, s)
  | some b =>
    let different := s.differs sets
    let s := { s with readNewSPS := false, readNewSPSExtension := false, readNewPPS := false }
    if different then
      (true, { s with
        copyOfSequenceParameterSet := sets.header.sequenceParameterSet
        copyOfSequenceParameterSetExtension := s.extension sets.sequenceBuffer
        copyOfPictureParameterSet := sets.image })
    else
      (false, { s with streamParametersIn := Function.update s.streamParametersIn b sets.pointers })

/-- `GetNewStreamParameters`. -/
def getNewStreamParameters (s : Parser n m) : Option (Option (Fin n) × Parser n m) :=
  (s.drop pools s.streamParametersBuffer).map fun s =>
    match s.sets.manager.getBuffer pools.streamParametersPool with
    | none => (none, { s with streamParametersBuffer := none })
    | some (b, manager) =>
      (some b, { s.setManager manager with
        streamParametersBuffer := some b
        streamParameters := some b })

/-- `PrepareNewStreamParameters`, whether it returns no error. -/
def prepareNewStreamParameters (s : Parser n m) (slice : CurrentSlice n) :
    Option (Bool × Parser n m) := do
  match ← s.getNewStreamParameters pools with
  | (none, s) => pure (false, s)
  | (some b, s) =>
    let s := { s with streamParametersIn := Function.update s.streamParametersIn b slice.sets.pointers }
    let entry ← s.sets.pictureParameterSetTable slice.picParameterSetId
    pure (true, s.attach pools b entry.buffer)

/-- "Record our claim on both the frame and stream parameters". -/
def claimParameters (s : Parser n m) (slice : CurrentSlice n) : Option (Parser n m) := do
  let b ← s.buffer
  let streamParametersBuffer ← s.streamParametersBuffer
  let frameParametersBuffer ← s.frameParametersBuffer
  let streamParameters ← s.streamParameters
  let s := (s.attach pools b streamParametersBuffer).attach pools b frameParametersBuffer
  pure { s with
    frameToDecode := true
    frames := s.frames ++ [⟨b, streamParameters, slice.sets⟩] }

/-- `CommitFrameForDecode`. -/
def commitFrameForDecode (s : Parser n m) (nal : SliceNal) (slice : CurrentSlice n) :
    Option (Parser n m) := do
  let (new, s) := s.newStreamParametersCheck slice.sets
  let (prepared, s) ← if new then s.prepareNewStreamParameters pools slice else pure (true, s)
  if prepared && nal.supported then s.claimParameters pools slice else pure s

/-- `NALU_TYPE_SLICE` and its like. -/
def slice (s : Parser n m) (nal : SliceNal) : Option (Parser n m) := do
  let (read, s) ← s.readNalSliceHeader pools nal
  match s.sliceHeader with
  | some slice => if read && !s.frameToDecode then s.commitFrameForDecode pools nal slice else pure s
  | none => pure s

/-! ## Frames -/

/-- A coded frame is taken in, when there is room for one. -/
def input (s : Parser n m) : Option (Parser n m) :=
  match s.buffer, s.sets.manager.getBuffer pools.codedFramePool with
  | none, some (b, manager) => some { s.setManager manager with buffer := some b, frameToDecode := false }
  | _, _ => some s

/-- The end of `ReadHeaders`, where a frame that is not for decode is dropped. -/
def finish (s : Parser n m) : Option (Parser n m) :=
  if s.frameToDecode then
    some { s with frameParameters := false, buffer := none, frameToDecode := false }
  else (s.drop pools s.buffer).map fun s => { s with buffer := none }

/-- A frame is done with. -/
def release (s : Parser n m) (k : Nat) : Option (Parser n m) :=
  ({ s with frames := s.frames.eraseIdx k } : Parser n m).drop pools ((s.frames[k]?).map (·.buffer))

/-- One event; `none` where a null pointer is followed. -/
def step (s : Parser n m) : ParserEvent σ → Option (Parser n m)
  | .input => s.input pools
  | .sequenceParameterSet bits => s.sequenceParameterSet pools bits
  | .sequenceParameterSetExtension id header => some (s.sequenceParameterSetExtension id header)
  | .pictureParameterSet bits => s.pictureParameterSet pools bits
  | .slice nal => s.slice pools nal
  | .finish => s.finish pools
  | .release k => s.release pools k

end Parser

end Duckbox.H264.Coded
