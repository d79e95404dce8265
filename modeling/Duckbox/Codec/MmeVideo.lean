import Mathlib.Data.List.Count
import Duckbox.Lib.Loop
import Duckbox.Lib.Slots

/-!
# The video codec

`Codec_MmeVideo_c` over `Codec_MmeBase_c`, with what `Codec_MmeVideoH264_c` adds to
them: the decode buffers with their counts, the map from decode indices to them,
the decode contexts in flight, and for H.264 the macroblock structures and the
slots of reference frames.

A decode buffer is there for three reasons, and each has a share of its count:
it is to be output, it is a reference frame, and the reference lists of decodes
name it. `hold` says who has the first share, which is not written down anywhere
in the codec: `GetDecodeBuffer` takes it, the output ring passes it on, and
`ReleaseDecodeBuffer` gives it back.

Whether the output of a decode is discarded is up to the counts of commands, and
is given with the events here.
-/

namespace Duckbox.Codec

open Duckbox.Lib

/-! ## Frames and buffers -/

/-- `PictureStructure_t`: the fields of a picture. -/
structure PictureStructure where
  topField : Bool
  bottomField : Bool
deriving DecidableEq

namespace PictureStructure

/-- `StructureEmpty`. -/
def empty : PictureStructure := ⟨false, false⟩

/-- `StructureFrame`. -/
def frame : PictureStructure := ⟨true, true⟩

def union (p q : PictureStructure) : PictureStructure :=
  ⟨p.topField || q.topField, p.bottomField || q.bottomField⟩

end PictureStructure

/-- What the codec uses of the parsed frame and video parameters. -/
structure ParsedFrame where
  decodeFrameIndex : Nat
  newStreamParameters : Bool
  newFrameParameters : Bool
  firstParsedParametersForOutputFrame : Bool
  referenceFrame : Bool
  firstSlice : Bool
  pictureStructure : PictureStructure
  displayCount : Nat × Nat
  panScanCount : Nat
  /-- The decode indices in its reference lists, one list after the other. -/
  referenceFrameList : List Nat
deriving DecidableEq

/-- `CodecBufferState_t`, with the parameters of the video in the buffer. -/
structure BufferState where
  /-- `Buffer != NULL`. -/
  buffer : Bool
  referenceFrameCount : Nat
  decodesInProgress : Nat
  outputOnDecodesComplete : Bool
  /-- `BufferMacroblockStructure`, if `MacroblockStructurePresent`. -/
  macroblockStructure : Option Nat
  /-- `none` for `INVALID_INDEX`. -/
  referenceFrameSlot : Option (Fin 16)
  pictureStructure : PictureStructure
  /-- `DisplayCount[1]`. -/
  displayCount : Nat
  panScanCount : Nat
deriving DecidableEq

/-- A record of zeros. -/
def BufferState.cleared : BufferState where
  buffer := false
  referenceFrameCount := 0
  decodesInProgress := 0
  outputOnDecodesComplete := false
  macroblockStructure := none
  referenceFrameSlot := some 0
  pictureStructure := .empty
  displayCount := 0
  panScanCount := 0

/-- `CodecBaseDecodeContext_t`; the reference list is of buffer indices. -/
structure DecodeContext where
  bufferIndex : Option Nat
  decodeInProgress : Bool
  referenceFrameList : List Nat
deriving DecidableEq

/-- Who is to give back the hold that a decode buffer is obtained with. -/
inductive Hold where
  | none
  /-- The codec, until the buffer is in the output ring. -/
  | codec
  /-- Those that the output ring leads to. -/
  | output
deriving DecidableEq

structure Configuration where
  sliceDecodePermitted : Bool
  /-- The codec is `Codec_MmeVideoH264_c`. -/
  h264 : Bool
  /-- `__TDT__` is defined. -/
  tdt : Bool
  decodeBufferCount : Nat

structure MmeVideo where
  /-- The reference counts of the decode buffers, zero for one in the pool. -/
  ownerCount : Nat → Nat
  bufferState : Nat → BufferState
  /-- The entries of the map, a decode index and a buffer index in each. -/
  indexBufferMap : List (Option (Nat × Nat))
  currentDecodeBufferIndex : Option Nat
  currentDecodeIndex : Option Nat
  decodeContext : Option DecodeContext
  /-- The contexts of the decodes that MME has. -/
  inFlight : List DecodeContext
  /-- What has been inserted; `none` for a null pointer. -/
  outputRing : List (Option Nat)
  halted : Bool
  /-- The reference counts of the macroblock structures. -/
  structureCount : Nat → Nat
  referenceFrameSlotUsed : Fin 16 → Bool
  outstandingSlotAllocationRequest : Option Nat
  hold : Nat → Hold

/-- How a decode command is sent: MME takes it or refuses it, or the codec has been
halted since its input began. -/
inductive Sent where
  | accepted
  | refused
  | halted
deriving DecidableEq

/-- What an input meets. -/
structure Environment where
  /-- The base class refuses the frame, or has no context for it. -/
  early : Bool
  /-- A stream parameters command is not filled out or not sent. -/
  parametersRefused : Bool
  /-- The decode buffer of the manifestor, if one is asked for and it has one. -/
  buffer : Option Nat
  /-- The meta data of the decode buffer is there. -/
  attached : Bool
  /-- There is memory for the reference frames and their macroblock structures. -/
  enoughMemory : Bool
  /-- What `MacroBlockStructurePool` gives. -/
  macroblockStructure : Option Nat
  /-- The rest of the decode command is filled out. -/
  filled : Bool
  knownLastSliceInFieldFrame : Bool
  sent : Sent
  /-- Buffers that are complete are to be discarded. -/
  discard : Bool

/-- The record of a buffer that is obtained, with the parameters of its first frame. -/
def BufferState.obtained (f : ParsedFrame) : BufferState :=
  { BufferState.cleared with
    buffer := true
    displayCount := f.displayCount.2
    panScanCount := f.panScanCount }

namespace MmeVideo

/-- `MAX_PAN_SCAN_VALUES`. -/
def maxPanScanValues : Nat := 3

def setState (s : MmeVideo) (i : Nat) (state : BufferState) : MmeVideo :=
  { s with bufferState := Function.update s.bufferState i state }

def setOwnerCount (s : MmeVideo) (i count : Nat) : MmeVideo :=
  { s with ownerCount := Function.update s.ownerCount i count }

def setHold (s : MmeVideo) (i : Nat) (hold : Hold) : MmeVideo :=
  { s with hold := Function.update s.hold i hold }

/-! ## Decode indices -/

/-- The map with its first free entry taken. -/
def mapEntry (entry : Nat × Nat) : List (Option (Nat × Nat)) → Option (List (Option (Nat × Nat)))
  | [] => none
  | none :: map => some (some entry :: map)
  | some used :: map => (mapEntry entry map).map (some used :: ·)

/-- `MapBufferToDecodeIndex`. -/
def mapBufferToDecodeIndex (s : MmeVideo) (decodeIndex i : Nat) : Option MmeVideo :=
  (mapEntry (decodeIndex, i) s.indexBufferMap).map fun map => { s with indexBufferMap := map }

/-- `UnMapBufferIndex`. -/
def unMapBufferIndex (s : MmeVideo) (i : Nat) : MmeVideo :=
  { s with indexBufferMap := s.indexBufferMap.map fun entry => entry.filter (·.2 != i) }

/-- `TranslateDecodeIndex`. -/
def translateDecodeIndex (s : MmeVideo) (decodeIndex : Nat) : Option Nat :=
  s.indexBufferMap.findSome? fun entry =>
    (entry.filter (·.1 == decodeIndex)).map Prod.snd

/-! ## Counts -/

/-- `DecrementReferenceCount`, and whether the buffer was known. -/
def decrementReferenceCount (s : MmeVideo) (i : Nat) : Bool × MmeVideo :=
  if (s.bufferState i).buffer then
    let count := s.ownerCount i
    let s := if count = 1 then (s.unMapBufferIndex i).setState i .cleared else s
    (true, s.setOwnerCount i (count - 1))
  else (false, s)

/-- `ReleaseDecodeBuffer`. -/
def releaseDecodeBuffer (s : MmeVideo) (i : Nat) : MmeVideo :=
  let (known, s) := (s.setHold i .none).decrementReferenceCount i
  if known then s else s.setOwnerCount i (s.ownerCount i - 1)

/-- A share of the macroblock structure of a buffer, if it has one, is given back. -/
def releaseMacroblockStructure (s : MmeVideo) (i : Nat) : MmeVideo :=
  match (s.bufferState i).macroblockStructure with
  | none => s
  | some m =>
    { s with structureCount := Function.update s.structureCount m (s.structureCount m - 1) }

/-- `ReferenceFrameCount--`. -/
def decrementReferenceFrameCount (s : MmeVideo) (i : Nat) : MmeVideo :=
  s.setState i
    { s.bufferState i with referenceFrameCount := (s.bufferState i).referenceFrameCount - 1 }

/-- `while( ReferenceFrameCount != 0 )`, in so many passes. -/
def dropReferences (s : MmeVideo) (i : Nat) : Nat → MmeVideo
  | 0 => s
  | passes + 1 =>
    if (s.bufferState i).referenceFrameCount = 0 then s
    else ((s.decrementReferenceFrameCount i).decrementReferenceCount i).2.dropReferences i passes

/-- The release of all, for one buffer. -/
def releaseAllReferences (s : MmeVideo) (i : Nat) : MmeVideo :=
  if (s.bufferState i).referenceFrameCount = 0 then s
  else
    (s.releaseMacroblockStructure i).dropReferences i (s.bufferState i).referenceFrameCount

/-- `Codec_MmeBase_c::ReleaseReferenceFrame`; `none` for `CODEC_RELEASE_ALL`. -/
def releaseReferenceFrame (c : Configuration) (s : MmeVideo) : Option Nat → MmeVideo
  | none => (List.range c.decodeBufferCount).foldl releaseAllReferences s
  | some decodeIndex =>
    match s.translateDecodeIndex decodeIndex with
    | none => s
    | some i =>
      if (s.bufferState i).referenceFrameCount = 0 then s
      else
        let s := s.decrementReferenceFrameCount i
        let s :=
          if (s.bufferState i).referenceFrameCount = 0 then s.releaseMacroblockStructure i else s
        (s.decrementReferenceCount i).2

/-! ## Slots of reference frames -/

/-- The first slot that is not used. -/
def freeSlot (s : MmeVideo) : Option (Fin 16) :=
  (List.finRange 16).find? fun slot => !s.referenceFrameSlotUsed slot

def takeSlot (s : MmeVideo) (i : Nat) (slot : Fin 16) : MmeVideo :=
  { s.setState i { s.bufferState i with referenceFrameSlot := some slot } with
    referenceFrameSlotUsed := Function.update s.referenceFrameSlotUsed slot true }

/-- The outstanding request is enacted if there is a slot, and dropped if the
buffer is no longer a reference frame. -/
def enactOutstandingRequest (s : MmeVideo) : MmeVideo :=
  match s.outstandingSlotAllocationRequest with
  | none => s
  | some i =>
    if (s.bufferState i).referenceFrameCount = 0 then
      { s with outstandingSlotAllocationRequest := none }
    else
      match s.freeSlot with
      | none => s
      | some slot => { s.takeSlot i slot with outstandingSlotAllocationRequest := none }

/-- `ReferenceFrameSlotAllocate`, whether it returns no error. -/
def referenceFrameSlotAllocate (s : MmeVideo) (request : Option Nat) : Bool × MmeVideo :=
  let s := s.enactOutstandingRequest
  match request with
  | none => (true, s)
  | some i =>
    if s.outstandingSlotAllocationRequest.isSome then (false, s)
    else
      match s.freeSlot with
      | some slot => (true, s.takeSlot i slot)
      | none =>
        (true,
          { s.setState i { s.bufferState i with referenceFrameSlot := none } with
            outstandingSlotAllocationRequest := some i })

/-- What `H264ReleaseReferenceFrame` does to the slots. -/
def releaseSlot (s : MmeVideo) : Option Nat → MmeVideo
  | none =>
    { s with
      referenceFrameSlotUsed := fun _ => false
      outstandingSlotAllocationRequest := none }
  | some decodeIndex =>
    match s.translateDecodeIndex decodeIndex with
    | none => s
    | some i =>
      if (s.bufferState i).referenceFrameCount = 1 then
        match (s.bufferState i).referenceFrameSlot with
        | none => s
        | some slot =>
          { s with
            referenceFrameSlotUsed := Function.update s.referenceFrameSlotUsed slot false }
      else s

/-- `H264ReleaseReferenceFrame`. -/
def h264ReleaseReferenceFrame (c : Configuration) (s : MmeVideo) (decodeIndex : Option Nat) :
    MmeVideo :=
  ((s.releaseSlot decodeIndex).referenceFrameSlotAllocate none).2.releaseReferenceFrame c
    decodeIndex

/-! ## Output -/

/-- `OutputRing->Insert( BufferState[i].Buffer )`. -/
def insertIntoOutputRing (s : MmeVideo) (i : Nat) : MmeVideo :=
  if (s.bufferState i).buffer then
    { s.setHold i .output with outputRing := s.outputRing ++ [some i] }
  else { s with outputRing := s.outputRing ++ [none] }

/-- `SetOutputOnDecodesComplete`, with the test for immediate output. -/
def setOutputOnDecodesComplete (s : MmeVideo) (i : Nat) : MmeVideo :=
  let s := s.setState i { s.bufferState i with outputOnDecodesComplete := true }
  if (s.bufferState i).decodesInProgress = 0 then s.insertIntoOutputRing i else s

/-- `OutputPartialDecodeBuffers`. -/
def outputPartialDecodeBuffers (s : MmeVideo) : MmeVideo :=
  match s.currentDecodeBufferIndex with
  | none => s
  | some i => { s.setOutputOnDecodesComplete i with currentDecodeBufferIndex := none }

/-! ## Decode contexts -/

/-- `DecodesInProgress--`. -/
def endDecode (s : MmeVideo) (i : Nat) : MmeVideo :=
  s.setState i
    { s.bufferState i with decodesInProgress := (s.bufferState i).decodesInProgress - 1 }

/-- A buffer that is complete is discarded or put out. -/
def passOn (s : MmeVideo) (i : Nat) (discard : Bool) : MmeVideo :=
  if discard then s.releaseDecodeBuffer i else s.insertIntoOutputRing i

/-- `ReleaseDecodeContext`, for a decode in progress into a buffer. -/
def finishDecode (s : MmeVideo) (i : Nat) (discard : Bool) : MmeVideo :=
  let s := s.endDecode i
  if (s.bufferState i).outputOnDecodesComplete then
    let s := if (s.bufferState i).decodesInProgress = 0 then s.passOn i discard else s
    -- it can be the current buffer if the context is released for a failure
    { s with currentDecodeBufferIndex := s.currentDecodeBufferIndex.filter (· != i) }
  else s

/-- An entry of a reference list is given back. -/
def releaseReference (s : MmeVideo) (i : Nat) : MmeVideo :=
  ((s.releaseMacroblockStructure i).decrementReferenceCount i).2

/-- `ReleaseDecodeContext`. -/
def releaseDecodeContext (s : MmeVideo) (context : DecodeContext) (discard : Bool) : MmeVideo :=
  let s :=
    match context.bufferIndex with
    | some i => if context.decodeInProgress then s.finishDecode i discard else s
    | none => s
  context.referenceFrameList.foldl releaseReference s

/-- An entry of a reference list takes its shares. -/
def takeReference (s : MmeVideo) (i : Nat) : MmeVideo :=
  let s := s.setOwnerCount i (s.ownerCount i + 1)
  match (s.bufferState i).macroblockStructure with
  | none => s
  | some m =>
    { s with structureCount := Function.update s.structureCount m (s.structureCount m + 1) }

/-- The use count of a reference frame, for its first slice. -/
def incrementUseCount (s : MmeVideo) (i : Nat) (f : ParsedFrame) : MmeVideo :=
  if f.firstSlice && f.referenceFrame then
    (s.setOwnerCount i (s.ownerCount i + 1)).setState i
      { s.bufferState i with referenceFrameCount := (s.bufferState i).referenceFrameCount + 1 }
  else s

/-- The buffers that reference lists name; a reference that is missing is to the
current buffer. -/
def translatedList (s : MmeVideo) (i : Nat) (f : ParsedFrame) : List Nat :=
  f.referenceFrameList.map fun decodeIndex => (s.translateDecodeIndex decodeIndex).getD i

/-- `TranslateReferenceFrameLists`, with the buffers that the lists name. -/
def translateReferenceFrameLists (s : MmeVideo) (i : Nat) (f : ParsedFrame) :
    List Nat × MmeVideo :=
  let s := s.incrementUseCount i f
  let list := s.translatedList i f
  (list, list.foldl takeReference s)

/-! ## Input -/

/-- The base class has a context for a frame; one that it has already is used. -/
def openDecodeContext (s : MmeVideo) : MmeVideo :=
  { s with decodeContext := some (s.decodeContext.getD ⟨none, false, []⟩) }

/-- The decode index is not greater than that of the decode before. -/
def outOfOrder (c : Configuration) (s : MmeVideo) (f : ParsedFrame) : Bool :=
  match s.currentDecodeIndex with
  | none => false
  | some index =>
    f.decodeFrameIndex < index || (!c.sliceDecodePermitted && f.decodeFrameIndex == index)

/-- The frame is refused before a context is taken for it. -/
def refuses (c : Configuration) (s : MmeVideo) (f : ParsedFrame) (e : Environment) : Bool :=
  s.halted || e.early || s.outOfOrder c f

/-- The frame in the current buffer is complete with its last slice, or left as it
is when a new one starts. -/
def completesPrevious (c : Configuration) (s : MmeVideo) (i : Nat) (f : ParsedFrame) : Bool :=
  (c.sliceDecodePermitted && f.firstSlice && (s.bufferState i).pictureStructure == .frame)
    || f.firstParsedParametersForOutputFrame

def completePrevious (c : Configuration) (s : MmeVideo) (f : ParsedFrame) : MmeVideo :=
  match s.currentDecodeBufferIndex with
  | none => s
  | some i => if s.completesPrevious c i f then s.outputPartialDecodeBuffers else s

/-- A buffer is obtained from the manifestor. -/
def obtainBuffer (s : MmeVideo) (i : Nat) : MmeVideo :=
  { (s.setOwnerCount i 1).setHold i .codec with currentDecodeBufferIndex := some i }

/-- `GetDecodeBuffer`, and the buffer if it returns no error. -/
def getDecodeBuffer (s : MmeVideo) (f : ParsedFrame) (e : Environment) : Option Nat × MmeVideo :=
  match e.buffer with
  | none => (none, s)
  | some i =>
    let s := s.obtainBuffer i
    match s.mapBufferToDecodeIndex f.decodeFrameIndex i with
    | none => (none, s)
    | some s => (if e.attached then some i else none, s.setState i (.obtained f))

/-- The first slice of a second field, whether the buffer can take it. -/
def addField (s : MmeVideo) (i : Nat) (f : ParsedFrame) : Bool × MmeVideo :=
  match s.mapBufferToDecodeIndex f.decodeFrameIndex i with
  | none => (false, s)
  | some s =>
    if (s.bufferState i).displayCount ≠ 0 then (false, s)
    else
      let s := s.setState i { s.bufferState i with displayCount := f.displayCount.1 }
      if maxPanScanValues < (s.bufferState i).panScanCount + f.panScanCount then (false, s)
      else
        (true,
          s.setState i
            { s.bufferState i with
              panScanCount := (s.bufferState i).panScanCount + f.panScanCount })

/-- A macroblock structure is attached to a buffer that the decode itself names so
many times. -/
def attachMacroblockStructure (s : MmeVideo) (i m selfReferences : Nat) : MmeVideo :=
  { s.setState i { s.bufferState i with macroblockStructure := some m } with
    structureCount := Function.update s.structureCount m (1 + selfReferences) }

/-- `FillOutDecodeCommand`, whether it returns no error. -/
def fillOutDecodeCommand (c : Configuration) (s : MmeVideo) (i : Nat) (list : List Nat)
    (f : ParsedFrame) (e : Environment) : Bool × MmeVideo :=
  if c.h264 && f.referenceFrame && (s.bufferState i).macroblockStructure.isNone then
    let (allocated, s) := s.referenceFrameSlotAllocate (some i)
    if !allocated then (false, if c.tdt then s.h264ReleaseReferenceFrame c none else s)
    else if !e.enoughMemory then (false, s)
    else
      match e.macroblockStructure with
      | none => (false, s)
      | some m => (e.filled, s.attachMacroblockStructure i m (list.count i))
  else (e.filled, s)

/-- The picture in a buffer with the one that is decoded into it. -/
def pictureWith (s : MmeVideo) (i : Nat) (f : ParsedFrame) : PictureStructure :=
  (s.bufferState i).pictureStructure.union f.pictureStructure

/-- `LastDecodeIntoThisBuffer`. -/
def lastDecodeIntoThisBuffer (c : Configuration) (s : MmeVideo) (i : Nat) (f : ParsedFrame)
    (e : Environment) : Bool :=
  s.pictureWith i f == .frame && (!c.sliceDecodePermitted || e.knownLastSliceInFieldFrame)

/-- The ongoing decode count and the completion flag of a buffer. -/
def startDecode (s : MmeVideo) (i : Nat) (f : ParsedFrame) (last : Bool) : MmeVideo :=
  s.setState i
    { s.bufferState i with
      pictureStructure := s.pictureWith i f
      decodesInProgress := (s.bufferState i).decodesInProgress + 1
      outputOnDecodesComplete := last }

/-- The current buffer and index after a decode that was sent. -/
def afterDecode (s : MmeVideo) (f : ParsedFrame) (last : Bool) : MmeVideo :=
  if last then
    { s with
      currentDecodeBufferIndex := none
      currentDecodeIndex := none }
  else { s with currentDecodeIndex := some f.decodeFrameIndex }

/-- MME has the command. -/
def launch (s : MmeVideo) (context : DecodeContext) : MmeVideo :=
  { s with inFlight := s.inFlight ++ [context] }

/-- The codec is halted: no command is sent, and the context stays the current one. -/
def suppress (s : MmeVideo) (context : DecodeContext) : MmeVideo :=
  { s with
    halted := true
    decodeContext := some context }

/-- `Codec_MmeVideo_c::Input`, from where the buffer is recorded in the context. -/
def decode (c : Configuration) (s : MmeVideo) (i : Nat) (f : ParsedFrame) (e : Environment) :
    Bool × MmeVideo :=
  let s := { s with decodeContext := none }
  let (list, s) := s.translateReferenceFrameLists i f
  let (filled, s) := s.fillOutDecodeCommand c i list f e
  if !filled then (false, s.releaseDecodeContext ⟨some i, false, list⟩ e.discard)
  else
    let last := s.lastDecodeIntoThisBuffer c i f e
    let s := s.startDecode i f last
    let context : DecodeContext := ⟨some i, true, list⟩
    match e.sent with
    | .refused => (false, s.releaseDecodeContext context e.discard)
    | .halted => (true, (s.suppress context).afterDecode f last)
    | .accepted => (true, (s.launch context).afterDecode f last)

/-- The frame is decoded into a new buffer. -/
def decodeIntoNew (c : Configuration) (s : MmeVideo) (f : ParsedFrame) (e : Environment) :
    Bool × MmeVideo :=
  match s.getDecodeBuffer f e with
  | (none, s) => (false, { s with decodeContext := none })
  | (some i, s) => s.decode c i f e

/-- It is decoded into the buffer that has a part of it. -/
def decodeIntoCurrent (c : Configuration) (s : MmeVideo) (i : Nat) (f : ParsedFrame)
    (e : Environment) : Bool × MmeVideo :=
  if f.firstSlice then
    match s.addField i f with
    | (false, s) => (false, s.outputPartialDecodeBuffers)
    | (true, s) => s.decode c i f e
  else s.decode c i f e

/-- A context for a frame, with the frame before it completed. -/
def prepared (c : Configuration) (s : MmeVideo) (f : ParsedFrame) : MmeVideo :=
  s.openDecodeContext.completePrevious c f

/-- `Codec_MmeVideo_c::Input`, whether it returns no error. -/
def input (c : Configuration) (s : MmeVideo) (f : ParsedFrame) (e : Environment) :
    Bool × MmeVideo :=
  if s.refuses c f e then (false, s)
  else if !f.newFrameParameters then (!(f.newStreamParameters && e.parametersRefused), s)
  else if f.newStreamParameters && e.parametersRefused then (false, s.openDecodeContext)
  else
    match (s.prepared c f).currentDecodeBufferIndex with
    | none => (s.prepared c f).decodeIntoNew c f e
    | some i => (s.prepared c f).decodeIntoCurrent c i f e

/-! ## Events -/

/-- The context of a decode that has completed. -/
def callbackFromMME (s : MmeVideo) (k : Nat) (discard : Bool) : MmeVideo :=
  match s.inFlight[k]? with
  | none => s
  | some context =>
    { s with inFlight := s.inFlight.eraseIdx k }.releaseDecodeContext context discard

end MmeVideo

/-- What happens to a codec. -/
inductive VideoEvent where
  | input (f : ParsedFrame) (e : Environment)
  /-- The completion of a decode in flight, in any order. -/
  | callback (k : Nat) (discard : Bool)
  /-- `none` for `CODEC_RELEASE_ALL`. -/
  | releaseReferenceFrame (decodeIndex : Option Nat)
  | releaseDecodeBuffer (i : Nat)
  | outputPartialDecodeBuffers
  | halt

namespace MmeVideo

def step (c : Configuration) (s : MmeVideo) : VideoEvent → MmeVideo
  | .input f e => (s.input c f e).2
  | .callback k discard => s.callbackFromMME k discard
  | .releaseReferenceFrame decodeIndex =>
    if c.h264 then s.h264ReleaseReferenceFrame c decodeIndex
    else s.releaseReferenceFrame c decodeIndex
  | .releaseDecodeBuffer i => s.releaseDecodeBuffer i
  | .outputPartialDecodeBuffers => s.outputPartialDecodeBuffers
  | .halt => { s with halted := true }

/-- A codec after `Reset` and `RegisterOutputBufferRing`, with so many entries in
its map. -/
def registered (indexBufferMapSize : Nat) : MmeVideo where
  ownerCount _ := 0
  bufferState _ := .cleared
  indexBufferMap := List.replicate indexBufferMapSize none
  currentDecodeBufferIndex := none
  currentDecodeIndex := none
  decodeContext := none
  inFlight := []
  outputRing := []
  halted := false
  structureCount _ := 0
  referenceFrameSlotUsed _ := false
  outstandingSlotAllocationRequest := none
  hold _ := .none

end MmeVideo

end Duckbox.Codec
