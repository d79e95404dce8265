import Duckbox.BufferPool.ReferenceCounting
import Duckbox.Infrastructure.StackGeneric
import Duckbox.Player.DecodeToManifest

/-!
# Collated frames and where they go

What `Collator2_Base_c` does with a frame once it is partitioned off:
`OutputOnePartition` puts it into the output ring in forward play. In reverse play
it stacks it until a frame confirms that there is a reversible point: then what
was stacked after the point (which precedes it in the stream) is held aside, the
point and what was stacked before it go into the ring, and what was held aside is
stacked again.

A buffer is stacked with bit 0 of its address telling a possible reversible point,
here a pair. The meta data of a frame is attached to every buffer of the pool when
the output ring is registered, so obtaining it does not fail, and that ring has an
entry for each of the buffers, so an insertion does not either.
-/

namespace Duckbox.Collator2

open BufferPool (UnsignedInt)
open Infrastructure (StackGeneric)
open Player (PlayDirection)

/-- `MAXIMUM_PARTITION_POINTS`. -/
abbrev maximumPartitionPoints : Nat := 64

/-- `PackedStartCode_t`. -/
abbrev PackedStartCode := BitVec 64

/-- `PackStartCode`. -/
def packStartCode (offset : UnsignedInt) (code : BitVec 8) : PackedStartCode :=
  offset.setWidth 64 <<< 8 ||| code.setWidth 64

/-- `ExtractStartCodeOffset`. -/
def extractStartCodeOffset (value : PackedStartCode) : UnsignedInt := (value >>> 8).setWidth 32

/-- `ExtractStartCodeCode`. -/
def extractStartCodeCode (value : PackedStartCode) : BitVec 8 := value.setWidth 8

/-- `FrameParserHeaderFlag_t`. -/
structure FrameParserHeaderFlag where
  partitionPoint : Bool
  possibleReversiblePoint : Bool
  confirmReversiblePoint : Bool
deriving DecidableEq

/-- `Flags |= HeaderFlags`. -/
def FrameParserHeaderFlag.or (f g : FrameParserHeaderFlag) : FrameParserHeaderFlag :=
  ⟨f.partitionPoint || g.partitionPoint, f.possibleReversiblePoint || g.possibleReversiblePoint,
    f.confirmReversiblePoint || g.confirmReversiblePoint⟩

/-- `CodedFrameParameters_t`, what a collator writes of it. -/
structure CodedFrameParameters where
  streamDiscontinuity : Bool
  flushBeforeDiscontinuity : Bool
  continuousReverseJump : Bool
  playbackTimeValid : Bool
  decodeTimeValid : Bool
  playbackTime : BitVec 64
  decodeTime : BitVec 64
  dataSpecificFlags : UnsignedInt
deriving DecidableEq

/-- A buffer with what is in it: its used bytes and its start code list. -/
structure CollatedBuffer where
  handle : Nat
  data : List (BitVec 8)
  startCodes : List PackedStartCode
deriving DecidableEq

/-- A buffer that holds a frame, with its coded frame parameters. -/
structure CodedFrame where
  buffer : CollatedBuffer
  codedFrameParameters : CodedFrameParameters
deriving DecidableEq

/-! ## The start code list of a frame -/

/-- Where frames go. -/
structure FrameOutput where
  /-- All that was inserted, the first first. -/
  outputRing : List CodedFrame
  reverseFrameStack : StackGeneric maximumPartitionPoints (CodedFrame × Bool)
  temporaryHoldingStack : StackGeneric maximumPartitionPoints (CodedFrame × Bool)

/-- The smooth reverse flag. -/
def CodedFrame.smoothReverse (frame : CodedFrame) : CodedFrame :=
  { frame with
    codedFrameParameters :=
      { frame.codedFrameParameters with
        streamDiscontinuity := true
        continuousReverseJump := true } }

namespace FrameOutput

/-- As `RegisterOutputBufferRing` leaves it. -/
def initial : FrameOutput := ⟨[], .empty, .empty⟩

/-- `OutputRing->Insert`. -/
def insert (s : FrameOutput) (frame : CodedFrame) : FrameOutput :=
  { s with outputRing := s.outputRing ++ [frame] }

def popReverse (s : FrameOutput) : Option ((CodedFrame × Bool) × FrameOutput) :=
  s.reverseFrameStack.pop.map fun (x, stack) => (x, { s with reverseFrameStack := stack })

def popTemporary (s : FrameOutput) : Option ((CodedFrame × Bool) × FrameOutput) :=
  s.temporaryHoldingStack.pop.map fun (x, stack) => (x, { s with temporaryHoldingStack := stack })

def pushReverse (x : CodedFrame × Bool) (s : FrameOutput) : FrameOutput :=
  { s with reverseFrameStack := s.reverseFrameStack.push x }

def pushTemporary (x : CodedFrame × Bool) (s : FrameOutput) : FrameOutput :=
  { s with temporaryHoldingStack := s.temporaryHoldingStack.push x }

/-- The loop that looks for a reversible point: the last buffer popped, and what
was popped before it held aside. -/
def findReversiblePoint : Nat → CodedFrame × Bool → FrameOutput → (CodedFrame × Bool) × FrameOutput
  | 0, bufferAndFlag, s => (bufferAndFlag, s)
  | k + 1, bufferAndFlag, s =>
    match s.popReverse with
    | none => (bufferAndFlag, s)
    | some (bufferAndFlag, s) =>
      if bufferAndFlag.2 then (bufferAndFlag, s)
      else findReversiblePoint k bufferAndFlag (s.pushTemporary bufferAndFlag)

/-- What a confirmed reversible point lets go, once a buffer has been pushed. -/
def outputReversed (bufferAndFlag : CodedFrame × Bool) (s : FrameOutput) : FrameOutput :=
  let (bufferAndFlag, s) := findReversiblePoint s.reverseFrameStack.level bufferAndFlag s
  let s :=
    if bufferAndFlag.2 then
      let s := s.insert bufferAndFlag.1.smoothReverse
      Lib.drain popReverse (fun x s => s.insert x.1) s.reverseFrameStack.level s
    else s
  Lib.drain popTemporary pushReverse s.temporaryHoldingStack.level s

/-- `OutputOnePartition`. -/
def outputOnePartition (direction : PlayDirection) (s : FrameOutput)
    (partition : CodedFrame × FrameParserHeaderFlag) : FrameOutput :=
  let (frame, frameFlags) := partition
  match direction with
  | .playForward => s.insert frame
  | .playBackward =>
    let bufferAndFlag := (frame, frameFlags.possibleReversiblePoint)
    let s := s.pushReverse bufferAndFlag
    if frameFlags.confirmReversiblePoint then s.outputReversed bufferAndFlag else s

end FrameOutput

end Duckbox.Collator2
