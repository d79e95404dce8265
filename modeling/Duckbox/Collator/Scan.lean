import Duckbox.Collator.StartCode
import Duckbox.Pes.ReadHeader

/-!
# The scan of a chunk

What `Collator_PesVideo_c::Input` and `Collator2_PesVideo_c::ProcessInputForward`
have in common: the data that remains of a chunk, the headers that may be cut by
its end, and the look for the next start code, first one that spans what has been
accumulated, then one that begins in what remains (`lookForCode`).

The data is the memory as seen from `RemainingData`, for with fewer than three bytes
left the look for a spanning code may take one that is not there, and
`RemainingLength` go below zero.
-/

namespace Duckbox.Collator

open BufferPool (UnsignedInt)
open Collator2 (FrameTimes)
open Pes (PesTimes)
open Lib (word exists_word word_shiftLeft word_shiftRight word_and_second word_and_middle
  word_or_second word_or_middle word_inj)

/-- `RemainingData` and `RemainingLength`. -/
structure Remaining where
  data : UnsignedInt → Byte
  length : UnsignedInt

namespace Remaining

/-- So many bytes from an offset on. -/
def read (r : Remaining) (offset : UnsignedInt) (n : Nat) : List Byte :=
  (List.range n).map fun i => r.data (offset + BitVec.ofNat 32 i)

def bytes (r : Remaining) : List Byte := r.read 0 r.length.toNat

/-- `RemainingData += n; RemainingLength -= n`. -/
def advance (r : Remaining) (n : UnsignedInt) : Remaining :=
  ⟨fun a => r.data (a + n), r.length - n⟩

@[simp] theorem length_read (r : Remaining) (offset : UnsignedInt) (n : Nat) :
    (r.read offset n).length = n := by
  simp [read]

@[simp] theorem length_bytes (r : Remaining) : r.bytes.length = r.length.toNat :=
  r.length_read 0 _

end Remaining

/-! ## Headers -/

/-- `PES_PADDING_START_CODE`. -/
abbrev pesPaddingStartCode : Byte := 0xbe

/-- `PES_PADDING_INITIAL_HEADER_SIZE`. -/
abbrev pesPaddingInitialHeaderSize : Nat := 6

/-- `ZERO_START_CODE_HEADER_SIZE`. -/
abbrev zeroStartCodeHeaderSize : Nat := 7

/-- `IS_PES_START_CODE_VIDEO`. -/
def isPesStartCodeVideo (code : Byte) : Bool := code &&& 0xf0 = 0xe0 ∨ code = 0xfd

/-- `PES_HEADER_SIZE`. -/
def pesHeaderSize (header : Nat → Byte) : Nat := 9 + (header 8).toNat

/-- `PES_PADDING_SKIP`. -/
def pesPaddingSkip (header : Nat → Byte) : UnsignedInt :=
  (header 4).setWidth 32 <<< 8 ||| (header 5).setWidth 32

/-- `PartialHeaderType_t`. -/
inductive PartialHeaderType where
  | headerZeroStartCode
  | headerPesStartCode
  | headerPaddingStartCode
  | headerGenericStartCode
deriving DecidableEq

/-- What the `Configuration` of both collators says of start codes and headers. -/
structure CodeConfiguration where
  maxStartCodes : Nat
  streamIdentifierMask : UnsignedInt
  streamIdentifierCode : UnsignedInt
  ignoreCodesRangeStart : Byte
  ignoreCodesRangeEnd : Byte
  header : Pes.HeaderConfiguration

namespace CodeConfiguration

variable (c : CodeConfiguration) (code : Byte)

/-- `inrange( code, IgnoreCodesRangeStart, IgnoreCodesRangeEnd )`. -/
def ignored : Bool := c.ignoreCodesRangeStart ≤ code ∧ code ≤ c.ignoreCodesRangeEnd

/-- The packet is of the stream that is collated. -/
def ofStream : Bool := code.setWidth 32 &&& c.streamIdentifierMask = c.streamIdentifierCode

end CodeConfiguration

/-! ## The next start code -/

/-- What the look for a start code comes to. -/
inductive Found where
  /-- So many bytes of a code that may begin in what has been accumulated. -/
  | spanning (count : Nat)
  | code (offset : Nat)
  | nothing

/-- No time is kept for a start code that spans a packet header. -/
def clearSpanning (s : PesTimes) : PesTimes :=
  { s with
    useSpanningTime := false
    spanning := { s.spanning with playbackTimeValid := false, decodeTimeValid := false } }

/-- No code spans the packet header: the time kept is that of the frame, if it has no other. -/
def takeSpanning (s : PesTimes) : PesTimes :=
  if !s.times.playbackTimeValid ∧ s.spanning.playbackTimeValid then
    { clearSpanning s with times := s.spanning }
  else s

/-- The next start code, and what is left of the times. -/
def lookForCode (c : CodeConfiguration) (accumulated : List Byte) (r : Remaining) (times : PesTimes) :
    Found × PesTimes :=
  let remaining := r.bytes
  -- a code in the first word is noted before it is known whether it is ignored
  let times := if rawSpanningCount accumulated remaining = 4 then clearSpanning times else times
  let count := spanningCount c.ignored (r.data r.length) accumulated remaining
  if count ≠ 0 then (.spanning count, times)
  else
    let times := takeSpanning times
    let times := if remaining.length < 4 then times else clearSpanning times
    match findNextStartCode c.ignored remaining with
    | some offset => (.code offset, times)
    | none => (.nothing, times)

end Duckbox.Collator
