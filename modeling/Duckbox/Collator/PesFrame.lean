import Duckbox.FrameParser.BitStream
import Duckbox.Lib.Watched

/-!
# The frame collator

`Collator_PesFrame_c::Input` is given whole PES packets: it takes the packet length, the
header length and the flags from the data, reads the optional fields of the header bit by
bit, and accumulates the payload until the frame size of the private data is reached.

The block is somewhere in a memory of bytes; `Bits` reads it in aligned words. What
`InternalFrameFlush` does is a parameter. The model lists every access to the memory and
every payload length the function derives. `Bits.Get(8) + (Bits.Get(8) << 8) +
(Bits.Get(8) << 16)` is evaluated from the left.
-/

namespace Duckbox.Collator

open Duckbox.Lib
open Duckbox.FrameParser

/-- The members `Input` uses. -/
structure PesFrame where
  playbackTimeValid : Bool
  playbackTime : Nat
  decodeTimeValid : Bool
  decodeTime : Nat
  frameSize : BitVec 32
  remainingDataLength : BitVec 32
  accumulatedDataSize : BitVec 32
  numberOfStartCodes : Nat
  codedFrameBuffer : Bool
deriving DecidableEq

namespace PesFrame

/-- `Configuration.MaxStartCodes`. -/
def maxStartCodes : Nat := 128

/-- `DiscardAccumulatedData`. -/
def discardAccumulatedData (s : PesFrame) : PesFrame :=
  if s.codedFrameBuffer then { s with accumulatedDataSize := 0, numberOfStartCodes := 0 } else s

/-- `AccumulateStartCode`, the status of which is not looked at. -/
def accumulateStartCode (s : PesFrame) : PesFrame :=
  if maxStartCodes < s.numberOfStartCodes + 1 then s
  else { s with numberOfStartCodes := s.numberOfStartCodes + 1 }

/-- "Buffer overflow", of `AccumulateData`. -/
def overflows (maximumCodedFrameSize length : BitVec 32) (s : PesFrame) : Bool :=
  decide (maximumCodedFrameSize < s.accumulatedDataSize + length)

/-- What is done with the memory, and what is derived from it. -/
inductive Event where
  | read (start length : Nat)
  | payloadLength (length : BitVec 32)

section

variable (m : Nat → BitVec 8)

/-- A flag of `PesHeader[7]`. -/
def flagged (flags mask : BitVec 8) : Bool := flags &&& mask == mask

/-- "read PTS", "read DTS". -/
def readTime (bits : BitStream) : Nat × BitStream :=
  let bits := bits.flushUnseen m 4
  let (high, bits) := bits.get m 3
  let bits := bits.flushUnseen m 1
  let (middle, bits) := bits.get m 15
  let bits := bits.flushUnseen m 1
  let (low, bits) := bits.get m 15
  (high.toNat <<< 30 ||| middle.toNat <<< 15 ||| low.toNat, bits.flushUnseen m 1)

/-- The PTS, if there is one. -/
def readPts (flags : BitVec 8) (s : PesFrame) (bits : BitStream) : PesFrame × BitStream :=
  if flagged flags 0x80 then
    let (time, bits) := readTime m bits
    ({ s with playbackTime := time, playbackTimeValid := true }, bits)
  else (s, bits)

/-- The DTS, if there is one. -/
def readDts (flags : BitVec 8) (s : PesFrame) (bits : BitStream) : PesFrame × BitStream :=
  if flagged flags 0xc0 then
    let (time, bits) := readTime m bits
    ({ s with decodeTime := time, decodeTimeValid := true }, bits)
  else (s, bits)

/-- An optional field is passed over. -/
def passField (flags mask : BitVec 8) (n : Nat) (bits : BitStream) : BitStream :=
  if flagged flags mask then bits.flushUnseen m n else bits

/-- "walk down optional bits", to `PrivateDataPresent`. -/
def walkOptional (flags : BitVec 8) (bits : BitStream) : Bool × BitStream :=
  let bits := passField m flags 0x20 48 bits
  let bits := passField m flags 0x10 24 bits
  let bits := passField m flags 0x08 8 bits
  let bits := passField m flags 0x04 8 bits
  let bits := passField m flags 0x02 16 bits
  if flagged flags 0x01 then
    let (present, bits) := bits.get m 1
    (present != 0, bits.flushUnseen m 7)
  else (false, bits)

/-- The frame size of the private data. -/
def readFrameSize (bits : BitStream) : BitVec 32 × BitStream :=
  let (low, bits) := bits.get m 8
  let (middle, bits) := bits.get m 8
  let (high, bits) := bits.get m 8
  (low + middle <<< 8 + high <<< 16, bits)

/-- `if( PrivateDataPresent )`. -/
def readPrivateData (present : Bool) (s : PesFrame) (bits : BitStream) : PesFrame × BitStream :=
  if present then
    let s := if s.remainingDataLength ≠ 0 then s.discardAccumulatedData else s
    let (frameSize, bits) := readFrameSize m bits
    ({ s with frameSize := frameSize, remainingDataLength := frameSize }, bits)
  else (s, bits)

/-- "Too much data - have some packets been lost?", and the start code. -/
def prepare (payloadLength : BitVec 32) (s : PesFrame) : PesFrame :=
  let s :=
    if s.remainingDataLength.slt payloadLength then
      let s := if s.remainingDataLength ≠ 0 then s.discardAccumulatedData else s
      { s with remainingDataLength := payloadLength }
    else s
  s.accumulateStartCode

/-- `(PesHeader[4] << 8) + PesHeader[5]`. -/
def pesLength (pesHeader : Nat) : Nat := (m (pesHeader + 4)).toNat * 2 ^ 8 + (m (pesHeader + 5)).toNat

/-- `PayloadLength`. -/
def payloadLength (pesHeader : Nat) : BitVec 32 :=
  if pesLength m pesHeader ≠ 0 then
    BitVec.ofNat 32 (pesLength m pesHeader) - (m (pesHeader + 8)).setWidth 32 - 3
  else 0

/-- The accesses to `PesHeader` itself. -/
def headerReads (pesHeader : Nat) : List Event :=
  [.read (pesHeader + 4) 1, .read (pesHeader + 5) 1]
    ++ (if pesLength m pesHeader ≠ 0 then [.read (pesHeader + 8) 1] else [])
    ++ [.payloadLength (payloadLength m pesHeader), .read (pesHeader + 7) 1]

/-- The words that `Bits` has loaded from `pointer` on. -/
def wordReads (pointer : Nat) (bits : BitStream) : Event :=
  .read (4 * (pointer / 4)) (4 * bits.bitsData - 4 * (pointer / 4))

/-- Before a pass. -/
structure Position where
  offset : Nat
  collator : PesFrame
deriving DecidableEq

variable (internalFrameFlush : PesFrame → Bool × PesFrame) (maximumCodedFrameSize : BitVec 32)
  (data dataLength : Nat)

/-- From `AccumulateStartCode` on, `offset` that of the next packet: how it goes on, and
the access to the payload. -/
def accumulatePayload (pesHeader offset : Nat) (s : PesFrame) : Option Position × List Event :=
  let length := payloadLength m pesHeader
  if s.overflows maximumCodedFrameSize length then (none, [])
  else
    let payloadStart :=
      pesHeader + (BitVec.ofNat 32 (pesLength m pesHeader + 6) - length).toNat
    let s := { s with
      accumulatedDataSize := s.accumulatedDataSize + length
      remainingDataLength := s.remainingDataLength - length }
    let copied := [Event.read payloadStart length.toNat]
    if s.remainingDataLength.sle 0 then
      let (ok, s) := internalFrameFlush s
      (if ok then some ⟨offset, s⟩ else none, copied)
    else (some ⟨offset, s⟩, copied)

/-- The times that a header holds are read. -/
def readTimes (pesHeader : Nat) (s : PesFrame) : PesFrame × BitStream :=
  let flags := m (pesHeader + 7)
  let (s, bits) := readPts m flags s (.setPointer m (pesHeader + 9))
  readDts m flags s bits

/-- The rest of a header that is not malformed is read, to where `AccumulateStartCode`
is called. -/
def readHeader (pesHeader : Nat) (s : PesFrame) : PesFrame × BitStream :=
  let (s, bits) := readTimes m pesHeader s
  let (present, bits) := walkOptional m (m (pesHeader + 7)) bits
  let (s, bits) := readPrivateData m present s bits
  (prepare (payloadLength m pesHeader) s, bits)

/-- "Malformed pes header contains DTS without PTS". -/
def malformed (flags : BitVec 8) : Bool := flags &&& 0xc0#8 == 0x40#8

/-- A pass of the loop. -/
def packet (p : Position) : Option Position × List Event :=
  if p.offset < dataLength then
    let pesHeader := data + p.offset
    let offset := (p.offset + (pesLength m pesHeader + 6)) % 2 ^ 32
    if malformed (m (pesHeader + 7)) then
      let (_, bits) := readTimes m pesHeader p.collator
      (none, headerReads m pesHeader ++ [wordReads (pesHeader + 9) bits])
    else
      let (s, bits) := readHeader m pesHeader p.collator
      let (next, copied) := accumulatePayload m internalFrameFlush maximumCodedFrameSize pesHeader
        offset s
      (next, headerReads m pesHeader ++ wordReads (pesHeader + 9) bits :: copied)
  else (none, [])

/-- `Input`: everything it does with the memory. -/
def input (fuel : Nat) (s : PesFrame) : Option (List Event) :=
  watch (packet m internalFrameFlush maximumCodedFrameSize data dataLength) fuel ⟨0, s⟩

/-- An access lies in the block, a length is not negative. -/
def Event.Good : Event → Prop
  | .read start length => length = 0 ∨ data ≤ start ∧ start + length ≤ data + dataLength
  | .payloadLength length => length.msb = false

/-! ## What a packet needs -/

/-- The bytes of a field that a flag announces. -/
def field (flags mask : BitVec 8) (n : Nat) : Nat := if flagged flags mask then n else 0

def timeFields (flags : BitVec 8) : Nat := field flags 0x80 5 + field flags 0xc0 5

/-- The fields between the times and the extension. -/
def middleFields (flags : BitVec 8) : Nat :=
  field flags 0x20 6 + field flags 0x10 3 + field flags 0x08 1 + field flags 0x04 1
    + field flags 0x02 2

/-- The extension flags and, if they say so, the private data, at an address. -/
def extension (flags : BitVec 8) (q : Nat) : Nat :=
  if flagged flags 0x01 then if (m q).msb then 4 else 1 else 0

/-- How many bytes the flags put into a header behind `PesHeader[8]`, as far as they are
read. -/
def optionalBytes (pesHeader : Nat) : Nat :=
  let flags := m (pesHeader + 7)
  timeFields flags +
    if malformed flags then 0
    else middleFields flags
      + extension m flags (pesHeader + 9 + timeFields flags + middleFields flags)

/-- The packet at a position: the words that hold the bytes its flags announce lie in the
block, or the one that holds the byte behind `PesHeader[8]` if they announce none; its
length, unless it is 0, is that of its header at least; and its payload lies in the block,
unless it is empty or is not accumulated. -/
def PacketFits (p : Position) : Prop :=
  p.offset < dataLength →
    let pesHeader := data + p.offset
    4 * ((pesHeader + 9 + max 1 (optionalBytes m pesHeader) + 3) / 4) ≤ data + dataLength ∧
    (pesLength m pesHeader = 0 ∨ (m (pesHeader + 8)).toNat + 3 ≤ pesLength m pesHeader) ∧
    (malformed (m (pesHeader + 7)) = true ∨ payloadLength m pesHeader = 0 ∨
      (readHeader m pesHeader p.collator).1.overflows maximumCodedFrameSize
        (payloadLength m pesHeader) = true ∨
      p.offset + pesLength m pesHeader + 6 ≤ dataLength)

end

end PesFrame

end Duckbox.Collator
