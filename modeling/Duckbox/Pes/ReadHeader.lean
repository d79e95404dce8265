import Duckbox.Collator2.Accumulation
import Duckbox.Pes.Header
import Duckbox.FrameParser.BitStream

/-!
# How the collators read the header of a PES packet

`ReadPesHeader` of `Collator_Pes_c` and of `Collator2_Pes_c`, over the memory that
has the header. The first checks the marker bits of a time, does not take a
scrambled packet, puts the times back where there is an error, and hands them to a
frame that has no data yet; the second does none of this.

Not modelled: reports. The stuffing in front of the header of a system stream is
read as far as `limit` says; a call that finds no end of it there has no result.
-/

namespace Duckbox.Pes

open Collator2 (FrameTimes CollatorStatus)
open FrameParser (BitStream)

/-- What `Configuration` says of headers. -/
structure HeaderConfiguration where
  extendedHeaderLength : UInt
  subStreamIdentifierMask : UInt
  subStreamIdentifierCode : UInt

/-- The members of a collator that a header is read to. -/
structure PesTimes where
  times : FrameTimes
  spanning : FrameTimes
  useSpanningTime : Bool
  pesPacketLength : UInt
  pesPayloadLength : UInt
  /-- The times of `CodedFrameParameters`. -/
  codedFrame : FrameTimes
  accumulatedDataSize : UInt

/-- `PES_INITIAL_HEADER_SIZE`. -/
abbrev pesInitialHeaderSize : Nat := 9

/-- `PES_START_CODE_EXTENDED_STREAM_ID`. -/
abbrev extendedStreamId : Byte := 0xfd

section

variable (m : Nat → Byte)

/-! ## A time -/

/-- What three fields of a time are put together to. -/
def timeOf (high middle low : UInt) : BitVec 64 :=
  high.setWidth 64 <<< 30 ||| (middle <<< 15).setWidth 64 ||| low.setWidth 64

/-- A time, and the marker bits not looked at. -/
def readTime (bits : BitStream) : BitVec 64 × BitStream :=
  let (high, bits) := bits.get m 3
  let bits := bits.flushUnseen m 1
  let (middle, bits) := bits.get m 15
  let bits := bits.flushUnseen m 1
  let (low, bits) := bits.get m 15
  let bits := bits.flushUnseen m 1
  (timeOf high middle low, bits)

/-- `MarkerBit( 1 )`. -/
def markerBit (bits : BitStream) : Option BitStream :=
  let (marker, bits) := bits.get m 1
  if marker ≠ 1 then none else some bits

/-- A time, with all its marker bits set. -/
def readMarkedTime (bits : BitStream) : Option (BitVec 64 × BitStream) :=
  let (high, bits) := bits.get m 3
  (markerBit m bits).bind fun bits =>
    let (middle, bits) := bits.get m 15
    (markerBit m bits).bind fun bits =>
      let (low, bits) := bits.get m 15
      (markerBit m bits).map fun bits => (timeOf high middle low, bits)

/-- The times that the flags of a header tell of, each behind four bits that are not
looked at. -/
def readTimes (read : BitStream → Option (BitVec 64 × BitStream)) (flags : Byte)
    (times : FrameTimes) (bits : BitStream) : Option (FrameTimes × BitStream) :=
  let playback : Option (FrameTimes × BitStream) :=
    if flags &&& 0x80 = 0x80 then
      (read (bits.flushUnseen m 4)).map fun (time, bits) =>
        ({ times with playbackTime := time, playbackTimeValid := true }, bits)
    else some (times, bits)
  playback.bind fun (times, bits) =>
    if flags &&& 0xc0 = 0xc0 then
      (read (bits.flushUnseen m 4)).map fun (time, bits) =>
        ({ times with decodeTime := time, decodeTimeValid := true }, bits)
    else some (times, bits)

/-! ## The fields behind the times -/

/-- A field that is passed over where its flag is set. -/
def skipField (flags flag : Byte) (n : Nat) (bits : BitStream) : BitStream :=
  if flags &&& flag = flag then bits.flushUnseen m n else bits

/-- Whether the packet is not of the sub stream that the collator takes. -/
def rejectsSubStream (c : HeaderConfiguration) (flags : Byte) (bits : BitStream) : Bool :=
  -- ESCR, ES rate, trick mode, additional copy info, CRC
  let bits := skipField m flags 0x20 48 bits
  let bits := skipField m flags 0x10 24 bits
  let bits := skipField m flags 0x08 8 bits
  let bits := skipField m flags 0x04 8 bits
  let bits := skipField m flags 0x02 16 bits
  if flags &&& 0x01 = 0x01 then
    let (pesPrivateFlag, bits) := bits.get m 1
    let (packHeaderFieldFlag, bits) := bits.get m 1
    let (prgCounterFlag, bits) := bits.get m 1
    let (pstdFlag, bits) := bits.get m 1
    let bits := bits.flushUnseen m 3
    let (pesExtensionFlag2, bits) := bits.get m 1
    let bits := bits.flushUnseen m ((if pesPrivateFlag ≠ 0 then 128 else 0)
      + (if packHeaderFieldFlag ≠ 0 then 8 else 0) + (if prgCounterFlag ≠ 0 then 16 else 0)
      + (if pstdFlag ≠ 0 then 16 else 0))
    if pesExtensionFlag2 ≠ 0 then
      let bits := bits.flushUnseen m 8
      let (streamIdExtFlag, bits) := bits.get m 1
      if streamIdExtFlag = 0 then
        let (subStreamId, _) := bits.get m 7
        subStreamId &&& c.subStreamIdentifierMask != c.subStreamIdentifierCode
      else false
    else false
  else false

/-! ## A system stream -/

/-- `while( Bits.Show(8) == 0xff ) Bits.Flush(8)`. -/
def skipStuffing : Nat → BitStream → Option BitStream
  | 0, _ => none
  | limit + 1, bits =>
    let (byte, bits) := bits.showBits m 8
    if byte = 0xff then skipStuffing limit (bits.flush 8) else some bits

/-- The times of the header of a system stream. -/
def readSystemTimes (limit : Nat) (times : FrameTimes) (bits : BitStream) : Option FrameTimes :=
  (skipStuffing m limit bits).map fun bits =>
    let (shown, bits) := bits.showBits m 2
    -- STD scale and buffer size
    let bits := if shown = 0x01 then ((bits.flush 2).flushUnseen m 1).flushUnseen m 13 else bits
    let (flags, bits) := bits.get m 4
    let (times, bits) :=
      if flags = 0x02 ∨ flags = 0x03 then
        let (time, bits) := readTime m bits
        ({ times with playbackTime := time, playbackTimeValid := true }, bits)
      else (times, bits)
    if flags = 0x03 then
      let (time, _) := readTime m (bits.flushUnseen m 4)
      { times with decodeTime := time, decodeTimeValid := true }
    else times

/-! ## The header -/

/-- What both do first with the header at `pos`: the times are taken over to a start
code that spans the header, and the lengths are read. -/
def beginHeader (c : HeaderConfiguration) (pos : Nat) (s : PesTimes) : PesTimes :=
  let pesPacketLength : UInt := (m (pos + 4)).setWidth 32 <<< 8 + (m (pos + 5)).setWidth 32
  { s with
    spanning := s.times
    useSpanningTime := true
    times := { s.times with playbackTimeValid := false, decodeTimeValid := false }
    pesPacketLength := pesPacketLength
    pesPayloadLength :=
      if pesPacketLength ≠ 0 then
        pesPacketLength - (m (pos + 8)).setWidth 32 - 3 - c.extendedHeaderLength
      else 0 }

/-- "Pop the spanning values back into the main ones". -/
def PesTimes.popSpanning (s : PesTimes) : PesTimes :=
  { s with
    times := s.spanning
    spanning := { s.spanning with playbackTimeValid := false, decodeTimeValid := false } }

/-- A frame with no data yet takes the times at once. -/
def PesTimes.useImmediately (s : PesTimes) : PesTimes :=
  if s.accumulatedDataSize = 0 then
    { s with
      codedFrame := s.times
      times := { s.times with playbackTimeValid := false, decodeTimeValid := false } }
  else s

/-- `Collator_Pes_c::ReadPesHeader`. -/
def readPesHeader (c : HeaderConfiguration) (limit pos : Nat) (s : PesTimes) :
    Option (CollatorStatus × PesTimes) :=
  let s := beginHeader m c pos s
  if m (pos + 6) &&& 0xc0 = 0x80 then
    let bits := BitStream.setPointer m (pos + 9)
    if m (pos + 6) &&& 0x20 = 0x20 then some (.collatorError, s.popSpanning)
    else
      match readTimes m (readMarkedTime m) (m (pos + 7)) s.times bits with
      | none => some (.collatorError, s.popSpanning)
      | some (times, bits) =>
        if m (pos + 3) = extendedStreamId ∧ rejectsSubStream m c (m (pos + 7)) bits then
          some (.collatorError, s.popSpanning)
        else some (.collatorNoError, { s with times := times }.useImmediately)
  else
    (readSystemTimes m limit s.times (BitStream.setPointer m (pos + 6))).map fun times =>
      (.collatorNoError, { s with times := times }.useImmediately)

/-- `Collator2_Pes_c::ReadPesHeader`. -/
def readPesHeader2 (c : HeaderConfiguration) (limit pos : Nat) (s : PesTimes) :
    Option (CollatorStatus × PesTimes) :=
  let s := beginHeader m c pos s
  if m (pos + 6) &&& 0xc0 = 0x80 then
    let bits := BitStream.setPointer m (pos + 9)
    (readTimes m (fun bits => some (readTime m bits)) (m (pos + 7)) s.times bits).map
      fun (times, bits) =>
        if m (pos + 3) = extendedStreamId ∧ rejectsSubStream m c (m (pos + 7)) bits then
          (.collatorError, { s with times := times })
        else (.collatorNoError, { s with times := times })
  else
    (readSystemTimes m limit s.times (BitStream.setPointer m (pos + 6))).map fun times =>
      (.collatorNoError, { s with times := times })

end

end Duckbox.Pes
