import Duckbox.Collator.PesVideo
import Duckbox.Lib.Chunks

/-!
# The audio collator's search

`SearchForPesHeader` of `Collator_PesAudio_c`, with what it reads and writes of the
collator and `AccumulateData` of `Collator_Base_c`. A start code that is inside a chunk
is found where it is; of one that is cut, what has been seen is remembered
(`TrailingStartCodeBytes`), and the code is put together in the buffer. Which codes are
passed over (`IgnoreCodesRangeStart` to `IgnoreCodesRangeEnd`) differs between the
sub-classes.
-/

namespace Duckbox.Collator.Audio

open Collator2 (CollatorStatus)
open Lib (Pass)
open Pes (PesTimes)

/-- `TrailingStartCodeBytes`, which has no other values. -/
inductive TrailingStartCode where
  | none
  | zero
  | zeroZero
  | zeroZeroOne
deriving DecidableEq

/-- `Collator_PesAudio_c`, so far as the search is concerned. -/
structure PesAudio where
  /-- The `AccumulatedDataSize` bytes at `BufferBase`. -/
  accumulated : List Byte
  seekingPesHeader : Bool
  gotPartialPesHeader : Bool
  gotPartialPesHeaderBytes : Nat
  pes : PesTimes
  trailingStartCode : TrailingStartCode

/-- `inrange( code, IgnoreCodesRangeStart, IgnoreCodesRangeEnd )` of the MPEG and AAC
sub-classes. -/
def mpegIgnored (code : Byte) : Bool := 0x01 ≤ code ∧ code ≤ 0xbf

variable (ignored : Byte → Bool) (maximumCodedFrameSize : Nat)

namespace PesAudio

/-- `AccumulateData`. -/
def accumulateData (s : PesAudio) (data : List Byte) : Bool × PesAudio :=
  if maximumCodedFrameSize < s.accumulated.length + data.length then (false, s)
  else (true, { s with accumulated := s.accumulated ++ data })

variable {maximumCodedFrameSize} {s : PesAudio} {data : List Byte}

theorem accumulateData_of_le (h : s.accumulated.length + data.length ≤ maximumCodedFrameSize) :
    s.accumulateData maximumCodedFrameSize data =
      (true, { s with accumulated := s.accumulated ++ data }) :=
  if_neg (Nat.not_lt_of_le h)

theorem accumulateData_of_lt (h : maximumCodedFrameSize < s.accumulated.length + data.length) :
    s.accumulateData maximumCodedFrameSize data = (false, s) :=
  if_pos h

end PesAudio

/-- The loop over trailing start code bytes: which there are behind it, the data that is
left, and the code that has been found. -/
def followTrailing : TrailingStartCode → List Byte → TrailingStartCode × List Byte × Option Byte
  | t, [] => (t, [], none)
  | .none, bytes => (.none, bytes, none)
  | .zeroZeroOne, code :: rest =>
    if ignored code then (.none, code :: rest, none) else (.none, rest, some code)
  | .zeroZero, b :: rest =>
    if b = 1 then followTrailing .zeroZeroOne rest
    else if b = 0 then followTrailing .zeroZero rest
    else (.none, b :: rest, none)
  | .zero, b :: rest =>
    if b = 0 then followTrailing .zero rest
    else (.none, b :: rest, none)

/-- "Examine the end of the buffer to determine if there is a (potential) trailing start code". -/
def trailingBytes (bytes : List Byte) : TrailingStartCode :=
  let last (k : Nat) : Byte := if k ≤ bytes.length then byteAt bytes (bytes.length - k) else 0xff
  if last 1 < 1 then
    if last 3 = 0 ∧ last 2 = 0 ∧ last 1 = 1 then .zeroZeroOne
    else if last 2 = 0 ∧ last 1 = 0 then .zeroZero
    else if last 1 = 0 then .zero
    else .none
  else .none

/-- `SearchForPesHeader`. -/
def searchForPesHeader (s : PesAudio) (bytes : List Byte) : Pass PesAudio Byte CollatorStatus :=
  match followTrailing ignored s.trailingStartCode bytes with
  | (_, rest, some code) =>
    match { s with
        seekingPesHeader := false
        gotPartialPesHeader := true
        gotPartialPesHeaderBytes := 4
        trailingStartCode := .none }.accumulateData maximumCodedFrameSize
          [0x00, 0x00, 0x01, code] with
    | (false, _) => .stop .collatorBufferOverflow
    | (true, s) => .again s rest
  | (t, [], none) => .again { s with trailingStartCode := t } []
  | (_, rest, none) =>
    let pes := if rest.length < 4 then s.pes else clearSpanning s.pes
    match findNextStartCode ignored rest with
    | some codeOffset =>
      .again
        { s with
          pes := pes
          seekingPesHeader := false
          gotPartialPesHeader := true
          gotPartialPesHeaderBytes := 0
          trailingStartCode := .none } (rest.drop codeOffset)
    | none => .again { s with pes := pes, trailingStartCode := trailingBytes rest } []

end Duckbox.Collator.Audio
