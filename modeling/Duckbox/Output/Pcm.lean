import Duckbox.Lib.Chunks
import Duckbox.Lib.Loop

/-!
# The LPCM writer

`writeData` of the LPCM writer: input of any length is recut into packets of
`SubFrameLen` bytes, what is left over of a call kept in `breakBuffer` for the
next. `prepareClipPlay` works the length of a packet out of the stream
parameters.

A byte of the injected data that the code reads out of a variable nobody wrote is
`none`. A call comes to `none` where it does not come to an end, divides by zero
or runs off its buffer.

Not modelled: the little-endian flag, which nothing reads, and the file descriptor
beyond its sign (a packet written is a packet injected).
-/

namespace Duckbox.Output

open Duckbox.Lib

/-- `unsigned char`. -/
abbrev Byte := BitVec 8

/-- `pcmPrivateData_t`. -/
structure PcmPrivateData where
  uNoOfChannels : Int
  uSampleRate : Int
  uBitsPerSample : Int
deriving DecidableEq, Repr

/-- `WriterAVCallData_t`, as far as the writer reads it. -/
structure WriterAVCallData where
  fd : Int
  data : Option (List Byte)
deriving DecidableEq, Repr

/-- What one `write` injects: the PES header with the private data area, and the
PCM data. -/
structure PcmPacket where
  header : List Byte
  payload : List (Option Byte)
deriving DecidableEq, Repr

/-- The static variables of the writer, and what it has injected. -/
structure PcmWriter where
  initialHeader : Bool
  subFrameLen : Nat
  subFramesPerPES : Nat
  lpcmPes : List Byte
  lpcmPrv : List Byte
  /-- The `breakBufferFillSize` bytes of `breakBuffer`. -/
  breakBuffer : List Byte
  injected : List PcmPacket
deriving DecidableEq, Repr

/-- `clpcm_pes`. -/
def clpcmPes : List Byte :=
  [0x00, 0x00, 0x01, 0xBD, 0x07, 0xF1, 0x81, 0x81, 0x09, 0x21, 0x00, 0x01, 0x00, 0x01,
    0x1E, 0x60, 0x0A, 0xFF]

/-- `clpcm_prv`. -/
def clpcmPrv : List Byte :=
  [0xA0, 0, 0, 0x0A, 0, 9, 0x00, 0x0F, 0x0F, 0, 0, 0x80, 0, 0]

namespace PcmPrivateData

/-- "Set up sample rate": the bits of the rate, and the samples of a sub-frame. -/
def rate (p : PcmPrivateData) : Byte × Nat :=
  if p.uSampleRate = 48000 then (0x00, 40)
  else if p.uSampleRate = 96000 then (0x10, 80)
  else if p.uSampleRate = 192000 then (0x20, 160)
  else if p.uSampleRate = 44100 then (0x80, 40)
  else if p.uSampleRate = 88200 then (0x90, 80)
  else if p.uSampleRate = 176400 then (0xA0, 160)
  else (0x00, 0)

/-- The bytes of one sub-frame, an `unsigned int`. -/
def subFrame (p : PcmPrivateData) : Nat :=
  (BitVec.ofNat 32 p.rate.2 * BitVec.ofInt 32 p.uNoOfChannels
    * BitVec.ofInt 32 (p.uBitsPerSample.tdiv 8)).toNat

/-- "As many complete subframes per PES as we can". -/
def subFramesPerPES (p : PcmPrivateData) : Nat :=
  (2048 - clpcmPes.length - clpcmPrv.length) / p.subFrame

/-- `SubFrameLen` in the end. -/
def subFrameLen (p : PcmPrivateData) : Nat := p.subFrame * p.subFramesPerPES

end PcmPrivateData

namespace PcmWriter

/-- `prepareClipPlay`, its result ignored by the caller; `none` divides by zero. -/
def prepareClipPlay (w : PcmWriter) (p : PcmPrivateData) : Option PcmWriter :=
  if p.subFrame = 0 then none
  else
    let pesLength := p.subFrameLen + (clpcmPes.length - 6) + clpcmPrv.length
    let wordLength : Byte := if p.uBitsPerSample = 24 then 0x20 else 0x00
    some
      { w with
        subFrameLen := p.subFrameLen
        subFramesPerPES := p.subFramesPerPES
        breakBuffer := []
        lpcmPes :=
          (clpcmPes.set 4 (BitVec.ofNat 8 (pesLength / 256))).set 5 (BitVec.ofNat 8 pesLength)
        lpcmPrv :=
          ((clpcmPrv.modify 8 (· ||| p.rate.1)).set 10 (BitVec.ofInt 8 (p.uNoOfChannels - 1))).modify
            7 (· ||| wordLength) }

end PcmWriter

/-! ## The order of the bytes -/

/-- The loop for 16 bits; `none` reads past the end. -/
def swapBytes : List Byte → Option (List (Option Byte))
  | [] => some []
  | a :: b :: rest => (swapBytes rest).map ([some b, some a] ++ ·)
  | [_] => none

/-- The loop for anything else. `tmp[8]` is written twice and `tmp[6]` never. -/
def regroupBytes : List Byte → Option (List (Option Byte))
  | [] => some []
  | b0 :: b1 :: b2 :: b3 :: b4 :: b5 :: b6 :: b7 :: b8 :: b9 :: b10 :: b11 :: rest =>
    let tmp : List (Option Byte) := List.replicate 12 none
    let tmp := tmp.set 0 (some b2)
    let tmp := tmp.set 1 (some b1)
    let tmp := tmp.set 8 (some b0)
    let tmp := tmp.set 2 (some b5)
    let tmp := tmp.set 3 (some b4)
    let tmp := tmp.set 9 (some b3)
    let tmp := tmp.set 4 (some b8)
    let tmp := tmp.set 5 (some b7)
    let tmp := tmp.set 10 (some b6)
    let tmp := tmp.set 7 (some b11)
    let tmp := tmp.set 8 (some b10)
    let tmp := tmp.set 11 (some b9)
    (regroupBytes rest).map (tmp ++ ·)
  | _ => none

/-- "Write the PCM data". -/
def reorder (p : PcmPrivateData) (block : List Byte) : Option (List (Option Byte)) :=
  if p.uBitsPerSample = 16 then swapBytes block else regroupBytes block

namespace PcmWriter

/-- A packet goes out, and the headers are made ready for the next. -/
def inject (w : PcmWriter) (payload : List (Option Byte)) : PcmWriter :=
  { w with
    breakBuffer := []
    lpcmPrv := w.lpcmPrv.modify 1 fun count => (count + BitVec.ofNat 8 w.subFramesPerPES) &&& 0x1F
    lpcmPes := (((w.lpcmPes.set 7 0x01).set 14 0xFF).set 15 0xFF).set 16 0xFF
    injected := w.injected ++ [⟨w.lpcmPes ++ w.lpcmPrv, payload⟩] }

/-- One pass of the loop over the call's data, `buffer` what is left of it. -/
def pass (p : PcmPrivateData) (w : PcmWriter) (buffer : List Byte) : Pass PcmWriter Byte Unit :=
  if buffer.length < w.subFrameLen then .again { w with breakBuffer := buffer } []
  else
    let (block, rest) :=
      if 0 < w.breakBuffer.length then
        let first := w.subFrameLen - w.breakBuffer.length
        (w.breakBuffer ++ buffer.take first, buffer.drop first)
      else (buffer.take w.subFrameLen, buffer.drop w.subFrameLen)
    match reorder p block with
    | some payload => .again (w.inject payload) rest
    | none => .stop ()

/-- `writeData`: what it returns, and the writer. -/
def writeData (p : PcmPrivateData) (w : PcmWriter) (call : WriterAVCallData) :
    Option (Nat × PcmWriter) :=
  match call.data with
  | none => some (0, w)
  | some buffer =>
    if buffer.length = 0 then some (0, w)
    else if call.fd < 0 then some (0, w)
    else
      let ready :=
        if w.initialHeader then prepareClipPlay { w with initialHeader := false } p else some w
      match ready with
      | none => none
      | some w =>
        match loopWithin (pass p) buffer.length w buffer with
        | some (.ok w) => some (buffer.length, w)
        | some (.error _) => none
        | none => none

/-- The writer before the first call. -/
def start : PcmWriter where
  initialHeader := true
  subFrameLen := 0
  subFramesPerPES := 0
  lpcmPes := []
  lpcmPrv := []
  breakBuffer := []
  injected := []

/-- A run of calls with the same stream parameters. -/
def calls (p : PcmPrivateData) : List WriterAVCallData → Option PcmWriter :=
  run (fun w call => (w.writeData p call).map Prod.snd) start

/-- All the PCM data injected. -/
def payload (w : PcmWriter) : List (Option Byte) := w.injected.flatMap PcmPacket.payload

end PcmWriter

/-! ## What the writer is for -/

/-- The input of a call: data that is given and not refused. -/
def WriterAVCallData.input (call : WriterAVCallData) : List Byte :=
  if call.fd < 0 then [] else call.data.getD []

/-- The input of a run. -/
def inputOf (calls : List WriterAVCallData) : List Byte := calls.flatMap WriterAVCallData.input

/-- The bytes of each 16-bit sample the other way round. -/
def swapped : List Byte → List Byte
  | a :: b :: rest => b :: a :: swapped rest
  | [a] => [a]
  | [] => []

/-- "A1cA1bA1a-B1cB1bB1a-A2cA2bA2a-B2cB2bB2a to A1aA1bB1aB1b.A2aA2bB2aB2b-A1cB1cA2cB2c". -/
def regrouped : List Byte → List Byte
  | a1c :: a1b :: a1a :: b1c :: b1b :: b1a :: a2c :: a2b :: a2a :: b2c :: b2b :: b2a :: rest =>
    [a1a, a1b, b1a, b1b, a2a, a2b, b2a, b2b, a1c, b1c, a2c, b2c] ++ regrouped rest
  | rest => rest

/-- The order in which the samples are to be injected. -/
def sampleOrder (p : PcmPrivateData) (data : List Byte) : List Byte :=
  if p.uBitsPerSample = 16 then swapped data else regrouped data

/-- What has been injected, put in the order of the input, and then what is held
back, is the input. -/
def KeepsSamples (p : PcmPrivateData) (calls : List WriterAVCallData) : Prop :=
  ∃ w, PcmWriter.calls p calls = some w ∧
    w.payload = (sampleOrder p ((inputOf calls).take w.payload.length)).map some ∧
    w.breakBuffer = (inputOf calls).drop w.payload.length

end Duckbox.Output
