import Duckbox.Lib.Chunks
import Duckbox.Lib.Loop
import Duckbox.Lib.Region
import Duckbox.Pes.Header

/-!
# The video writers

`writeData` of the writers for VC-1, H.264 and MPEG-4 part 2 (`divx.c`): what is given
to `write` at once is a packet, a header of `InsertPesHeader` with what the writer puts
behind it. A call has no result where it divides by zero, writes past the end of an
array or reads behind a null pointer.

What lies behind the data of a frame is read as it is. The loop over the NALs of a
frame need not end, so it is followed as far as `nals` says.

Not modelled: printing, the descriptor beyond its sign, and the value returned.
-/

namespace Duckbox.Pes

open Duckbox.Lib

/-- `WriterAVCallData_t`. -/
structure WriterAVCallData where
  fd : Int
  data : Option (Nat → Byte)
  len : UInt
  pts : BitVec 64
  privateData : Option (Nat → Byte)
  privateSize : UInt
  frameRate : UInt
  frameScale : UInt
  width : UInt
  height : UInt
  version : Byte

/-- What the code does not determine. -/
structure Surroundings where
  /-- How many NALs of a frame are followed. -/
  nals : Nat
  /-- What is found in a byte of memory just allocated. -/
  found : Byte
  /-- What `((10000000.0 / FrameRate) * 1000.0)` is as an `unsigned int`. -/
  crazyFramerate : UInt → UInt

/-- `VC1_VIDEO_PES_START_CODE` and `MPEG_VIDEO_PES_START_CODE`. -/
abbrev vc1VideoPesStartCode : Byte := 0xfd

abbrev mpegVideoPesStartCode : Byte := 0xe0

/-- `PES_VERSION_FAKE_START_CODE`. -/
abbrev pesVersionFakeStartCode : UInt := 0x31

/-- `BUFFER_SIZE`. -/
abbrev bufferSize : Nat := 37412

/-- What is copied from a pointer; nothing can be copied from behind a null pointer. -/
def copyFrom (p : Option (Nat → Byte)) (size : UInt) : Option (List Byte) :=
  match p with
  | some m => some (load m 0 size.toNat)
  | none => if size = 0 then some [] else none

/-- Memory begins with bytes. -/
def beginsWith (m : Nat → Byte) (bytes : List Byte) : Bool := load m 0 bytes.length == bytes

/-- The data of a call that has any. -/
def WriterAVCallData.frame (call : WriterAVCallData) : Option (Nat → Byte) :=
  if call.len = 0 ∨ call.fd < 0 then none else call.data

/-! ## VC-1 -/

/-- The static variables of `vc1.c`. -/
structure Vc1Writer where
  initialHeader : Bool
  frameHeaderSeen : Bool
deriving DecidableEq, Repr

namespace Vc1Writer

/-- `reset`. -/
def reset (_ : Vc1Writer) : Vc1Writer := ⟨true, false⟩

/-- `SequenceLayerStartCode`. -/
def sequenceLayerStartCode : List Byte := [0x00, 0x00, 0x01, 0x80]

/-- `Metadata`. -/
def metadata : List Byte :=
  [0x00, 0x00, 0x00, 0xc5, 0x04, 0x00, 0x00, 0x00, 0xc0, 0x00, 0x00, 0x00, 0x00, 0x00, 0x00, 0x00,
    0x00, 0x00, 0x00, 0x00, 0x0c, 0x00, 0x00, 0x00, 0x60, 0x00, 0x00, 0x00, 0x00, 0x00, 0x00, 0x00,
    0x00, 0x00, 0x00, 0x00]

/-- `Vc1FrameStartCode`. -/
def vc1FrameStartCode : List Byte := [0x00, 0x00, 0x01, 0x0d]

/-- The bytes of a number, the low one first. -/
def littleEndian (x : UInt) : List Byte :=
  [x.setWidth 8, (x >>> 8).setWidth 8, (x >>> 16).setWidth 8, (x >>> 24).setWidth 8]

/-- The packet of the sequence layer: height and width are put in struct A, the frame
rate behind the first eight bytes of struct B. -/
def metadataPacket (env : Surroundings) (call : WriterAVCallData) : List Byte :=
  let body := sequenceLayerStartCode ++ metadata.take 12 ++ littleEndian call.height
    ++ littleEndian call.width ++ (metadata.drop 20).take 12
    ++ littleEndian (env.crazyFramerate call.frameRate)
  insertPesHeader (BitVec.ofNat 32 body.length) vc1VideoPesStartCode invalidPts 0 ++ body

/-- The packet of the codec's private data, which is put together in an array. -/
def privatePacket (call : WriterAVCallData) : Option (List Byte) :=
  if 128 < call.privateSize.toNat then none
  else
    (copyFrom call.privateData call.privateSize).map fun body =>
      insertPesHeader call.privateSize vc1VideoPesStartCode invalidPts 0 ++ body

/-- Where the loop over the pieces of a frame is. -/
structure Pieces where
  insertSampleHeader : Bool
  frameHeaderSeen : Bool
  pts : BitVec 64
  packets : List (List Byte)

/-- A pass of the loop. -/
def writePiece (call : WriterAVCallData) (data : Nat → Byte) (s : Pieces) (piece : List Byte) :
    Pieces :=
  let header :=
    insertPesHeader (BitVec.ofNat 32 piece.length) vc1VideoPesStartCode s.pts 0
  let seen := s.frameHeaderSeen ||
    (s.insertSampleHeader && 3 < call.len.toNat && beginsWith data vc1FrameStartCode)
  let header := if s.insertSampleHeader ∧ ¬ seen then header ++ vc1FrameStartCode else header
  { insertSampleHeader := false
    frameHeaderSeen := seen
    pts := invalidPts
    packets := s.packets ++ [header ++ piece] }

/-- The packets in front of the first frame. -/
def headers (env : Surroundings) (w : Vc1Writer) (call : WriterAVCallData) :
    Option (List (List Byte)) :=
  if w.initialHeader then
    (privatePacket call).map fun packet => [metadataPacket env call, packet]
  else some []

/-- `writeData`. -/
def writeData (env : Surroundings) (w : Vc1Writer) (call : WriterAVCallData) :
    Option (Vc1Writer × List (List Byte)) :=
  match call.frame with
  | none => some (w, [])
  | some data =>
    (w.headers env call).map fun packets =>
      let s := overPieces maxPesPacketSize (writePiece call data)
        ⟨true, w.frameHeaderSeen, call.pts, packets⟩ (load data 0 call.len.toNat)
      (⟨false, s.frameHeaderSeen⟩, s.packets)

end Vc1Writer

/-! ## H.264 -/

/-- The static variables of `h264.c`. -/
structure H264Writer where
  initialHeader : Bool
  nalLengthBytes : Nat
  noOtherBeginningFound : Bool
deriving DecidableEq, Repr

namespace H264Writer

/-- `reset`. -/
def reset (w : H264Writer) : H264Writer := { w with initialHeader := true }

/-- `Head`. -/
def head : List Byte := [0, 0, 0, 1]

/-- Whether a frame is taken for one of a byte stream. -/
def beginsByteStream (w : H264Writer) (data : Nat → Byte) : Bool :=
  beginsWith data [0x00, 0x00, 0x00, 0x01] ||
    (beginsWith data [0x00, 0x00, 0x01] && w.noOtherBeginningFound) ||
    beginsWith data [0xff, 0xff, 0xff, 0xff]

/-- The packet of such a frame, the private data in front of the first. It is sent with
one byte more than there is. -/
def byteStreamPacket (env : Surroundings) (w : H264Writer) (call : WriterAVCallData)
    (data : Nat → Byte) : Option (List Byte) :=
  let fakeStartCode := call.version.setWidth 32 <<< 8 ||| pesVersionFakeStartCode
  let privateData :=
    if w.initialHeader then copyFrom call.privateData call.privateSize else some []
  privateData.map fun privateData =>
    insertPesHeader call.len mpegVideoPesStartCode call.pts fakeStartCode
      ++ (privateData ++ load data 0 call.len.toNat ++ [env.found])

/-- The packet of the container's parameters. -/
def parametersPacket (call : WriterAVCallData) : List Byte :=
  let timeScale := call.frameScale
  let timeDelta :=
    if call.frameRate = 0xffffffff then (if 1000 < timeScale then 1001 else 1) else call.frameRate
  let byte (x : UInt) (n : Nat) : Byte := (x >>> n).setWidth 8
  let body : List Byte :=
    [0x00, 0x00, 0x01, 24, 0x00, 0xff,
      byte timeScale 24, byte timeScale 16, 0xff, byte timeScale 8, byte timeScale 0, 0xff,
      byte timeDelta 24, byte timeDelta 16, 0xff, byte timeDelta 8, byte timeDelta 0, 0xff, 0x80]
  insertPesHeader (BitVec.ofNat 32 body.length) mpegVideoPesStartCode invalidPts 0 ++ body

/-- So many parameter sets from an offset of `Params` on, each behind a start code, and
the offset behind them. -/
def copyParamSets (params : Nat → Byte) : Nat → Nat → List Byte × Nat
  | 0, paramOffset => ([], paramOffset)
  | count + 1, paramOffset =>
    let psLength := (params paramOffset).toNat * 2 ^ 8 + (params (paramOffset + 1)).toNat
    let (rest, next) := copyParamSets params count (paramOffset + (psLength + 2))
    (head ++ load params (paramOffset + 2) psLength ++ rest, next)

/-- The parameter sets of the private data: those of sequences, and those of pictures. -/
def paramSets (privateData : Nat → Byte) : List Byte :=
  let params := fun i => privateData (6 + i)
  let (sequences, paramOffset) := copyParamSets params (privateData 5 &&& 0x1f).toNat 0
  let (pictures, _) := copyParamSets params (params paramOffset).toNat (paramOffset + 1)
  sequences ++ pictures

def paramSetsPacket (privateData : Nat → Byte) : List Byte :=
  insertPesHeader (BitVec.ofNat 32 (paramSets privateData).length) mpegVideoPesStartCode invalidPts 0
    ++ paramSets privateData

/-- Where the loop over the pieces of a NAL is. -/
structure Pieces where
  nalPresent : Bool
  videoPts : BitVec 64
  packets : List (List Byte)

/-- A pass of it. -/
def writePiece (s : Pieces) (piece : List Byte) : Pieces :=
  let payload := if s.nalPresent then head ++ piece else piece
  { nalPresent := false
    videoPts := invalidPts
    packets := s.packets
      ++ [insertPesHeader (BitVec.ofNat 32 payload.length) mpegVideoPesStartCode s.videoPts 0
        ++ payload] }

/-- Where the loop over the NALs of a frame is. -/
structure Nals where
  nalStart : UInt
  videoPosition : UInt
  videoPts : BitVec 64
  packets : List (List Byte)

/-- The length in front of a NAL. -/
def nalLength (data : Nat → Byte) (position nalLengthBytes : Nat) : UInt :=
  (load data position nalLengthBytes).foldl (fun n b => n <<< 8 ||| b.setWidth 32) 0

/-- A pass of it. -/
def writeNal (data : Nat → Byte) (nalLengthBytes : Nat) (sampleSize : UInt) (s : Nals) : Nals :=
  let nalLength := nalLength data s.videoPosition.toNat nalLengthBytes
  let videoPosition := s.videoPosition + BitVec.ofNat 32 nalLengthBytes
  if sampleSize < s.nalStart + nalLength then
    { s with videoPosition := videoPosition, nalStart := sampleSize }
  else
    let pieces := overPieces bufferSize writePiece ⟨true, s.videoPts, s.packets⟩
      (load data videoPosition.toNat nalLength.toNat)
    { nalStart := s.nalStart + (nalLength + BitVec.ofNat 32 nalLengthBytes)
      videoPosition := videoPosition + nalLength
      videoPts := pieces.videoPts
      packets := pieces.packets }

/-- The loop, in a number of passes. -/
def writeNals (data : Nat → Byte) (nalLengthBytes : Nat) (sampleSize : UInt) : Nat → Nals → Nals
  | 0, s => s
  | nals + 1, s =>
    let s := writeNal data nalLengthBytes sampleSize s
    if s.nalStart < sampleSize then writeNals data nalLengthBytes sampleSize nals s else s

/-- `writeData`. -/
def writeData (env : Surroundings) (w : H264Writer) (call : WriterAVCallData) :
    Option (H264Writer × List (List Byte)) :=
  match call.frame with
  | none => some (w, [])
  | some data =>
    if w.beginsByteStream data then
      (byteStreamPacket env w call data).map fun packet =>
        ({ w with initialHeader := false }, [packet])
    else
      let w := { w with noOtherBeginningFound := false }
      let writeFrame (w : H264Writer) (packets : List (List Byte)) :=
        (w, (writeNals data w.nalLengthBytes call.len env.nals ⟨0, 0, call.pts, packets⟩).packets)
      if w.initialHeader then
        match call.privateData with
        | none => some (w, [])
        | some privateData =>
          some (writeFrame
            { w with
              initialHeader := false
              nalLengthBytes := (privateData 4 &&& 0x03).toNat + 1 }
            [parametersPacket call, paramSetsPacket privateData])
      else some (writeFrame w [])

end H264Writer

/-! ## MPEG-4 part 2 -/

/-- The static variable of `divx.c`. -/
structure DivxWriter where
  initialHeader : Bool
deriving DecidableEq, Repr

namespace DivxWriter

/-- `reset`. -/
def reset (_ : DivxWriter) : DivxWriter := ⟨true⟩

/-- The info record for the frame parser. -/
def fakeHeaders (usecPerFrame : UInt) : List Byte :=
  (BitPacker.new.putAll
    [(0x1b0, 32), (0x0, 8), (0x1b2, 32), (0x53545443, 32), (usecPerFrame, 32)]).flushBits

/-- `writeData`. -/
def writeData (w : DivxWriter) (call : WriterAVCallData) : Option (DivxWriter × List (List Byte)) :=
  match call.frame with
  | none => some (w, [])
  | some data =>
    if call.frameRate = 0 then none
    else
      let usecPerFrame := 1000000000 / call.frameRate
      let fakeStartCode := (5 : UInt) <<< 8 ||| pesVersionFakeStartCode
      let header := insertPesHeader call.len mpegVideoPesStartCode call.pts fakeStartCode
      let privateData :=
        if w.initialHeader then copyFrom call.privateData call.privateSize else some []
      privateData.map fun privateData =>
        (⟨false⟩,
          [header ++ (fakeHeaders usecPerFrame ++ privateData ++ load data 0 call.len.toNat)])

end DivxWriter

/-! ## Runs of them -/

/-- One of the writers. -/
inductive VideoWriter where
  | vc1
  | h264
  | divx
deriving DecidableEq, Repr

/-- The writers, and the packets written. -/
structure Writers where
  vc1 : Vc1Writer
  h264 : H264Writer
  divx : DivxWriter
  written : List (List Byte)

/-- What is called. -/
inductive WriterCall where
  | reset (writer : VideoWriter)
  | writeData (writer : VideoWriter) (call : WriterAVCallData)

namespace Writers

/-- The static variables as they are initialised. -/
def start : Writers where
  vc1 := ⟨true, false⟩
  h264 := ⟨true, 1, true⟩
  divx := ⟨true⟩
  written := []

/-- `writeData` of one of the writers. -/
def writeData (env : Surroundings) (w : Writers) (call : WriterAVCallData) :
    VideoWriter → Option (Writers × List (List Byte))
  | .vc1 => (w.vc1.writeData env call).map fun (vc1, packets) => ({ w with vc1 := vc1 }, packets)
  | .h264 =>
    (w.h264.writeData env call).map fun (h264, packets) => ({ w with h264 := h264 }, packets)
  | .divx => (w.divx.writeData call).map fun (divx, packets) => ({ w with divx := divx }, packets)

/-- `reset` of one of the writers. -/
def reset (w : Writers) : VideoWriter → Writers
  | .vc1 => { w with vc1 := w.vc1.reset }
  | .h264 => { w with h264 := w.h264.reset }
  | .divx => { w with divx := w.divx.reset }

def step (env : Surroundings) (w : Writers) : WriterCall → Option Writers
  | .reset writer => some (w.reset writer)
  | .writeData writer call =>
    (w.writeData env call writer).map fun (w, packets) =>
      { w with written := w.written ++ packets }

end Writers

end Duckbox.Pes
