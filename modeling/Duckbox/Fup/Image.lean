import Duckbox.Fup.Crc
import Mathlib.Algebra.Order.Ring.Int

/-!
# fup makes and extracts images

`fup -c` writes a header block, each file given as blocks of a type, and then the
number of blocks and a new checksum into the header; `fup -x` walks the blocks by
their length fields and adds each to the file of its type. Compression is disabled.

Reading outside an array, or a loop that does not end, is `none`. The arguments of
`-c` come as options and files in pairs.

Not modelled: what is printed, the names of the files extracted, and
`blockCounterTotal`, which nothing reads.
-/

namespace Duckbox.Fup

/-- `uint16_t`. -/
abbrev Short := BitVec 16

/-- `DATA_BLOCKSIZE`. -/
abbrev dataBlockSize : Nat := 0x7FFA

/-- `MAX_PART_NUMBER`. -/
abbrev maxPartNumber : Nat := 17

/-! ## Shorts -/

/-- The two bytes `insertint16_t` puts down. -/
def shortBytes (value : Short) : List Byte := [value.extractLsb' 8 8, value.extractLsb' 0 8]

/-- `insertint16_t`. -/
def insertShort (dataBuf : List Byte) (pos : Nat) (value : Short) : List Byte :=
  (dataBuf.set pos (value.extractLsb' 8 8)).set (pos + 1) (value.extractLsb' 0 8)

/-- `toShort`. -/
def toShort (hi lo : Byte) : Short := lo.zeroExtend 16 + (hi.zeroExtend 16 <<< 8)

/-- `extractShort`; `none` is outside the buffer. -/
def extractShort (dataBuf : List Byte) (pos : Nat) : Option Short :=
  match dataBuf.drop pos with
  | hi :: lo :: _ => some (toShort hi lo)
  | _ => none

/-- `readShort`, and what is left to read. -/
def readShort : List Byte → Short × List Byte
  | hi :: lo :: rest => (toShort hi lo, rest)
  | _ => (0, [])

/-! ## Making an image -/

/-- `writeBlock`: what is written, what is left of the file, and what it returns. -/
def writeBlock (file : List Byte) (firstBlock : Bool) (type : Short) :
    List Byte × List Byte × Nat :=
  let (dataBuf, rest, compressedDataLen, uncompressedDataLen) :=
    if firstBlock && type == 0x10 then
      -- the shorts at 0, 2, .. 14, of which twelve bytes are counted as data
      ([type, 0x2303, 0, 0, 0xFFFF, 0, 0, 0].flatMap shortBytes, file, 12, 12)
    else
      -- `readAndCompress`
      let data := file.take dataBlockSize
      (shortBytes type ++ shortBytes (BitVec.ofNat 16 data.length) ++ data,
        file.drop dataBlockSize, data.length, data.length)
  let dataCrc := crc16 0 (dataBuf.take (compressedDataLen + 4))
  let blockHeader := shortBytes (BitVec.ofNat 16 (compressedDataLen + 6)) ++ shortBytes dataCrc
  (blockHeader ++ dataBuf.take (compressedDataLen + 4), rest, uncompressedDataLen)

theorem writeBlock_full {file : List Byte} {type : Short}
    (h : (writeBlock file false type).2.2 = dataBlockSize) :
    (writeBlock file false type).2.1.length < file.length := by
  have hpos : 0 < dataBlockSize := by decide
  have hlen : (file.take dataBlockSize).length = dataBlockSize := h
  show (file.drop dataBlockSize).length < file.length
  rw [List.length_take] at hlen
  rw [List.length_drop]
  omega

/-- The loop over a file: the image, and the number of blocks. -/
def writeFile (image file : List Byte) (type totalBlockCount : Short) : List Byte × Short :=
  let written := writeBlock file false type
  let image := image ++ written.1
  if _h : written.2.2 = dataBlockSize then
    writeFile image written.2.1 type (totalBlockCount + 1)
  else (image, totalBlockCount + 1)
termination_by file.length
decreasing_by exact writeBlock_full _h

/-- The options of `-c`. -/
def partType (option : String) : Short :=
  if option = "-a" ∨ option = "-1" then 0x01
  else if option = "-c0" ∨ option = "-2" then 0x02
  else if option = "-c4" ∨ option = "-3" then 0x03
  else if option = "-c8" ∨ option = "-4" then 0x04
  else if option = "-ca" ∨ option = "-5" then 0x05
  else if option = "-k" ∨ option = "-6" then 0x06
  else if option = "-d" ∨ option = "-7" then 0x07
  else if option = "-r" ∨ option = "-8" then 0x08
  else if option = "-u" ∨ option = "-9" then 0x09
  else if option = "-10" then 0x10
  else 0x01

/-- Bytes written over what is there. -/
def overwrite (image : List Byte) (pos : Nat) (bytes : List Byte) : List Byte :=
  image.take pos ++ bytes ++ image.drop (pos + bytes.length)

/-- "Refresh Header". -/
def refreshHeader (image : List Byte) (headerDataBlockLen : Nat) (totalBlockCount : Short) :
    List Byte :=
  let dataBuf := (image.drop 4).take headerDataBlockLen
  let dataBuf := insertShort dataBuf 8 totalBlockCount
  let image := overwrite image 4 dataBuf
  let dataCrc := crc16 0 dataBuf
  let dataBuf := insertShort dataBuf 0 dataCrc
  overwrite image 2 (dataBuf.take 2)

/-- `fup -c`: the options with their files. -/
def create (parts : List (String × List Byte)) : List Byte :=
  let (header, _, len) := writeBlock [] true 0x10
  let headerDataBlockLen := len + 4
  -- `uint8_t appendPartCount = argc - 3`
  let appendPartCount := 2 * parts.length % 256
  let (image, totalBlockCount) :=
    (parts.take (appendPartCount / 2)).foldl
      (fun (image, count) (option, file) => writeFile image file (partType option) count)
      (header, 0)
  refreshHeader image headerDataBlockLen totalBlockCount

/-! ## Extracting an image -/

/-- What is printed of the header. -/
structure IrdHeader where
  fpVersion : Short
  systemId1 : Short
  systemId2 : Short
  blockcount1 : Short
  blockcount2 : Short
  softwareversion1 : Short
  softwareversion2 : Short
  softwareversion3 : Short
deriving DecidableEq, Repr

/-- The `blockcount` as it is printed. -/
def IrdHeader.blockcount (h : IrdHeader) : Nat := h.blockcount1.toNat * 65536 + h.blockcount2.toNat

/-- The files extracted, by type, and what is found on the way. -/
structure Extraction where
  files : Nat → Option (List Byte)
  header : Option IrdHeader
  /-- How often the code stops for a key because a checksum is wrong. -/
  crcErrors : Nat
  /-- The blocks read. -/
  blocks : Nat

/-- The fields of the header block. -/
def extractHeader (dataBuf : List Byte) : Option IrdHeader := do
  return {
    fpVersion := ← extractShort dataBuf 0
    systemId1 := ← extractShort dataBuf 2
    systemId2 := ← extractShort dataBuf 4
    blockcount1 := ← extractShort dataBuf 6
    blockcount2 := ← extractShort dataBuf 8
    softwareversion1 := ← extractShort dataBuf 10
    softwareversion2 := ← extractShort dataBuf 12
    softwareversion3 := ← extractShort dataBuf 14 }

/-- What `readBlock` comes to: it returns zero, or the length of a block. -/
inductive BlockRead where
  | ends
  | block (len : Nat) (x : Extraction)

/-- `readBlock`, at `bytes` in the file. -/
def readBlock (x : Extraction) (bytes : List Byte) (firstBlock : Bool) : Option BlockRead :=
  let (len, bytes) := readShort bytes
  if len = 0 then some .ends
  else
    let (crc, bytes) := readShort bytes
    if len.toNat ≤ 2 then none
    else
      let dataBuf := bytes.take (len.toNat - 2)
      if dataBuf.length ≠ len.toNat - 2 then some .ends
      else
        let dataCrc := crc16 0 dataBuf
        let x :=
          { x with
            crcErrors := if crc ≠ dataCrc then x.crcErrors + 1 else x.crcErrors
            blocks := x.blocks + 1 }
        match extractShort dataBuf 0 with
        | none => none
        | some type =>
          if firstBlock ∧ type = 0x10 then
            (extractHeader dataBuf).map fun header =>
              .block len.toNat { x with header := some header }
          else if type.toNat < maxPartNumber then
            if len.toNat < 6 then none
            else
              -- `fopen` the first time, then `extractAndWrite`
              let file := (x.files type.toNat).getD [] ++ (dataBuf.drop 4).take (len.toNat - 6)
              some (.block len.toNat
                { x with files := Function.update x.files type.toNat (some file) })
          else some (.block len.toNat x)

/-- `int32_t`. -/
def int32 (n : Int) : Int := if n % 2 ^ 32 < 2 ^ 31 then n % 2 ^ 32 else n % 2 ^ 32 - 2 ^ 32

/-- `fseek( file, pos, SEEK_SET )`, which fails in front of the file. -/
def seek (position : Nat) (pos : Int) : Nat := if pos < 0 then position else pos.toNat

/-- The loop of `-x`, with the position in the file. -/
def extractLoop (file : List Byte) : Nat → Nat → Bool → Extraction → Option Extraction
  | 0, _, _, _ => none
  | fuel + 1, position, firstBlock, x =>
    match readBlock x (file.drop position) firstBlock with
    | none => none
    | some .ends => some x
    | some (.block len x) =>
      let pos := int32 (int32 position + len + 2)
      extractLoop file fuel (seek (position + len + 2) pos) false x

/-- `fup -x`. -/
def extract (file : List Byte) : Option Extraction :=
  extractLoop file (file.length + 1) 0 true ⟨fun _ => none, none, 0, 0⟩

/-! ## What an image is for -/

/-- The files given for a type, one after the other. -/
def contents (parts : List (String × List Byte)) (type : Nat) : List Byte :=
  parts.flatMap fun (option, file) => if (partType option).toNat = type then file else []

/-- The blocks the files take. -/
def blockCount (parts : List (String × List Byte)) : Nat :=
  (parts.map fun (_, file) => file.length / dataBlockSize + 1).sum

/-- What is extracted of an image made of files is these files, by type; no checksum
is wrong, and the header counts the blocks that follow it. -/
def RoundTrips (parts : List (String × List Byte)) : Prop :=
  ∃ x header, extract (create parts) = some x ∧
    (∀ type, (x.files type).getD [] = contents parts type) ∧
    x.crcErrors = 0 ∧ x.header = some header ∧ x.blocks = header.blockcount + 1

end Duckbox.Fup
