import Duckbox.Fup.Image
import Duckbox.Lib.Chunks

/-!
# Extracting what was made

An image is its header and the blocks of the files, each framed by its length and
checksum (`create_eq`), and a walk over framed blocks reads each of them
(`extractLoop_blocks`), also where the position no longer fits in an `int32_t`. So
what is extracted is what went in; but the number of arguments is kept in a byte,
and of 128 files or more only so many are taken as the byte says (`roundTrips_iff`).
-/

namespace Duckbox.Fup

open Duckbox.Lib

/-! ## Blocks as bytes -/

/-- A block in the image: its length, its checksum, and what it holds. -/
def frame (payload : List Byte) : List Byte :=
  shortBytes (BitVec.ofNat 16 (payload.length + 2)) ++ shortBytes (crc16 0 payload) ++ payload

/-- A part of a file, with its type. -/
structure DataBlock where
  type : Short
  data : List Byte

/-- What such a block holds. -/
def DataBlock.payload (b : DataBlock) : List Byte :=
  shortBytes b.type ++ shortBytes (BitVec.ofNat 16 b.data.length) ++ b.data

def DataBlock.encode (b : DataBlock) : List Byte := frame b.payload

/-- What the header block holds. -/
def headerPayload (totalBlockCount : Short) : List Byte :=
  [0x10, 0x2303, 0, 0, totalBlockCount, 0, 0, 0].flatMap shortBytes

@[simp] theorem shortBytes_length (v : Short) : (shortBytes v).length = 2 := rfl

@[simp] theorem payload_length (b : DataBlock) : b.payload.length = b.data.length + 4 := by
  simp only [DataBlock.payload, List.length_append, shortBytes_length]
  omega

@[simp] theorem frame_length (payload : List Byte) : (frame payload).length = payload.length + 4 := by
  simp only [frame, List.length_append, shortBytes_length]
  omega

theorem toShort_shortBytes (v : Short) : toShort (v.extractLsb' 8 8) (v.extractLsb' 0 8) = v := by
  unfold toShort
  refine BitVec.eq_of_toNat_eq ?_
  have hv := v.isLt
  simp only [BitVec.truncate_eq_setWidth, BitVec.toNat_add, BitVec.toNat_setWidth,
    BitVec.extractLsb'_toNat, BitVec.toNat_shiftLeft, Nat.shiftLeft_eq, Nat.shiftRight_eq_div_pow]
  omega

theorem readShort_shortBytes (v : Short) (rest : List Byte) :
    readShort (shortBytes v ++ rest) = (v, rest) := by
  show (toShort (v.extractLsb' 8 8) (v.extractLsb' 0 8), rest) = (v, rest)
  rw [toShort_shortBytes]

theorem extractShort_shortBytes (v : Short) (rest : List Byte) :
    extractShort (shortBytes v ++ rest) 0 = some v := by
  show some (toShort (v.extractLsb' 8 8) (v.extractLsb' 0 8)) = some v
  rw [toShort_shortBytes]

/-! ## Making an image -/

/-- The blocks of a file: as many full ones as there are, and one that is not. -/
def fileBlocks (type : Short) (file : List Byte) : List DataBlock :=
  if _h : file.length < dataBlockSize then [⟨type, file⟩]
  else ⟨type, file.take dataBlockSize⟩ :: fileBlocks type (file.drop dataBlockSize)
termination_by file.length
decreasing_by
  have hpos : 0 < dataBlockSize := by decide
  rw [List.length_drop]
  omega

theorem fileBlocks_short {type : Short} {file : List Byte} (h : file.length < dataBlockSize) :
    fileBlocks type file = [⟨type, file⟩] := by
  rw [fileBlocks, dif_pos h]

theorem fileBlocks_full {type : Short} {file : List Byte} (h : dataBlockSize ≤ file.length) :
    fileBlocks type file
      = ⟨type, file.take dataBlockSize⟩ :: fileBlocks type (file.drop dataBlockSize) := by
  rw [fileBlocks, dif_neg (Nat.not_lt.mpr h)]

theorem fileBlocks_length (type : Short) (file : List Byte) :
    (fileBlocks type file).length = file.length / dataBlockSize + 1 := by
  have hpos : 0 < dataBlockSize := by decide
  induction file using piece_induction hpos with
  | hshort file h => rw [fileBlocks_short h, Nat.div_eq_of_lt h]; rfl
  | hfull file h ih =>
    rw [fileBlocks_full h, List.length_cons, ih, List.length_drop, Nat.div_eq_sub_div hpos h]

theorem fileBlocks_mem {type : Short} (file : List Byte) :
    ∀ b ∈ fileBlocks type file, b.type = type ∧ b.data.length ≤ dataBlockSize := by
  induction file using piece_induction (n := dataBlockSize) (by decide) with
  | hshort file h =>
    rw [fileBlocks_short h]
    intro b hb
    obtain rfl := List.mem_singleton.mp hb
    exact ⟨rfl, Nat.le_of_lt h⟩
  | hfull file h ih =>
    rw [fileBlocks_full h]
    intro b hb
    rcases List.mem_cons.mp hb with rfl | hb
    · exact ⟨rfl, by rw [List.length_take]; exact Nat.min_le_left _ _⟩
    · exact ih b hb

theorem fileBlocks_data (type : Short) (file : List Byte) :
    (fileBlocks type file).flatMap DataBlock.data = file := by
  induction file using piece_induction (n := dataBlockSize) (by decide) with
  | hshort file h => rw [fileBlocks_short h, List.flatMap_singleton]
  | hfull file h ih => rw [fileBlocks_full h, List.flatMap_cons, ih, List.take_append_drop]

theorem writeBlock_data (file : List Byte) (type : Short) :
    writeBlock file false type = (DataBlock.encode ⟨type, file.take dataBlockSize⟩,
      file.drop dataBlockSize, (file.take dataBlockSize).length) := by
  unfold writeBlock
  simp only [Bool.false_and, Bool.false_eq_true, if_false]
  have hall : (shortBytes type ++ shortBytes (BitVec.ofNat 16 (file.take dataBlockSize).length)
      ++ file.take dataBlockSize).take ((file.take dataBlockSize).length + 4)
      = DataBlock.payload ⟨type, file.take dataBlockSize⟩ :=
    List.take_of_length_le (Nat.le_of_eq (payload_length ⟨type, file.take dataBlockSize⟩))
  rw [hall]
  unfold DataBlock.encode frame
  rw [payload_length]

theorem writeFile_eq (file : List Byte) : ∀ (image : List Byte) (type total : Short),
    writeFile image file type total
      = (image ++ (fileBlocks type file).flatMap DataBlock.encode,
        total + BitVec.ofNat 16 (fileBlocks type file).length) := by
  induction file using piece_induction (n := dataBlockSize) (by decide) with
  | hshort file h =>
    intro image type total
    have htake : file.take dataBlockSize = file := List.take_of_length_le (Nat.le_of_lt h)
    rw [writeFile, writeBlock_data, fileBlocks_short h]
    simp only [htake, Nat.ne_of_lt h, dite_false, List.flatMap_singleton]
    rfl
  | hfull file h ih =>
    intro image type total
    have htake : (file.take dataBlockSize).length = dataBlockSize := by
      rw [List.length_take]
      exact Nat.min_eq_left h
    rw [writeFile, writeBlock_data, fileBlocks_full h]
    simp only [htake, dite_true]
    rw [ih, List.flatMap_cons, List.length_cons, List.append_assoc, BitVec.add_assoc,
      Nat.add_comm _ 1, BitVec.ofNat_add]
    rfl

/-- The blocks of all the files. -/
def partBlocks (parts : List (String × List Byte)) : List DataBlock :=
  parts.flatMap fun (option, file) => fileBlocks (partType option) file

theorem partBlocks_length (parts : List (String × List Byte)) :
    (partBlocks parts).length = blockCount parts := by
  unfold partBlocks blockCount
  rw [List.length_flatMap]
  refine congrArg List.sum (List.map_congr_left fun part _ => ?_)
  exact fileBlocks_length _ _

theorem foldl_writeFile (parts : List (String × List Byte)) : ∀ (image : List Byte) (total : Short),
    parts.foldl (fun (image, count) (option, file) =>
        writeFile image file (partType option) count) (image, total)
      = (image ++ (partBlocks parts).flatMap DataBlock.encode,
        total + BitVec.ofNat 16 (partBlocks parts).length) := by
  induction parts with
  | nil => intro image total; simp [partBlocks]
  | cons part parts ih =>
    intro image total
    obtain ⟨option, file⟩ := part
    have hblocks : partBlocks ((option, file) :: parts)
        = fileBlocks (partType option) file ++ partBlocks parts := List.flatMap_cons
    rw [List.foldl_cons]
    dsimp only
    rw [writeFile_eq, ih, hblocks, List.flatMap_append, List.length_append,
      BitVec.ofNat_add, List.append_assoc, BitVec.add_assoc]

theorem refreshHeader_frame {h : List Byte} (hlen : h.length = 16) (rest : List Byte)
    (count : Short) :
    refreshHeader (frame h ++ rest) 16 count = frame (insertShort h 8 count) ++ rest := by
  have hset : (insertShort h 8 count).length = 16 := by
    simp [insertShort, hlen]
  generalize hh' : insertShort h 8 count = h' at hset
  have hfour : (frame h ++ rest).drop 4 = h ++ rest := by
    show (([_, _, _, _] : List Byte) ++ h ++ rest).drop 4 = _
    rfl
  have hdrop : (frame h ++ rest).drop (4 + 16) = rest := by
    rw [← List.drop_drop, hfour, ← hlen, List.drop_left]
  have htake : (frame h ++ rest).take 4
      = shortBytes (BitVec.ofNat 16 18) ++ shortBytes (crc16 0 h) := by
    unfold frame
    rw [hlen]
    rfl
  unfold refreshHeader
  simp only [hfour]
  rw [show (h ++ rest).take 16 = h by rw [← hlen, List.take_left], hh']
  unfold overwrite
  rw [hset, hdrop, htake]
  have hcrc : (insertShort h' 0 (crc16 0 h')).take 2 = shortBytes (crc16 0 h') := by
    match h', hset with
    | a :: b :: more, _ => rfl
  rw [hcrc]
  unfold frame
  rw [hset]
  rfl

/-- The files that the number of arguments, kept in a byte, leaves. -/
def taken (parts : List (String × List Byte)) : List (String × List Byte) :=
  parts.take (parts.length % 128)

theorem create_eq (parts : List (String × List Byte)) :
    create parts = frame (headerPayload (BitVec.ofNat 16 (partBlocks (taken parts)).length))
      ++ (partBlocks (taken parts)).flatMap DataBlock.encode := by
  have hcount : 2 * parts.length % 256 / 2 = parts.length % 128 := by omega
  have hheader : writeBlock [] true 0x10 = (frame (headerPayload 0xFFFF), [], 12) := by
    decide +kernel
  have hset : ∀ count : Short, insertShort (headerPayload 0xFFFF) 8 count = headerPayload count :=
    fun count => rfl
  unfold create
  rw [hheader]
  simp only [hcount]
  rw [show parts.take (parts.length % 128) = taken parts from rfl, foldl_writeFile]
  simp only
  rw [refreshHeader_frame rfl, hset]
  rw [show (0 : Short) + _ = _ from BitVec.zero_add _]

/-! ## Extracting an image -/

/-- A block is added to the file of its type. -/
def Extraction.add (x : Extraction) (b : DataBlock) : Extraction :=
  { x with
    blocks := x.blocks + 1
    files := Function.update x.files b.type.toNat
      (some ((x.files b.type.toNat).getD [] ++ b.data)) }

theorem readShort_frame (payload : List Byte) (hlen : payload.length + 2 < 65536)
    (rest : List Byte) :
    readShort (frame payload ++ rest)
        = (BitVec.ofNat 16 (payload.length + 2), shortBytes (crc16 0 payload) ++ (payload ++ rest)) ∧
      (BitVec.ofNat 16 (payload.length + 2)).toNat = payload.length + 2 := by
  constructor
  · unfold frame
    rw [List.append_assoc, List.append_assoc]
    exact readShort_shortBytes _ _
  · rw [BitVec.toNat_ofNat]
    exact Nat.mod_eq_of_lt hlen

theorem readBlock_data (x : Extraction) (b : DataBlock) (rest : List Byte)
    (hdata : b.data.length ≤ dataBlockSize) (htype : b.type.toNat < maxPartNumber) :
    readBlock x (b.encode ++ rest) false = some (.block (b.data.length + 6) (x.add b)) := by
  have hsmall : b.payload.length + 2 < 65536 := by
    rw [payload_length]
    exact Nat.lt_of_le_of_lt (Nat.add_le_add_right hdata 6) (by decide)
  obtain ⟨hshort, hlen⟩ := readShort_frame b.payload hsmall rest
  have hlen' : (BitVec.ofNat 16 (b.payload.length + 2)).toNat = b.data.length + 6 := by
    rw [hlen, payload_length]
  have hne : BitVec.ofNat 16 (b.payload.length + 2) ≠ 0 := by
    intro h
    rw [h] at hlen'
    exact absurd hlen' (by simp)
  have hsub : b.data.length + 6 - 2 = b.payload.length := by
    rw [payload_length]
    omega
  have hdrop : b.payload.drop 4 = b.data := rfl
  have hextract : extractShort b.payload 0 = some b.type := by
    unfold DataBlock.payload
    rw [List.append_assoc]
    exact extractShort_shortBytes _ _
  unfold readBlock DataBlock.encode
  rw [hshort]
  simp only [hne, if_false, readShort_shortBytes, hlen', hsub, List.take_left, hextract, hdrop]
  rw [if_neg (by omega)]
  simp only [ne_eq, not_true_eq_false, if_false, Bool.false_eq_true, false_and, htype, if_true]
  rw [if_neg (by omega), Nat.add_sub_cancel, List.take_length]
  rfl

theorem readBlock_header (x : Extraction) (count : Short) (rest : List Byte) :
    readBlock x (frame (headerPayload count) ++ rest) true
      = some (.block 18
          { x with
            blocks := x.blocks + 1
            header := some ⟨0x10, 0x2303, 0, 0, count, 0, 0, 0⟩ }) := by
  have hplen : (headerPayload count).length = 16 := rfl
  obtain ⟨hshort, hlen⟩ := readShort_frame (headerPayload count)
    (by rw [hplen]; decide) rest
  rw [hplen] at hshort hlen
  have htake : (headerPayload count ++ rest).take 16 = headerPayload count := by
    rw [← hplen, List.take_left]
  have hheader : extractHeader (headerPayload count)
      = some ⟨0x10, 0x2303, 0, 0, count, 0, 0, 0⟩ := by
    let short := fun v : Short => toShort (v.extractLsb' 8 8) (v.extractLsb' 0 8)
    show some (IrdHeader.mk (short 0x10) (short 0x2303) (short 0) (short 0) (short count)
      (short 0) (short 0) (short 0)) = _
    simp only [short, toShort_shortBytes]
  have hextract : extractShort (headerPayload count) 0 = some 0x10 := rfl
  unfold readBlock
  rw [hshort]
  simp only [hlen, readShort_shortBytes]
  rw [if_neg (by decide), if_neg (by decide)]
  simp only [show 16 + 2 - 2 = 16 from rfl, htake, hplen, hextract, hheader]
  simp

/-! ## Walking the blocks -/

theorem seek_block {position len : Nat} (h : position + len + 2 < 2 ^ 32) :
    seek (position + len + 2) (int32 (int32 position + len + 2)) = position + len + 2 := by
  have hpos : int32 (int32 position + len + 2) = int32 (position + len + 2 : Nat) := by
    unfold int32
    omega
  have hcase : int32 (position + len + 2 : Nat) = (position + len + 2 : Nat) ∨
      int32 (position + len + 2 : Nat) < 0 := by
    unfold int32
    omega
  rw [hpos]
  unfold seek
  rcases hcase with heq | hneg
  · rw [heq, if_neg (by omega), Int.toNat_natCast]
  · rw [if_pos hneg]

theorem encode_length (b : DataBlock) : b.encode.length = b.data.length + 8 := by
  rw [DataBlock.encode, frame_length, payload_length]

theorem extractLoop_blocks (blocks : List DataBlock) : ∀ (file pre : List Byte) (fuel : Nat)
    (x : Extraction), file = pre ++ blocks.flatMap DataBlock.encode → file.length < 2 ^ 32 →
    (∀ b ∈ blocks, b.data.length ≤ dataBlockSize ∧ b.type.toNat < maxPartNumber) →
    blocks.length < fuel →
      extractLoop file fuel pre.length false x = some (blocks.foldl Extraction.add x) := by
  induction blocks with
  | nil =>
    intro file pre fuel x hfile _ _ hfuel
    obtain ⟨fuel, rfl⟩ := Nat.exists_eq_add_of_lt hfuel
    have hdrop : file.drop pre.length = [] := by
      rw [hfile, List.drop_left]
      rfl
    rw [List.length_nil, Nat.zero_add, extractLoop, hdrop]
    rfl
  | cons b blocks ih =>
    intro file pre fuel x hfile hsize hok hfuel
    obtain ⟨hdata, htype⟩ := hok b List.mem_cons_self
    cases fuel with
    | zero => exact absurd hfuel (Nat.not_lt_zero _)
    | succ fuel =>
      have hdrop : file.drop pre.length = b.encode ++ blocks.flatMap DataBlock.encode := by
        rw [hfile, List.drop_left, List.flatMap_cons]
      have hlong : file.length
          = pre.length + (b.data.length + 8) + (blocks.flatMap DataBlock.encode).length := by
        rw [hfile, List.length_append, List.flatMap_cons, List.length_append, encode_length]
        omega
      have hnext : pre.length + (b.data.length + 6) + 2 = (pre ++ b.encode).length := by
        rw [List.length_append, encode_length]
        omega
      rw [extractLoop, hdrop, readBlock_data x b _ hdata htype]
      dsimp only
      rw [seek_block (by omega), hnext]
      refine ih file (pre ++ b.encode) fuel (x.add b) ?_ hsize
        (fun b hb => hok b (List.mem_cons_of_mem _ hb)) (by simpa using hfuel)
      rw [hfile, List.flatMap_cons, List.append_assoc]

theorem foldl_add (blocks : List DataBlock) : ∀ x : Extraction,
    (blocks.foldl Extraction.add x).crcErrors = x.crcErrors ∧
      (blocks.foldl Extraction.add x).header = x.header ∧
      (blocks.foldl Extraction.add x).blocks = x.blocks + blocks.length ∧
      ∀ t, ((blocks.foldl Extraction.add x).files t).getD [] = (x.files t).getD [] ++
        blocks.flatMap fun b => if b.type.toNat = t then b.data else [] := by
  induction blocks with
  | nil => intro x; simp
  | cons b blocks ih =>
    intro x
    obtain ⟨hcrc, hheader, hblocks, hfiles⟩ := ih (x.add b)
    rw [List.foldl_cons]
    refine ⟨hcrc, hheader, ?_, fun t => ?_⟩
    · rw [hblocks, List.length_cons]
      show x.blocks + 1 + blocks.length = _
      omega
    · rw [hfiles t, List.flatMap_cons, ← List.append_assoc]
      refine congrArg (· ++ _) ?_
      show (Function.update x.files b.type.toNat _ t).getD [] = _
      by_cases ht : b.type.toNat = t
      · rw [← ht, Function.update_self, if_pos rfl]
        rfl
      · rw [Function.update_of_ne (Ne.symm ht), if_neg ht, List.append_nil]

theorem partBlocks_contents (parts : List (String × List Byte)) (t : Nat) :
    ((partBlocks parts).flatMap fun b => if b.type.toNat = t then b.data else [])
      = contents parts t := by
  unfold partBlocks contents
  rw [List.flatMap_assoc]
  refine List.flatMap_congr fun part _ => ?_
  obtain ⟨option, file⟩ := part
  have hall : ∀ blocks : List DataBlock, (∀ b ∈ blocks, b.type = partType option) →
      (blocks.flatMap fun b => if b.type.toNat = t then b.data else [])
        = if (partType option).toNat = t then blocks.flatMap DataBlock.data else [] := by
    intro blocks hblocks
    induction blocks with
    | nil => simp
    | cons b blocks ih =>
      rw [List.flatMap_cons, ih fun b hb => hblocks b (List.mem_cons_of_mem _ hb),
        hblocks b List.mem_cons_self]
      split
      · rw [List.flatMap_cons]
      · rfl
  dsimp only
  rw [hall _ fun b hb => (fileBlocks_mem file b hb).1, fileBlocks_data]

theorem partType_lt (option : String) : (partType option).toNat < maxPartNumber := by
  unfold partType
  repeat' split
  all_goals decide

theorem partBlocks_mem {parts : List (String × List Byte)} {b : DataBlock}
    (hb : b ∈ partBlocks parts) :
    b.data.length ≤ dataBlockSize ∧ b.type.toNat < maxPartNumber := by
  obtain ⟨part, _, hmem⟩ := List.mem_flatMap.mp hb
  obtain ⟨htype, hdata⟩ := fileBlocks_mem _ b hmem
  rw [htype]
  exact ⟨hdata, partType_lt _⟩

theorem encodes_length {blocks : List DataBlock} (h : ∀ b ∈ blocks, b.data.length ≤ dataBlockSize) :
    (blocks.flatMap DataBlock.encode).length ≤ blocks.length * (dataBlockSize + 8) := by
  induction blocks with
  | nil => simp
  | cons b blocks ih =>
    have hrest := ih fun b hb => h b (List.mem_cons_of_mem _ hb)
    have hfirst := h b List.mem_cons_self
    rw [List.flatMap_cons, List.length_append, encode_length, List.length_cons, Nat.succ_mul]
    omega

theorem extract_create {parts : List (String × List Byte)}
    (hblocks : blockCount (taken parts) < 65536) :
    ∃ x header, extract (create parts) = some x ∧
      (∀ t, (x.files t).getD [] = contents (taken parts) t) ∧ x.crcErrors = 0 ∧
      x.header = some header ∧ x.blocks = header.blockcount + 1 := by
  have hcount := partBlocks_length (taken parts)
  have hlen := encodes_length fun b (hb : b ∈ partBlocks (taken parts)) => (partBlocks_mem hb).1
  generalize hbs : partBlocks (taken parts) = blocks at hcount hlen
  have hcreate := create_eq parts
  rw [hbs] at hcreate
  have hheader : (frame (headerPayload (BitVec.ofNat 16 blocks.length))).length = 20 := rfl
  have hsize : (create parts).length < 2 ^ 32 := by
    have hmul : blocks.length * (dataBlockSize + 8) ≤ 65535 * (dataBlockSize + 8) :=
      Nat.mul_le_mul_right _ (by omega)
    have hbound : 65535 * (dataBlockSize + 8) + 20 < 2 ^ 32 := by decide
    rw [hcreate, List.length_append, hheader]
    omega
  -- the header, and then the blocks
  have hwalk := extractLoop_blocks blocks (create parts)
    (frame (headerPayload (BitVec.ofNat 16 blocks.length))) (create parts).length
    ⟨fun _ => none, some ⟨0x10, 0x2303, 0, 0, BitVec.ofNat 16 blocks.length, 0, 0, 0⟩, 0, 1⟩
    hcreate hsize (fun b hb => partBlocks_mem (hbs ▸ hb)) ?_
  · have hextract : extract (create parts) = some (blocks.foldl Extraction.add
        ⟨fun _ => none, some ⟨0x10, 0x2303, 0, 0, BitVec.ofNat 16 blocks.length, 0, 0, 0⟩, 0, 1⟩) := by
      rw [← hwalk, extract, extractLoop, List.drop_zero]
      have hread := readBlock_header ⟨fun _ => none, none, 0, 0⟩
        (BitVec.ofNat 16 blocks.length) (blocks.flatMap DataBlock.encode)
      rw [← hcreate] at hread
      rw [hread]
      rfl
    obtain ⟨hcrc, hhead, htotal, hfiles⟩ := foldl_add blocks
      ⟨fun _ => none, some ⟨0x10, 0x2303, 0, 0, BitVec.ofNat 16 blocks.length, 0, 0, 0⟩, 0, 1⟩
    refine ⟨_, _, hextract, fun t => ?_, hcrc, hhead, ?_⟩
    · rw [hfiles t, ← hbs, partBlocks_contents]
      rfl
    · rw [htotal, IrdHeader.blockcount, BitVec.toNat_ofNat, Nat.mod_eq_of_lt (by omega)]
      simp
      omega
  · rw [hcreate, List.length_append, hheader]
    have hmany : blocks.length ≤ (blocks.flatMap DataBlock.encode).length := by
      clear hlen hcount hbs hcreate hheader hsize
      induction blocks with
      | nil => simp
      | cons b blocks ih =>
        rw [List.flatMap_cons, List.length_append, encode_length, List.length_cons]
        omega
    omega

/-- Of an image made of less than 65536 blocks the files come back exactly if those
after the first `n % 128` are empty, where there are `n`: all of them, below 128. -/
theorem roundTrips_iff (parts : List (String × List Byte)) (hblocks : blockCount parts < 65536) :
    RoundTrips parts ↔ ∀ part ∈ parts.drop (parts.length % 128), part.2 = [] := by
  have hsplit : parts = taken parts ++ parts.drop (parts.length % 128) :=
    (List.take_append_drop _ _).symm
  have hle : blockCount (taken parts) ≤ blockCount parts := by
    conv_rhs => rw [hsplit]
    simp only [blockCount, List.map_append, List.sum_append]
    omega
  obtain ⟨x, header, hextract, hfiles, hcrc, hheader, hcount⟩ :=
    extract_create (Nat.lt_of_le_of_lt hle hblocks)
  have hcontents : ∀ t, contents parts t
      = contents (taken parts) t ++ contents (parts.drop (parts.length % 128)) t := by
    intro t
    conv_lhs => rw [hsplit]
    exact List.flatMap_append
  constructor
  · intro ⟨y, header', hy, hall, _⟩ part hpart
    obtain rfl := Option.some.inj (hextract.symm.trans hy)
    have hsame := hall (partType part.1).toNat
    rw [hfiles, hcontents] at hsame
    have hnil := List.self_eq_append_right.mp hsame
    have hfile := List.flatMap_eq_nil_iff.mp hnil part hpart
    simpa using hfile
  · intro hempty
    refine ⟨x, header, hextract, fun t => ?_, hcrc, hheader, hcount⟩
    have hnil : contents (parts.drop (parts.length % 128)) t = [] := by
      refine List.flatMap_eq_nil_iff.mpr fun part hpart => ?_
      obtain ⟨option, file⟩ := part
      have hfile : file = [] := hempty _ hpart
      simp [hfile]
    rw [hfiles, hcontents, hnil, List.append_nil]

/-- A kernel and a root file system. -/
theorem roundTrips_kernelAndRoot : RoundTrips [("-k", [1, 2, 3]), ("-r", [4, 5])] :=
  (roundTrips_iff [("-k", [1, 2, 3]), ("-r", [4, 5])] (by decide +kernel)).mpr (by decide)

/-- Of 128 files of one byte the image has none. -/
theorem create_drops_files :
    blockCount (List.replicate 128 ("-k", [1])) < 65536 ∧
      ¬ RoundTrips (List.replicate 128 ("-k", [1])) := by
  refine ⟨by decide +kernel, fun ⟨x, header, hextract, hfiles, _⟩ => ?_⟩
  have hnone : (extract (create (List.replicate 128 ("-k", [1])))).map (fun x => x.files 6)
      = some none := by decide +kernel
  rw [hextract] at hnone
  have hfile := hfiles 6
  rw [show x.files 6 = none from Option.some.inj hnone] at hfile
  exact absurd hfile (by decide +kernel)

end Duckbox.Fup
