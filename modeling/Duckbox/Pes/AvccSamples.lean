import Duckbox.Pes.NalReads
import Duckbox.Pes.Payloads

/-!
# Samples with lengths

A sample of an `avcC` stream is a row of NALs, each behind its length, as the parameter
sets of the configuration record are (`Tile`). The writer is to put start codes in place
of the lengths.

> `samples_converted_iff`: from a reset on, every sample is written so, and the
> parameter sets in front of the first, exactly if none is taken for a byte stream and the
> parameter sets are not too many for a packet.

A NAL is written as packets that carry it behind a start code (`writeNal_tile`), so a row of
them is what a row of tiles is (`writeNals_tiling`).
-/

namespace Duckbox.Pes

open Duckbox.Lib

/-! ## Rows of NALs -/

/-- A NAL behind its length. -/
structure Tile (n : Nat) where
  lengthBytes : List Byte
  nal : List Byte
  width : lengthBytes.length = n
  value : bytesValue lengthBytes = nal.length

def Tile.bytes {n : Nat} (tile : Tile n) : List Byte := tile.lengthBytes ++ tile.nal

/-- NALs one behind the other. -/
def tiling {n : Nat} (tiles : List (Tile n)) : List Byte := tiles.flatMap Tile.bytes

theorem Tile.length_bytes {n : Nat} (tile : Tile n) : tile.bytes.length = n + tile.nal.length := by
  unfold Tile.bytes
  rw [List.length_append, tile.width]

theorem tiling_cons {n : Nat} (tile : Tile n) (tiles : List (Tile n)) :
    tiling (tile :: tiles) = tile.bytes ++ tiling tiles := List.flatMap_cons ..

/-- The NALs that are not empty, behind start codes. -/
def startCoded {n : Nat} (tiles : List (Tile n)) : List Byte :=
  (tiles.filter (·.nal ≠ [])).flatMap fun tile => H264Writer.head ++ tile.nal

/-- The configuration record of a stream. -/
structure AvcConfiguration where
  /-- Version, profile, compatibility and level. -/
  leading : List Byte
  nalLengthMinusOne : Byte
  numSequenceSets : Byte
  sequenceSets : List (Tile 2)
  numPictureSets : Byte
  pictureSets : List (Tile 2)
  four : leading.length = 4
  sequences : (numSequenceSets &&& 0x1f).toNat = sequenceSets.length
  pictures : numPictureSets.toNat = pictureSets.length

namespace AvcConfiguration

def bytes (record : AvcConfiguration) : List Byte :=
  record.leading ++ ([record.nalLengthMinusOne, record.numSequenceSets] ++
    (tiling record.sequenceSets ++ ([record.numPictureSets] ++ tiling record.pictureSets)))

/-- How many bytes a length has. -/
def nalLengthBytes (record : AvcConfiguration) : Nat := (record.nalLengthMinusOne &&& 0x03).toNat + 1

/-- The parameter sets behind start codes. -/
def annexB (record : AvcConfiguration) : List Byte :=
  (record.sequenceSets ++ record.pictureSets).flatMap fun tile => H264Writer.head ++ tile.nal

end AvcConfiguration

/-- A sample of a stream, and the call that writes it. -/
structure Sample (record : AvcConfiguration) where
  tiles : List (Tile record.nalLengthBytes)
  call : WriterAVCallData
  data : Nat → Byte
  privateData : Nat → Byte
  device : 0 ≤ call.fd
  sampleData : call.data = some data
  sampleSize : call.len.toNat = (tiling tiles).length
  sampleBytes : load data 0 (tiling tiles).length = tiling tiles
  recordData : call.privateData = some privateData
  recordBytes : load privateData 0 record.bytes.length = record.bytes

namespace H264Writer

/-- The most that is put in a packet of a NAL, a piece behind a start code. -/
abbrev maxNalPayload : Nat := bufferSize + head.length

/-! ## What is to be written -/

/-- In front of the first sample are a packet of the player's and one with the
parameter sets. -/
def Headed (record : AvcConfiguration) (packets : List (List Byte)) : Prop :=
  ∃ parameters sets, packets = [parameters, sets] ∧ payload sets = record.annexB ∧
    ∀ packet ∈ packets, (payload packet).length ≤ maxPesPacketSize ∧ SaysPts packet invalidPts

/-- The packets of a sample. -/
def Converted {record : AvcConfiguration} (first : Bool) (sample : Sample record)
    (packets : List (List Byte)) : Prop :=
  ∃ front back, packets = front ++ back ∧
    Carries maxNalPayload sample.call.pts (startCoded sample.tiles) back ∧
    if first = true ∧ sample.tiles ≠ [] then Headed record front else front = []

/-- The packets of samples, where none has been written if the first is one. -/
def AllConverted {record : AvcConfiguration} :
    Bool → List (Sample record) → List (List (List Byte)) → Prop
  | _, [], written => written = []
  | first, sample :: samples, written =>
    ∃ packets rest, written = packets :: rest ∧ Converted first sample packets ∧
      AllConverted (first && sample.tiles.isEmpty) samples rest

/-- Calls one after the other, and the packets of each. -/
def writeCalls (env : Surroundings) : H264Writer → List WriterAVCallData →
    Option (List (List (List Byte)))
  | _, [] => some []
  | w, call :: calls =>
    (w.writeData env call).bind fun (w, packets) => (writeCalls env w calls).map (packets :: ·)

/-- A sample begins with a start code, of three bytes only as long as none began otherwise,
or with four bytes of 0xff. -/
def LikeByteStream (noOtherBeginning : Bool) (data : Nat → Byte) : Prop :=
  load data 0 4 = [0x00, 0x00, 0x00, 0x01] ∨
    (load data 0 3 = [0x00, 0x00, 0x01] ∧ noOtherBeginning = true) ∨
    load data 0 4 = [0xff, 0xff, 0xff, 0xff]

instance (noOtherBeginning : Bool) (data : Nat → Byte) :
    Decidable (LikeByteStream noOtherBeginning data) := inferInstanceAs (Decidable (_ ∨ _ ∨ _))

/-- No sample begins so. -/
def NoneLikeByteStream {record : AvcConfiguration} : Bool → List (Sample record) → Prop
  | _, [] => True
  | noOtherBeginning, sample :: samples =>
    if sample.tiles = [] then NoneLikeByteStream noOtherBeginning samples
    else ¬ LikeByteStream noOtherBeginning sample.data ∧ NoneLikeByteStream false samples

/-! ## Tiles in memory -/

section

variable {n : Nat} {data : Nat → Byte} {p : Nat}

theorem load_append {a b : List Byte} (h : load data p (a ++ b).length = a ++ b) :
    load data p a.length = a ∧ load data (p + a.length) b.length = b :=
  load_eq_of_append (by rwa [List.length_append] at h)

theorem nalLength_toNat (hn : n ≤ 4) :
    (nalLength data p n).toNat = bytesValue (load data p n) := by
  have hfold : ∀ l : List Byte, l.length ≤ 4 →
      (l.foldl (fun (n : UInt) b => n <<< 8 ||| b.setWidth 32) 0).toNat = bytesValue l := by
    intro l
    induction l using List.reverseRecOn with
    | nil => exact fun _ => rfl
    | append_singleton l b ih =>
      intro hlength
      rw [List.length_append, List.length_singleton] at hlength
      have hbound : bytesValue l < 2 ^ 24 := Nat.lt_of_lt_of_le (bytesValue_lt l)
        (Nat.pow_le_pow_right (by decide) (by omega))
      have hb := b.isLt
      have hshift : bytesValue l <<< 8 = bytesValue l * 2 ^ 8 := Nat.shiftLeft_eq _ _
      rw [List.foldl_append, bytesValue_concat, List.foldl_cons, List.foldl_nil, BitVec.toNat_or,
        BitVec.toNat_shiftLeft, ih (by omega), hshift, Nat.mod_eq_of_lt (by omega),
        BitVec.toNat_setWidth, Nat.mod_eq_of_lt (by omega), ← hshift,
        ← Nat.shiftLeft_add_eq_or_of_lt hb, hshift]
  exact hfold _ (by rwa [load_length])

theorem load_tile {tile : Tile n} (hn : n ≤ 4) (h : load data p tile.bytes.length = tile.bytes) :
    (nalLength data p n).toNat = tile.nal.length ∧
      load data (p + n) tile.nal.length = tile.nal := by
  obtain ⟨hlength, hnal⟩ := load_append h
  rw [tile.width] at hlength hnal
  refine ⟨?_, hnal⟩
  rw [nalLength_toNat hn, hlength, tile.value]

end

/-! ## Parameter sets -/

theorem copyParamSets_tiling (params : Nat → Byte) (paramOffset : Nat) {tiles : List (Tile 2)}
    (h : load params paramOffset (tiling tiles).length = tiling tiles) :
    copyParamSets params tiles.length paramOffset =
      (tiles.flatMap fun tile => head ++ tile.nal, paramOffset + (tiling tiles).length) := by
  induction tiles generalizing paramOffset with
  | nil => rfl
  | cons tile tiles ih =>
    rw [tiling_cons] at h
    obtain ⟨htile, hrest⟩ := load_append h
    obtain ⟨hlength, hnal⟩ := load_append htile
    rw [tile.width] at hlength hnal
    have hps : (params paramOffset).toNat * 2 ^ 8 + (params (paramOffset + 1)).toNat =
        tile.nal.length := by
      rw [← tile.value, ← hlength]
      show _ = (params paramOffset).toNat * 2 ^ 8 + ((params (paramOffset + 1)).toNat * 2 ^ 0 + 0)
      simp only [Nat.pow_zero, Nat.mul_one, Nat.add_zero]
    rw [tile.length_bytes] at hrest
    have hnext : paramOffset + (tile.nal.length + 2) = paramOffset + (2 + tile.nal.length) := by
      omega
    rw [List.length_cons]
    unfold copyParamSets
    dsimp only
    rw [hps, hnext, ih _ hrest, hnal, tiling_cons, List.length_append, tile.length_bytes,
      List.flatMap_cons, Nat.add_assoc]

variable {record : AvcConfiguration}

theorem record_in_memory {m : Nat → Byte} (h : load m 0 record.bytes.length = record.bytes) :
    paramSets m = record.annexB ∧ (m 4 &&& 0x03).toNat + 1 = record.nalLengthBytes := by
  unfold AvcConfiguration.bytes at h
  obtain ⟨-, hbehind⟩ := load_append h
  rw [record.four] at hbehind
  obtain ⟨hcounts, hsets⟩ := load_append hbehind
  obtain ⟨hsequences, hrest⟩ := load_append hsets
  obtain ⟨hcount, hpictures⟩ := load_append hrest
  have hfour : m 4 = record.nalLengthMinusOne := (List.cons.inj hcounts).1
  have hfive : m 5 = record.numSequenceSets := (List.cons.inj (List.cons.inj hcounts).2).1
  have hsix : m (6 + (tiling record.sequenceSets).length) = record.numPictureSets :=
    (List.cons.inj hcount).1
  have hshift : ∀ offset k, load (fun i => m (6 + i)) offset k = load m (6 + offset) k := by
    intro offset k
    refine List.map_congr_left fun i _ => ?_
    rw [Nat.add_assoc]
  have hfirst := copyParamSets_tiling (fun i => m (6 + i)) 0 ((hshift _ _).trans hsequences)
  have hsecond := copyParamSets_tiling (fun i => m (6 + i))
    ((tiling record.sequenceSets).length + 1) ((hshift _ _).trans hpictures)
  refine ⟨?_, by rw [hfour]; rfl⟩
  unfold paramSets AvcConfiguration.annexB
  dsimp only
  rw [hfive, record.sequences, hfirst]
  dsimp only
  rw [Nat.zero_add, hsix, record.pictures, hsecond, List.flatMap_append]

/-! ## NALs as packets -/

section

variable {pts : BitVec 64} {before : List (List Byte)} {bytes : List Byte} {s : Pieces}

theorem writePiece_emitted (piece : List Byte) (hpiece : piece.length ≤ bufferSize)
    (h : Emitted maxNalPayload pts before bytes s.packets s.videoPts) :
    Emitted maxNalPayload pts before (bytes ++ ((if s.nalPresent then head else []) ++ piece))
      (writePiece s piece).packets (writePiece s piece).videoPts := by
  have hpayload : (if s.nalPresent then head ++ piece else piece) =
      (if s.nalPresent then head else []) ++ piece := by
    split <;> rfl
  have hsmall : ((if s.nalPresent then head else []) ++ piece).length ≤ maxNalPayload := by
    have hhead : (if s.nalPresent then head else []).length ≤ head.length := by
      split
      · exact Nat.le_refl _
      · exact Nat.zero_le _
    rw [List.length_append, Nat.add_comm]
    exact Nat.add_le_add hpiece hhead
  unfold writePiece
  dsimp only
  rw [hpayload]
  exact h.insert _ _ hsmall

theorem pieces_emitted (nal : List Byte) (hpresent : s.nalPresent = false)
    (h : Emitted maxNalPayload pts before bytes s.packets s.videoPts) :
    Emitted maxNalPayload pts before (bytes ++ nal) (overPieces bufferSize writePiece s nal).packets
      (overPieces bufferSize writePiece s nal).videoPts := by
  induction hlength : nal.length using Nat.strong_induction_on generalizing s bytes nal with
  | _ length ih =>
    by_cases hnal : nal = []
    · rw [hnal, List.append_nil, overPieces, if_pos (.inl rfl)]
      exact h
    · have hpos := List.length_pos_iff.mpr hnal
      have hsize : bufferSize = 37412 := rfl
      have hfirst := writePiece_emitted (nal.take bufferSize) (List.length_take_le _ _) h
      rw [hpresent] at hfirst
      rw [overPieces_step (by decide) s hnal]
      have hrest := ih (nal.drop bufferSize).length (by rw [List.length_drop]; omega)
        (nal.drop bufferSize) rfl hfirst rfl
      rw [List.append_assoc] at hrest
      simpa using hrest

theorem nal_emitted {nal : List Byte} (hnal : nal ≠ []) (hpresent : s.nalPresent = true)
    (h : Emitted maxNalPayload pts before bytes s.packets s.videoPts) :
    Emitted maxNalPayload pts before (bytes ++ (head ++ nal))
      (overPieces bufferSize writePiece s nal).packets
      (overPieces bufferSize writePiece s nal).videoPts := by
  have hfirst := writePiece_emitted (nal.take bufferSize) (List.length_take_le _ _) h
  rw [hpresent] at hfirst
  rw [overPieces_step (by decide) s hnal]
  have hrest := pieces_emitted (nal.drop bufferSize) rfl hfirst
  simpa using hrest

end

/-! ## Rows of NALs as packets -/

section

variable {n : Nat} {data : Nat → Byte} {sampleSize : UInt} {pts : BitVec 64}
  {before : List (List Byte)} {bytes : List Byte} {p : Nat} {s : Nals}

theorem startCoded_cons (tile : Tile n) (tiles : List (Tile n)) : startCoded (tile :: tiles) =
    (if tile.nal = [] then [] else head ++ tile.nal) ++ startCoded tiles := by
  unfold startCoded
  rw [List.filter_cons]
  by_cases hnal : tile.nal = []
  · rw [if_pos hnal, if_neg (by simpa using hnal), List.nil_append]
  · rw [if_neg hnal, if_pos (by simpa using hnal), List.flatMap_cons]

theorem writeNal_tile {tile : Tile n} (hn : n ≤ 4) (hat : At p s)
    (htile : load data p tile.bytes.length = tile.bytes)
    (hin : p + tile.bytes.length ≤ sampleSize.toNat)
    (h : Emitted maxNalPayload pts before bytes s.packets s.videoPts) :
    At (p + tile.bytes.length) (writeNal data n sampleSize s) ∧
      Emitted maxNalPayload pts before
        (bytes ++ if tile.nal = [] then [] else head ++ tile.nal)
        (writeNal data n sampleSize s).packets (writeNal data n sampleSize s).videoPts := by
  obtain ⟨hlength, hnal⟩ := load_tile hn htile
  rw [tile.length_bytes] at hin ⊢
  have hlast : p + n + (nalLength data p n).toNat ≤ sampleSize.toNat := by
    rw [hlength]
    omega
  have hend := writeNal_at hn hat hlast
  rw [hlength, Nat.add_assoc] at hend
  refine ⟨hend, ?_⟩
  obtain ⟨hstart, hposition⟩ := hat
  have hsize := sampleSize.isLt
  have hshort : ¬ sampleSize < s.nalStart + nalLength data p n := by
    rw [BitVec.lt_def, BitVec.toNat_add, hstart, hlength]
    omega
  have hbehind : (s.videoPosition + BitVec.ofNat 32 n).toNat = p + n := by
    rw [BitVec.toNat_add, BitVec.toNat_ofNat, hposition]
    omega
  unfold writeNal
  rw [hposition]
  dsimp only
  rw [if_neg hshort, hbehind, hlength, hnal]
  by_cases hempty : tile.nal = []
  · rw [if_pos hempty, hempty, List.append_nil, overPieces, if_pos (.inl rfl)]
    exact h
  · rw [if_neg hempty]
    exact nal_emitted hempty rfl h

theorem writeNals_tiling (hn : 1 ≤ n ∧ n ≤ 4) {tiles : List (Tile n)} (hat : At p s)
    (htiles : load data p (tiling tiles).length = tiling tiles) (hne : tiles ≠ [])
    (hend : p + (tiling tiles).length = sampleSize.toNat) {nals : Nat} (hnals : tiles.length ≤ nals)
    (h : Emitted maxNalPayload pts before bytes s.packets s.videoPts) :
    Emitted maxNalPayload pts before (bytes ++ startCoded tiles)
      (writeNals data n sampleSize nals s).packets
      (writeNals data n sampleSize nals s).videoPts := by
  induction tiles generalizing nals p s bytes with
  | nil => exact absurd rfl hne
  | cons tile tiles ih =>
    obtain ⟨nals, rfl⟩ := Nat.exists_eq_add_of_le' (Nat.le_trans (Nat.succ_pos _) hnals)
    rw [List.length_cons] at hnals
    rw [tiling_cons] at htiles
    rw [tiling_cons, List.length_append] at hend
    obtain ⟨htile, hrest⟩ := load_append htiles
    have hin : p + tile.bytes.length ≤ sampleSize.toNat := by omega
    obtain ⟨hnext, hemitted⟩ := writeNal_tile hn.2 hat htile hin h
    rw [startCoded_cons, ← List.append_assoc]
    have hgoes : (writeNal data n sampleSize s).nalStart < sampleSize ↔
        p + tile.bytes.length < sampleSize.toNat := by
      rw [BitVec.lt_def, hnext.1]
    unfold writeNals
    dsimp only
    cases tiles with
    | nil =>
      rw [if_neg fun hlt => absurd (hgoes.mp hlt) (by rw [← hend]; exact Nat.lt_irrefl _)]
      rw [show startCoded ([] : List (Tile n)) = [] from rfl, List.append_nil]
      exact hemitted
    | cons second tiles =>
      have hmore : 0 < (tiling (second :: tiles)).length := by
        rw [tiling_cons, List.length_append, second.length_bytes]
        omega
      rw [if_pos (hgoes.mpr (by omega))]
      refine ih hnext hrest (List.cons_ne_nil _ _) ?_ ?_ hemitted
      · omega
      · omega

end

/-! ## Samples -/

section

variable {record : AvcConfiguration} {sample : Sample record} {env : Surroundings} {w : H264Writer}

theorem tiling_pos {n : Nat} (hn : 1 ≤ n) {tiles : List (Tile n)} (hne : tiles ≠ []) :
    0 < (tiling tiles).length := by
  cases tiles with
  | nil => exact absurd rfl hne
  | cons tile tiles =>
    rw [tiling_cons, List.length_append, tile.length_bytes]
    omega

theorem nalLengthBytes_bounds (record : AvcConfiguration) :
    1 ≤ record.nalLengthBytes ∧ record.nalLengthBytes ≤ 4 := by
  have hmask := masked_lt (n := 2) record.nalLengthMinusOne (y := 0x03) (by decide)
  unfold AvcConfiguration.nalLengthBytes
  omega

theorem frame_some (hne : sample.tiles ≠ []) : sample.call.frame = some sample.data := by
  have hpos := tiling_pos (nalLengthBytes_bounds record).1 hne
  have hsize := sample.sampleSize
  have hdevice := sample.device
  have hlen : sample.call.len ≠ 0 := fun hzero => by
    rw [hzero] at hsize
    have hnone : (0 : UInt).toNat = 0 := rfl
    omega
  unfold WriterAVCallData.frame
  rw [if_neg (not_or_intro hlen (by omega)), sample.sampleData]

theorem frame_none (hempty : sample.tiles = []) : sample.call.frame = none := by
  have hsize := sample.sampleSize
  rw [hempty] at hsize
  unfold WriterAVCallData.frame
  rw [if_pos (.inl (BitVec.eq_of_toNat_eq hsize))]

theorem beginsByteStream_iff {data : Nat → Byte} :
    w.beginsByteStream data = true ↔ LikeByteStream w.noOtherBeginningFound data := by
  unfold beginsByteStream beginsWith LikeByteStream
  simp only [Bool.or_eq_true, Bool.and_eq_true, beq_iff_eq]
  rw [or_assoc]
  rfl

variable (env) in
theorem writeData_taken (hne : sample.tiles ≠ [])
    (hlike : LikeByteStream w.noOtherBeginningFound sample.data) :
    ∃ w' packet rest, w.writeData env sample.call = some (w', [packet]) ∧
      payload packet = [0x00, 0x00, 0x01] ++ rest := by
  unfold writeData
  rw [frame_some hne]
  dsimp only
  rw [if_pos (beginsByteStream_iff.mpr hlike)]
  unfold byteStreamPacket
  dsimp only
  rw [sample.recordData]
  have hcode := fakeStartCode_ne (sample.call.version.setWidth 32)
  split
  · obtain ⟨rest, hrest⟩ := payload_insert_picStart hcode
    exact ⟨_, _, rest, rfl, hrest⟩
  · obtain ⟨rest, hrest⟩ := payload_insert_picStart hcode
    exact ⟨_, _, rest, rfl, hrest⟩

theorem startCoded_ne {n : Nat} {tiles : List (Tile n)} {rest : List Byte} :
    startCoded tiles ≠ [0x00, 0x00, 0x01] ++ rest := by
  unfold startCoded
  intro h
  cases hnals : tiles.filter (·.nal ≠ []) with
  | nil =>
    rw [hnals] at h
    exact nomatch h
  | cons tile tiles =>
    rw [hnals, List.flatMap_cons] at h
    have hthird := congrArg (·[2]?) h
    exact absurd (Option.some.inj hthird) (by decide)

theorem not_converted {first : Bool} {packet rest : List Byte}
    (hpayload : payload packet = [0x00, 0x00, 0x01] ++ rest) :
    ¬ Converted first sample [packet] := by
  rintro ⟨front, back, hpackets, hcarries, hfront⟩
  split at hfront
  · obtain ⟨parameters, sets, rfl, -⟩ := hfront
    have hlength := congrArg List.length hpackets
    simp only [List.length_append, List.length_cons, List.length_nil] at hlength
    omega
  · rw [hfront, List.nil_append] at hpackets
    have hbytes := hcarries.payloads
    rw [← hpackets, List.flatMap_singleton, hpayload] at hbytes
    exact startCoded_ne hbytes.symm

theorem writeData_plain (hne : sample.tiles ≠ [])
    (hplain : ¬ LikeByteStream w.noOtherBeginningFound sample.data)
    (hnals : sample.tiles.length ≤ env.nals)
    (hw : w.initialHeader = false → w.nalLengthBytes = record.nalLengthBytes) :
    ∃ front back, w.writeData env sample.call =
        some (⟨false, record.nalLengthBytes, false⟩, front ++ back) ∧
      Carries maxNalPayload sample.call.pts (startCoded sample.tiles) back ∧
      front = if w.initialHeader = true then
        [parametersPacket sample.call, paramSetsPacket sample.privateData] else [] := by
  obtain ⟨-, hlengthBytes⟩ := record_in_memory sample.recordBytes
  have hloop : ∀ before, ∃ back, Carries maxNalPayload sample.call.pts (startCoded sample.tiles) back ∧
      (writeNals sample.data record.nalLengthBytes sample.call.len env.nals
        ⟨0, 0, sample.call.pts, before⟩).packets = before ++ back := by
    intro before
    have hat : At 0 (⟨0, 0, sample.call.pts, before⟩ : Nals) := ⟨rfl, rfl⟩
    have hstart : Emitted maxNalPayload sample.call.pts before [] before sample.call.pts :=
      Emitted.nil
    have hend : 0 + (tiling sample.tiles).length = sample.call.len.toNat := by
      rw [Nat.zero_add, sample.sampleSize]
    obtain ⟨back, hpackets, hcarries, -⟩ := writeNals_tiling (nalLengthBytes_bounds record) hat
      sample.sampleBytes hne hend hnals hstart
    rw [List.nil_append] at hcarries
    exact ⟨back, hcarries, hpackets⟩
  unfold writeData
  rw [frame_some hne]
  dsimp only
  rw [if_neg fun h => hplain (beginsByteStream_iff.mp h), sample.recordData]
  by_cases hfirst : w.initialHeader = true
  · obtain ⟨back, hcarries, hpackets⟩ :=
      hloop [parametersPacket sample.call, paramSetsPacket sample.privateData]
    refine ⟨_, back, ?_, hcarries, rfl⟩
    rw [if_pos hfirst, if_pos hfirst]
    dsimp only
    rw [hlengthBytes, hpackets]
  · obtain ⟨back, hcarries, hpackets⟩ := hloop []
    refine ⟨_, back, ?_, hcarries, rfl⟩
    have hstarted : w.initialHeader = false := Bool.eq_false_iff.mpr hfirst
    rw [if_neg hfirst, if_neg hfirst, hstarted, hw hstarted, hpackets]

theorem converted_iff {front back : List (List Byte)} (hne : sample.tiles ≠ [])
    (hcarries : Carries maxNalPayload sample.call.pts (startCoded sample.tiles) back)
    (hfront : front = if w.initialHeader = true then
      [parametersPacket sample.call, paramSetsPacket sample.privateData] else []) :
    Converted w.initialHeader sample (front ++ back) ↔
      (w.initialHeader = true → record.annexB.length ≤ maxPesPacketSize) := by
  obtain ⟨hsets, -⟩ := record_in_memory sample.recordBytes
  have hpayload : payload (paramSetsPacket sample.privateData) = record.annexB := by
    unfold paramSetsPacket
    rw [payload_insert, hsets]
  constructor
  · rintro ⟨front', back', hpackets, -, hheaded⟩ hfirst
    rw [if_pos ⟨hfirst, hne⟩] at hheaded
    obtain ⟨parameters, sets, rfl, -, hsmall⟩ := hheaded
    rw [if_pos hfirst] at hfront
    rw [hfront] at hpackets
    -- the second packet is that of the sets, however the packets are told apart
    have hsecond := (List.cons.inj (List.cons.inj hpackets).2).1
    rw [← hpayload, hsecond]
    exact (hsmall sets (by simp)).1
  · intro hsmall
    refine ⟨front, back, rfl, hcarries, ?_⟩
    by_cases hfirst : w.initialHeader = true
    · rw [if_pos ⟨hfirst, hne⟩, hfront, if_pos hfirst]
      refine ⟨_, _, rfl, hpayload, ?_⟩
      rw [List.forall_mem_cons, List.forall_mem_singleton]
      refine ⟨⟨?_, saysPts_insert⟩, ?_, saysPts_insert⟩
      · unfold parametersPacket
        rw [payload_insert]
        exact Nat.le_of_ble_eq_true rfl
      · rw [hpayload]
        exact hsmall hfirst
    · rw [if_neg fun h => hfirst h.1, hfront, if_neg hfirst]

theorem writeData_empty (hempty : sample.tiles = []) :
    w.writeData env sample.call = some (w, []) := by
  unfold writeData
  rw [frame_none hempty]

theorem converted_empty {first : Bool} (hempty : sample.tiles = []) :
    Converted first sample [] := by
  refine ⟨[], [], rfl, ?_, ?_⟩
  · rw [hempty]
    exact Carries.nil
  · rw [if_neg fun h => h.2 hempty]

end

/-! ## Runs -/

theorem writeCalls_cons {env : Surroundings} {w w' : H264Writer} {sample : Sample record}
    {samples : List (Sample record)} {packets : List (List Byte)} {first : Bool}
    (h : w.writeData env sample.call = some (w', packets)) :
    (∃ written, writeCalls env w ((sample :: samples).map Sample.call) = some written ∧
        AllConverted first (sample :: samples) written) ↔
      Converted first sample packets ∧ ∃ rest, writeCalls env w' (samples.map Sample.call) = some rest ∧
        AllConverted (first && sample.tiles.isEmpty) samples rest := by
  have hcons : writeCalls env w ((sample :: samples).map Sample.call) =
      (writeCalls env w' (samples.map Sample.call)).map (packets :: ·) := by
    have hunfold : writeCalls env w ((sample :: samples).map Sample.call) =
        (w.writeData env sample.call).bind fun (w, packets) =>
          (writeCalls env w (samples.map Sample.call)).map (packets :: ·) := rfl
    rw [hunfold, h]
    rfl
  rw [hcons]
  constructor
  · rintro ⟨written, hwritten, packets', rest', rfl, hconverted, hrest⟩
    obtain ⟨rest, hcalls, heq⟩ := Option.map_eq_some_iff.mp hwritten
    obtain ⟨rfl, rfl⟩ := List.cons.inj heq
    exact ⟨hconverted, rest, hcalls, hrest⟩
  · rintro ⟨hconverted, rest, hcalls, hrest⟩
    exact ⟨packets :: rest, by rw [hcalls]; rfl, packets, rest, rfl, hconverted, hrest⟩

theorem writeCalls_iff {env : Surroundings} {w : H264Writer} {samples : List (Sample record)}
    (hnals : ∀ sample ∈ samples, sample.tiles.length ≤ env.nals)
    (hw : w.initialHeader = false → w.nalLengthBytes = record.nalLengthBytes) :
    (∃ written, writeCalls env w (samples.map Sample.call) = some written ∧
        AllConverted w.initialHeader samples written) ↔
      NoneLikeByteStream w.noOtherBeginningFound samples ∧
        (w.initialHeader = true → (∃ sample ∈ samples, sample.tiles ≠ []) →
          record.annexB.length ≤ maxPesPacketSize) := by
  induction samples generalizing w with
  | nil =>
    refine iff_of_true ⟨[], rfl, rfl⟩ ⟨trivial, fun _ h => ?_⟩
    obtain ⟨sample, hsample, -⟩ := h
    exact absurd hsample List.not_mem_nil
  | cons sample samples ih =>
    obtain ⟨hnal, hnals⟩ := List.forall_mem_cons.mp hnals
    have hnone : NoneLikeByteStream w.noOtherBeginningFound (sample :: samples) ↔
        if sample.tiles = [] then NoneLikeByteStream w.noOtherBeginningFound samples
        else ¬ LikeByteStream w.noOtherBeginningFound sample.data ∧
          NoneLikeByteStream false samples := Iff.rfl
    rw [hnone]
    by_cases hempty : sample.tiles = []
    · -- nothing changes
      rw [writeCalls_cons (writeData_empty hempty), if_pos hempty, hempty, List.isEmpty_nil,
        Bool.and_true, ih hnals hw, and_iff_right (converted_empty hempty)]
      simp only [List.mem_cons, exists_eq_or_imp, hempty, ne_eq, not_true_eq_false, false_or]
    · rw [if_neg hempty]
      by_cases hlike : LikeByteStream w.noOtherBeginningFound sample.data
      · obtain ⟨w', packet, rest, hwrite, hpayload⟩ := writeData_taken env hempty hlike
        rw [writeCalls_cons hwrite]
        exact iff_of_false (fun h => not_converted hpayload h.1) fun h => h.1.1 hlike
      · obtain ⟨front, back, hwrite, hcarries, hfront⟩ := writeData_plain hempty hlike hnal hw
        have hlater : (w.initialHeader && sample.tiles.isEmpty) = false := by
          rw [List.isEmpty_eq_false_iff.mpr hempty, Bool.and_false]
        have hrest := ih (w := ⟨false, record.nalLengthBytes, false⟩) hnals fun _ => rfl
        rw [writeCalls_cons hwrite, hlater, converted_iff hempty hcarries hfront, hrest]
        simp only [Bool.false_eq_true, false_imp_iff, and_true, hlike, not_false_eq_true, true_and]
        constructor
        · rintro ⟨hsmall, hplain⟩
          exact ⟨hplain, fun hfirst _ => hsmall hfirst⟩
        · rintro ⟨hplain, hsmall⟩
          exact ⟨fun hfirst => hsmall hfirst ⟨sample, List.mem_cons_self, hempty⟩, hplain⟩

/-- From a reset on, every sample is written with start codes in place of lengths, and
the parameter sets in front of the first, exactly if none begins like a byte stream and
the parameter sets are not too many for a packet. -/
theorem samples_converted_iff (env : Surroundings) (w : H264Writer) (record : AvcConfiguration)
    (samples : List (Sample record))
    (hnals : ∀ sample ∈ samples, sample.tiles.length ≤ env.nals) :
    (∃ written, writeCalls env w.reset (samples.map Sample.call) = some written ∧
        AllConverted true samples written) ↔
      NoneLikeByteStream w.noOtherBeginningFound samples ∧
        ((∃ sample ∈ samples, sample.tiles ≠ []) → record.annexB.length ≤ maxPesPacketSize) := by
  have hrun := writeCalls_iff (w := w.reset) hnals fun h => nomatch h
  exact hrun.trans (and_congr_right fun _ => ⟨fun h => h rfl, fun h _ => h⟩)

/-- A record with a set of each kind, and lengths of four bytes. -/
def mainRecord : AvcConfiguration where
  leading := [0x01, 0x4d, 0x40, 0x1f]
  nalLengthMinusOne := 0xff
  numSequenceSets := 0xe1
  sequenceSets := [⟨[0x00, 0x04], [0x67, 0x4d, 0x40, 0x1f], rfl, rfl⟩]
  numPictureSets := 0x01
  pictureSets := [⟨[0x00, 0x02], [0x68, 0xee], rfl, rfl⟩]
  four := rfl
  sequences := rfl
  pictures := rfl

/-- A sample that is one NAL, with nothing behind it. -/
def oneNal (tile : Tile mainRecord.nalLengthBytes) (len : UInt)
    (hlen : len.toNat = (tiling [tile]).length)
    (hbytes : load (fun i => tile.bytes.getD i 0) 0 (tiling [tile]).length = tiling [tile]) :
    Sample mainRecord where
  tiles := [tile]
  call :=
    { fd := 3
      data := some fun i => tile.bytes.getD i 0
      len := len
      pts := 90000
      privateData := some fun i => mainRecord.bytes.getD i 0
      privateSize := 17
      frameRate := 25000
      frameScale := 1000
      width := 720
      height := 576
      version := 0 }
  data := fun i => tile.bytes.getD i 0
  privateData := fun i => mainRecord.bytes.getD i 0
  device := Int.natCast_nonneg 3
  sampleData := rfl
  sampleSize := hlen
  sampleBytes := hbytes
  recordData := rfl
  recordBytes := by decide

/-- A slice of two bytes. -/
def sliceSample : Sample mainRecord := oneNal ⟨[0, 0, 0, 2], [0x65, 0x88], rfl, rfl⟩ 6 rfl (by decide)

theorem samples_converted_slice :
    ∃ written, writeCalls ⟨1, 0, id⟩ (reset ⟨false, 1, true⟩) [sliceSample.call] = some written ∧
      AllConverted true [sliceSample] written := by
  refine (samples_converted_iff ⟨1, 0, id⟩ ⟨false, 1, true⟩ mainRecord [sliceSample] ?_).mpr ⟨?_, ?_⟩
  · intro sample hsample
    rw [List.mem_singleton.mp hsample]
    exact Nat.le_refl 1
  · have hne : sliceSample.tiles ≠ [] := List.cons_ne_nil _ _
    show if sliceSample.tiles = [] then _ else _
    rw [if_neg hne]
    exact ⟨by decide, trivial⟩
  · exact fun _ => by decide

/-- An end of sequence alone, whose length is taken for a start code. -/
def endSample : Sample mainRecord := oneNal ⟨[0, 0, 0, 1], [0x0a], rfl, rfl⟩ 5 rfl (by decide)

theorem endSample_not_converted :
    ¬ ∃ written, writeCalls ⟨1, 0, id⟩ (reset ⟨false, 1, true⟩) ([endSample].map Sample.call) =
      some written ∧ AllConverted true [endSample] written := by
  obtain ⟨w', packet, rest, hwrite, hpayload⟩ :=
    writeData_taken (w := reset ⟨false, 1, true⟩) ⟨1, 0, id⟩ (List.cons_ne_nil _ _)
      (show LikeByteStream true endSample.data by decide)
  intro h
  exact not_converted hpayload ((writeCalls_cons hwrite).mp h).1

end H264Writer

end Duckbox.Pes
