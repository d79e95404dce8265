import Duckbox.Lib.Records
import Duckbox.Pes.VideoWriters

/-!
# Packets as long as they say

A packet is truthful where its length is that of what follows the field, or zero. What
`InsertPesHeader` is told is right for a packet that has so much behind its header
(`truthful_exact`), up to what fits in the field, and never for one that has more
(`truthful_extra`). So each writer is right where it puts nothing else behind a
header, and a run of calls where every call of it is (`packetLengths_iff`).
-/

namespace Duckbox.Pes

open Duckbox.Lib BitPacker

/-- `PES_packet_length`. -/
def pesPacketLength (packet : List Byte) : Nat :=
  (packet.getD 4 0).toNat * 2 ^ 8 + (packet.getD 5 0).toNat

/-- The length is that of the bytes behind it, or zero. -/
def Truthful (packet : List Byte) : Prop :=
  6 + pesPacketLength packet = packet.length ∨ pesPacketLength packet = 0

instance (packet : List Byte) : Decidable (Truthful packet) := inferInstanceAs (Decidable (_ ∨ _))

/-! ## A packet -/

section

variable {size : UInt} {streamId : Byte} {pts : BitVec 64} {picStartCode : UInt} {payload : List Byte}

variable (size streamId pts picStartCode) in
theorem headerBytes_insert (payload : List Byte) :
    HeaderBytes (fun i => (insertPesHeader size streamId pts picStartCode ++ payload).getD i 0) 0
      (packetLengthCode size pts picStartCode) pts := by
  have hwrites : Writes
      (byteBit fun i => (insertPesHeader size streamId pts picStartCode ++ payload).getD i 0) (8 * 0)
      (headerFields size streamId pts picStartCode) :=
    insertPesHeader_writes fun i hi => by
      have hlt : i < (insertPesHeader size streamId pts picStartCode ++ payload).length := by
        rw [List.length_append]
        exact Nat.lt_of_lt_of_le hi (Nat.le_add_right _ _)
      show (insertPesHeader size streamId pts picStartCode ++ payload).getD (0 + i) 0 = _
      rw [Nat.zero_add, List.getD_eq_getElem _ _ hlt, List.getElem_append_left hi]
  exact headerBytes_of_writes hwrites

theorem pesPacketLength_insert :
    pesPacketLength (insertPesHeader size streamId pts picStartCode ++ payload)
      = saidLength size pts picStartCode % 2 ^ 16 := by
  have hlength := (headerBytes_insert size streamId pts picStartCode payload).length
  rw [packetLengthCode_toNat, Nat.mod_mod_of_dvd _ (Nat.pow_dvd_pow 2 (by decide))] at hlength
  exact hlength

theorem packet_length (size : UInt) (streamId : Byte) (pts : BitVec 64) (picStartCode : UInt)
    (payload : List Byte) :
    (insertPesHeader size streamId pts picStartCode ++ payload).length + size.toNat
      = 6 + saidLength size pts picStartCode + payload.length := by
  rw [List.length_append, insertPesHeader_length]
  unfold saidLength
  omega

theorem truthful_exact (h : payload.length = size.toNat) :
    Truthful (insertPesHeader size streamId pts picStartCode ++ payload)
      ↔ saidLength size pts picStartCode < 2 ^ 16 ∨ saidLength size pts picStartCode % 2 ^ 16 = 0 := by
  have hlength := packet_length size streamId pts picStartCode payload
  unfold Truthful
  rw [pesPacketLength_insert]
  omega

theorem truthful_extra (h : size.toNat < payload.length) :
    Truthful (insertPesHeader size streamId pts picStartCode ++ payload)
      ↔ saidLength size pts picStartCode % 2 ^ 16 = 0 := by
  have hlength := packet_length size streamId pts picStartCode payload
  unfold Truthful
  rw [pesPacketLength_insert]
  omega

end

/-- All packets are. -/
def AllTruthful (packets : List (List Byte)) : Prop := ∀ packet ∈ packets, Truthful packet

variable {packets : List (List Byte)} {packet : List Byte}

theorem AllTruthful.concat (h : AllTruthful packets) (hpacket : Truthful packet) :
    AllTruthful (packets ++ [packet]) :=
  List.forall_mem_append.mpr ⟨h, List.forall_mem_singleton.mpr hpacket⟩

theorem truthful_list {streamId : Byte} {pts : BitVec 64} {payload : List Byte}
    (h : payload.length ≤ maxPesPacketSize) :
    Truthful (insertPesHeader (BitVec.ofNat 32 payload.length) streamId pts 0 ++ payload) := by
  have h : payload.length ≤ 65400 := h
  have hsize : (BitVec.ofNat 32 payload.length).toNat = payload.length := by
    rw [BitVec.toNat_ofNat]
    omega
  refine (truthful_exact hsize.symm).mpr (.inl ?_)
  unfold saidLength
  rw [hsize, if_neg (not_not_intro rfl)]
  split <;> omega

/-- The data of a call can be copied. -/
def Readable (p : Option (Nat → Byte)) (size : UInt) : Prop := p = none → size = 0

theorem copyFrom_iff {p : Option (Nat → Byte)} {size : UInt} :
    (∃ body, copyFrom p size = some body) ↔ Readable p size := by
  cases p with
  | some m => exact iff_of_true ⟨_, rfl⟩ fun h => nomatch h
  | none =>
    show (∃ body, (if size = 0 then some [] else none) = some body) ↔ (none = none → size = 0)
    by_cases hsize : size = 0
    · rw [if_pos hsize]
      exact iff_of_true ⟨[], rfl⟩ fun _ => hsize
    · rw [if_neg hsize]
      exact iff_of_false (fun ⟨_, h⟩ => nomatch h) fun h => hsize (h rfl)

theorem copyFrom_length {p : Option (Nat → Byte)} {size : UInt} {body : List Byte}
    (h : copyFrom p size = some body) : body.length = size.toNat := by
  cases p with
  | some m =>
    obtain rfl := Option.some.inj h
    exact load_length m 0 size.toNat
  | none =>
    have h : (if size = 0 then some [] else none) = some body := h
    split at h
    · next hsize =>
      obtain rfl := Option.some.inj h
      rw [hsize]
      rfl
    · exact nomatch h

variable {call : WriterAVCallData}

theorem load_frame {data : Nat → Byte} (h : call.frame = some data) :
    load data 0 call.len.toNat ≠ [] := by
  unfold WriterAVCallData.frame at h
  split at h
  · exact nomatch h
  · next hframe =>
    intro hnil
    have hlength := congrArg List.length hnil
    rw [load_length, List.length_nil] at hlength
    exact hframe (.inl (BitVec.eq_of_toNat_eq hlength))

/-! ## VC-1 -/

namespace Vc1Writer

/-- Whether the frame is known to have its start code, when its first piece is written. -/
def Seen (call : WriterAVCallData) (data : Nat → Byte) (frameHeaderSeen : Bool) : Prop :=
  frameHeaderSeen = true ∨ 3 < call.len.toNat ∧ beginsWith data vc1FrameStartCode = true

/-- The private data fits in the array, and no start code is put in front of the frame. -/
def Exact (w : Vc1Writer) (call : WriterAVCallData) : Prop :=
  ∀ data, call.frame = some data →
    (w.initialHeader = true →
      call.privateSize.toNat ≤ 128 ∧ Readable call.privateData call.privateSize) ∧
    Seen call data w.frameHeaderSeen

variable {env : Surroundings} {w : Vc1Writer} {call : WriterAVCallData} {data : Nat → Byte}

theorem metadataPacket_truthful : Truthful (metadataPacket env call) :=
  truthful_list (Nat.le_of_ble_eq_true rfl)

theorem privatePacket_iff : (∃ packet, privatePacket call = some packet) ↔
    call.privateSize.toNat ≤ 128 ∧ Readable call.privateData call.privateSize := by
  unfold privatePacket
  split
  · next hlong => exact iff_of_false (fun ⟨_, h⟩ => nomatch h) fun h => Nat.not_le.mpr hlong h.1
  · next hfits =>
    rw [← copyFrom_iff, and_iff_right (Nat.not_lt.mp hfits)]
    constructor
    · intro ⟨packet, h⟩
      obtain ⟨body, hbody, -⟩ := Option.map_eq_some_iff.mp h
      exact ⟨body, hbody⟩
    · intro ⟨body, hbody⟩
      exact ⟨_, by rw [hbody, Option.map_some]⟩

theorem privatePacket_truthful (h : privatePacket call = some packet) : Truthful packet := by
  unfold privatePacket at h
  split at h
  · exact nomatch h
  · next hfits =>
    obtain ⟨body, hbody, rfl⟩ := Option.map_eq_some_iff.mp h
    refine (truthful_exact (copyFrom_length hbody)).mpr (.inl ?_)
    unfold saidLength
    rw [if_neg (not_not_intro rfl), if_neg (not_not_intro rfl)]
    omega

variable {s : Pieces}

theorem writePiece_plain (hs : s.insertSampleHeader = true → Seen call data s.frameHeaderSeen)
    (piece : List Byte) :
    (writePiece call data s piece).packets = s.packets
      ++ [insertPesHeader (BitVec.ofNat 32 piece.length) vc1VideoPesStartCode s.pts 0 ++ piece] := by
  unfold writePiece
  dsimp only
  rw [if_neg]
  intro ⟨hinsert, hunseen⟩
  refine hunseen ?_
  rcases hs hinsert with hseen | ⟨hlong, hbegins⟩
  · rw [hseen, Bool.true_or]
  · rw [hinsert, hbegins, decide_eq_true hlong, Bool.and_self, Bool.and_self, Bool.or_true]

theorem writePiece_startCode (hinsert : s.insertSampleHeader = true)
    (hs : ¬ Seen call data s.frameHeaderSeen) (piece : List Byte) :
    (writePiece call data s piece).packets = s.packets
      ++ [insertPesHeader (BitVec.ofNat 32 piece.length) vc1VideoPesStartCode s.pts 0
        ++ (vc1FrameStartCode ++ piece)] := by
  unfold writePiece
  dsimp only
  rw [if_pos, List.append_assoc]
  refine ⟨hinsert, fun hseen => hs ?_⟩
  rw [Bool.or_eq_true, Bool.and_eq_true, Bool.and_eq_true, decide_eq_true_eq] at hseen
  exact hseen.imp id fun h => ⟨h.1.2, h.2⟩

theorem pieces_truthful (hs : AllTruthful s.packets)
    (hseen : s.insertSampleHeader = true → Seen call data s.frameHeaderSeen) (l : List Byte) :
    AllTruthful (overPieces maxPesPacketSize (writePiece call data) s l).packets := by
  refine (overPieces_inv (P := fun s : Pieces => AllTruthful s.packets ∧
    (s.insertSampleHeader = true → Seen call data s.frameHeaderSeen)) ?_ s l ⟨hs, hseen⟩).1
  intro s piece _ hpiece ⟨hs, hseen⟩
  refine ⟨?_, fun h => nomatch h⟩
  rw [writePiece_plain hseen]
  exact hs.concat (truthful_list hpiece)

theorem pieces_not_truthful (hinsert : s.insertSampleHeader = true)
    (hseen : ¬ Seen call data s.frameHeaderSeen) {l : List Byte} (hl : l ≠ []) :
    ¬ AllTruthful (overPieces maxPesPacketSize (writePiece call data) s l).packets := by
  have hlength : (l.take maxPesPacketSize).length ≤ 65400 := by
    rw [List.length_take]
    exact Nat.min_le_left _ _
  have hsize : (BitVec.ofNat 32 (l.take maxPesPacketSize).length).toNat
      = (l.take maxPesPacketSize).length := by
    rw [BitVec.toNat_ofNat]
    omega
  -- the first packet is not truthful, and stays among those written
  have hbad : ¬ Truthful (insertPesHeader (BitVec.ofNat 32 (l.take maxPesPacketSize).length)
      vc1VideoPesStartCode s.pts 0 ++ (vc1FrameStartCode ++ l.take maxPesPacketSize)) := by
    rw [truthful_extra (by rw [hsize, List.length_append]; exact Nat.lt_add_of_pos_left (by decide))]
    unfold saidLength
    rw [hsize, if_neg (not_not_intro rfl)]
    split <;> omega
  rw [overPieces_step (by decide) s hl]
  refine overPieces_inv (P := fun s : Pieces => ¬ AllTruthful s.packets) ?_ _ _ ?_
  · intro s piece _ _ hs hall
    refine hs fun packet hpacket => hall packet ?_
    unfold writePiece
    exact List.mem_append_left _ hpacket
  · rw [writePiece_startCode hinsert hseen]
    intro hall
    exact hbad (hall _ (List.mem_append_right _ (List.mem_singleton_self _)))

theorem headers_iff : (∃ packets, w.headers env call = some packets) ↔ (w.initialHeader = true →
    call.privateSize.toNat ≤ 128 ∧ Readable call.privateData call.privateSize) := by
  unfold headers
  split
  · next hinitial =>
    rw [forall_prop_of_true hinitial, ← privatePacket_iff]
    constructor
    · intro ⟨packets, h⟩
      obtain ⟨packet, hpacket, -⟩ := Option.map_eq_some_iff.mp h
      exact ⟨packet, hpacket⟩
    · intro ⟨packet, hpacket⟩
      exact ⟨_, by rw [hpacket, Option.map_some]⟩
  · next hlater => exact iff_of_true ⟨[], rfl⟩ fun h => absurd h hlater

theorem headers_truthful (h : w.headers env call = some packets) : AllTruthful packets := by
  unfold headers at h
  split at h
  · obtain ⟨packet, hpacket, rfl⟩ := Option.map_eq_some_iff.mp h
    exact List.forall_mem_cons.mpr
      ⟨metadataPacket_truthful, List.forall_mem_singleton.mpr (privatePacket_truthful hpacket)⟩
  · obtain rfl := Option.some.inj h
    exact fun packet hpacket => nomatch hpacket

theorem writeData_iff : (∃ w' packets, w.writeData env call = some (w', packets) ∧
    AllTruthful packets) ↔ w.Exact call := by
  unfold writeData Exact
  cases hframe : call.frame with
  | none => exact iff_of_true ⟨w, [], rfl, fun _ h => nomatch h⟩ fun _ h => nomatch h
  | some data =>
    have hdata : load data 0 call.len.toNat ≠ [] := load_frame hframe
    dsimp only
    constructor
    · intro ⟨w', packets, h, hall⟩ data' hdata'
      obtain rfl := Option.some.inj hdata'
      obtain ⟨headers, hheaders, heq⟩ := Option.map_eq_some_iff.mp h
      obtain ⟨-, rfl⟩ := Prod.mk.inj heq
      refine ⟨headers_iff.mp ⟨headers, hheaders⟩, Classical.byContradiction fun hseen => ?_⟩
      exact pieces_not_truthful rfl hseen hdata hall
    · intro h
      obtain ⟨hprivate, hseen⟩ := h data rfl
      obtain ⟨headers, hheaders⟩ := headers_iff.mpr hprivate
      rw [hheaders]
      exact ⟨_, _, rfl, pieces_truthful (headers_truthful hheaders) (fun _ => hseen) _⟩

end Vc1Writer

/-! ## H.264 -/

theorem saidLength_fake {size : UInt} {pts : BitVec 64} {picStartCode : UInt}
    (h : picStartCode ≠ 0) : saidLength size pts picStartCode
      = size.toNat + 8 + if pts ≠ invalidPts then 5 else 0 := by
  unfold saidLength
  rw [if_pos h]
  omega

theorem fakeStartCode_ne (version : UInt) : version <<< 8 ||| pesVersionFakeStartCode ≠ 0 := by
  intro h
  have hbit := congrArg (fun x : UInt => x.getLsbD 0) h
  simp at hbit

namespace H264Writer

/-- The bytes that `copyParamSets` makes of so many parameter sets, and the offset behind them. -/
def setsSize (params : Nat → Byte) : Nat → Nat → Nat × Nat
  | 0, paramOffset => (0, paramOffset)
  | count + 1, paramOffset =>
    let psLength := (params paramOffset).toNat * 2 ^ 8 + (params (paramOffset + 1)).toNat
    let (rest, next) := setsSize params count (paramOffset + (psLength + 2))
    (4 + psLength + rest, next)

/-- The lengths of all parameter sets of private data, with a start code each. -/
def paramSetsSize (privateData : Nat → Byte) : Nat :=
  let params := fun i => privateData (6 + i)
  let (sequences, paramOffset) := setsSize params (privateData 5 &&& 0x1f).toNat 0
  let (pictures, _) := setsSize params (params paramOffset).toNat (paramOffset + 1)
  sequences + pictures

/-- A frame of a byte stream is long enough for its length to be cut to none; the
parameter sets in front of another fit in a packet. -/
def Exact (w : H264Writer) (call : WriterAVCallData) : Prop :=
  ∀ data, call.frame = some data →
    if w.beginsByteStream data then
      (w.initialHeader = true → Readable call.privateData call.privateSize) ∧
        (call.len.toNat + 8 + if call.pts ≠ invalidPts then 5 else 0) % 2 ^ 16 = 0
    else
      w.initialHeader = true → ∀ privateData, call.privateData = some privateData →
        paramSetsSize privateData + 3 < 2 ^ 16 ∨ (paramSetsSize privateData + 3) % 2 ^ 16 = 0

variable {env : Surroundings} {w : H264Writer} {call : WriterAVCallData} {data : Nat → Byte}

theorem copyParamSets_size (params : Nat → Byte) (count : Nat) : ∀ paramOffset,
    (copyParamSets params count paramOffset).1.length = (setsSize params count paramOffset).1 ∧
      (copyParamSets params count paramOffset).2 = (setsSize params count paramOffset).2 := by
  induction count with
  | zero => exact fun _ => ⟨rfl, rfl⟩
  | succ count ih =>
    intro paramOffset
    obtain ⟨hlength, hnext⟩ := ih (paramOffset
      + ((params paramOffset).toNat * 2 ^ 8 + (params (paramOffset + 1)).toNat + 2))
    refine ⟨?_, hnext⟩
    show (head ++ load params _ _ ++ _).length = 4 + _ + _
    rw [List.length_append, List.length_append, load_length, hlength]
    rfl

theorem paramSets_length (privateData : Nat → Byte) :
    (paramSets privateData).length = paramSetsSize privateData := by
  obtain ⟨hsequences, hoffset⟩ :=
    copyParamSets_size (fun i => privateData (6 + i)) (privateData 5 &&& 0x1f).toNat 0
  unfold paramSets paramSetsSize
  dsimp only
  rw [List.length_append, hsequences, hoffset]
  exact congrArg (_ + ·) (copyParamSets_size _ _ _).1

theorem setsSize_le (params : Nat → Byte) (count : Nat) : ∀ paramOffset,
    (setsSize params count paramOffset).1 ≤ count * 65539 := by
  induction count with
  | zero => exact fun _ => Nat.zero_le _
  | succ count ih =>
    intro paramOffset
    have hfirst := (params paramOffset).isLt
    have hsecond := (params (paramOffset + 1)).isLt
    have hrest := ih (paramOffset
      + ((params paramOffset).toNat * 2 ^ 8 + (params (paramOffset + 1)).toNat + 2))
    show 4 + _ + (setsSize params count _).1 ≤ _
    omega

theorem paramSetsSize_lt (privateData : Nat → Byte) : paramSetsSize privateData < 2 ^ 32 := by
  have hle : ∀ (params : Nat → Byte) (count : Byte) (paramOffset : Nat),
      (setsSize params count.toNat paramOffset).1 ≤ 255 * 65539 := fun params count paramOffset =>
    Nat.le_trans (setsSize_le params _ _)
      (Nat.mul_le_mul_right 65539 (Nat.le_of_lt_succ count.isLt))
  exact Nat.lt_of_le_of_lt (Nat.add_le_add (hle _ _ _) (hle _ _ _)) (by decide)

theorem paramSetsPacket_iff (privateData : Nat → Byte) : Truthful (paramSetsPacket privateData) ↔
    paramSetsSize privateData + 3 < 2 ^ 16 ∨ (paramSetsSize privateData + 3) % 2 ^ 16 = 0 := by
  have hsize : (BitVec.ofNat 32 (paramSets privateData).length).toNat
      = (paramSets privateData).length := by
    rw [BitVec.toNat_ofNat, paramSets_length, Nat.mod_eq_of_lt (paramSetsSize_lt privateData)]
  unfold paramSetsPacket
  rw [truthful_exact hsize.symm]
  unfold saidLength
  rw [hsize, paramSets_length, if_neg (not_not_intro rfl), if_neg (not_not_intro rfl)]

theorem parametersPacket_truthful : Truthful (parametersPacket call) :=
  truthful_list (Nat.le_of_ble_eq_true rfl)

theorem writePiece_truthful {s : Pieces} {piece : List Byte} (hpiece : piece.length ≤ bufferSize)
    (hs : AllTruthful s.packets) : AllTruthful (writePiece s piece).packets := by
  have hpiece : piece.length ≤ 37412 := hpiece
  refine hs.concat (truthful_list ?_)
  show _ ≤ 65400
  split
  · rw [List.length_append, show head.length = 4 from rfl]
    omega
  · omega

variable {nalLengthBytes : Nat} {sampleSize : UInt}

theorem writeNals_inv {P : List (List Byte) → Prop}
    (hpiece : ∀ (s : Pieces) piece, piece.length ≤ bufferSize → P s.packets →
      P (writePiece s piece).packets)
    (nals : Nat) :
    ∀ {s : Nals}, P s.packets → P (writeNals data nalLengthBytes sampleSize nals s).packets := by
  have hnal : ∀ s : Nals, P s.packets → P (writeNal data nalLengthBytes sampleSize s).packets := by
    intro s hs
    unfold writeNal
    dsimp only
    split
    · exact hs
    · exact overPieces_inv (P := fun s : Pieces => P s.packets)
        (fun s piece _ hlength hs => hpiece s piece hlength hs) _ _ hs
  induction nals with
  | zero => exact fun hs => hs
  | succ nals ih =>
    intro s hs
    unfold writeNals
    dsimp only
    split
    · exact ih (hnal s hs)
    · exact hnal s hs

theorem writeNals_truthful (nals : Nat) {s : Nals} (hs : AllTruthful s.packets) :
    AllTruthful (writeNals data nalLengthBytes sampleSize nals s).packets :=
  writeNals_inv (fun _ _ hlength hs => writePiece_truthful hlength hs) nals hs

theorem mem_writeNals (nals : Nat) {s : Nals} (hs : packet ∈ s.packets) :
    packet ∈ (writeNals data nalLengthBytes sampleSize nals s).packets :=
  writeNals_inv (P := fun packets => packet ∈ packets)
    (fun _ _ _ hs => List.mem_append_left _ hs) nals hs

theorem byteStreamPacket_iff : (∃ packet, byteStreamPacket env w call data = some packet ∧
    Truthful packet) ↔ (w.initialHeader = true → Readable call.privateData call.privateSize) ∧
      (call.len.toNat + 8 + if call.pts ≠ invalidPts then 5 else 0) % 2 ^ 16 = 0 := by
  have hpacket : ∀ privateData : List Byte, Truthful
      (insertPesHeader call.len mpegVideoPesStartCode call.pts
          (call.version.setWidth 32 <<< 8 ||| pesVersionFakeStartCode)
        ++ (privateData ++ load data 0 call.len.toNat ++ [env.found])) ↔
      (call.len.toNat + 8 + if call.pts ≠ invalidPts then 5 else 0) % 2 ^ 16 = 0 := by
    intro privateData
    rw [truthful_extra, saidLength_fake (fakeStartCode_ne _)]
    rw [List.length_append, List.length_append, load_length, List.length_singleton]
    omega
  unfold byteStreamPacket
  dsimp only
  split
  · next hinitial =>
    rw [forall_prop_of_true hinitial, ← copyFrom_iff]
    constructor
    · intro ⟨packet, h, htrue⟩
      obtain ⟨body, hbody, rfl⟩ := Option.map_eq_some_iff.mp h
      exact ⟨⟨body, hbody⟩, (hpacket body).mp htrue⟩
    · intro ⟨⟨body, hbody⟩, hzero⟩
      rw [hbody]
      exact ⟨_, rfl, (hpacket body).mpr hzero⟩
  · next hlater =>
    constructor
    · intro ⟨packet, h, htrue⟩
      obtain rfl := Option.some.inj h
      exact ⟨fun h => absurd h hlater, (hpacket []).mp htrue⟩
    · intro ⟨_, hzero⟩
      exact ⟨_, rfl, (hpacket []).mpr hzero⟩

theorem writeData_iff : (∃ w' packets, w.writeData env call = some (w', packets) ∧
    AllTruthful packets) ↔ w.Exact call := by
  unfold writeData Exact
  cases hframe : call.frame with
  | none => exact iff_of_true ⟨w, [], rfl, fun _ h => nomatch h⟩ fun _ h => nomatch h
  | some data =>
    simp only [Option.some.injEq, forall_eq']
    split
    · have hpacket : (∃ packet, byteStreamPacket env w call data = some packet ∧
        Truthful packet) ↔ _ := byteStreamPacket_iff
      rw [← hpacket]
      constructor
      · intro ⟨w', packets, h, hall⟩
        obtain ⟨packet, hpacket, heq⟩ := Option.map_eq_some_iff.mp h
        obtain ⟨-, rfl⟩ := Prod.mk.inj heq
        exact ⟨packet, hpacket, List.forall_mem_singleton.mp hall⟩
      · intro ⟨packet, hpacket, htrue⟩
        rw [hpacket]
        exact ⟨_, _, rfl, List.forall_mem_singleton.mpr htrue⟩
    · split
      · next hinitial =>
        rw [forall_prop_of_true hinitial]
        cases call.privateData with
        | none => exact iff_of_true ⟨_, [], rfl, fun _ h => nomatch h⟩ fun _ h => nomatch h
        | some privateData =>
          simp only [Option.some.injEq, forall_eq']
          rw [← paramSetsPacket_iff]
          constructor
          · intro ⟨w', packets, h, hall⟩
            obtain ⟨-, rfl⟩ := Prod.mk.inj h
            exact hall _ (mem_writeNals env.nals (List.mem_cons_of_mem _ List.mem_cons_self))
          · intro htrue
            exact ⟨_, _, rfl, writeNals_truthful env.nals (List.forall_mem_cons.mpr
              ⟨parametersPacket_truthful, List.forall_mem_singleton.mpr htrue⟩)⟩
      · next hlater =>
        refine iff_of_true ⟨_, _, rfl, ?_⟩ fun h => absurd h hlater
        exact writeNals_truthful env.nals fun _ h => nomatch h

end H264Writer

/-! ## MPEG-4 part 2 -/

namespace DivxWriter

/-- No division by zero, and a frame long enough for its length to be cut to none. -/
def Exact (w : DivxWriter) (call : WriterAVCallData) : Prop :=
  ∀ data, call.frame = some data →
    call.frameRate ≠ 0 ∧
    (w.initialHeader = true → Readable call.privateData call.privateSize) ∧
    (call.len.toNat + 8 + if call.pts ≠ invalidPts then 5 else 0) % 2 ^ 16 = 0

theorem fakeHeaders_length (usecPerFrame : UInt) : (fakeHeaders usecPerFrame).length = 17 := by
  have hfit : ∀ code ∈ [((0x1b0 : UInt), 32), (0x0, 8), (0x1b2, 32), (0x53545443, 32),
      (usecPerFrame, 32)], code.2 ≤ 32 ∧ code.1.toNat < 2 ^ code.2 := by
    simp only [List.forall_mem_cons, List.not_mem_nil, false_imp_iff, implies_true, and_true]
    exact ⟨by decide, by decide, by decide, by decide, Nat.le_refl 32, usecPerFrame.isLt⟩
  have hpacked := putAll_packed _ new_packed hfit
  have hwidth : totalWidth (codeFields [((0x1b0 : UInt), 32), (0x0, 8), (0x1b2, 32),
      (0x53545443, 32), (usecPerFrame, 32)]) = 136 := by
    simp [totalWidth_codeFields]
  rw [List.nil_append] at hpacked
  have hlength := (flushBits_bytes hpacked (by rw [hwidth])).1
  rw [hwidth] at hlength
  exact Nat.eq_of_mul_eq_mul_left (by decide) hlength

theorem writeData_iff {w : DivxWriter} :
    (∃ w' packets, w.writeData call = some (w', packets) ∧ AllTruthful packets) ↔ w.Exact call := by
  unfold writeData Exact
  cases hframe : call.frame with
  | none => exact iff_of_true ⟨w, [], rfl, fun _ h => nomatch h⟩ fun _ h => nomatch h
  | some data =>
    have hpacket : ∀ privateData : List Byte, AllTruthful
        [insertPesHeader call.len mpegVideoPesStartCode call.pts
            ((5 : UInt) <<< 8 ||| pesVersionFakeStartCode)
          ++ (fakeHeaders (1000000000 / call.frameRate) ++ privateData
            ++ load data 0 call.len.toNat)] ↔
        (call.len.toNat + 8 + if call.pts ≠ invalidPts then 5 else 0) % 2 ^ 16 = 0 := by
      intro privateData
      unfold AllTruthful
      rw [List.forall_mem_singleton, truthful_extra, saidLength_fake (fakeStartCode_ne 5)]
      rw [List.length_append, List.length_append, load_length, fakeHeaders_length]
      omega
    simp only [Option.some.injEq, forall_eq']
    split
    · next hzero => exact iff_of_false (fun ⟨_, _, h, _⟩ => nomatch h) fun h => h.1 hzero
    · next hrate =>
      rw [and_iff_right hrate]
      split
      · next hinitial =>
        rw [forall_prop_of_true hinitial, ← copyFrom_iff]
        constructor
        · intro ⟨w', packets, h, hall⟩
          obtain ⟨body, hbody, heq⟩ := Option.map_eq_some_iff.mp h
          obtain ⟨-, rfl⟩ := Prod.mk.inj heq
          exact ⟨⟨body, hbody⟩, (hpacket body).mp hall⟩
        · intro ⟨⟨body, hbody⟩, hzero⟩
          rw [hbody]
          exact ⟨_, _, rfl, (hpacket body).mpr hzero⟩
      · next hlater =>
        constructor
        · intro ⟨w', packets, h, hall⟩
          obtain ⟨-, rfl⟩ := Prod.mk.inj (Option.some.inj h)
          exact ⟨fun h => absurd h hlater, (hpacket []).mp hall⟩
        · intro ⟨_, hzero⟩
          exact ⟨_, _, rfl, (hpacket []).mpr hzero⟩

end DivxWriter

/-! ## Runs -/

namespace Writers

/-- A call is exact for the writer it is to. -/
def ExactCall (w : Writers) (call : WriterAVCallData) : VideoWriter → Prop
  | .vc1 => w.vc1.Exact call
  | .h264 => w.h264.Exact call
  | .divx => w.divx.Exact call

def Exact (w : Writers) : WriterCall → Prop
  | .reset _ => True
  | .writeData writer call => w.ExactCall call writer

variable {env : Surroundings}

theorem exists_map_iff {α β γ : Type} {r : Option (α × γ)} (f : α → β) {Q : γ → Prop} :
    (∃ b c, (r.map fun (a, c) => (f a, c)) = some (b, c) ∧ Q c) ↔
      ∃ a c, r = some (a, c) ∧ Q c := by
  constructor
  · intro ⟨b, c, h, hc⟩
    obtain ⟨⟨a, c'⟩, hr, heq⟩ := Option.map_eq_some_iff.mp h
    obtain ⟨-, rfl⟩ := Prod.mk.inj heq
    exact ⟨a, c', hr, hc⟩
  · intro ⟨a, c, hr, hc⟩
    exact ⟨f a, c, by rw [hr, Option.map_some], hc⟩

theorem writeData_iff (env : Surroundings) (w : Writers) (call : WriterAVCallData)
    (writer : VideoWriter) :
    (∃ w' packets, w.writeData env call writer = some (w', packets) ∧ AllTruthful packets) ↔
      w.ExactCall call writer := by
  cases writer with
  | vc1 => exact (exists_map_iff fun vc1 => { w with vc1 := vc1 }).trans Vc1Writer.writeData_iff
  | h264 =>
    exact (exists_map_iff fun h264 => { w with h264 := h264 }).trans H264Writer.writeData_iff
  | divx =>
    exact (exists_map_iff fun divx => { w with divx := divx }).trans DivxWriter.writeData_iff

theorem written_writeData {w w' : Writers} {writer : VideoWriter}
    (h : w.writeData env call writer = some (w', packets)) : w'.written = w.written := by
  cases writer <;>
    (obtain ⟨_, _, heq⟩ := Option.map_eq_some_iff.mp h
     obtain ⟨rfl, -⟩ := Prod.mk.inj heq
     rfl)

theorem step_iff {w : Writers} {op : WriterCall} (hw : AllTruthful w.written) :
    (∃ w', w.step env op = some w' ∧ AllTruthful w'.written) ↔ w.Exact op := by
  cases op with
  | reset writer =>
    refine iff_of_true ⟨_, rfl, ?_⟩ trivial
    cases writer <;> exact hw
  | writeData writer call =>
    refine Iff.trans ?_ (writeData_iff env w call writer)
    constructor
    · intro ⟨_, h, htrue⟩
      obtain ⟨⟨w', packets⟩, hwrite, rfl⟩ := Option.map_eq_some_iff.mp h
      exact ⟨w', packets, hwrite, (List.forall_mem_append.mp htrue).2⟩
    · intro ⟨w', packets, hwrite, htrue⟩
      refine ⟨_, congrArg (Option.map _) hwrite, List.forall_mem_append.mpr ⟨?_, htrue⟩⟩
      rw [written_writeData hwrite]
      exact hw

theorem written_step {w w' : Writers} {op : WriterCall} (h : w.step env op = some w')
    (htrue : AllTruthful w'.written) : AllTruthful w.written := by
  cases op with
  | reset writer =>
    obtain rfl := Option.some.inj h
    cases writer <;> exact htrue
  | writeData writer call =>
    obtain ⟨⟨w₁, packets⟩, hwrite, rfl⟩ := Option.map_eq_some_iff.mp h
    have hall : AllTruthful (w₁.written ++ packets) := htrue
    rw [written_writeData hwrite] at hall
    exact (List.forall_mem_append.mp hall).1

end Writers

/-- Where the packet at the front of a stream ends, by its length. -/
def packetExtent (stream : List Byte) : Nat := 6 + pesPacketLength stream

/-- A run of calls writes packets with truthful lengths, and walking the stream by these
lengths, if none is zero, finds the packets. -/
def LengthsTruthful (env : Surroundings) (ops : List WriterCall) : Prop :=
  ∃ w, run (Writers.step env) Writers.start ops = some w ∧ AllTruthful w.written ∧
    ((∀ packet ∈ w.written, pesPacketLength packet ≠ 0) →
      records packetExtent w.written.length w.written.flatten = some w.written)

theorem records_truthful (h : AllTruthful packets)
    (hbounded : ∀ packet ∈ packets, pesPacketLength packet ≠ 0) :
    records packetExtent packets.length packets.flatten = some packets := by
  refine records_flatten (fun packet hpacket => ?_) (Nat.le_refl _)
  have hlength : packetExtent packet = packet.length :=
    (h packet hpacket).resolve_right (hbounded packet hpacket)
  have hlong : 6 ≤ packet.length := hlength ▸ Nat.le_add_right 6 _
  refine ⟨fun hnil => ?_, fun rest => ?_⟩
  · rw [hnil] at hlong
    exact absurd hlong (by decide)
  · rw [← hlength]
    unfold packetExtent pesPacketLength
    rw [List.getD_append _ _ _ _ (by omega), List.getD_append _ _ _ _ (by omega)]

/-- A run of calls writes truthful packets if and only if every call of it is exact. -/
theorem packetLengths_iff (env : Surroundings) (ops : List WriterCall) :
    LengthsTruthful env ops ↔ Admits (Writers.step env) Writers.Exact Writers.start ops := by
  have hstart : AllTruthful Writers.start.written := fun _ h => nomatch h
  rw [← run_iff_admits (P := fun w : Writers => AllTruthful w.written)
    (fun hw => Writers.step_iff hw) Writers.written_step hstart]
  constructor
  · intro ⟨w, hrun, htrue, _⟩
    exact ⟨w, hrun, htrue⟩
  · intro ⟨w, hrun, htrue⟩
    exact ⟨w, hrun, htrue, records_truthful htrue⟩

/-- A frame of one byte. -/
def oneByteFrame : WriterAVCallData where
  fd := 3
  data := some fun _ => 0x42
  len := 1
  pts := 0
  privateData := none
  privateSize := 0
  frameRate := 25000
  frameScale := 1000
  width := 0
  height := 0
  version := 0

/-- Its packet is said to go on for 14 bytes, and goes on for 31: the fake headers are
not counted. -/
theorem divx_fakeHeaders_uncounted :
    ¬ LengthsTruthful ⟨0, 0, id⟩ [.writeData .divx oneByteFrame] := by
  intro ⟨w, hrun, htrue, _⟩
  obtain ⟨w', hstep, hend⟩ := Option.bind_eq_some_iff.mp hrun
  obtain rfl := Option.some.inj hend
  have hstart : AllTruthful Writers.start.written := fun _ h => nomatch h
  have hexact := (Writers.step_iff hstart).mp ⟨w', hstep, htrue⟩
  exact absurd (hexact _ rfl).2.2 (by decide)

end Duckbox.Pes
