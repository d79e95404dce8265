import Duckbox.FrameParser.AacAudio
import Duckbox.Pes.VideoWriters

/-!
# From the AAC writer to the parser of AAC headers

`writeData` of `aac.c` puts an ADTS header in front of every frame, the player
finds the end of the frame by the length in it. That has 13 bits, the top two of
them in byte 3; the writer shifts by 12 where it should shift by 11, so that bit
11 of the length is lost and bit 12 is read in its place (`writtenLength`).

> `adts_length_iff`: the parser reads the length of what was written where that is
> less than 2048 bytes, and only there.
-/

namespace Duckbox.Pes

open Duckbox.Lib Duckbox.FrameParser Duckbox.FrameParser.AacAudio

/-! ## The writer -/

/-- `AAC_AUDIO_PES_START_CODE`. -/
abbrev aacAudioPesStartCode : Byte := 0xcf

/-- `AAC_HEADER_LENGTH`. -/
abbrev aacHeaderLength : Nat := 7

/-- `DefaultAACHeader`. -/
def defaultAacHeader : List Byte := [0xff, 0xf1, 0x50, 0x80, 0x00, 0x1f, 0xfc]

/-- `ExtraData`: a header with the length of the packet. -/
def extraData (header : List Byte) (packetLength : UInt) : List Byte :=
  let header := header.modify 3 (· ||| (packetLength >>> 12 &&& 0x3).setWidth 8)
  let header := header.set 4 ((packetLength >>> 3 &&& 0xff).setWidth 8)
  header.modify 5 (· ||| (packetLength <<< 5 &&& 0xe0).setWidth 8)

/-- The frame that is put behind the PES header. -/
def aacFrame (call : WriterAVCallData) (data : Nat → Byte) : List Byte :=
  let header := match call.privateData with
    | none => defaultAacHeader
    | some p => load p 0 aacHeaderLength
  extraData header (call.len + 7) ++ load data 0 call.len.toNat

/-- `writeData` of `aac.c`: the packet, if there is one. -/
def aacWriteData (call : WriterAVCallData) : Option (List Byte) :=
  call.frame.map fun data =>
    insertPesHeader (call.len + 7) aacAudioPesStartCode call.pts 0 ++ aacFrame call data

/-! ## What the parser reads -/

/-- The length that is found in the header. -/
def writtenLength (packetLength : Nat) : Nat :=
  packetLength / 4096 % 4 * 2048 + packetLength % 2048

theorem writtenLength_lt (n : Nat) : writtenLength n < 8192 := by
  unfold writtenLength
  omega

theorem writtenLength_eq_iff (n : Nat) : writtenLength n = n ↔ n < 2048 := by
  unfold writtenLength
  omega

theorem length_extraData (L : UInt) : (extraData defaultAacHeader L).length = 7 := by
  simp [extraData, defaultAacHeader]

theorem header_bits : (∀ x < 4, 0x80 ||| x = 0x80 + x) ∧
    ∀ x < 256, 0x1f ||| x <<< 5 % 256 &&& 0xe0 = 0x1f + x % 8 * 32 := by
  decide +kernel

theorem bytesValue_extraData (L : UInt) : bytesValue (extraData defaultAacHeader L) =
    0xfff15080001ffc + writtenLength L.toNat * 8192 := by
  have hthree : ((0x80 : Byte) ||| (L >>> 12 &&& 0x3).setWidth 8).toNat
      = 0x80 + L.toNat / 4096 % 4 := by
    rw [← header_bits.1 _ (Nat.mod_lt _ (by decide))]
    simp [Nat.shiftRight_eq_div_pow, Nat.and_two_pow_sub_one_eq_mod _ 2]
  have hfour : ((L >>> 3 &&& 0xff).setWidth 8 : Byte).toNat = L.toNat / 8 % 256 := by
    simp [Nat.shiftRight_eq_div_pow, Nat.and_two_pow_sub_one_eq_mod _ 8]
  have hfive : ((0x1f : Byte) ||| (L <<< 5 &&& 0xe0).setWidth 8).toNat
      = 0x1f + L.toNat % 8 * 32 := by
    rw [← Nat.mod_mod_of_dvd L.toNat (by decide : 8 ∣ 256),
      ← header_bits.2 _ (Nat.mod_lt _ (by decide))]
    simp
  simp only [extraData, defaultAacHeader, List.modify_succ_cons, List.modify_zero_cons,
    List.set_cons_succ, List.set_cons_zero, bytesValue, hthree, hfour, hfive]
  unfold writtenLength
  simp
  omega

theorem field_get {m : Nat → Byte} {pointer : Nat} {L : UInt}
    (hm : ∀ i < 7, m (pointer + i) = (extraData defaultAacHeader L).getD i 0) {bits : BitStream}
    {p : Nat} (h : bits.At m (8 * pointer + p)) (n v : Nat) (hn : n ≤ 32 ∧ p + n ≤ 56)
    (hv : (0xfff15080001ffc + writtenLength L.toNat * 8192) / 2 ^ (56 - (p + n)) % 2 ^ n = v) :
    ∃ bits', bits.get m n = (BitVec.ofNat 32 v, bits') ∧ bits'.At m (8 * pointer + (p + n)) := by
  obtain ⟨hvalue, hat, -⟩ := h.get hn.1
  simp only [Nat.add_assoc] at hvalue hat
  have hbytes : numeral (fun i => byteBit m (8 * pointer + i)) 56
      = bytesValue (extraData defaultAacHeader L) := by
    have hat : ∀ i (hi : i < (extraData defaultAacHeader L).length),
        m (pointer + i) = (extraData defaultAacHeader L)[i] := by
      intro i hi
      rw [hm i (by rwa [length_extraData] at hi), List.getD_eq_getElem]
    have hread := numeral_bytes hat
    rwa [length_extraData] at hread
  have hdiv := numeral_div (fun i => byteBit m (8 * pointer + i)) (p + n) (56 - (p + n))
  rw [Nat.add_sub_cancel' hn.2, hbytes, bytesValue_extraData] at hdiv
  rw [hdiv, numeral_mod] at hv
  have hlt : v < 2 ^ 32 :=
    (hv ▸ numeral_lt _ n).trans_le (Nat.pow_le_pow_right (by decide) hn.1)
  refine ⟨_, Prod.ext (BitVec.eq_of_toNat_eq ?_) rfl, hat⟩
  rw [hvalue, hv, BitVec.toNat_ofNat, Nat.mod_eq_of_lt hlt]

/-- The whole header, read field by field. -/
theorem parseFrameHeader_extraData {m : Nat → Byte} {pointer : Nat} {L : UInt}
    (hm : ∀ i < 7, m (pointer + i) = (extraData defaultAacHeader L).getD i 0)
    (availableBytes : Int) (action : FrameParsingPurpose) (enableHeaderUnplayableErrors : Bool) :
    parseFrameHeader m pointer availableBytes action enableHeaderUnplayableErrors =
      if writtenLength L.toNat < 7 then .error .frameParserError
      else .ok ⟨.adtsFormat, 88200, 2048, writtenLength L.toNat⟩ := by
  have hlt := writtenLength_lt L.toNat
  obtain ⟨b11, hsync, h11⟩ :=
    field_get hm (p := 0) (BitStream.at_setPointer m pointer) 11 0x7ff (by decide) (by omega)
  obtain ⟨b12, hmore, h12⟩ := field_get hm (p := 11) h11 1 1 (by decide) (by omega)
  obtain ⟨b15, hlayer, h15⟩ :=
    field_get hm (p := 13) (h12.flushUnseen (n := 1)).1 2 0 (by decide) (by omega)
  obtain ⟨b18, hprofile, h18⟩ :=
    field_get hm (p := 16) (h15.flushUnseen (n := 1)).1 2 1 (by decide) (by omega)
  obtain ⟨b22, hfrequency, h22⟩ := field_get hm (p := 18) h18 4 4 (by decide) (by omega)
  obtain ⟨b26, hchannels, h26⟩ :=
    field_get hm (p := 23) (h22.flushUnseen (n := 1)).1 3 2 (by decide) (by omega)
  obtain ⟨b43, hsize, h43⟩ := field_get hm (p := 30) (h26.flushUnseen (n := 4)).1 13
    (writtenLength L.toNat) (by decide) (by omega)
  obtain ⟨b56, hblocks, -⟩ :=
    field_get hm (p := 54) (h43.flushUnseen (n := 11)).1 2 0 (by decide) (by omega)
  have hsmall : (BitVec.ofNat 32 (writtenLength L.toNat)).toNat = writtenLength L.toNat := by
    rw [BitVec.toNat_ofNat, Nat.mod_eq_of_lt (by omega)]
  unfold parseFrameHeader
  simp only [hsync, hmore]
  rw [if_neg (by decide), if_pos (by decide)]
  unfold parseAdts
  simp only [hlayer, hprofile, hfrequency, hchannels, hsize, hblocks, hsmall]
  rfl

/-- Wherever the frame is, the parser reads its length at its header. -/
def LengthRead (frame : List Byte) : Prop :=
  ∀ (m : Nat → Byte) (pointer : Nat), (∀ i < frame.length, m (pointer + i) = frame.getD i 0) →
    ∀ (availableBytes : Int) (action : FrameParsingPurpose) (enableHeaderUnplayableErrors : Bool),
      ∃ header, parseFrameHeader m pointer availableBytes action enableHeaderUnplayableErrors
        = .ok header ∧ header.length = frame.length

/-- With the default header, a frame is its data behind a header in which its length is read
where bit 11 and those above are clear, and nowhere else. -/
theorem adts_length_iff (call : WriterAVCallData) {data : Nat → Byte}
    (hframe : call.frame = some data) (hheader : call.privateData = none) :
    ∃ frame, aacWriteData call = some
        (insertPesHeader (call.len + 7) aacAudioPesStartCode call.pts 0 ++ frame) ∧
      frame.drop aacHeaderLength = load data 0 call.len.toNat ∧
      (LengthRead frame ↔ frame.length < 2048) := by
  have hcall : aacFrame call data = extraData defaultAacHeader (call.len + 7)
      ++ load data 0 call.len.toNat := by
    unfold aacFrame
    rw [hheader]
  have hlength : (aacFrame call data).length = 7 + call.len.toNat := by
    rw [hcall, List.length_append, length_extraData, load_length]
  have hadd : (call.len + 7).toNat = (call.len.toNat + 7) % 2 ^ 32 := BitVec.toNat_add _ _
  have hseven : ∀ (m : Nat → Byte) (pointer : Nat),
      (∀ i < (aacFrame call data).length, m (pointer + i) = (aacFrame call data).getD i 0) →
      ∀ i < 7, m (pointer + i) = (extraData defaultAacHeader (call.len + 7)).getD i 0 := by
    intro m pointer hm i hi
    rw [hm i (by omega), hcall, List.getD_append _ _ _ _ (by rwa [length_extraData])]
  refine ⟨aacFrame call data, by unfold aacWriteData; rw [hframe]; rfl, ?_, ?_⟩
  · rw [hcall, List.drop_append_of_le_length (by rw [length_extraData]),
      List.drop_of_length_le (by rw [length_extraData]), List.nil_append]
  rw [hlength]
  constructor
  · intro hread
    obtain ⟨header, hparsed, hsame⟩ :=
      hread (fun i => (aacFrame call data).getD i 0) 0
        (fun i _ => congrArg ((aacFrame call data).getD · 0) (Nat.zero_add i)) 0 .getLength false
    rw [parseFrameHeader_extraData (hseven _ _ fun i _ =>
      congrArg ((aacFrame call data).getD · 0) (Nat.zero_add i)), hadd] at hparsed
    have hlt := writtenLength_lt ((call.len.toNat + 7) % 2 ^ 32)
    split at hparsed
    · cases hparsed
    · obtain rfl := Except.ok.inj hparsed
      rw [hlength] at hsame
      dsimp only at hsame
      -- a length that wraps is far beyond what is read
      rw [Nat.mod_eq_of_lt (by omega)] at hsame
      have hsmall := (writtenLength_eq_iff (call.len.toNat + 7)).mp (by omega)
      omega
  · intro hsmall m pointer hm availableBytes action enableHeaderUnplayableErrors
    rw [parseFrameHeader_extraData (hseven m pointer hm), hadd, Nat.mod_eq_of_lt (by omega),
      (writtenLength_eq_iff (call.len.toNat + 7)).mpr (by omega), if_neg (by omega)]
    exact ⟨_, rfl, by rw [hlength]; exact Nat.add_comm _ _⟩

/-- A frame of two bytes. -/
def shortCall : WriterAVCallData :=
  ⟨0, some fun _ => 0, 2, invalidPts, none, 0, 0, 0, 0, 0, 0⟩

theorem adts_length_short :
    ∃ frame, aacWriteData shortCall
        = some (insertPesHeader 9 aacAudioPesStartCode invalidPts 0 ++ frame) ∧
      frame.drop aacHeaderLength = [0, 0] ∧ (LengthRead frame ↔ frame.length < 2048) :=
  adts_length_iff shortCall rfl rfl

end Duckbox.Pes
