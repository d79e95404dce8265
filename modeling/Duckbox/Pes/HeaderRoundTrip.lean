import Duckbox.Pes.ReadHeader
import Duckbox.Lib.Region

/-!
# What the writers put in a header, the collators read from it

The bits of a header are the fields that were put (`insertPesHeader_writes`), and a
stream at a field reads it (`get_field`). So both collators find the time, in all of
its 33 bits, and the length of what is behind the header.
-/

namespace Duckbox.Pes

open Duckbox.Lib BitPacker
open FrameParser (BitStream)
open FrameParser.BitStream (At)
open Collator2 (FrameTimes CollatorStatus)

/-! ## Reading fields -/

section

variable {m : Nat → Byte} {bits : BitStream} {p : Nat} {x : Field} {l : List Field}

/-- The fields from where a stream is. -/
structure AtFields (m : Nat → Byte) (bits : BitStream) (p : Nat) (l : List Field) : Prop where
  at_bits : bits.At m p
  writes : Writes (byteBit m) p l
  fits : ∀ x ∈ l, x.Fits

theorem AtFields.get (h : AtFields m bits p (x :: l)) (hx : x.width ≤ 32) :
    (bits.get m x.width).1.toNat = x.value ∧
      AtFields m (bits.get m x.width).2 (p + x.width) l := by
  have hfits : ∀ y ∈ l, y.Fits := fun y hy => h.fits y (List.mem_cons_of_mem x hy)
  obtain ⟨hvalue, hrest⟩ := h.writes.head hfits
  obtain ⟨hget, hat, -⟩ := h.at_bits.get hx
  exact ⟨hget.trans hvalue, hat, hrest, hfits⟩

theorem AtFields.flush (h : AtFields m bits p (x :: l)) :
    AtFields m (bits.flushUnseen m x.width) (p + x.width) l := by
  have hfits : ∀ y ∈ l, y.Fits := fun y hy => h.fits y (List.mem_cons_of_mem x hy)
  exact ⟨h.at_bits.flushUnseen.1, (h.writes.head hfits).2, hfits⟩

theorem AtFields.get_code {code : UInt} {n : Nat} (h : AtFields m bits p (codeField code n :: l))
    (hn : n ≤ 32) :
    (bits.get m n).1.toNat = code.toNat % 2 ^ n ∧ AtFields m (bits.get m n).2 (p + n) l :=
  h.get hn

end

/-! ## The time -/

theorem timeOf_parts {pts : BitVec 64} (hpts : pts.toNat < 2 ^ 33) {high middle low : UInt}
    (hhigh : high.toNat = pts.toNat / 2 ^ 30 % 2 ^ 3)
    (hmiddle : middle.toNat = pts.toNat / 2 ^ 15 % 2 ^ 15) (hlow : low.toNat = pts.toNat % 2 ^ 15) :
    timeOf high middle low = pts := by
  have hhigh' : (high.setWidth 64 <<< 30 : BitVec 64).toNat = high.toNat <<< 30 := by
    rw [BitVec.toNat_shiftLeft, BitVec.toNat_setWidth, Nat.shiftLeft_eq, Nat.shiftLeft_eq]
    omega
  have hmiddle' : ((middle <<< 15).setWidth 64 : BitVec 64).toNat = middle.toNat <<< 15 := by
    rw [BitVec.toNat_setWidth, BitVec.toNat_shiftLeft, Nat.shiftLeft_eq]
    omega
  have hlow' : (low.setWidth 64 : BitVec 64).toNat = low.toNat := by
    rw [BitVec.toNat_setWidth]
    omega
  apply BitVec.eq_of_toNat_eq
  unfold timeOf
  rw [BitVec.toNat_or, BitVec.toNat_or, hhigh', hmiddle', hlow',
    show high.toNat <<< 30 = (high.toNat <<< 15) <<< 15 from Nat.shiftLeft_add _ 15 15,
    ← Nat.shiftLeft_or_distrib,
    ← Nat.shiftLeft_add_eq_or_of_lt (show middle.toNat < 2 ^ 15 by omega),
    ← Nat.shiftLeft_add_eq_or_of_lt (show low.toNat < 2 ^ 15 by omega)]
  simp only [Nat.shiftLeft_eq]
  omega

section

variable {m : Nat → Byte} {bits : BitStream} {p : Nat} {pts : BitVec 64} {l : List Field}

theorem markerBit_one (h : AtFields m bits p (codeField 1 1 :: l)) :
    ∃ next, markerBit m bits = some next ∧ AtFields m next (p + 1) l := by
  obtain ⟨hvalue, hnext⟩ := h.get_code (by decide)
  have hone : (bits.get m 1).1 = 1 := BitVec.eq_of_toNat_eq hvalue
  refine ⟨_, ?_, hnext⟩
  show (if (bits.get m 1).1 ≠ 1 then none else some (bits.get m 1).2) = _
  rw [if_neg (not_not_intro hone)]

theorem masked_toNat (x : BitVec 64) {n : Nat} (hn : n ≤ 32) {mask : BitVec 64}
    (hmask : mask.toNat = 2 ^ n - 1) :
    ((x &&& mask).setWidth 32).toNat % 2 ^ n = x.toNat % 2 ^ n := by
  rw [BitVec.toNat_setWidth, BitVec.toNat_and, hmask, Nat.and_two_pow_sub_one_eq_mod,
    Nat.mod_mod_of_dvd _ (Nat.pow_dvd_pow 2 hn), Nat.mod_mod]

theorem timeOf_fields (hpts : pts.toNat < 2 ^ 33) {high middle low : UInt}
    (hhigh : high.toNat = ((pts >>> 30 &&& 0x7).setWidth 32 : UInt).toNat % 2 ^ 3)
    (hmiddle : middle.toNat = ((pts >>> 15 &&& 0x7fff).setWidth 32 : UInt).toNat % 2 ^ 15)
    (hlow : low.toNat = ((pts &&& 0x7fff).setWidth 32 : UInt).toNat % 2 ^ 15) :
    timeOf high middle low = pts := by
  refine timeOf_parts hpts (hhigh.trans ?_) (hmiddle.trans ?_) (hlow.trans ?_)
  · rw [masked_toNat _ (by decide) rfl, BitVec.toNat_ushiftRight, Nat.shiftRight_eq_div_pow]
  · rw [masked_toNat _ (by decide) rfl, BitVec.toNat_ushiftRight, Nat.shiftRight_eq_div_pow]
  · exact masked_toNat _ (by decide) rfl

theorem readTime_fields (hpts : pts.toNat < 2 ^ 33) (h : AtFields m bits p (timeFields pts)) :
    (readTime m bits).1 = pts := by
  obtain ⟨hhigh, h⟩ := h.get_code (by decide)
  obtain ⟨hmiddle, h⟩ := h.flush.get_code (by decide)
  obtain ⟨hlow, -⟩ := h.flush.get_code (by decide)
  exact timeOf_fields hpts hhigh hmiddle hlow

theorem readMarkedTime_fields (hpts : pts.toNat < 2 ^ 33) (h : AtFields m bits p (timeFields pts)) :
    ∃ next, readMarkedTime m bits = some (pts, next) := by
  obtain ⟨hhigh, h⟩ := h.get_code (by decide)
  obtain ⟨bits₁, hmark₁, h⟩ := markerBit_one h
  obtain ⟨hmiddle, h⟩ := h.get_code (by decide)
  obtain ⟨bits₂, hmark₂, h⟩ := markerBit_one h
  obtain ⟨hlow, h⟩ := h.get_code (by decide)
  obtain ⟨bits₃, hmark₃, -⟩ := markerBit_one h
  refine ⟨bits₃, ?_⟩
  show (markerBit m (bits.get m 3).2).bind _ = _
  rw [hmark₁]
  show (markerBit m (bits₁.get m 15).2).bind _ = _
  rw [hmark₂]
  show (markerBit m (bits₂.get m 15).2).map _ = _
  rw [hmark₃, Option.map_some]
  exact congrArg (fun time => some (time, bits₃)) (timeOf_fields hpts hhigh hmiddle hlow)

end

/-! ## What is read -/

/-- `PES_HEADER_SIZE`. -/
def pesHeaderSize (m : Nat → Byte) (pos : Nat) : Nat :=
  pesInitialHeaderSize + (m (pos + 8)).toNat

/-- The times that a collator of the first kind has after a header, where it keeps them. -/
def PesTimes.latest (s : PesTimes) : FrameTimes :=
  if s.accumulatedDataSize = 0 then s.codedFrame else s.times

theorem PesTimes.latest_useImmediately (s : PesTimes) : s.useImmediately.latest = s.times := by
  unfold useImmediately
  split
  · next hnone => exact if_pos hnone
  · next hsome => exact if_neg hsome

theorem PesTimes.useImmediately_pesPayloadLength (s : PesTimes) :
    s.useImmediately.pesPayloadLength = s.pesPayloadLength := by
  unfold useImmediately
  split <;> rfl

/-- A header of a packet with a time, if it is one, and with so many bytes behind it.
The bytes of an extended header are among these. -/
structure ReadsBack (c : HeaderConfiguration) (pts : BitVec 64) (following : Nat)
    (times : FrameTimes) (s : PesTimes) : Prop where
  playbackTimeValid : times.playbackTimeValid = true ↔ pts ≠ invalidPts
  playbackTime : pts ≠ invalidPts → times.playbackTime = pts
  decodeTimeValid : times.decodeTimeValid = false
  payloadLength : (s.pesPayloadLength + c.extendedHeaderLength).toNat = following

/-- The times with that of a header. -/
def withTime (pts : BitVec 64) (times : FrameTimes) : FrameTimes :=
  if pts ≠ invalidPts then { times with playbackTime := pts, playbackTimeValid := true }
  else times

section

variable {m : Nat → Byte} {pos : Nat} {code size picStartCode : UInt} {pts : BitVec 64}
  {c : HeaderConfiguration} {times : FrameTimes} {following : Nat}

theorem readTimes_header (h : HeaderBytes m pos code pts)
    {read : BitStream → Option (BitVec 64 × BitStream)} (times : FrameTimes)
    (hread : ∀ bits p, pts ≠ invalidPts → AtFields m bits p (timeFields pts) →
      ∃ next, read bits = some (pts, next)) :
    ∃ next, readTimes m read (m (pos + 7)) times (BitStream.setPointer m (pos + 9))
      = some (withTime pts times, next) := by
  unfold readTimes withTime
  rw [h.flags]
  by_cases hpts : pts ≠ invalidPts
  · have hfields : AtFields m (BitStream.setPointer m (pos + 9)) (8 * (pos + 9))
        (codeField 0x2 4 :: timeFields pts) :=
      ⟨BitStream.at_setPointer m (pos + 9), h.time hpts,
        codeFields_ptsCodes hpts ▸ codeFields_fit (ptsCodes pts)⟩
    obtain ⟨next, hnext⟩ := hread _ _ hpts hfields.flush
    have hnext : read ((BitStream.setPointer m (pos + 9)).flushUnseen m 4) = some (pts, next) :=
      hnext
    refine ⟨next, ?_⟩
    rw [if_pos hpts, if_pos hpts, hnext]
    rfl
  · refine ⟨BitStream.setPointer m (pos + 9), ?_⟩
    rw [if_neg hpts, if_neg hpts]
    rfl

theorem rejectsSubStream_header (h : HeaderBytes m pos code pts) (bits : BitStream) :
    rejectsSubStream m c (m (pos + 7)) bits = false := by
  unfold rejectsSubStream
  refine if_neg ?_
  rw [h.flags]
  split <;> decide

theorem readPesHeader_header (h : HeaderBytes m pos code pts)
    (hpts : pts ≠ invalidPts → pts.toNat < 2 ^ 33) (limit : Nat) (s : PesTimes) :
    readPesHeader m c limit pos s = some (.collatorNoError,
      { beginHeader m c pos s with
        times := withTime pts (beginHeader m c pos s).times }.useImmediately) := by
  obtain ⟨next, htimes⟩ := readTimes_header h (beginHeader m c pos s).times
    fun bits p hvalid hfields => readMarkedTime_fields (hpts hvalid) hfields
  unfold readPesHeader
  dsimp only
  rw [if_pos (by rw [h.pes]; decide), if_neg (by rw [h.pes]; decide), htimes]
  exact if_neg fun hreject => by
    rw [rejectsSubStream_header h] at hreject
    exact nomatch hreject.2

theorem readPesHeader2_header (h : HeaderBytes m pos code pts)
    (hpts : pts ≠ invalidPts → pts.toNat < 2 ^ 33) (limit : Nat) (s : PesTimes) :
    readPesHeader2 m c limit pos s = some (.collatorNoError,
      { beginHeader m c pos s with times := withTime pts (beginHeader m c pos s).times }) := by
  obtain ⟨next, htimes⟩ := readTimes_header h (beginHeader m c pos s).times
    fun bits p hvalid hfields =>
      ⟨_, congrArg (fun time => some (time, (readTime m bits).2))
        (readTime_fields (hpts hvalid) hfields)⟩
  unfold readPesHeader2
  dsimp only
  rw [if_pos (by rw [h.pes]; decide), htimes, Option.map_some]
  refine congrArg some (if_neg fun hreject => ?_)
  rw [rejectsSubStream_header h] at hreject
  exact nomatch hreject.2

theorem payloadLength_header (h : HeaderBytes m pos (packetLengthCode size pts picStartCode) pts)
    (hsize : size.toNat ≤ maxPesPacketSize) (s : PesTimes) :
    ((beginHeader m c pos s).pesPayloadLength + c.extendedHeaderLength).toNat
      = size.toNat + if picStartCode ≠ 0 then 5 else 0 := by
  have hsize : size.toNat ≤ 65400 := hsize
  have hcode := packetLengthCode_toNat size pts picStartCode
  unfold saidLength at hcode
  have hread : (m (pos + 4)).setWidth 32 <<< 8 + (m (pos + 5)).setWidth 32
      = packetLengthCode size pts picStartCode := by
    have hlength := h.length
    apply BitVec.eq_of_toNat_eq
    rw [BitVec.toNat_add, BitVec.toNat_shiftLeft, BitVec.toNat_setWidth, BitVec.toNat_setWidth,
      Nat.shiftLeft_eq]
    split at hcode <;> split at hcode <;> omega
  have hpositive : packetLengthCode size pts picStartCode ≠ 0 := by
    intro hzero
    rw [hzero, show (0 : UInt).toNat = 0 from rfl] at hcode
    split at hcode <;> split at hcode <;> omega
  show ((if (m (pos + 4)).setWidth 32 <<< 8 + (m (pos + 5)).setWidth 32 ≠ (0 : UInt) then _
    else _) + c.extendedHeaderLength).toNat = _
  rw [hread, if_pos hpositive, BitVec.sub_add_cancel, h.dataLength, BitVec.toNat_sub,
    BitVec.toNat_sub, hcode]
  split <;> split <;> simp <;> omega

theorem withTime_readsBack (s : PesTimes)
    (hlength : (s.pesPayloadLength + c.extendedHeaderLength).toNat = following)
    (hplayback : times.playbackTimeValid = false) (hdecode : times.decodeTimeValid = false) :
    ReadsBack c pts following (withTime pts times) s := by
  unfold withTime
  split
  · next hpts => exact ⟨iff_of_true rfl hpts, fun _ => rfl, hdecode, hlength⟩
  · next hpts =>
    refine ⟨iff_of_false ?_ hpts, fun h => absurd h hpts, hdecode, hlength⟩
    rw [hplayback]
    exact Bool.false_ne_true

end

/-- Whatever data is put behind a header, both collators find in it the time that was
put there, if there was one, and the number of bytes behind it. -/
theorem pesHeader_roundTrip (c : HeaderConfiguration) (limit pos : Nat) (memory : Nat → Byte)
    (s : PesTimes) (streamId : Byte) (pts : BitVec 64) (picStartCode : UInt) (data : List Byte)
    (hdata : data.length ≤ maxPesPacketSize) (hpts : pts.toNat < 2 ^ 33 ∨ pts = invalidPts) :
    let packet := insertPesHeader (BitVec.ofNat 32 data.length) streamId pts picStartCode ++ data
    let m := store memory pos packet
    let following := packet.length - pesHeaderSize m pos
    (∃ s', readPesHeader m c limit pos s = some (.collatorNoError, s') ∧
        ReadsBack c pts following s'.latest s') ∧
      ∃ s', readPesHeader2 m c limit pos s = some (.collatorNoError, s') ∧
        ReadsBack c pts following s'.times s' := by
  intro packet m following
  have hsize : (BitVec.ofNat 32 data.length).toNat = data.length := by
    rw [BitVec.toNat_ofNat, Nat.mod_eq_of_lt (Nat.lt_of_le_of_lt hdata (by decide))]
  have hwrites : Writes (byteBit m) (8 * pos)
      (headerFields (BitVec.ofNat 32 data.length) streamId pts picStartCode) :=
    insertPesHeader_writes fun i hi => by
      have hlt : i < packet.length := by
        rw [List.length_append]
        exact Nat.lt_of_lt_of_le hi (Nat.le_add_right _ _)
      have hput : m (pos + i) = packet[i] := store_add hlt
      exact hput.trans (List.getElem_append_left hi)
  have hbytes := headerBytes_of_writes hwrites
  have hvalid : pts ≠ invalidPts → pts.toNat < 2 ^ 33 := fun h => hpts.resolve_right h
  have hfollowing : following = data.length + if picStartCode ≠ 0 then 5 else 0 := by
    show (insertPesHeader _ streamId pts picStartCode ++ data).length
      - (pesInitialHeaderSize + (m (pos + 8)).toNat) = _
    rw [List.length_append, insertPesHeader_length, hbytes.dataLength,
      show pesInitialHeaderSize = 9 from rfl]
    split <;> split <;> simp <;> omega
  have hpayload := payloadLength_header (c := c) hbytes (hsize.symm ▸ hdata) s
  rw [hsize, ← hfollowing] at hpayload
  have hreads : ReadsBack c pts following (withTime pts (beginHeader m c pos s).times)
      (beginHeader m c pos s) := withTime_readsBack _ hpayload rfl rfl
  refine ⟨⟨_, readPesHeader_header hbytes hvalid limit s, ?_⟩,
    ⟨_, readPesHeader2_header hbytes hvalid limit s, ?_⟩⟩
  · -- the times are where the next frame takes them from
    rw [PesTimes.latest_useImmediately]
    exact ⟨hreads.playbackTimeValid, hreads.playbackTime, hreads.decodeTimeValid,
      (PesTimes.useImmediately_pesPayloadLength _).symm ▸ hpayload⟩
  · exact ⟨hreads.playbackTimeValid, hreads.playbackTime, hreads.decodeTimeValid, hpayload⟩

/-- The last time there is, in a packet of two bytes behind a picture start code. -/
theorem pesHeader_roundTrip_last :
    ∃ s', readPesHeader
        (store (fun _ => 0) 3 (insertPesHeader (BitVec.ofNat 32 [7, 8].length) 0xe0 0x1ffffffff 0xb6
          ++ [7, 8])) ⟨0, 0, 0⟩ 0 3
        ⟨⟨false, 0, false, 0⟩, ⟨false, 0, false, 0⟩, false, 0, 0, ⟨false, 0, false, 0⟩, 1⟩
      = some (.collatorNoError, s') ∧ s'.latest.playbackTime = 0x1ffffffff := by
  obtain ⟨⟨s', hread, hreads⟩, -⟩ := pesHeader_roundTrip ⟨0, 0, 0⟩ 0 3 (fun _ => 0)
    ⟨⟨false, 0, false, 0⟩, ⟨false, 0, false, 0⟩, false, 0, 0, ⟨false, 0, false, 0⟩, 1⟩
    0xe0 0x1ffffffff 0xb6 [7, 8] (by decide) (.inl (by decide))
  exact ⟨s', hread, hreads.playbackTime (by decide)⟩

end Duckbox.Pes
