import Duckbox.Pes.PacketLengths

/-!
# What is in packets

The payload of a packet is what lies behind the data of its header, and the pts is in
that data. `Carries` is what it means that data is cut into packets: the payloads are the
data, none is too large, and the first packet is the only one with a pts. It is kept by one
more packet (`Carries.concat`), so that a loop which writes packets need only be
asked for its next one.
-/

namespace Duckbox.Pes

open Duckbox.Lib BitPacker

/-- What lies behind the data of the header. -/
def payload (packet : List Byte) : List Byte := packet.drop (9 + (packet.getD 8 0).toNat)

/-- The pts of a packet, or none. -/
structure SaysPts (packet : List Byte) (pts : BitVec 64) : Prop where
  flags : packet.getD 7 0 &&& 0xc0 = if pts ≠ invalidPts then 0x80 else 0
  time : pts ≠ invalidPts →
    Writes (byteBit fun i => packet.getD i 0) (8 * 9) (codeField 0x2 4 :: timeFields pts)

/-- The first packet alone has a pts. -/
def OnlyFirst (pts : BitVec 64) : List (List Byte) → Prop
  | [] => True
  | packet :: packets => SaysPts packet pts ∧ ∀ packet ∈ packets, SaysPts packet invalidPts

/-- Packets are data with a pts, in payloads that are not too large. -/
structure Carries (max : Nat) (pts : BitVec 64) (bytes : List Byte) (packets : List (List Byte)) :
    Prop where
  payloads : packets.flatMap payload = bytes
  small : ∀ packet ∈ packets, (payload packet).length ≤ max
  times : OnlyFirst pts packets

/-- The pts of the next packet. -/
def nextPts (pts : BitVec 64) (packets : List (List Byte)) : BitVec 64 :=
  if packets = [] then pts else invalidPts

section

variable {max : Nat} {pts : BitVec 64} {bytes packet : List Byte} {packets : List (List Byte)}

theorem nextPts_concat : nextPts pts (packets ++ [packet]) = invalidPts :=
  if_neg (List.append_ne_nil_of_right_ne_nil _ (List.cons_ne_nil _ _))

theorem Carries.nil : Carries max pts [] [] := ⟨rfl, fun _ h => absurd h List.not_mem_nil, trivial⟩

theorem Carries.concat (h : Carries max pts bytes packets) (hsmall : (payload packet).length ≤ max)
    (htime : SaysPts packet (nextPts pts packets)) :
    Carries max pts (bytes ++ payload packet) (packets ++ [packet]) := by
  refine ⟨?_, List.forall_mem_append.mpr ⟨h.small, List.forall_mem_singleton.mpr hsmall⟩, ?_⟩
  · rw [List.flatMap_append, h.payloads, List.flatMap_singleton]
  · cases packets with
    | nil => exact ⟨htime, fun _ h => absurd h List.not_mem_nil⟩
    | cons first rest =>
      obtain ⟨hfirst, hrest⟩ := h.times
      exact ⟨hfirst, List.forall_mem_append.mpr ⟨hrest, List.forall_mem_singleton.mpr htime⟩⟩

/-- Behind others, packets carry data, and a pts is kept for the next. -/
def Emitted (max : Nat) (pts : BitVec 64) (before : List (List Byte)) (bytes : List Byte)
    (packets : List (List Byte)) (next : BitVec 64) : Prop :=
  ∃ written, packets = before ++ written ∧ Carries max pts bytes written ∧
    next = nextPts pts written

variable {before : List (List Byte)} {next : BitVec 64}

theorem Emitted.nil : Emitted max pts before [] before pts :=
  ⟨[], (List.append_nil before).symm, Carries.nil, rfl⟩

theorem Emitted.concat (h : Emitted max pts before bytes packets next)
    (hsmall : (payload packet).length ≤ max) (htime : SaysPts packet next) :
    Emitted max pts before (bytes ++ payload packet) (packets ++ [packet]) invalidPts := by
  obtain ⟨written, rfl, hcarries, rfl⟩ := h
  exact ⟨written ++ [packet], List.append_assoc _ _ _, hcarries.concat hsmall htime,
    nextPts_concat.symm⟩

end

variable {size : UInt} {streamId : Byte} {pts : BitVec 64} {picStartCode : UInt}
  {body : List Byte}

theorem saysPts_insert : SaysPts (insertPesHeader size streamId pts picStartCode ++ body) pts := by
  have hheader := headerBytes_insert size streamId pts picStartCode body
  refine ⟨?_, hheader.time⟩
  have hflags : (insertPesHeader size streamId pts picStartCode ++ body).getD 7 0 = _ :=
    hheader.flags
  rw [hflags]
  split <;> rfl

theorem payload_insert_drop : payload (insertPesHeader size streamId pts picStartCode ++ body) =
    (insertPesHeader size streamId pts picStartCode).drop
      (9 + if pts ≠ invalidPts then 5 else 0) ++ body := by
  have hdata : (insertPesHeader size streamId pts picStartCode ++ body).getD 8 0 = _ :=
    (headerBytes_insert size streamId pts picStartCode body).dataLength
  have hlength := insertPesHeader_length size streamId pts picStartCode
  have hfive : (if pts ≠ invalidPts then (5 : Byte) else 0).toNat =
      if pts ≠ invalidPts then 5 else 0 := by
    split <;> rfl
  unfold payload
  rw [hdata, hfive, List.drop_append_of_le_length (by omega)]

theorem payload_insert : payload (insertPesHeader size streamId pts 0 ++ body) = body := by
  have hlength := insertPesHeader_length size streamId pts 0
  rw [payload_insert_drop, List.drop_eq_nil_of_le, List.nil_append]
  rw [hlength]
  exact Nat.le_refl _

variable (size streamId pts picStartCode) in
theorem insertPesHeader_drop_bits :
    (((insertPesHeader size streamId pts picStartCode).drop
        (9 + if pts ≠ invalidPts then 5 else 0)).flatMap fun b => bits 8 b.toNat) =
      (picStartCodes picStartCode).flatMap fun code => bits code.2 code.1.toNat := by
  obtain ⟨-, -, hbits⟩ := insertPesHeader_parts size streamId pts picStartCode
  have hlength := insertPesHeader_length size streamId pts picStartCode
  have hwidth : ((flagCodes pts ++ ptsCodes pts).flatMap fun code : UInt × Nat =>
      bits code.2 code.1.toNat).length = 8 * (3 + if pts ≠ invalidPts then 5 else 0) := by
    have hflags : ((flagCodes pts).map Prod.snd).sum = 24 := by
      simp [flagCodes, pesFlags, optionalFlags, headerDataLength]
    have hpts := width_ptsCodes pts
    rw [List.length_flatMap]
    simp only [length_bits, List.map_append, List.sum_append]
    show ((flagCodes pts).map Prod.snd).sum + ((ptsCodes pts).map Prod.snd).sum = _
    rw [hflags]
    split at hpts
    · next hvalid => rw [if_pos hvalid]; omega
    · next hnone => rw [if_neg hnone]; omega
  generalize insertPesHeader size streamId pts picStartCode = header at hbits hlength ⊢
  generalize (if pts ≠ invalidPts then 5 else 0) = k at hwidth hlength ⊢
  have hcut : header.drop 6 = (header.drop 6).take (3 + k) ++ header.drop (9 + k) := by
    rw [show header.drop (9 + k) = (header.drop 6).drop (3 + k) by
      rw [List.drop_drop]; congr 1; omega, List.take_append_drop]
  unfold behindLength at hbits
  rw [hcut, List.flatMap_append, List.flatMap_append] at hbits
  refine (List.append_inj hbits ?_).2
  rw [length_flatMap_bits, hwidth, List.length_take_of_le]
  rw [List.length_drop]
  omega

theorem Emitted.insert {max : Nat} {before packets : List (List Byte)} {bytes : List Byte}
    {next : BitVec 64} (size : UInt) (streamId : Byte)
    (h : Emitted max pts before bytes packets next) (hsmall : body.length ≤ max) :
    Emitted max pts before (bytes ++ body)
      (packets ++ [insertPesHeader size streamId next 0 ++ body]) invalidPts := by
  have hpayload : payload (insertPesHeader size streamId next 0 ++ body) = body := payload_insert
  have hemitted := h.concat (hpayload.symm ▸ hsmall) saysPts_insert
  rwa [hpayload] at hemitted

theorem payload_insert_picStart (hcode : picStartCode ≠ 0) : ∃ rest,
    payload (insertPesHeader size streamId pts picStartCode ++ body) =
      [0x00, 0x00, 0x01] ++ rest := by
  have hbits := insertPesHeader_drop_bits size streamId pts picStartCode
  have hfit := picStartCodes_fit picStartCode
  have hbyte : ∀ x : UInt, x.toNat < 2 ^ 8 → (x.setWidth 8).toNat = x.toNat := fun x hx => by
    rw [BitVec.toNat_setWidth, Nat.mod_eq_of_lt hx]
  unfold picStartCodes at hbits hfit
  rw [if_pos hcode] at hbits hfit
  simp only [List.forall_mem_cons] at hfit
  obtain ⟨-, -, -, ⟨-, hlow⟩, ⟨-, hhigh⟩, -⟩ := hfit
  rw [payload_insert_drop]
  have hbytes : (insertPesHeader size streamId pts picStartCode).drop
      (9 + if pts ≠ invalidPts then 5 else 0) =
        [0x00, 0x00, 0x01, (picStartCode &&& 0xff).setWidth 8,
          (picStartCode.sshiftRight 8 &&& 0xff).setWidth 8] := by
    refine eq_of_flatMap_bits (hbits.trans ?_)
    simp only [List.flatMap_cons, List.flatMap_nil, hbyte _ hlow, hbyte _ hhigh]
    rfl
  rw [hbytes]
  exact ⟨_, rfl⟩

end Duckbox.Pes
