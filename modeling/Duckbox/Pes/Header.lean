import Duckbox.Pes.BitPacker

/-!
# The headers of PES packets

`InsertPesHeader`: the calls of `PutBits`, in the order they are made. A header is
what its codes write (`insertPesHeader_writes`), of which only the length of the
packet may not fit in its bits, and begins behind a whole word. `HeaderBytes` is what
that makes of the bytes in memory.
-/

namespace Duckbox.Pes

open Duckbox.Lib BitPacker

/-- `unsigned char`. -/
abbrev Byte := BitVec 8

/-- `MAX_PES_PACKET_SIZE`. -/
abbrev maxPesPacketSize : Nat := 65400

/-- `INVALID_PTS_VALUE`. -/
abbrev invalidPts : BitVec 64 := 0x200000000

/-- The start code and the stream. -/
def startCodes (streamId : Byte) : List (UInt × Nat) :=
  [(0x0, 8), (0x0, 8), (0x1, 8), (streamId.setWidth 32, 8)]

/-- What is put for the length of the packet. -/
def packetLengthCode (size : UInt) (pts : BitVec 64) (picStartCode : UInt) : UInt :=
  size + 3 + (if pts ≠ invalidPts then 5 else 0) + (if picStartCode ≠ 0 then 5 else 0)

/-- 10, scrambling control, priority, data alignment, copyright, original or copy. -/
def pesFlags : List (UInt × Nat) := [(0x2, 2), (0x0, 2), (0x0, 1), (0x0, 1), (0x0, 1), (0x0, 1)]

/-- PTS and DTS, ESCR, ES rate, trick mode, additional copy info, CRC, extension. -/
def optionalFlags (pts : BitVec 64) : List (UInt × Nat) :=
  [(if pts ≠ invalidPts then 0x2 else 0x0, 2), (0x0, 1), (0x0, 1), (0x0, 1), (0x0, 1), (0x0, 1),
    (0x0, 1)]

/-- The length of the data of the header. -/
def headerDataLength (pts : BitVec 64) : List (UInt × Nat) :=
  [(if pts ≠ invalidPts then 0x5 else 0x0, 8)]

def flagCodes (pts : BitVec 64) : List (UInt × Nat) :=
  pesFlags ++ optionalFlags pts ++ headerDataLength pts

def ptsCodes (pts : BitVec 64) : List (UInt × Nat) :=
  if pts ≠ invalidPts then
    [(0x2, 4), ((pts >>> 30 &&& 0x7).setWidth 32, 3), (0x1, 1),
      ((pts >>> 15 &&& 0x7fff).setWidth 32, 15), (0x1, 1),
      ((pts &&& 0x7fff).setWidth 32, 15), (0x1, 1)]
  else []

def picStartCodes (picStartCode : UInt) : List (UInt × Nat) :=
  if picStartCode ≠ 0 then
    [(0x0, 8), (0x0, 8), (0x1, 8), (picStartCode &&& 0xff, 8),
      (picStartCode.sshiftRight 8 &&& 0xff, 8)]
  else []

/-- `InsertPesHeader`: the bytes put in front of the data. -/
def insertPesHeader (size : UInt) (streamId : Byte) (pts : BitVec 64) (picStartCode : UInt) :
    List Byte :=
  (((new.putAll (startCodes streamId)).putBits (packetLengthCode size pts picStartCode) 16).putAll
    (flagCodes pts ++ ptsCodes pts ++ picStartCodes picStartCode)).flushBits

/-! ## What a header says -/

/-- The length of a packet with so much data, before it is cut to fit its field. -/
def saidLength (size : UInt) (pts : BitVec 64) (picStartCode : UInt) : Nat :=
  size.toNat + 3 + (if pts ≠ invalidPts then 5 else 0) + if picStartCode ≠ 0 then 5 else 0

theorem packetLengthCode_toNat (size : UInt) (pts : BitVec 64) (picStartCode : UInt) :
    (packetLengthCode size pts picStartCode).toNat = saidLength size pts picStartCode % 2 ^ 32 := by
  have hfive : ∀ b : Prop, [Decidable b] →
      (if b then (5 : UInt) else 0).toNat = if b then 5 else 0 := by
    intro b _
    split <;> rfl
  unfold packetLengthCode saidLength
  rw [BitVec.toNat_add, BitVec.toNat_add, BitVec.toNat_add, hfive, hfive,
    show (3 : UInt).toNat = 3 from rfl]
  omega

/-- The fields of a header. -/
def headerFields (size : UInt) (streamId : Byte) (pts : BitVec 64) (picStartCode : UInt) :
    List Field :=
  codeFields (startCodes streamId) ++ [codeField (packetLengthCode size pts picStartCode) 16]
    ++ codeFields (flagCodes pts ++ ptsCodes pts ++ picStartCodes picStartCode)

section

variable (size : UInt) (streamId : Byte) (pts : BitVec 64) (picStartCode : UInt)

theorem totalWidth_codeFields (codes : List (UInt × Nat)) :
    totalWidth (codeFields codes) = (codes.map Prod.snd).sum := by
  induction codes with
  | nil => rfl
  | cons code codes ih => exact congrArg (code.2 + ·) ih

theorem width_ptsCodes :
    ((ptsCodes pts).map Prod.snd).sum = if pts ≠ invalidPts then 40 else 0 := by
  unfold ptsCodes
  split <;> rfl

theorem width_picStartCodes :
    ((picStartCodes picStartCode).map Prod.snd).sum = if picStartCode ≠ 0 then 40 else 0 := by
  unfold picStartCodes
  split <;> rfl

theorem totalWidth_headerFields : totalWidth (headerFields size streamId pts picStartCode)
    = 72 + (if pts ≠ invalidPts then 40 else 0) + (if picStartCode ≠ 0 then 40 else 0) := by
  unfold headerFields
  rw [totalWidth_append, totalWidth_append, totalWidth_codeFields, totalWidth_codeFields,
    List.map_append, List.map_append, List.sum_append, List.sum_append, width_ptsCodes,
    width_picStartCodes]
  have hfixed : ((startCodes streamId).map Prod.snd).sum = 32 := by simp [startCodes]
  have hflags : ((flagCodes pts).map Prod.snd).sum = 24 := by
    simp [flagCodes, pesFlags, optionalFlags, headerDataLength]
  have hlength : totalWidth [codeField (packetLengthCode size pts picStartCode) 16] = 16 := by
    simp [totalWidth, codeField]
  omega

/-! Every code but the length of the packet fits. -/

/-- A code fits in its length. -/
def CodeFits (code : UInt × Nat) : Prop := code.2 ≤ 32 ∧ code.1.toNat < 2 ^ code.2

instance (code : UInt × Nat) : Decidable (CodeFits code) :=
  inferInstanceAs (Decidable (_ ∧ _))

theorem setWidth_fits {w n : Nat} (x : BitVec w) (hn : n ≤ 32) (hx : x.toNat < 2 ^ n) :
    CodeFits (x.setWidth 32, n) := by
  refine ⟨hn, ?_⟩
  show (x.setWidth 32).toNat < 2 ^ n
  rw [BitVec.toNat_setWidth]
  exact Nat.lt_of_le_of_lt (Nat.mod_le _ _) hx

theorem masked_lt {w n : Nat} (x : BitVec w) {y : BitVec w} (hy : y.toNat < 2 ^ n) :
    (x &&& y).toNat < 2 ^ n := by
  rw [BitVec.toNat_and]
  exact Nat.and_lt_two_pow _ hy

theorem startCodes_fit : ∀ code ∈ startCodes streamId, CodeFits code := by
  simp only [startCodes, List.forall_mem_cons, List.not_mem_nil, false_imp_iff, implies_true,
    and_true]
  exact ⟨by decide, by decide, by decide, setWidth_fits streamId (by decide) streamId.isLt⟩

theorem flagCodes_fit : ∀ code ∈ flagCodes pts, CodeFits code := by
  unfold flagCodes optionalFlags headerDataLength
  by_cases hpts : pts ≠ invalidPts
  · rw [if_pos hpts, if_pos hpts]
    decide
  · rw [if_neg hpts, if_neg hpts]
    decide

theorem ptsCodes_fit : ∀ code ∈ ptsCodes pts, CodeFits code := by
  unfold ptsCodes
  split
  · simp only [List.forall_mem_cons, List.not_mem_nil, false_imp_iff, implies_true, and_true]
    exact ⟨by decide, setWidth_fits _ (by decide) (masked_lt _ (by decide)), by decide,
      setWidth_fits _ (by decide) (masked_lt _ (by decide)), by decide,
      setWidth_fits _ (by decide) (masked_lt _ (by decide)), by decide⟩
  · exact fun code h => absurd h List.not_mem_nil

theorem picStartCodes_fit :
    ∀ code ∈ picStartCodes picStartCode, CodeFits code := by
  unfold picStartCodes
  split
  · simp only [List.forall_mem_cons, List.not_mem_nil, false_imp_iff, implies_true, and_true]
    have hmask : ∀ x : UInt, CodeFits (x &&& 0xff, 8) := fun x =>
      ⟨Nat.le_of_ble_eq_true rfl, masked_lt (n := 8) x (by decide)⟩
    exact ⟨by decide, by decide, by decide, hmask _, hmask _⟩
  · exact fun code h => absurd h List.not_mem_nil

theorem codes_fit :
    ∀ code ∈ flagCodes pts ++ ptsCodes pts ++ picStartCodes picStartCode, CodeFits code :=
  List.forall_mem_append.mpr
    ⟨List.forall_mem_append.mpr ⟨flagCodes_fit pts, ptsCodes_fit pts⟩,
      picStartCodes_fit picStartCode⟩

theorem codeFields_fit (codes : List (UInt × Nat)) : ∀ x ∈ codeFields codes, x.Fits := by
  intro x hx
  obtain ⟨code, -, rfl⟩ := List.mem_map.mp hx
  exact codeField_fits code.1 code.2

theorem insertPesHeader_spec :
    8 * (insertPesHeader size streamId pts picStartCode).length
        = totalWidth (headerFields size streamId pts picStartCode) ∧
      bytesValue (insertPesHeader size streamId pts picStartCode)
        = totalValue (headerFields size streamId pts picStartCode) := by
  have hstart := putAll_packed (startCodes streamId) new_packed (startCodes_fit streamId)
  rw [List.nil_append] at hstart
  -- the first four bytes fill a word, so that a length that does not fit harms no other field
  have hfull : (new.putAll (startCodes streamId)).remaining = 32 := by
    have hpos := hstart.remaining_pos
    have hle := hstart.remaining_le
    have hwhole := hstart.whole
    have hwidth : _ = 32 := hstart.width
    omega
  have hlength : Packed _ (_ ++ [codeField (packetLengthCode size pts picStartCode) 16]) :=
    putBits_packed hstart (by decide) (.inr ⟨hfull, by decide⟩)
  refine flushBits_bytes (putAll_packed _ hlength (codes_fit pts picStartCode)) ?_
  show totalWidth (headerFields size streamId pts picStartCode) % 8 = 0
  rw [totalWidth_headerFields]
  split <;> split <;> rfl

theorem insertPesHeader_length : (insertPesHeader size streamId pts picStartCode).length
    = 9 + (if pts ≠ invalidPts then 5 else 0) + (if picStartCode ≠ 0 then 5 else 0) := by
  have hlength := (insertPesHeader_spec size streamId pts picStartCode).1
  rw [totalWidth_headerFields] at hlength
  have hbits : ∀ c : Prop, [Decidable c] → (if c then 40 else 0) = 8 * if c then 5 else 0 := by
    intro c _
    split <;> rfl
  rw [hbits, hbits] at hlength
  omega

end

theorem insertPesHeader_writes {size : UInt} {streamId : Byte} {pts : BitVec 64}
    {picStartCode : UInt} {m : Nat → Byte} {pos : Nat}
    (h : ∀ i (hi : i < (insertPesHeader size streamId pts picStartCode).length),
      m (pos + i) = (insertPesHeader size streamId pts picStartCode)[i]) :
    Writes (byteBit m) (8 * pos) (headerFields size streamId pts picStartCode) := by
  obtain ⟨hlength, hvalue⟩ := insertPesHeader_spec size streamId pts picStartCode
  unfold Writes
  rw [← hlength, ← hvalue]
  exact numeral_bytes h

/-! ## The bytes of a header -/

theorem codeFields_append (a b : List (UInt × Nat)) :
    codeFields (a ++ b) = codeFields a ++ codeFields b := List.map_append

section

variable {m : Nat → Byte} {pos : Nat} {size : UInt} {streamId : Byte} {pts : BitVec 64}
  {picStartCode : UInt}

/-- The fields of a time, behind the four bits in front of it. -/
def timeFields (pts : BitVec 64) : List Field :=
  [codeField ((pts >>> 30 &&& 0x7).setWidth 32) 3, codeField 1 1,
    codeField ((pts >>> 15 &&& 0x7fff).setWidth 32) 15, codeField 1 1,
    codeField ((pts &&& 0x7fff).setWidth 32) 15, codeField 1 1]

/-- What a header says, where it is in memory. -/
structure HeaderBytes (m : Nat → Byte) (pos : Nat) (code : UInt) (pts : BitVec 64) : Prop where
  length : (m (pos + 4)).toNat * 2 ^ 8 + (m (pos + 5)).toNat = code.toNat % 2 ^ 16
  pes : m (pos + 6) = 0x80
  flags : m (pos + 7) = if pts ≠ invalidPts then 0x80 else 0
  dataLength : m (pos + 8) = if pts ≠ invalidPts then 5 else 0
  time : pts ≠ invalidPts →
    Writes (byteBit m) (8 * (pos + 9)) (codeField 0x2 4 :: timeFields pts)

theorem codeFields_ptsCodes (hpts : pts ≠ invalidPts) :
    codeFields (ptsCodes pts) = codeField 0x2 4 :: timeFields pts := by
  unfold ptsCodes
  rw [if_pos hpts]
  rfl

theorem writes_two {k : Nat} {code : UInt}
    (h : Writes (byteBit m) (8 * k) [codeField code 16]) :
    (m k).toNat * 2 ^ 8 + (m (k + 1)).toNat = code.toNat % 2 ^ 16 := by
  have hbytes : numeral (fun i => byteBit m (8 * k + i)) (8 * [m k, m (k + 1)].length)
      = bytesValue [m k, m (k + 1)] := numeral_bytes fun i hi => by
    match i, hi with
    | 0, _ => rfl
    | 1, _ => rfl
  have hvalue : numeral (fun i => byteBit m (8 * k + i)) 16 = code.toNat % 2 ^ 16 * 2 ^ 0 + 0 := h
  rw [Nat.pow_zero, Nat.mul_one, Nat.add_zero] at hvalue
  rw [← hvalue]
  refine Eq.trans ?_ hbytes.symm
  show _ = (m k).toNat * 2 ^ 8 + ((m (k + 1)).toNat * 2 ^ 0 + 0)
  simp only [Nat.pow_zero, Nat.mul_one, Nat.add_zero]

theorem writes_byte {k : Nat} {codes : List (UInt × Nat)} {b : Byte}
    (h : Writes (byteBit m) (8 * k) (codeFields codes)) (hwidth : totalWidth (codeFields codes) = 8)
    (hvalue : totalValue (codeFields codes) = b.toNat) : m k = b :=
  BitVec.eq_of_toNat_eq ((h.byte hwidth).trans hvalue)

theorem headerBytes_of_writes
    (h : Writes (byteBit m) (8 * pos) (headerFields size streamId pts picStartCode)) :
    HeaderBytes m pos (packetLengthCode size pts picStartCode) pts := by
  unfold headerFields at h
  obtain ⟨hfirst, hrest⟩ := h.append (codeFields_fit _)
  obtain ⟨-, hlength⟩ :=
    hfirst.append (codeFields_fit [(packetLengthCode size pts picStartCode, 16)])
  have hwidth : totalWidth (codeFields (startCodes streamId)) = 32 := by
    rw [totalWidth_codeFields]
    simp [startCodes]
  rw [totalWidth_append, hwidth] at hrest
  rw [hwidth, show 8 * pos + 32 = 8 * (pos + 4) by omega] at hlength
  rw [show 8 * pos + (32 + totalWidth [codeField (packetLengthCode size pts picStartCode) 16])
    = 8 * (pos + 6) by simp only [totalWidth, codeField]; omega, List.append_assoc,
    codeFields_append] at hrest
  obtain ⟨hflags, hbehind⟩ := hrest.append (codeFields_fit _)
  have hpes : totalWidth (codeFields pesFlags) = 8 := by decide
  have hoptional : totalWidth (codeFields (optionalFlags pts)) = 8 := by
    simp [totalWidth_codeFields, optionalFlags]
  have hdata : totalWidth (codeFields (headerDataLength pts)) = 8 := by
    simp [totalWidth_codeFields, headerDataLength]
  have hbefore : totalWidth (codeFields (flagCodes pts)) = 24 := by
    unfold flagCodes
    rw [codeFields_append, codeFields_append, totalWidth_append, totalWidth_append, hpes, hoptional,
      hdata]
  rw [hbefore, show 8 * (pos + 6) + 24 = 8 * (pos + 9) by omega, codeFields_append] at hbehind
  unfold flagCodes at hflags
  rw [codeFields_append, codeFields_append] at hflags
  obtain ⟨hflags, hdataLength⟩ := hflags.append (codeFields_fit _)
  obtain ⟨hpesFlags, hoptionalFlags⟩ := hflags.append (codeFields_fit _)
  rw [totalWidth_append, hpes, hoptional, show 8 * (pos + 6) + (8 + 8) = 8 * (pos + 8) by omega]
    at hdataLength
  rw [hpes, show 8 * (pos + 6) + 8 = 8 * (pos + 7) by omega] at hoptionalFlags
  refine ⟨writes_two hlength, writes_byte hpesFlags hpes (by decide), ?_, ?_, fun hpts => ?_⟩
  · refine writes_byte hoptionalFlags hoptional ?_
    unfold optionalFlags
    split <;> rfl
  · refine writes_byte hdataLength hdata ?_
    unfold headerDataLength
    split <;> rfl
  · obtain ⟨htime, -⟩ := hbehind.append (codeFields_fit _)
    rwa [codeFields_ptsCodes hpts] at htime

end

end Duckbox.Pes

/-!
## A header of any size

> `insertPesHeader_wellFormed_iff`: a header says its stream, its packet's length or 0,
> and behind these what belongs there, exactly if the length fits its field or leaves 0
> in it.

What does not fit of the length is shifted out of the word it is put in, so that no
other field of the header sees it.
-/

namespace Duckbox.Pes

open Duckbox.Lib BitPacker

/-- What is put behind the length of the packet. -/
def behindLength (pts : BitVec 64) (picStartCode : UInt) : List (UInt × Nat) :=
  flagCodes pts ++ ptsCodes pts ++ picStartCodes picStartCode

/-- The length in a header. -/
def lengthField (header : List Byte) : Nat := bytesValue ((header.drop 4).take 2)

/-- A header begins with the start code of its stream, its length is right or left open,
and nothing else is in the bits behind it than what is put there. -/
structure WellFormed (size : UInt) (streamId : Byte) (pts : BitVec 64) (picStartCode : UInt)
    (header : List Byte) : Prop where
  start : header.take 4 = [0x00, 0x00, 0x01, streamId]
  length : lengthField header = saidLength size pts picStartCode ∨ lengthField header = 0
  behind : Concatenates (behindLength pts picStartCode) (header.drop 6)

variable {size : UInt} {streamId : Byte} {pts : BitVec 64} {picStartCode : UInt}

variable (size streamId pts picStartCode) in
theorem insertPesHeader_bits :
    ((insertPesHeader size streamId pts picStartCode).flatMap fun b => bits 8 b.toNat) =
      ((startCodes streamId).flatMap fun code => bits code.2 code.1.toNat) ++
        (bits 16 (saidLength size pts picStartCode % 2 ^ 16) ++
          (behindLength pts picStartCode).flatMap fun code => bits code.2 code.1.toNat) := by
  obtain ⟨hlength, hvalue⟩ := insertPesHeader_spec size streamId pts picStartCode
  have hfit : ∀ x ∈ headerFields size streamId pts picStartCode, x.Fits := by
    refine List.forall_mem_append.mpr ⟨List.forall_mem_append.mpr ⟨codeFields_fit _, ?_⟩,
      codeFields_fit _⟩
    exact codeFields_fit [(packetLengthCode size pts picStartCode, 16)]
  have hcut : (codeField (packetLengthCode size pts picStartCode) 16).value =
      saidLength size pts picStartCode % 2 ^ 16 := by
    show (packetLengthCode size pts picStartCode).toNat % 2 ^ 16 = _
    rw [packetLengthCode_toNat]
    exact Nat.mod_mod_of_dvd _ (by decide)
  rw [flatMap_bits_bytes, hlength, hvalue, ← flatMap_bits hfit]
  unfold headerFields
  rw [List.flatMap_append, List.flatMap_append, List.flatMap_singleton, hcut,
    flatMap_codeFields fun code hcode => (startCodes_fit streamId code hcode).2,
    flatMap_codeFields fun code hcode => (codes_fit pts picStartCode code hcode).2,
    List.append_assoc]
  rfl

variable (size streamId pts picStartCode) in
theorem insertPesHeader_parts :
    (insertPesHeader size streamId pts picStartCode).take 4 = [0x00, 0x00, 0x01, streamId] ∧
      lengthField (insertPesHeader size streamId pts picStartCode) =
        saidLength size pts picStartCode % 2 ^ 16 ∧
      (((insertPesHeader size streamId pts picStartCode).drop 6).flatMap fun b => bits 8 b.toNat) =
        (behindLength pts picStartCode).flatMap fun code => bits code.2 code.1.toNat := by
  have hbits := insertPesHeader_bits size streamId pts picStartCode
  have hlength := insertPesHeader_length size streamId pts picStartCode
  generalize insertPesHeader size streamId pts picStartCode = header at hbits hlength ⊢
  have hfour : (header.take 4).length = 4 := List.length_take_of_le (by omega)
  have htwo : ((header.drop 4).take 2).length = 2 :=
    List.length_take_of_le (by rw [List.length_drop]; omega)
  have hcut : header = header.take 4 ++ ((header.drop 4).take 2 ++ header.drop 6) := by
    have hsix : header.drop 6 = (header.drop 4).drop 2 := (List.drop_drop (i := 2)).symm
    rw [hsix, List.take_append_drop, List.take_append_drop]
  rw [hcut, List.flatMap_append, List.flatMap_append] at hbits
  obtain ⟨hstart, hrest⟩ := List.append_inj hbits (by
    rw [length_flatMap_bits, hfour]
    rfl)
  obtain ⟨hfield, hbehind⟩ := List.append_inj hrest (by
    rw [length_flatMap_bits, htwo, length_bits])
  refine ⟨eq_of_flatMap_bits (hstart.trans ?_), ?_, hbehind⟩
  · show _ = [0x00, 0x00, 0x01, streamId].flatMap fun b : Byte => bits 8 b.toNat
    have hid : (streamId.setWidth 32).toNat = streamId.toNat := by
      rw [BitVec.toNat_setWidth]
      exact Nat.mod_eq_of_lt (Nat.lt_trans streamId.isLt (by decide))
    simp only [startCodes, List.flatMap_cons, List.flatMap_nil, hid]
    rfl
  · rw [flatMap_bits_bytes, htwo] at hfield
    have hlt := bytesValue_lt ((header.drop 4).take 2)
    rw [htwo] at hlt
    exact bits_inj hlt (Nat.mod_lt _ (by decide)) hfield

/-- A header is well formed, exactly if the length of its packet fits in sixteen bits, or
these are 0 of it. -/
theorem insertPesHeader_wellFormed_iff (size : UInt) (streamId : Byte) (pts : BitVec 64)
    (picStartCode : UInt) :
    WellFormed size streamId pts picStartCode (insertPesHeader size streamId pts picStartCode) ↔
      saidLength size pts picStartCode < 2 ^ 16 ∨ saidLength size pts picStartCode % 2 ^ 16 = 0 := by
  obtain ⟨hstart, hlength, hbehind⟩ := insertPesHeader_parts size streamId pts picStartCode
  have hfield : (lengthField (insertPesHeader size streamId pts picStartCode) =
      saidLength size pts picStartCode ∨
      lengthField (insertPesHeader size streamId pts picStartCode) = 0) ↔
      saidLength size pts picStartCode < 2 ^ 16 ∨
        saidLength size pts picStartCode % 2 ^ 16 = 0 := by
    rw [hlength]
    omega
  constructor
  · exact fun h => hfield.mp h.length
  · exact fun h => ⟨hstart, hfield.mpr h, 0, by decide, by rw [hbehind]; simp⟩

/-- A frame of a byte stream with 70000 bytes. -/
theorem insertPesHeader_oversized : ¬ WellFormed 70000 0xe0 0 0x31
    (insertPesHeader 70000 0xe0 0 0x31) := by
  intro h
  have hfield := h.length
  rw [(insertPesHeader_parts 70000 0xe0 0 0x31).2.1] at hfield
  revert hfield
  decide

end Duckbox.Pes
