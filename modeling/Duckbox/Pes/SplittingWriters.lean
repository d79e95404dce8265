import Duckbox.Pes.Payloads

/-!
# The writers for MPEG-2 and WMV

Both write a frame in packets that are not too large, in a loop that keeps the position in
the frame as an `int`. A pass is modelled with the header it puts in front of its part;
a call has no result where the position is no longer an `int`, the loop is not followed
to its end, or something is read from behind a null pointer.

> `frames_split`: a frame is written as packets that carry it.

The position is what has been written, so each pass takes the data a step further
(`Carries.concat`), and less of it remains.

Not modelled: printing, the value returned, and that the pts of the caller's call is
lost.
-/

namespace Duckbox.Pes

open Duckbox.Lib BitPacker

/-! ## The loop -/

/-- Where the loop over a frame is. -/
structure Split where
  position : Nat
  insertSampleHeader : Bool
  pts : BitVec 64
  packets : List (List Byte)

/-- `PacketLength`. -/
def packetLength (len : UInt) (position : Nat) : UInt :=
  if (len - BitVec.ofNat 32 position).toNat ≤ maxPesPacketSize then len - BitVec.ofNat 32 position
  else BitVec.ofNat 32 maxPesPacketSize

namespace Split

/-- A pass; the header depends on whether it is the first, the pts and the length of the
part. -/
def pass (header : Bool → BitVec 64 → UInt → List Byte) (data : Nat → Byte) (len : UInt)
    (s : Split) : Option Split :=
  let length := packetLength len s.position
  let packet := header s.insertSampleHeader s.pts length ++ load data s.position length.toNat
  if s.position + length.toNat < 2 ^ 31 then
    some
      { position := s.position + length.toNat
        insertSampleHeader := false
        pts := invalidPts
        packets := s.packets ++ [packet] }
  else none

/-- The loop in a number of passes, `none` if they are too few. -/
def run (header : Bool → BitVec 64 → UInt → List Byte) (data : Nat → Byte) (len : UInt) :
    Nat → Split → Option Split
  | 0, _ => none
  | passes + 1, s =>
    (s.pass header data len).bind fun s =>
      if BitVec.ofNat 32 s.position = len then some s else run header data len passes s

end Split

/-! ## MPEG-2 -/

namespace Mpeg2Writer

/-- The header of a part. -/
def header (_ : Bool) (pts : BitVec 64) (length : UInt) : List Byte :=
  insertPesHeader length mpegVideoPesStartCode pts 0

/-- `writeData`. -/
def writeData (passes : Nat) (call : WriterAVCallData) : Option (List (List Byte)) :=
  match call.frame with
  | none => some []
  | some data => (Split.run header data call.len passes ⟨0, true, call.pts, []⟩).map (·.packets)

end Mpeg2Writer

/-! ## WMV -/

/-- `InsertVideoPrivateDataHeader`. -/
def insertVideoPrivateDataHeader (payloadSize : UInt) : List Byte :=
  (BitPacker.new.putAll
    ([(0x80, 8), (payloadSize &&& 0xff, 8), (payloadSize.sshiftRight 8 &&& 0xff, 8),
      (payloadSize.sshiftRight 16 &&& 0xff, 8)] ++ List.replicate 5 (0, 8))).flushBits

/-- The static variable of `wmv.c`. -/
structure WmvWriter where
  initialHeader : Bool
deriving DecidableEq, Repr

namespace WmvWriter

/-- `reset`. -/
def reset (_ : WmvWriter) : WmvWriter := ⟨true⟩

/-- `Metadata`. -/
def metadata : List Byte :=
  [0x00, 0x00, 0x00, 0xc5, 0x04, 0x00, 0x00, 0x00, 0xc0, 0x00, 0x00, 0x00, 0x00, 0x00, 0x00, 0x00,
    0x00, 0x00, 0x00, 0x00, 0x0c, 0x00, 0x00, 0x00, 0x60, 0x00, 0x00, 0x00, 0x00, 0x00, 0x00, 0x00,
    0x00, 0x00, 0x00, 0x00]

/-- The four bytes of private data that are kept, in memory just allocated. -/
def keptPrivateData (env : Surroundings) (call : WriterAVCallData) : Option (List Byte) :=
  (copyFrom call.privateData (if 4 < call.privateSize.toNat then 4 else call.privateSize)).map
    fun copied => copied ++ List.replicate (4 - copied.length) env.found

/-- The packet of the metadata: struct C, height and width in struct A, and the frame rate
behind the first eight bytes of struct B. -/
def metadataPacket (env : Surroundings) (call : WriterAVCallData) (privateData : List Byte) :
    List Byte :=
  let body := metadata.take 8 ++ privateData ++ Vc1Writer.littleEndian call.height
    ++ Vc1Writer.littleEndian call.width ++ (metadata.drop 20).take 12
    ++ Vc1Writer.littleEndian (env.crazyFramerate call.frameRate)
  insertPesHeader (BitVec.ofNat 32 body.length) vc1VideoPesStartCode invalidPts 0 ++ body

/-- The header with the private data behind it, which is counted in it. -/
def addPrivateHeader (header : List Byte) (len : UInt) : List Byte :=
  let privateHeader := insertVideoPrivateDataHeader len
  let pesLength : UInt := (header.getD 5 0).setWidth 32 + (header.getD 4 0).setWidth 32 <<< 8
    + BitVec.ofNat 32 privateHeader.length
  let header := (header.set 5 (pesLength.setWidth 8)).set 4 ((pesLength >>> 8).setWidth 8)
  let header := header.set 8 (header.getD 8 0 + BitVec.ofNat 8 privateHeader.length)
  let header := header.set 7 (header.getD 7 0 ||| 0x01)
  header ++ privateHeader

/-- The header of a part. -/
def header (len : UInt) (insertSampleHeader : Bool) (pts : BitVec 64) (length : UInt) : List Byte :=
  let header := insertPesHeader length vc1VideoPesStartCode pts 0
  if insertSampleHeader then addPrivateHeader header len else header

/-- `writeData`. -/
def writeData (env : Surroundings) (passes : Nat) (w : WmvWriter) (call : WriterAVCallData) :
    Option (WmvWriter × List (List Byte)) :=
  (keptPrivateData env call).bind fun privateData =>
    match call.frame with
    | none => some (w, [])
    | some data =>
      let packets := if w.initialHeader then [metadataPacket env call privateData] else []
      (Split.run (header call.len) data call.len passes ⟨0, true, call.pts, packets⟩).map
        fun s => (⟨false⟩, s.packets)

end WmvWriter

/-! ## A frame in packets -/

namespace Split

variable {header : Bool → BitVec 64 → UInt → List Byte} {data : Nat → Byte} {len : UInt} {s t : Split}
  {passes : Nat} {pts : BitVec 64} {before : List (List Byte)}

theorem run_succ (h : run header data len passes s = some t) :
    run header data len (passes + 1) s = some t := by
  induction passes generalizing s with
  | zero => exact nomatch h
  | succ passes ih =>
    unfold run at h ⊢
    obtain ⟨u, hpass, hrest⟩ := Option.bind_eq_some_iff.mp h
    rw [hpass, Option.bind_some]
    split at hrest
    · next hend =>
      rw [if_pos hend]
      exact hrest
    · next hmore =>
      rw [if_neg hmore]
      exact ih hrest

theorem run_le {more : Nat} (hle : passes ≤ more) (h : run header data len passes s = some t) :
    run header data len more s = some t := by
  induction hle with
  | refl => exact h
  | step _ ih => exact run_succ ih

theorem packetLength_toNat {position : Nat} (hlt : position < len.toNat) :
    (packetLength len position).toNat = min (len.toNat - position) maxPesPacketSize := by
  have hlen := len.isLt
  have hleft : (len - BitVec.ofNat 32 position).toNat = len.toNat - position := by
    rw [BitVec.toNat_sub, BitVec.toNat_ofNat]
    omega
  unfold packetLength
  rw [hleft]
  split
  · next hsmall => rw [hleft, Nat.min_eq_left hsmall]
  · next hlarge => rw [Nat.min_eq_right (Nat.le_of_not_le hlarge)]; rfl

/-- What a header in front of a part has to be. -/
def Heads (header : Bool → BitVec 64 → UInt → List Byte) : Prop :=
  ∀ first pts length body, payload (header first pts length ++ body) = body ∧
    SaysPts (header first pts length ++ body) pts

/-- The loop has written what is before its position. -/
def Written (data : Nat → Byte) (pts : BitVec 64) (before : List (List Byte)) (s : Split) : Prop :=
  Emitted maxPesPacketSize pts before (load data 0 s.position) s.packets s.pts

theorem pass_written (hheader : Heads header) (hlen : len.toNat < 2 ^ 31)
    (hlt : s.position < len.toNat) (h : Written data pts before s) :
    ∃ t, s.pass header data len = some t ∧ s.position < t.position ∧ t.position ≤ len.toNat ∧
      Written data pts before t := by
  have hlength := packetLength_toNat hlt
  have hmax : maxPesPacketSize = 65400 := rfl
  obtain ⟨hpayload, htime⟩ := hheader s.insertSampleHeader s.pts (packetLength len s.position)
    (load data s.position (packetLength len s.position).toNat)
  have hemitted := Emitted.concat h (by rw [hpayload, load_length]; omega) htime
  have hparts := load_add data 0 s.position (packetLength len s.position).toNat
  rw [Nat.zero_add] at hparts
  rw [hpayload, ← hparts] at hemitted
  refine ⟨_, if_pos (by omega), ?_, ?_, hemitted⟩
  · show s.position < s.position + _
    omega
  · show s.position + _ ≤ _
    omega

theorem run_written (hheader : Heads header) (hlen : len.toNat < 2 ^ 31)
    (hlt : s.position < len.toNat) (hpasses : len.toNat ≤ s.position + passes)
    (h : Written data pts before s) :
    ∃ t, run header data len passes s = some t ∧ t.position = len.toNat ∧
      Written data pts before t := by
  induction passes generalizing s with
  | zero => omega
  | succ passes ih =>
    obtain ⟨u, hpass, hfurther, hle, hwritten⟩ := pass_written hheader hlen hlt h
    have hend : BitVec.ofNat 32 u.position = len ↔ u.position = len.toNat := by
      rw [← BitVec.toNat_inj, BitVec.toNat_ofNat, Nat.mod_eq_of_lt (by omega)]
    unfold run
    rw [hpass, Option.bind_some]
    by_cases hdone : u.position = len.toNat
    · rw [if_pos (hend.mpr hdone)]
      exact ⟨u, rfl, hdone, hwritten⟩
    · rw [if_neg fun h => hdone (hend.mp h)]
      exact ih (by omega) (by omega) hwritten

variable (data pts) in
theorem run_frame (hheader : Heads header) (hlen : len.toNat < 2 ^ 31) (hpos : 0 < len.toNat)
    (before : List (List Byte)) :
    ∃ packets, Carries maxPesPacketSize pts (load data 0 len.toNat) packets ∧
      ∀ passes, len.toNat ≤ passes → ∃ t, run header data len passes ⟨0, true, pts, before⟩ = some t ∧
        t.packets = before ++ packets := by
  have hstart : Written data pts before ⟨0, true, pts, before⟩ := Emitted.nil
  obtain ⟨t, hrun, hposition, packets, hpackets, hcarries, -⟩ :=
    run_written hheader hlen hpos (Nat.le_add_left _ _) hstart
  exact ⟨packets, hposition ▸ hcarries, fun passes hle => ⟨t, run_le hle hrun, hpackets⟩⟩

end Split

/-! The headers of both are such headers. -/

theorem Mpeg2Writer.header_heads : Split.Heads Mpeg2Writer.header :=
  fun _ _ _ _ => ⟨payload_insert, saysPts_insert⟩

namespace WmvWriter

theorem insertVideoPrivateDataHeader_length (payloadSize : UInt) :
    (insertVideoPrivateDataHeader payloadSize).length = 9 := by
  have hcodes : ∀ code ∈ [(0x80, 8), (payloadSize &&& 0xff, 8),
      (payloadSize.sshiftRight 8 &&& 0xff, 8), (payloadSize.sshiftRight 16 &&& 0xff, 8)] ++
      List.replicate 5 ((0 : UInt), 8), CodeFits code := by
    have hmask : ∀ x : UInt, CodeFits (x &&& 0xff, 8) := fun x =>
      ⟨Nat.le_of_ble_eq_true rfl, masked_lt (n := 8) x (by decide)⟩
    simp only [List.cons_append, List.nil_append, List.forall_mem_cons]
    exact ⟨by decide, hmask _, hmask _, hmask _, by decide⟩
  have hpacked := putAll_packed _ new_packed hcodes
  rw [List.nil_append] at hpacked
  have hwidth : totalWidth (codeFields ([(0x80, 8), (payloadSize &&& 0xff, 8),
      (payloadSize.sshiftRight 8 &&& 0xff, 8), (payloadSize.sshiftRight 16 &&& 0xff, 8)] ++
      List.replicate 5 ((0 : UInt), 8))) = 72 := by
    rw [totalWidth_codeFields]
    simp
  have hbytes : 8 * (insertVideoPrivateDataHeader payloadSize).length = _ :=
    (flushBits_bytes hpacked (by rw [hwidth])).1
  omega

theorem getD_set_append {l : List Byte} {i j : Nat} {b : Byte} (rest : List Byte) (h : i ≠ j) :
    (l.set i b ++ rest).getD j 0 = (l ++ rest).getD j 0 := by
  rw [List.getD_eq_getElem?_getD, List.getD_eq_getElem?_getD, List.getElem?_append,
    List.getElem?_append, List.length_set, List.getElem?_set_ne h]

theorem getD_set_self {l rest : List Byte} {i : Nat} {b : Byte} (h : i < l.length) :
    (l.set i b ++ rest).getD i 0 = b := by
  rw [List.getD_eq_getElem?_getD, List.getElem?_append_left (by rwa [List.length_set]),
    List.getElem?_set_self h, Option.getD_some]

theorem addPrivateHeader_append (head : List Byte) (len : UInt) (body : List Byte)
    (hlength : 9 ≤ head.length) : ∃ changed, changed.length = head.length ∧
      addPrivateHeader head len ++ body =
        changed ++ (insertVideoPrivateDataHeader len ++ body) ∧
      ∀ rest, (changed ++ rest).getD 7 0 = (head ++ rest).getD 7 0 ||| 0x01 ∧
        (changed ++ rest).getD 8 0 = (head ++ rest).getD 8 0 + 9 ∧
        ∀ i, 9 ≤ i → (changed ++ rest).getD i 0 = (head ++ rest).getD i 0 := by
  have hplain : ∀ {l : List Byte} {i : Nat} (rest : List Byte), i < l.length →
      (l ++ rest).getD i 0 = l.getD i 0 := fun rest hi => by
    rw [List.getD_eq_getElem?_getD, List.getD_eq_getElem?_getD, List.getElem?_append_left hi]
  have hset : ∀ {l : List Byte} {i j : Nat} {b : Byte}, i ≠ j → (l.set i b).getD j 0 = l.getD j 0 :=
    fun {l} {i} {j} {b} h => by
      have happend := getD_set_append (l := l) (b := b) [] h
      rwa [List.append_nil, List.append_nil] at happend
  refine ⟨_, ?_, List.append_assoc _ _ _, fun rest => ⟨?_, ?_, fun i hi => ?_⟩⟩
  · simp only [List.length_set]
  · rw [getD_set_self (by simp only [List.length_set]; omega), hset (by decide), hset (by decide),
      hset (by decide), hplain rest (by omega)]
  · rw [getD_set_append rest (by decide), getD_set_self (by simp only [List.length_set]; omega),
      insertVideoPrivateDataHeader_length, hset (by decide), hset (by decide),
      hplain rest (by omega)]
    rfl
  · rw [getD_set_append rest (by omega), getD_set_append rest (by omega), getD_set_append rest (by omega),
      getD_set_append rest (by omega)]

theorem header_heads (len : UInt) : Split.Heads (header len) := by
  intro first pts length body
  unfold header
  dsimp only
  by_cases hfirst : first = true
  · rw [if_pos hfirst]
    have hheader := headerBytes_insert length vc1VideoPesStartCode pts 0
      (insertVideoPrivateDataHeader len ++ body)
    have hlength := insertPesHeader_length length vc1VideoPesStartCode pts 0
    have hprivate := insertVideoPrivateDataHeader_length len
    obtain ⟨changed, hchanged, happend, hbytes⟩ :=
      addPrivateHeader_append (insertPesHeader length vc1VideoPesStartCode pts 0) len body (by omega)
    obtain ⟨hflags, hdata, hsame⟩ := hbytes (insertVideoPrivateDataHeader len ++ body)
    rw [happend]
    refine ⟨?_, ?_, fun hpts => ?_⟩
    · -- as much more is dropped as the private data are
      have hdrop : 9 + ((changed ++ (insertVideoPrivateDataHeader len ++ body)).getD 8 0).toNat =
          (changed ++ insertVideoPrivateDataHeader len).length := by
        rw [hdata, hheader.dataLength, List.length_append, hchanged, hlength, hprivate]
        split <;> rfl
      unfold payload
      rw [hdrop, ← List.append_assoc, List.drop_left]
    · rw [hflags, hheader.flags]
      split <;> rfl
    · have htime := hheader.time hpts
      unfold Writes at htime ⊢
      rw [← htime]
      refine numeral_congr fun i _ => ?_
      exact congrArg (fun b : Byte => b.getLsbD (7 - (8 * 9 + i) % 8))
        (hsame ((8 * 9 + i) / 8) (by omega))
  · rw [if_neg hfirst]
    exact ⟨payload_insert, saysPts_insert⟩

end WmvWriter

/-! ## Frames -/

/-- The bytes of a frame. -/
def WriterAVCallData.frameBytes (call : WriterAVCallData) : List Byte :=
  (call.frame.map fun data => load data 0 call.len.toNat).getD []

variable {call : WriterAVCallData}

theorem len_pos {data : Nat → Byte} (h : call.frame = some data) : 0 < call.len.toNat := by
  have hpos := List.length_pos_iff.mpr (load_frame h)
  rwa [load_length] at hpos

theorem frameBytes_some {data : Nat → Byte} (h : call.frame = some data) :
    call.frameBytes = load data 0 call.len.toNat := by
  unfold WriterAVCallData.frameBytes
  rw [h]
  rfl

theorem frameBytes_none (h : call.frame = none) : call.frameBytes = [] := by
  unfold WriterAVCallData.frameBytes
  rw [h]
  rfl

theorem Mpeg2Writer.writeData_carries (call : WriterAVCallData) (hint : call.len.toNat < 2 ^ 31) :
    ∃ packets, Carries maxPesPacketSize call.pts call.frameBytes packets ∧
      ∀ passes, call.len.toNat ≤ passes → writeData passes call = some packets := by
  unfold writeData
  cases hframe : call.frame with
  | none => exact ⟨[], frameBytes_none hframe ▸ Carries.nil, fun _ _ => rfl⟩
  | some data =>
    obtain ⟨packets, hcarries, hrun⟩ :=
      Split.run_frame data call.pts header_heads hint (len_pos hframe) []
    refine ⟨packets, (frameBytes_some hframe).symm ▸ hcarries, fun passes hle => ?_⟩
    obtain ⟨t, ht, hpackets⟩ := hrun passes hle
    dsimp only
    rw [ht, Option.map_some, hpackets, List.nil_append]

namespace WmvWriter

variable {env : Surroundings} {call : WriterAVCallData}

variable (env) in
theorem keptPrivateData_some (hprivate : Readable call.privateData call.privateSize) :
    ∃ privateData, keptPrivateData env call = some privateData ∧ privateData.length = 4 := by
  have hcopied : Readable call.privateData
      (if 4 < call.privateSize.toNat then 4 else call.privateSize) := fun hnone => by
    rw [hprivate hnone]
    rfl
  obtain ⟨copied, hcopy⟩ := copyFrom_iff.mpr hcopied
  have hlength := copyFrom_length hcopy
  refine ⟨copied ++ List.replicate (4 - copied.length) env.found, ?_, ?_⟩
  · unfold keptPrivateData
    rw [hcopy]
    rfl
  · have hfour : copied.length ≤ 4 := by
      rw [hlength]
      split
      · exact Nat.le_refl 4
      · next h => exact Nat.le_of_not_lt h
    rw [List.length_append, List.length_replicate]
    omega

theorem metadataPacket_plain {privateData : List Byte} (hlength : privateData.length = 4) :
    (payload (metadataPacket env call privateData)).length ≤ maxPesPacketSize ∧
      SaysPts (metadataPacket env call privateData) invalidPts := by
  refine ⟨?_, saysPts_insert⟩
  unfold metadataPacket
  rw [payload_insert]
  have hbody : 36 ≤ maxPesPacketSize := by decide
  simpa [metadata, Vc1Writer.littleEndian, hlength] using hbody

/-- The packets in front of those of a frame: the metadata, if it is the first since a reset. -/
def metadataPackets (env : Surroundings) (w : WmvWriter) (call : WriterAVCallData)
    (privateData : List Byte) : List (List Byte) :=
  if w.initialHeader && call.frame.isSome then [metadataPacket env call privateData] else []

/-- The writer behind a call; one without a frame changes nothing. -/
def behind (w : WmvWriter) (call : WriterAVCallData) : WmvWriter :=
  if call.frame.isSome then ⟨false⟩ else w

theorem writeData_carries (w : WmvWriter) (hint : call.len.toNat < 2 ^ 31)
    (hprivate : Readable call.privateData call.privateSize) :
    ∃ privateData packets, keptPrivateData env call = some privateData ∧
      Carries maxPesPacketSize call.pts call.frameBytes packets ∧
      (∀ packet ∈ w.metadataPackets env call privateData,
        (payload packet).length ≤ maxPesPacketSize ∧ SaysPts packet invalidPts) ∧
      ∀ passes, call.len.toNat ≤ passes →
        w.writeData env passes call =
          some (w.behind call, w.metadataPackets env call privateData ++ packets) := by
  obtain ⟨privateData, hkept, hlength⟩ := keptPrivateData_some env hprivate
  have hmetadata : ∀ packet ∈ w.metadataPackets env call privateData,
      (payload packet).length ≤ maxPesPacketSize ∧ SaysPts packet invalidPts := fun packet h => by
    unfold metadataPackets at h
    split at h
    · rw [List.mem_singleton.mp h]
      exact metadataPacket_plain hlength
    · exact absurd h List.not_mem_nil
  unfold writeData
  rw [hkept]
  cases hframe : call.frame with
  | none =>
    refine ⟨privateData, [], rfl, frameBytes_none hframe ▸ Carries.nil, hmetadata, fun _ _ => ?_⟩
    simp [metadataPackets, behind, hframe]
  | some data =>
    obtain ⟨packets, hcarries, hrun⟩ :=
      Split.run_frame data call.pts (header_heads call.len) hint (len_pos hframe)
        (if w.initialHeader then [metadataPacket env call privateData] else [])
    refine ⟨privateData, packets, rfl, (frameBytes_some hframe).symm ▸ hcarries, hmetadata,
      fun passes hle => ?_⟩
    obtain ⟨t, ht, hpackets⟩ := hrun passes hle
    rw [Option.bind_some]
    dsimp only
    rw [ht, Option.map_some, hpackets]
    simp [metadataPackets, behind, hframe]

end WmvWriter

/-- A frame, of which the length is an `int`, is written as packets that carry it, behind
the metadata where these are the first of a stream. -/
theorem frames_split (env : Surroundings) (w : WmvWriter) (call : WriterAVCallData)
    (hint : call.len.toNat < 2 ^ 31) (hprivate : Readable call.privateData call.privateSize) :
    (∃ packets, Carries maxPesPacketSize call.pts call.frameBytes packets ∧
      ∀ passes, call.len.toNat ≤ passes → Mpeg2Writer.writeData passes call = some packets) ∧
    ∃ privateData packets, WmvWriter.keptPrivateData env call = some privateData ∧
      Carries maxPesPacketSize call.pts call.frameBytes packets ∧
      (∀ packet ∈ w.metadataPackets env call privateData,
        (payload packet).length ≤ maxPesPacketSize ∧ SaysPts packet invalidPts) ∧
      ∀ passes, call.len.toNat ≤ passes →
        w.writeData env passes call =
          some (w.behind call, w.metadataPackets env call privateData ++ packets) :=
  ⟨Mpeg2Writer.writeData_carries call hint, w.writeData_carries hint hprivate⟩

/-- A frame that fills its packet. -/
def fullFrame : WriterAVCallData where
  fd := 3
  data := some fun _ => 0x5a
  len := 65400
  pts := 90000
  privateData := none
  privateSize := 0
  frameRate := 25000
  frameScale := 1000
  width := 720
  height := 576
  version := 0

theorem frames_split_full :
    (∃ packets, Carries maxPesPacketSize fullFrame.pts fullFrame.frameBytes packets ∧
      Mpeg2Writer.writeData 65400 fullFrame = some packets) ∧
    ∃ privateData packets, Carries maxPesPacketSize fullFrame.pts fullFrame.frameBytes packets ∧
      WmvWriter.writeData ⟨0, 0, id⟩ 65400 ⟨true⟩ fullFrame =
        some (⟨false⟩, WmvWriter.metadataPacket ⟨0, 0, id⟩ fullFrame privateData :: packets) := by
  obtain ⟨⟨packets, hcarries, hwrite⟩, privateData, wmvPackets, -, hwmv, -, hwriteWmv⟩ :=
    frames_split ⟨0, 0, id⟩ ⟨true⟩ fullFrame (by decide) (fun _ => rfl)
  exact ⟨⟨packets, hcarries, hwrite 65400 (Nat.le_refl _)⟩, privateData, wmvPackets, hwmv,
    hwriteWmv 65400 (Nat.le_refl _)⟩

end Duckbox.Pes
