import Duckbox.ClassDefinitions.Rational
import Duckbox.FrameParser.AntiEmulationReads

/-!
# Container parameters

The H.264 writer of libeplayer3 hands the frame rate of the container to the
frame parser in a record of its own, a NAL unit that no standard defines. Bytes
`0xff` stand between the halves of its values, so that three zeros in a row, or
two and a low byte, are nowhere behind the start code of the record itself
(`Recorded.not_code`), and no 0, 0, 3 that `CheckAntiEmulationBuffer` would take
for an escape (`Recorded.clean`): whatever the values are, the bytes go through
unchanged.

The reader is `ReadHeaders` for that NAL unit, from the start code of the record
to the next or to the end of the buffer. `MarkerBits` end it early where a
separator is missing.
-/

namespace Duckbox.H264

open Duckbox.Lib Duckbox.Lib.Parse Duckbox.ClassDefinitions Duckbox.FrameParser
open Duckbox.FrameParser.AntiEmulation

/-! ## The writer -/

/-- `NALU_TYPE_PLAYER2_CONTAINER_PARAMETERS`. -/
def naluTypePlayer2ContainerParameters : BitVec 8 := 24

/-- `CONTAINER_PARAMETERS_VERSION`. -/
def containerParametersVersion : BitVec 8 := 0x00

/-- The `TimeDelta` that is written. -/
def writtenTimeDelta (timeScale timeDelta : BitVec 32) : BitVec 32 :=
  if timeDelta = 0xffffffff then (if 1000 < timeScale then 1001 else 1) else timeDelta

/-- The bytes of a value, with a field separator behind each half. -/
def separated (value : BitVec 32) : List (BitVec 8) :=
  [(value >>> 24 &&& 0xff).setWidth 8, (value >>> 16 &&& 0xff).setWidth 8, 0xff,
    (value >>> 8 &&& 0xff).setWidth 8, (value &&& 0xff).setWidth 8, 0xff]

/-- The `HeaderData` of `writeData`. -/
def containerParameters (timeScale timeDelta : BitVec 32) : List (BitVec 8) :=
  [0x00, 0x00, 0x01, naluTypePlayer2ContainerParameters, containerParametersVersion, 0xff]
    ++ separated timeScale ++ separated (writtenTimeDelta timeScale timeDelta) ++ [0x80]

/-! ## The reader -/

/-- The members that the record sets. -/
structure ContainerMembers where
  defaultPixelAspectRatio : Rational
  defaultFrameRate : Rational
  userSpecifiedDefaultFrameRate : Bool

/-- The bits, through the anti-emulation buffer, the locals and the members. -/
structure ContainerReader where
  buffer : AntiEmulation
  timeScale : BitVec 32
  timeDelta : BitVec 32
  members : ContainerMembers

abbrev ContainerParser := Parse ContainerReader Stop

namespace ContainerParser

/-- `Bits.Get( n )`. -/
def get (n : Nat) : ContainerParser (BitVec 32) := fun s =>
  let got := s.buffer.bits.get s.buffer.memory n
  (.ok got.1, { s with buffer := { s.buffer with bits := got.2 } })

/-- `MarkerBits( n, v )`. -/
def markerBits (n : Nat) (v : BitVec 32) : ContainerParser Unit := do
  let bits ← get n
  if bits != v then stop (.status .headerSyntaxError) else pure ()

/-- A value in two halves, a field separator behind each. -/
def getSeparated : ContainerParser (BitVec 32) := do
  let high ← get 16
  markerBits 8 0xff
  let low ← get 16
  markerBits 8 0xff
  pure (high <<< 16 ||| low)

/-- The members after `case 0x00`; `tdt` where `__TDT__` is defined. -/
def setFrameRate (tdt : Bool) (timeScale timeDelta : BitVec 32) (s : ContainerReader) :
    ContainerReader :=
  { s with
    timeScale := timeScale
    timeDelta := timeDelta
    members :=
      { s.members with
        defaultFrameRate :=
          -- "I would say that this is wrong implemented in libeplayer"
          if tdt && decide (10000 < timeDelta) then
            .ofLongLongs (timeDelta.setWidth 64) (timeScale.setWidth 64)
          else .ofLongLongs (timeScale.setWidth 64) (timeDelta.setWidth 64)
        userSpecifiedDefaultFrameRate := true } }

/-- `case 0x00`. -/
def readFrameRate (tdt : Bool) : ContainerParser Unit := do
  let timeScale ← getSeparated
  let timeDelta ← getSeparated
  modify (setFrameRate tdt timeScale timeDelta)

/-- The pixel aspect ratio of `case 0x01`. -/
def readPixelAspectRatio : ContainerParser Unit := do
  let numerator ← getSeparated
  let denominator ← getSeparated
  modify fun s =>
    { s with
      members :=
        { s.members with
          defaultPixelAspectRatio :=
            .ofLongLongs (numerator.setWidth 64) (denominator.setWidth 64) } }

/-- `ReadPlayer2ContainerParameters`. -/
def readPlayer2ContainerParameters (tdt : Bool) : ContainerParser Unit := do
  let parametersVersion ← get 8
  markerBits 8 0xff
  if parametersVersion = 0x01 then do
    let fieldsPresentMask ← get 16
    markerBits 8 0xff
    Parse.when (fieldsPresentMask &&& 0x0002 != 0) readPixelAspectRatio
    Parse.when (fieldsPresentMask &&& 0x0001 != 0) (readFrameRate tdt)
  else if parametersVersion = 0x00 then readFrameRate tdt
  -- "Unsupported version of the container parameters record"
  else pure ()

end ContainerParser

/-- The case of `ReadHeaders` for the record: its start code is at `offset`, and
the next, or the end of the buffer, at `next`. -/
def readContainerUnit (tdt : Bool) (bufferData : Nat → BitVec 8) (offset next : Nat)
    (memory : Nat → BitVec 8) (s : ContainerReader) : Option (Except Stop Unit × ContainerReader) := do
  let unitLength := next - offset - 4
  let buffer ← (loadAntiEmulationBuffer memory).checkAntiEmulationBuffer
    (fun i => bufferData (offset + 4 + i)) unitLength
  pure (ContainerParser.readPlayer2ContainerParameters tdt { s with buffer := buffer })

/-! ## What is in the record -/

/-- 0, 0 and one of 0, 1 and 2. -/
def EmulatesCode (m : Nat → BitVec 8) (i : Nat) : Prop :=
  m i = 0 ∧ m (i + 1) = 0 ∧ m (i + 2) ≤ 2

/-- The record is in memory. -/
def Recorded (timeScale timeDelta : BitVec 32) (m : Nat → BitVec 8) : Prop :=
  ∀ i, i < (containerParameters timeScale timeDelta).length →
    m i = (containerParameters timeScale timeDelta).getD i 0

variable {timeScale timeDelta : BitVec 32} {m source : Nat → BitVec 8}

theorem containerParameters_length : (containerParameters timeScale timeDelta).length = 19 := rfl

theorem Recorded.separators (h : Recorded timeScale timeDelta m) :
    m 2 = 1 ∧ m 3 = 24 ∧ m 5 = 0xff ∧ m 8 = 0xff ∧ m 11 = 0xff ∧ m 14 = 0xff ∧ m 17 = 0xff ∧
      m 18 = 0x80 := by
  unfold Recorded at h
  rw [containerParameters_length] at h
  exact ⟨h 2 (by decide), h 3 (by decide), h 5 (by decide), h 8 (by decide), h 11 (by decide),
    h 14 (by decide), h 17 (by decide), h 18 (by decide)⟩

theorem Recorded.not_code (h : Recorded timeScale timeDelta m) {i : Nat} (hi : 1 ≤ i)
    (hlt : i < (containerParameters timeScale timeDelta).length) : ¬ EmulatesCode m i := by
  obtain ⟨h2, h3, h5, h8, h11, h14, h17, h18⟩ := h.separators
  rw [containerParameters_length] at hlt
  unfold EmulatesCode
  -- of three bytes in a row one is a separator, or the byte behind the zeros is
  interval_cases i <;> simp [h2, h3, h5, h8, h11, h14, h17, h18]

theorem Recorded.clean (h : Recorded timeScale timeDelta m) :
    Clean (fun i => m (4 + i)) 0 15 := by
  obtain ⟨-, -, h5, h8, h11, h14, h17, h18⟩ := h.separators
  intro i _ hi
  unfold emulation
  interval_cases i <;> simp [h5, h8, h11, h14, h17, h18]

/-! ## Reading whole bytes -/

/-- The first `k` of `size` requested bytes have been read. -/
def Ready (source : Nat → BitVec 8) (k size : Nat) (b : AntiEmulation) : Prop :=
  ∃ c base p, AntiEmulation.Inv source c b base p ∧ c.position = 8 * k ∧ c.limit = 8 * size

theorem withoutEmulation_getD_clean {j k length : Nat} (hclean : Clean source 0 k) (hj : j < k)
    (hlength : j < (withoutEmulation source length).length) :
    (withoutEmulation source length).getD j 0 = source j := by
  have hall : withoutEmulation source k = (List.range k).map source := by
    have hkept := kept_add (p := fun i => !emulation source i) (g := source) (n := 0) (k := k)
      fun i hi hlt => by rw [hclean i hi (by omega)]; rfl
    simpa [withoutEmulation, kept] using hkept
  have hk : j < (withoutEmulation source k).length := by
    rw [hall, List.length_map, List.length_range]
    exact hj
  rw [withoutEmulation_getD hlength hk, List.getD_eq_getElem _ _ hk]
  simp [hall]

theorem Ready.get {b : AntiEmulation} {k n size : Nat} (h : Ready source k size b)
    (hn : n ≤ 4) (hk : k + n ≤ size) (hclean : Clean source 0 (k + n)) :
    (b.bits.get b.memory (8 * n)).1.toNat = numeral (byteBit fun i => source (k + i)) (8 * n) ∧
      Ready source (k + n) size { b with bits := (b.bits.get b.memory (8 * n)).2 } := by
  obtain ⟨c, base, p, hinv, hposition, hlimit⟩ := h
  obtain ⟨hvalue, hat, hmore⟩ := hinv.bits.get (n := 8 * n) (by omega)
  have hp := hinv.position
  have hheld := hinv.limit
  have hlength := hinv.holds.length
  have hshown := hinv.shown
  have hwithin := hinv.within
  constructor
  · rw [hvalue]
    apply numeral_congr
    intro i hi
    unfold byteBit
    rw [hinv.holds.bytes _ (by omega), withoutEmulation_getD_clean hclean (by omega) (by omega),
      show base + (p + i) / 8 = k + i / 8 by omega, show (p + i) % 8 = i % 8 by omega]
  · refine ⟨c.move (8 * n), base, p + 8 * n, ?_, ?_, hlimit⟩
    · exact hinv.stream hat (by show c.position + 8 * n = _; omega) rfl
        (by show c.shown - 8 * n ≤ _; omega)
        (by show c.position + 8 * n + (c.shown - 8 * n) ≤ c.limit; omega)
    · show c.position + 8 * n = _
      omega

theorem numeral_byteBit_one (f : Nat → BitVec 8) : numeral (byteBit f) 8 = (f 0).toNat := by
  have h := numeral_byteBit_succ f 0
  have hnone : numeral (byteBit f) (8 * 0) = 0 := rfl
  rwa [hnone, Nat.zero_mul, Nat.zero_add, Nat.zero_add] at h

theorem numeral_byteBit_two (f : Nat → BitVec 8) :
    numeral (byteBit f) 16 = (f 0).toNat * 2 ^ 8 + (f 1).toNat := by
  have h := numeral_byteBit_succ f 1
  rw [Nat.mul_one, numeral_byteBit_one] at h
  exact h

namespace ContainerParser

variable {s : ContainerReader} {k size : Nat}

theorem yields_get {n : Nat} (h : Ready source k size s.buffer) (hn : n ≤ 4)
    (hk : k + n ≤ size) (hclean : Clean source 0 (k + n)) :
    ∃ v b, Yields (get (8 * n)) s v { s with buffer := b } ∧
      v.toNat = numeral (byteBit fun i => source (k + i)) (8 * n) ∧ Ready source (k + n) size b := by
  obtain ⟨hvalue, hready⟩ := h.get hn hk hclean
  exact ⟨_, _, rfl, hvalue, hready⟩

theorem yields_markerBits (h : Ready source k size s.buffer) (hk : k + 1 ≤ size)
    (hclean : Clean source 0 (k + 1)) (hmarker : source k = 0xff) :
    ∃ b, Yields (markerBits 8 0xff) s () { s with buffer := b } ∧ Ready source (k + 1) size b := by
  obtain ⟨v, b, hyields, hvalue, hready⟩ := yields_get h (by decide : 1 ≤ 4) hk hclean
  have hv : v = 0xff := by
    apply BitVec.eq_of_toNat_eq
    rw [hvalue, numeral_byteBit_one, Nat.add_zero, hmarker]
    rfl
  refine ⟨b, ?_, hready⟩
  unfold markerBits
  rw [yields_bind]
  refine ⟨v, _, hyields, ?_⟩
  subst hv
  rfl

theorem halves (value : BitVec 32) {a b c d : BitVec 8} {high low : BitVec 32}
    (ha : a = (value >>> 24 &&& 0xff).setWidth 8) (hb : b = (value >>> 16 &&& 0xff).setWidth 8)
    (hc : c = (value >>> 8 &&& 0xff).setWidth 8) (hd : d = (value &&& 0xff).setWidth 8)
    (hhigh : high.toNat = a.toNat * 2 ^ 8 + b.toNat)
    (hlow : low.toNat = c.toNat * 2 ^ 8 + d.toNat) : high <<< 16 ||| low = value := by
  obtain ⟨p, q, r, t, rfl⟩ := exists_word value
  have hp : a = p := by
    rw [ha, word]
    ext i hi
    interval_cases i <;> simp
  have hq : b = q := by
    rw [hb, word]
    ext i hi
    interval_cases i <;> simp
  have hr : c = r := by
    rw [hc, word]
    ext i hi
    interval_cases i <;> simp
  have ht : d = t := by
    rw [hd, word]
    ext i hi
    interval_cases i <;> simp
  subst hp hq hr ht
  have hc := c.isLt
  have hd := d.isLt
  have ha := a.isLt
  have hb := b.isLt
  apply BitVec.eq_of_toNat_eq
  rw [BitVec.toNat_or, BitVec.toNat_shiftLeft, Nat.shiftLeft_eq, Nat.mod_eq_of_lt (by omega),
    ← Nat.shiftLeft_eq, ← Nat.shiftLeft_add_eq_or_of_lt (by omega), Nat.shiftLeft_eq, hhigh, hlow,
    word_toNat]
  omega

/-- A value with its separators is in the source. -/
def SeparatedAt (source : Nat → BitVec 8) (k : Nat) (value : BitVec 32) : Prop :=
  ∀ i, i < 6 → source (k + i) = (separated value).getD i 0

theorem yields_getSeparated {value : BitVec 32} (h : Ready source k size s.buffer)
    (hk : k + 6 ≤ size) (hclean : Clean source 0 (k + 6)) (hvalue : SeparatedAt source k value) :
    ∃ b, Yields getSeparated s value { s with buffer := b } ∧ Ready source (k + 6) size b := by
  have hpart : ∀ j, j ≤ 6 → Clean source 0 (k + j) :=
    fun j hj i hi hlt => hclean i hi (by omega)
  obtain ⟨high, b₁, hyields₁, hhigh, hready₁⟩ :=
    yields_get h (by decide : 2 ≤ 4) (by omega) (hpart 2 (by decide))
  obtain ⟨b₂, hyields₂, hready₂⟩ := yields_markerBits (s := { s with buffer := b₁ }) hready₁
    (by omega) (hpart 3 (by decide)) (hvalue 2 (by decide))
  obtain ⟨low, b₃, hyields₃, hlow, hready₃⟩ := yields_get (s := { s with buffer := b₂ }) hready₂
    (by decide : 2 ≤ 4) (by omega) (hpart 5 (by decide))
  obtain ⟨b₄, hyields₄, hready₄⟩ := yields_markerBits (s := { s with buffer := b₃ }) hready₃
    (by omega) (hpart 6 (by decide)) (hvalue 5 (by decide))
  have hresult : high <<< 16 ||| low = value := halves value (hvalue 0 (by decide))
    (hvalue 1 (by decide)) (hvalue 3 (by decide)) (hvalue 4 (by decide))
    (hhigh.trans (numeral_byteBit_two _)) (hlow.trans (numeral_byteBit_two _))
  refine ⟨b₄, ?_, hready₄⟩
  unfold getSeparated
  simp only [yields_bind]
  refine ⟨high, _, hyields₁, (), _, hyields₂, low, _, hyields₃, (), _, hyields₄, ?_⟩
  rw [← hresult]
  rfl

theorem yields_readFrameRate (tdt : Bool) (h : Ready source k size s.buffer)
    (hk : k + 12 ≤ size) (hclean : Clean source 0 (k + 12))
    (hscale : SeparatedAt source k timeScale) (hdelta : SeparatedAt source (k + 6) timeDelta) :
    ∃ b, Yields (readFrameRate tdt) s ()
      (setFrameRate tdt timeScale timeDelta { s with buffer := b }) := by
  obtain ⟨b₁, hyields₁, hready₁⟩ :=
    yields_getSeparated h (by omega) (fun i hi hlt => hclean i hi (by omega)) hscale
  obtain ⟨b₂, hyields₂, -⟩ := yields_getSeparated (s := { s with buffer := b₁ }) hready₁
    (by omega) (fun i hi hlt => hclean i hi (by omega)) hdelta
  refine ⟨b₂, ?_⟩
  unfold readFrameRate
  simp only [yields_bind]
  exact ⟨_, _, hyields₁, _, _, hyields₂, rfl⟩

theorem yields_record (tdt : Bool) (h : Ready source 0 size s.buffer) (hsize : 14 ≤ size)
    (hclean : Clean source 0 14) (hversion : source 0 = 0) (hmarker : source 1 = 0xff)
    (hscale : SeparatedAt source 2 timeScale) (hdelta : SeparatedAt source 8 timeDelta) :
    ∃ b, Yields (readPlayer2ContainerParameters tdt) s ()
      (setFrameRate tdt timeScale timeDelta { s with buffer := b }) := by
  obtain ⟨version, b₁, hyields₁, hvalue, hready₁⟩ := yields_get h (by decide : 1 ≤ 4) (by omega)
    fun i hi hlt => hclean i hi (by omega)
  obtain ⟨b₂, hyields₂, hready₂⟩ := yields_markerBits (s := { s with buffer := b₁ }) hready₁
    (by omega) (fun i hi hlt => hclean i hi (by omega)) hmarker
  obtain ⟨b₃, hyields₃⟩ := yields_readFrameRate (s := { s with buffer := b₂ }) tdt hready₂
    (by omega) (fun i hi hlt => hclean i hi (by omega)) hscale hdelta
  have hzero : version = 0 := by
    apply BitVec.eq_of_toNat_eq
    rw [hvalue, numeral_byteBit_one, Nat.zero_add, hversion]
    rfl
  subst hzero
  refine ⟨b₃, ?_⟩
  unfold readPlayer2ContainerParameters
  simp only [yields_bind]
  exact ⟨_, _, hyields₁, _, _, hyields₂, hyields₃⟩

end ContainerParser

/-! ## From the writer to the reader -/

theorem ready_check (source memory : Nat → BitVec 8) {size : Nat} (hsize : size ≤ 508) :
    ∃ b, (loadAntiEmulationBuffer memory).checkAntiEmulationBuffer source size = some b ∧
      Ready source 0 size b := by
  have hbuffer : antiEmulationBufferSize = 1024 := rfl
  have hsmall : size ≤ antiEmulationBufferSize - 16 := by omega
  obtain ⟨hfits, hinv⟩ := (AntiEmulation.Inv.start source memory).check hsmall
  have hroom : AntiEmulation.Fits source (loadAntiEmulationBuffer memory) size := by
    intro _
    -- nothing has been copied and nothing read
    have hread := pointer_add_begun (BitStream.at_setPointer memory 0)
      (s := loadAntiEmulationBuffer memory)
    have huntouched : (loadAntiEmulationBuffer memory).untouchedBytesInBuffer = 0 := by
      show 0 - _ - _ = 0
      rw [Nat.zero_sub, Nat.zero_sub]
    have hkept : (loadAntiEmulationBuffer memory).keptContent size = 0 := by
      unfold keptContent
      split
      · omega
      · rfl
    have hescapes := escapes_le source (size + 3) (loadAntiEmulationBuffer memory).antiEmulationSource
    rw [hkept, huntouched, Nat.sub_zero]
    omega
  obtain ⟨b, hb⟩ := hfits.mpr hroom
  obtain ⟨base, p, hready⟩ := hinv b hb
  exact ⟨b, hb, _, base, p, hready, rfl, Nat.zero_add _⟩

/-- **The frame rate is handed over**: no start code is emulated in the record, and
the reader gets the values that were written, whatever is in memory behind the
record, up to the next start code, and in the anti-emulation buffer. -/
theorem containerParameters_handed_over (timeScale timeDelta : BitVec 32) (tdt : Bool)
    (bufferData memory : Nat → BitVec 8) (offset next : Nat) (s : ContainerReader)
    (hrecord : Recorded timeScale timeDelta fun i => bufferData (offset + i))
    (hnext : offset + (containerParameters timeScale timeDelta).length ≤ next)
    (hlast : next ≤ offset + 512) :
    (∀ i, 1 ≤ i → i < (containerParameters timeScale timeDelta).length →
      ¬ EmulatesCode (fun i => bufferData (offset + i)) i) ∧
    ∃ t, readContainerUnit tdt bufferData offset next memory s = some (.ok (), t) ∧
      t.timeScale = timeScale ∧ t.timeDelta = writtenTimeDelta timeScale timeDelta := by
  refine ⟨fun i hi hlt => hrecord.not_code hi hlt, ?_⟩
  have hsource : (fun i => bufferData (offset + 4 + i)) = fun i => bufferData (offset + (4 + i)) :=
    funext fun i => by rw [Nat.add_assoc]
  have hclean := hrecord.clean
  have hbytes := hrecord
  unfold Recorded at hbytes
  rw [containerParameters_length] at hbytes hnext
  have hsize : next - offset - 4 ≤ 508 := by omega
  obtain ⟨b₁, hb₁, hready⟩ := ready_check (fun i => bufferData (offset + (4 + i))) memory hsize
  have hscale : ContainerParser.SeparatedAt (fun i => bufferData (offset + (4 + i))) 2 timeScale := fun i hi =>
    (hbytes (4 + (2 + i)) (by omega)).trans (by interval_cases i <;> rfl)
  have hdelta : ContainerParser.SeparatedAt (fun i => bufferData (offset + (4 + i))) 8
      (writtenTimeDelta timeScale timeDelta) := fun i hi =>
    (hbytes (4 + (8 + i)) (by omega)).trans (by interval_cases i <;> rfl)
  obtain ⟨b₂, hyields⟩ := ContainerParser.yields_record (s := { s with buffer := b₁ }) tdt hready
    (by omega) (fun i hi hlt => hclean i hi (by omega)) (hbytes 4 (by decide))
    (hbytes 5 (by decide)) hscale hdelta
  refine ⟨ContainerParser.setFrameRate tdt timeScale (writtenTimeDelta timeScale timeDelta)
    { s with buffer := b₂ }, ?_, rfl, rfl⟩
  unfold readContainerUnit
  dsimp only
  rw [hsource, hb₁]
  exact congrArg some hyields

/-- The record of 25 frames a second, before the start code of a parameter set. -/
theorem containerParameters_handed_over_25 :
    let bufferData : Nat → BitVec 8 := fun i =>
      (containerParameters 25000 1000 ++ [0, 0, 0, 1, 0x67]).getD i 0
    let s : ContainerReader :=
      ⟨loadAntiEmulationBuffer fun _ => 0, 0, 0, ⟨.ofInt 1, .ofInt 0, false⟩⟩
    (∀ i, 1 ≤ i → i < (containerParameters 25000 1000).length →
      ¬ EmulatesCode (fun i => bufferData (0 + i)) i) ∧
    ∃ t, readContainerUnit true bufferData 0 20 (fun _ => 0) s = some (.ok (), t) ∧
      t.timeScale = 25000 ∧ t.timeDelta = writtenTimeDelta 25000 1000 := by
  intro bufferData s
  refine containerParameters_handed_over 25000 1000 true bufferData (fun _ => 0) 0 20 s ?_
    (by decide) (by decide)
  intro i hi
  have hi : i < 19 := hi
  interval_cases i <;> rfl

end Duckbox.H264
