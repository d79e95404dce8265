import Duckbox.Lib.Word

/-!
# Packets of a transport stream

The macros of `dvb.h`, which take fields out of the header of a packet read as a word
with its first byte at the bottom, and what they come to on the bytes of the packet:
`valid`, `pid`, `priority`, `payload`. The payload is what is behind the header and the
adaptation field, and there is none where the packet says so or where the adaptation
field takes all of it.
-/

namespace Duckbox.Demultiplexor

open Duckbox.Lib

abbrev Byte := BitVec 8

abbrev UnsignedInt := BitVec 32

/-- `DVB_PACKET_SIZE`. -/
abbrev dvbPacketSize : Nat := 188

/-- `DVB_HEADER_SIZE`. -/
abbrev dvbHeaderSize : Nat := 4

/-- `DVB_MAX_PIDS`. -/
abbrev dvbMaxPids : Nat := 8192

/-- `DVB_SYNC_BYTE`. -/
abbrev dvbSyncByte : Byte := 0x47

/-! ## `dvb.h` -/

section

variable (header : UnsignedInt)

/-- `DVB_VALID_PACKET`. -/
def dvbValidPacket : Bool :=
  header &&& 0x000000ff#32 == dvbSyncByte.setWidth 32 && header &&& 0x00008000#32 == 0

/-- `DVB_PID`. -/
def dvbPid : UnsignedInt :=
  (header &&& 0x00001f00#32) ||| (header &&& 0x00ff0000#32) >>> 16

/-- `DVB_PRIORITY`. -/
def dvbPriority : Bool := header &&& 0x00002000#32 != 0

/-- `DVB_ADAPTATION_FIELD`. -/
def dvbAdaptationField : Bool := header &&& 0x20000000#32 != 0

/-- `DVB_PAYLOAD_PRESENT`. -/
def dvbPayloadPresent : Bool := header &&& 0x10000000#32 != 0

/-- `DVB_CONTINUITY_COUNT`. -/
def dvbContinuityCount : UnsignedInt := (header &&& 0x0f000000#32) >>> 24

end

/-! ## The bytes of a packet -/

namespace Packet

variable (p : List Byte)

def byte (i : Nat) : Byte := p.getD i 0

/-- It begins with the sync byte, and is not marked as one with an error. -/
def valid : Bool := byte p 0 == dvbSyncByte && !(byte p 1).getLsbD 7

def pid : Nat := (byte p 1).toNat % 32 * 256 + (byte p 2).toNat

def priority : Bool := (byte p 1).getLsbD 5

def adaptationField : Bool := (byte p 3).getLsbD 5

def payloadPresent : Bool := (byte p 3).getLsbD 4

/-- Where what follows the header and the adaptation field begins. -/
def dataOffset : Nat :=
  dvbHeaderSize + if adaptationField p then 1 + (byte p 4).toNat else 0

def payload : List Byte := if payloadPresent p then p.drop (dataOffset p) else []

/-- The first word of it. -/
def header : UnsignedInt := word (byte p 3) (byte p 2) (byte p 1) (byte p 0)

end Packet

/-! ## What the macros come to -/

section

variable (a b c d : Byte)

theorem and_ne_zero_iff (x : UnsignedInt) (i : Nat) (hi : i < 32) :
    (x &&& BitVec.twoPow 32 i != 0) = x.getLsbD i := by
  rw [BitVec.and_twoPow]
  cases x.getLsbD i with
  | false => rfl
  | true =>
    have hne : BitVec.twoPow 32 i ≠ 0 := by
      intro h
      have hbit := congrArg (fun y => BitVec.getLsbD y i) h
      simp [hi] at hbit
    rw [if_pos rfl, bne_iff_ne]
    exact hne

theorem word_and_lowest : word d c b a &&& 0x000000ff#32 = a.setWidth 32 := by
  unfold word
  ext i hi
  simp only [BitVec.getElem_and, BitVec.getElem_or, BitVec.getElem_shiftLeft,
    BitVec.getElem_setWidth]
  interval_cases i <;> simp

theorem dvbPid_word : dvbPid (word d c b a) = word 0#8 0#8 (b &&& 0x1f#8) c := by
  unfold dvbPid word
  ext i hi
  simp only [BitVec.getElem_and, BitVec.getElem_or, BitVec.getElem_shiftLeft,
    BitVec.getElem_setWidth, BitVec.getElem_ushiftRight]
  interval_cases i <;> simp

end

namespace Packet

variable (p : List Byte)

theorem dvbValidPacket_header : dvbValidPacket (header p) = valid p := by
  have hsync : ((byte p 0).setWidth 32 == dvbSyncByte.setWidth 32) = (byte p 0 == dvbSyncByte) := by
    rw [Bool.eq_iff_iff, beq_iff_eq, beq_iff_eq]
    refine ⟨fun h => ?_, fun h => by rw [h]⟩
    have hback := congrArg (BitVec.setWidth 8) h
    rwa [BitVec.setWidth_setWidth_of_le _ (by decide), BitVec.setWidth_setWidth_of_le _ (by decide),
      BitVec.setWidth_eq, BitVec.setWidth_eq] at hback
  have herror : (header p &&& 0x00008000#32 != 0) = (byte p 1).getLsbD 7 :=
    (and_ne_zero_iff (header p) 15 (by decide)).trans (by simp [header, word])
  unfold dvbValidPacket valid
  rw [← herror, show header p &&& 0x000000ff#32 = (byte p 0).setWidth 32 from word_and_lowest ..,
    hsync]
  simp [bne]

theorem dvbPid_header : (dvbPid (header p)).toNat = pid p := by
  have hhigh : (byte p 1 &&& 0x1f#8).toNat = (byte p 1).toNat % 32 :=
    Nat.and_two_pow_sub_one_eq_mod (byte p 1).toNat 5
  unfold header pid
  rw [dvbPid_word, word_toNat, hhigh]
  simp

theorem dvbPriority_header : dvbPriority (header p) = priority p :=
  (and_ne_zero_iff (header p) 13 (by decide)).trans (by simp [header, word, priority])

theorem dvbAdaptationField_header : dvbAdaptationField (header p) = adaptationField p :=
  (and_ne_zero_iff (header p) 29 (by decide)).trans (by simp [header, word, adaptationField])

theorem dvbPayloadPresent_header : dvbPayloadPresent (header p) = payloadPresent p :=
  (and_ne_zero_iff (header p) 28 (by decide)).trans (by simp [header, word, payloadPresent])

end Packet

end Duckbox.Demultiplexor
