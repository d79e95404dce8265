import Duckbox.FrameParser.AacAudio

/-!
# Which sync word an AAC header begins with

`ParseFrameHeader` puts its `Sync` together bit by bit from the bottom: what it gets later
goes on top of what it has. The standard's sync words are read from the top.

> `syncWord_exact_iff`: the branch that is taken is that of the sync word the header begins
> with, but for headers that begin with the sync word of LOAS with error protection or of
> ADIF, and those that begin with what it compares with in their place.

With eleven bits nothing has been put together yet, and twelve that are all set are the
same from either end.
-/

namespace Duckbox.FrameParser.AacAudio

open Lib (byteBit numeral numeral_add numeral_lt)

/-- The branches of `ParseFrameHeader`. -/
inductive SyncWord where
  | loas
  | adts
  | loasEp
  | adif
  | unknown
deriving DecidableEq

variable (m : Nat → BitVec 8) (pointer : Nat)

/-! ## The branch taken -/

/-- `Sync` behind its eleven, twelve, sixteen and 32 bits, and what is left of the stream. -/
def syncLoas : BitVec 32 × BitStream := (BitStream.setPointer m pointer).get m 11

def syncAdts : BitVec 32 × BitStream :=
  let (more, bits) := (syncLoas m pointer).2.get m 1
  ((syncLoas m pointer).1 ||| more <<< 11, bits)

def syncLoasEp : BitVec 32 × BitStream :=
  let (more, bits) := (syncAdts m pointer).2.get m 4
  ((syncAdts m pointer).1 ||| more <<< 12, bits)

def syncAdif : BitVec 32 × BitStream :=
  let (more, bits) := (syncLoasEp m pointer).2.get m 16
  ((syncLoasEp m pointer).1 ||| more <<< 16, bits)

def syncWord : SyncWord :=
  if (syncLoas m pointer).1 = 0x2b7 then .loas
  else if (syncAdts m pointer).1 = 0xfff then .adts
  else if (syncLoasEp m pointer).1 = 0x4de1 then .loasEp
  else if (syncAdif m pointer).1 = 0x41444946 then .adif
  else .unknown

section

variable (availableBytes : Int) (action : FrameParsingPurpose) (enableHeaderUnplayableErrors : Bool)

/-- How `ParseFrameHeader` goes on in a branch. -/
def parseBranch : SyncWord → Except FrameParserError ParsedFrameHeader
  | .loas => parseLoasAss m (syncLoas m pointer).2 availableBytes action
  | .adts => parseAdts m (syncAdts m pointer).2 enableHeaderUnplayableErrors
  | .loasEp => parseLoasEpAss m (syncLoasEp m pointer).2 availableBytes action
  | .adif => .error .frameParserHeaderUnplayable
  | .unknown => .error .frameParserError

theorem parseFrameHeader_eq :
    parseFrameHeader m pointer availableBytes action enableHeaderUnplayableErrors =
      parseBranch m pointer availableBytes action enableHeaderUnplayableErrors (syncWord m pointer) := by
  unfold parseFrameHeader syncWord syncAdif syncLoasEp syncAdts syncLoas
  dsimp only
  split
  next => rfl
  next =>
    split
    next => rfl
    next =>
      split
      next => rfl
      next =>
        split
        next => rfl
        next => rfl

end

/-! ## The sync word that is there -/

/-- The first `n` bits, read from the top. -/
def leading (n : Nat) : Nat := numeral (fun i => byteBit m (8 * pointer + i)) n

/-- The sync word by the standard. -/
def standardSyncWord : SyncWord :=
  if leading m pointer 11 = 0x2b7 then .loas
  else if leading m pointer 12 = 0xfff then .adts
  else if leading m pointer 16 = 0x4de1 then .loasEp
  else if leading m pointer 32 = 0x41444946 then .adif
  else .unknown

theorem toNat_or_shiftLeft {a b : BitVec 32} {k n : Nat} (ha : a.toNat < 2 ^ k)
    (hb : b.toNat < 2 ^ n) (hn : k + n ≤ 32) :
    (a ||| b <<< k).toNat = a.toNat + b.toNat * 2 ^ k := by
  have hfits : b.toNat * 2 ^ k < 2 ^ 32 :=
    calc b.toNat * 2 ^ k < 2 ^ n * 2 ^ k := Nat.mul_lt_mul_of_pos_right hb (Nat.two_pow_pos k)
      _ = 2 ^ (n + k) := (Nat.pow_add 2 n k).symm
      _ ≤ 2 ^ 32 := Nat.pow_le_pow_right (by decide) (by omega)
  rw [BitVec.toNat_or, BitVec.toNat_shiftLeft, Nat.shiftLeft_eq, Nat.mod_eq_of_lt hfits, Nat.or_comm,
    ← Nat.shiftLeft_eq, ← Nat.shiftLeft_add_eq_or_of_lt ha, Nat.shiftLeft_eq, Nat.add_comm]

theorem sync_get {s : BitStream} {p n : Nat} (h : s.At m (8 * pointer + p)) (hn : n ≤ 32) {a : BitVec 32}
    (ha : a.toNat < 2 ^ p) (hp : p + n ≤ 32) :
    ∃ x, x < 2 ^ n ∧ leading m pointer (p + n) = leading m pointer p * 2 ^ n + x ∧
      (a ||| (s.get m n).1 <<< p).toNat = a.toNat + x * 2 ^ p ∧ (s.get m n).2.At m (8 * pointer + (p + n)) := by
  obtain ⟨hvalue, hat, -⟩ := h.get hn
  have hlt := numeral_lt (fun i => byteBit m (8 * pointer + p + i)) n
  have hplace : ∀ i, 8 * pointer + p + i = 8 * pointer + (p + i) := fun i => Nat.add_assoc _ _ _
  simp only [hplace] at hvalue hat hlt
  exact ⟨_, hlt, numeral_add (fun i => byteBit m (8 * pointer + i)) p n,
    (toNat_or_shiftLeft ha (hvalue ▸ hlt) hp).trans (by rw [hvalue]), hat⟩

theorem sync_fields : ∃ x y z, x < 2 ∧ y < 16 ∧ z < 65536 ∧ leading m pointer 11 < 2048 ∧
    leading m pointer 12 = leading m pointer 11 * 2 + x ∧ leading m pointer 16 = leading m pointer 12 * 16 + y ∧
    leading m pointer 32 = leading m pointer 16 * 65536 + z ∧ (syncLoas m pointer).1.toNat = leading m pointer 11 ∧
    (syncAdts m pointer).1.toNat = leading m pointer 11 + x * 2048 ∧
    (syncLoasEp m pointer).1.toNat = leading m pointer 11 + x * 2048 + y * 4096 ∧
    (syncAdif m pointer).1.toNat = leading m pointer 11 + x * 2048 + y * 4096 + z * 65536 := by
  have hloas := (BitStream.at_setPointer (m := m) pointer).get (n := 11) (by decide)
  have hvalue : (syncLoas m pointer).1.toNat = leading m pointer 11 := hloas.1
  have hlt : leading m pointer 11 < 2 ^ 11 := numeral_lt _ _
  obtain ⟨x, hx, hleads, hadts, hat⟩ :=
    sync_get m pointer (hloas.2.1 : (syncLoas m pointer).2.At m (8 * pointer + 11)) (n := 1) (by decide) (hvalue ▸ hlt) (by decide)
  have hadts' : (syncAdts m pointer).1.toNat = leading m pointer 11 + x * 2 ^ 11 := hadts.trans (by rw [hvalue])
  obtain ⟨y, hy, hleads', hep, hat'⟩ :=
    sync_get m pointer (hat : (syncAdts m pointer).2.At m (8 * pointer + 12)) (n := 4) (by decide)
      (by rw [hadts']; omega) (by decide)
  have hep' : (syncLoasEp m pointer).1.toNat = leading m pointer 11 + x * 2 ^ 11 + y * 2 ^ 12 :=
    hep.trans (by rw [hadts'])
  obtain ⟨z, hz, hleads'', hadif, -⟩ :=
    sync_get m pointer (hat' : (syncLoasEp m pointer).2.At m (8 * pointer + 16)) (n := 16) (by decide)
      (by rw [hep']; omega) (by decide)
  have hadif' : (syncAdif m pointer).1.toNat = leading m pointer 11 + x * 2 ^ 11 + y * 2 ^ 12 + z * 2 ^ 16 :=
    hadif.trans (by rw [hep'])
  exact ⟨x, y, z, hx, hy, hz, hlt, hleads, hleads', hleads'', hvalue, hadts', hep', hadif'⟩

/-- The branch is that of the sync word that is there, but for four beginnings. -/
theorem syncWord_exact_iff : syncWord m pointer = standardSyncWord m pointer ↔
    (leading m pointer 16 ≠ 0x4de1 ∧ leading m pointer 16 ≠ 0xbc34) ∧
      leading m pointer 32 ≠ 0x41444946 ∧ leading m pointer 32 ≠ 0x28d44144 := by
  obtain ⟨x, y, z, hx, hy, hz, hlt, h12, h16, h32, hloas, hadts, hep, hadif⟩ := sync_fields m pointer
  unfold syncWord standardSyncWord
  simp only [← BitVec.toNat_inj, hloas, hadts, hep, hadif, BitVec.reduceToNat]
  split_ifs <;> simp only [true_iff, false_iff, ne_eq] <;> omega

/-- A LOAS header with error protection that is not taken for one. -/
theorem loas_ep_missed :
    ¬ syncWord (fun k => [0x4d, 0xe1].getD k 0) 0
      = standardSyncWord (fun k => [0x4d, 0xe1].getD k 0) 0 := by
  decide +kernel

end Duckbox.FrameParser.AacAudio
