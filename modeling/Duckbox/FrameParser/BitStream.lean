import Mathlib.Data.Nat.ModEq
import Duckbox.Lib.Bits

/-!
# Bit streams

`BitStreamClass_c`: a stream holds up to two words of the memory it reads, of
which the low `bitsAvailable` bits have not been read. `At` says which bit comes
next; every call but `Flush` then reads from there whatever is held, and `Flush`
does where the bits have been shown.
-/

namespace Duckbox.FrameParser

open Duckbox.Lib

/-- The members of `BitStreamClass_c`; `bitsData` counts the words of the memory. -/
structure BitStream where
  bitsAvailable : Nat
  bitsWord : BitVec 64
  bitsData : Nat

namespace BitStream

variable (m : Nat → BitVec 8)

/-- `__swapbw( *BitsData )`. -/
def wordAt (k : Nat) : BitVec 32 := word (m (4 * k)) (m (4 * k + 1)) (m (4 * k + 2)) (m (4 * k + 3))

/-- `BitsWord = (BitsWord << 32) | __swapbw( *(BitsData++) )`. -/
def load (s : BitStream) : BitStream :=
  { s with
    bitsWord := s.bitsWord <<< 32 ||| (wordAt m s.bitsData).setWidth 64
    bitsData := s.bitsData + 1 }

/-- `SetPointer`. -/
def setPointer (pointer : Nat) : BitStream where
  bitsAvailable := 32 - pointer % 4 * 8
  bitsWord := (wordAt m (pointer / 4)).setWidth 64
  bitsData := pointer / 4 + 1

/-- "Ensure we have enough data". -/
def ensure (n : Nat) (s : BitStream) : BitStream :=
  if s.bitsAvailable < n then { s.load m with bitsAvailable := s.bitsAvailable + 32 } else s

/-- "return the appropriate field". -/
def field (s : BitStream) (n shift : Nat) : BitVec 32 :=
  (s.bitsWord >>> shift &&& (1#64 <<< n - 1#64)).setWidth 32

/-- `Flush`. -/
def flush (n : Nat) (s : BitStream) : BitStream :=
  { s with bitsAvailable := s.bitsAvailable - n }

/-- `Get`. -/
def get (n : Nat) (s : BitStream) : BitVec 32 × BitStream :=
  let s := (s.ensure m n).flush n
  (s.field n s.bitsAvailable, s)

/-- `Show`. -/
def showBits (n : Nat) (s : BitStream) : BitVec 32 × BitStream :=
  let s := s.ensure m n
  (s.field n (s.bitsAvailable - n), s)

/-- What `SignedGet` and `SignedShow` make of a field. -/
def signed (n : Nat) (value : BitVec 32) : BitVec 32 :=
  if 2 ≤ n ∧ n ≤ 31 ∧ 1#32 <<< (n - 1) ≤ value then value ||| 0xffffffff#32 <<< (n - 1) else value

/-- `SignedGet`. -/
def signedGet (n : Nat) (s : BitStream) : BitVec 32 × BitStream :=
  let (value, s) := s.get m n
  (signed n value, s)

/-- `SignedShow`. -/
def signedShow (n : Nat) (s : BitStream) : BitVec 32 × BitStream :=
  let (value, s) := s.showBits m n
  (signed n value, s)

/-- `FlushUnseen`. -/
def flushUnseen (n : Nat) (s : BitStream) : BitStream :=
  if 32 < n then flushUnseen (n - 32) (s.load m) else (s.ensure m n).flush n
termination_by n

/-- `GetPosition`: the byte of the next bit, and how many of its bits are left. -/
def getPosition (s : BitStream) : Nat × Nat :=
  (4 * s.bitsData - (s.bitsAvailable + 7) / 8,
    if s.bitsAvailable % 8 = 0 then 8 else s.bitsAvailable % 8)

/-! ## Where a stream is -/

/-- The next bit of a stream is bit `p` of the memory, and it holds those from there
to the words it has not loaded. -/
structure At (s : BitStream) (p : Nat) : Prop where
  data : 32 * s.bitsData = p + s.bitsAvailable
  available : s.bitsAvailable < 64
  held : s.bitsWord.toNat ≡ numeral (byteBit m) (32 * s.bitsData) [MOD 2 ^ s.bitsAvailable]

variable {m} {s : BitStream} {p n : Nat}

theorem toNat_load (s : BitStream) : (s.load m).bitsWord.toNat
    = (s.bitsWord.toNat * 2 ^ 32 + (wordAt m s.bitsData).toNat) % 2 ^ 64 := by
  have hword := (wordAt m s.bitsData).isLt
  unfold load
  rw [BitVec.toNat_or, BitVec.toNat_shiftLeft, BitVec.toNat_setWidth, Nat.shiftLeft_eq,
    Nat.mod_eq_of_lt (Nat.lt_of_lt_of_le hword (by decide)),
    show 2 ^ 64 = 2 ^ 32 * 2 ^ 32 by decide, Nat.mul_mod_mul_right, ← Nat.shiftLeft_eq,
    ← Nat.shiftLeft_add_eq_or_of_lt hword, Nat.shiftLeft_eq]
  have hlt := Nat.mod_lt s.bitsWord.toNat (Nat.two_pow_pos 32)
  omega

theorem At.held_load (h : s.At m p) {k : Nat} (hk : k ≤ s.bitsAvailable + 32) (h64 : k ≤ 64) :
    (s.load m).bitsWord.toNat ≡ numeral (byteBit m) (32 * (s.bitsData + 1)) [MOD 2 ^ k] := by
  have hshifted : s.bitsWord.toNat * 2 ^ 32 ≡ numeral (byteBit m) (32 * s.bitsData) * 2 ^ 32
      [MOD 2 ^ (s.bitsAvailable + 32)] := by
    rw [Nat.pow_add]
    exact h.held.mul_right' _
  rw [toNat_load, numeral_byteBit_word]
  have htop : ∀ x, x % 2 ^ 64 ≡ x [MOD 2 ^ k] := fun x =>
    (Nat.mod_modEq x (2 ^ 64)).of_dvd (Nat.pow_dvd_pow 2 h64)
  exact (htop _).trans ((hshifted.of_dvd (Nat.pow_dvd_pow 2 hk)).add_right _)

theorem At.field (h : s.At m p) {k : Nat} (hn : n ≤ 32) (hk : k + n = s.bitsAvailable) :
    (s.field n k).toNat = numeral (fun i => byteBit m (p + i)) n := by
  have hpow : 2 ^ n ≤ 2 ^ 32 := Nat.pow_le_pow_right (by decide) hn
  have hmask : (1#64 <<< n - 1#64 : BitVec 64).toNat = 2 ^ n - 1 := by
    have hone : (1#64 <<< n : BitVec 64).toNat = 2 ^ n := by
      rw [BitVec.toNat_shiftLeft, Nat.shiftLeft_eq, BitVec.toNat_ofNat, Nat.mod_eq_of_lt (by omega)]
      omega
    rw [BitVec.toNat_sub_of_le, hone]
    · rfl
    · rw [BitVec.le_def, hone]
      exact Nat.two_pow_pos n
  have hheld : s.bitsWord.toNat / 2 ^ k % 2 ^ n
      = numeral (byteBit m) (p + n + k) / 2 ^ k % 2 ^ n := by
    have hmod := h.held
    rw [h.data, ← hk, Nat.add_comm k n, ← Nat.add_assoc, Nat.add_comm n k, Nat.pow_add] at hmod
    rw [← Nat.mod_mul_right_div_self, ← Nat.mod_mul_right_div_self, hmod]
  unfold BitStream.field
  rw [BitVec.toNat_setWidth, BitVec.toNat_and, hmask, Nat.and_two_pow_sub_one_eq_mod,
    BitVec.toNat_ushiftRight, Nat.shiftRight_eq_div_pow, hheld, numeral_div, numeral_mod,
    Nat.mod_eq_of_lt (Nat.lt_of_lt_of_le (numeral_lt _ n) hpow)]

theorem At.ensure (h : s.At m p) (hn : n ≤ 32) :
    (s.ensure m n).At m p ∧ n ≤ (s.ensure m n).bitsAvailable ∧
      s.bitsAvailable ≤ (s.ensure m n).bitsAvailable := by
  unfold BitStream.ensure
  have hdata := h.data
  split
  · next hfew =>
    refine ⟨⟨?_, ?_, h.held_load (Nat.le_refl _) ?_⟩, ?_, Nat.le_add_right _ _⟩
    · show 32 * (s.bitsData + 1) = p + (s.bitsAvailable + 32)
      omega
    · show s.bitsAvailable + 32 < 64
      omega
    · show s.bitsAvailable + 32 ≤ 64
      omega
    · show n ≤ s.bitsAvailable + 32
      omega
  · next henough => exact ⟨h, by omega, Nat.le_refl _⟩

theorem At.flush (h : s.At m p) (hn : n ≤ s.bitsAvailable) : (s.flush n).At m (p + n) := by
  have hdata := h.data
  have havailable := h.available
  refine ⟨?_, ?_, h.held.of_dvd (Nat.pow_dvd_pow 2 (Nat.sub_le _ _))⟩
  · show 32 * s.bitsData = p + n + (s.bitsAvailable - n)
    omega
  · show s.bitsAvailable - n < 64
    omega

theorem At.get (h : s.At m p) (hn : n ≤ 32) :
    (s.get m n).1.toNat = numeral (fun i => byteBit m (p + i)) n ∧ (s.get m n).2.At m (p + n) ∧
      s.bitsAvailable - n ≤ (s.get m n).2.bitsAvailable := by
  obtain ⟨hat, henough, hmore⟩ := h.ensure hn
  refine ⟨hat.field hn ?_, hat.flush henough, Nat.sub_le_sub_right hmore n⟩
  show (s.ensure m n).bitsAvailable - n + n = _
  omega

theorem At.showBits (h : s.At m p) (hn : n ≤ 32) :
    (s.showBits m n).1.toNat = numeral (fun i => byteBit m (p + i)) n ∧
      (s.showBits m n).2.At m p ∧ n ≤ (s.showBits m n).2.bitsAvailable ∧
      s.bitsAvailable ≤ (s.showBits m n).2.bitsAvailable := by
  obtain ⟨hat, henough, hmore⟩ := h.ensure hn
  exact ⟨hat.field hn (by omega), hat, henough, hmore⟩

theorem At.flushUnseen (h : s.At m p) : (s.flushUnseen m n).At m (p + n) ∧
    s.bitsAvailable - n ≤ (s.flushUnseen m n).bitsAvailable := by
  induction n using Nat.strong_induction_on generalizing s p with
  | _ n ih =>
    have hdata := h.data
    have havailable := h.available
    unfold BitStream.flushUnseen
    split
    · next hmany =>
      -- a word is passed over, and as many bits are held as before
      have hload : (s.load m).At m (p + 32) := by
        refine ⟨?_, h.available, h.held_load (Nat.le_add_right _ _) (Nat.le_of_lt h.available)⟩
        show 32 * (s.bitsData + 1) = p + 32 + s.bitsAvailable
        omega
      obtain ⟨hat, hmore⟩ := ih (n - 32) (by omega) hload
      have hmore : s.bitsAvailable - (n - 32) ≤ _ := hmore
      rw [show p + 32 + (n - 32) = p + n by omega] at hat
      exact ⟨hat, by omega⟩
    · next hfew =>
      obtain ⟨hat, henough, hmore⟩ := h.ensure (Nat.le_of_not_lt hfew)
      exact ⟨hat.flush henough, Nat.sub_le_sub_right hmore n⟩

theorem At.getPosition (h : s.At m p) : s.getPosition = (p / 8, 8 - p % 8) := by
  have hdata := h.data
  unfold BitStream.getPosition
  refine Prod.ext ?_ ?_
  · show 4 * s.bitsData - (s.bitsAvailable + 7) / 8 = p / 8
    omega
  · show (if s.bitsAvailable % 8 = 0 then 8 else s.bitsAvailable % 8) = 8 - p % 8
    split <;> omega

variable (m) in
theorem at_setPointer (pointer : Nat) : (setPointer m pointer).At m (8 * pointer) := by
  refine ⟨?_, ?_, ?_⟩
  · show 32 * (pointer / 4 + 1) = 8 * pointer + (32 - pointer % 4 * 8)
    omega
  · show 32 - pointer % 4 * 8 < 64
    omega
  · show ((wordAt m (pointer / 4)).setWidth 64).toNat ≡ numeral (byteBit m) (32 * (pointer / 4 + 1))
      [MOD 2 ^ (32 - pointer % 4 * 8)]
    have hword := (wordAt m (pointer / 4)).isLt
    have hlast : (wordAt m (pointer / 4)).toNat ≡ numeral (byteBit m) (32 * (pointer / 4 + 1))
        [MOD 2 ^ 32] := by
      rw [numeral_byteBit_word]
      exact (Nat.mul_add_mod_self_right ..).symm
    rw [BitVec.toNat_setWidth, Nat.mod_eq_of_lt (Nat.lt_of_lt_of_le hword (by decide))]
    exact hlast.of_dvd (Nat.pow_dvd_pow 2 (Nat.sub_le _ _))

end BitStream

end Duckbox.FrameParser
