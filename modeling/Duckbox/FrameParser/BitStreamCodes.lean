import Duckbox.FrameParser.BitStream
import Duckbox.Lib.TopBit

/-!
# Signed fields and Exp-Golomb codes

`SignedGet` extends the sign of a field of 2 to 31 bits. `GetUe` counts the zeros in
front of a code in the 32 bits shown, and `GetSe` takes the number it reads for one
with a sign in its low bit. What they return is put in terms of the bits of the
memory: `twosComplement`, `codeAt` and `signedCode`.
-/

namespace Duckbox.FrameParser

open Duckbox.Lib

/-! ## Leading zeros -/

/-- A step of `__lzcntw`: the count, and the word with its lower halves cleared. -/
def lzcntStep (mask : BitVec 32) (k : Nat) (r : Nat × BitVec 32) : Nat × BitVec 32 :=
  let b := r.2 &&& mask
  (r.1 + if b ≠ 0 then 0 else k, if b ≠ 0 then b else r.2)

/-- `__lzcntw`. -/
def lzcntw (a : BitVec 32) : Nat :=
  let r := (if a ≠ 0 then 0 else 1, a)
  let r := lzcntStep 0xffff0000 16 r
  let r := lzcntStep 0xff00ff00 8 r
  let r := lzcntStep 0xf0f0f0f0 4 r
  let r := lzcntStep 0xcccccccc 2 r
  (lzcntStep 0xaaaaaaaa 1 r).1

/-- The top bit of `a` is one of the `k` from `s` on, and what is above is counted. -/
structure Counted (a : BitVec 32) (r : Nat × BitVec 32) (k : Nat) (s : Nat) : Prop where
  cleared : Cleared a r.2 s k
  count : r.1 + s + k = 32
  aligned : k ∣ s

instance {w : Nat} (mask : BitVec w) (s k : Nat) : Decidable (UpperHalf mask s k) :=
  inferInstanceAs (Decidable (∀ i, i < 2 * k → _))

theorem counted_step {a m : BitVec 32} {k s : Nat} {r : Nat × BitVec 32} (hk : 0 < k)
    (hmask : ∀ s, s < 32 → 2 * k ∣ s → UpperHalf m s k) (h : Counted a r (2 * k) s) :
    ∃ s', Counted a (lzcntStep m k r) k s' := by
  have hcount := h.count
  have hhalf := topBit_masked (hmask s (by omega) h.aligned) h.cleared
  have hdvd : k ∣ s := Nat.dvd_trans (Nat.dvd_mul_left k 2) h.aligned
  unfold lzcntStep
  dsimp only
  split at hhalf
  · next hne =>
    rw [if_pos hne, if_pos hne]
    exact ⟨s + k, hhalf, by omega, (Nat.dvd_add_right hdvd).mpr (Nat.dvd_refl k)⟩
  · next heq =>
    rw [if_neg heq, if_neg heq]
    exact ⟨s, hhalf, by omega, hdvd⟩

theorem lzcntw_spec {a : BitVec 32} (ha : a ≠ 0) :
    lzcntw a ≤ 31 ∧ 2 ^ (31 - lzcntw a) ≤ a.toNat ∧ a.toNat < 2 ^ (32 - lzcntw a) := by
  have hpos : 0 < a.toNat := Nat.pos_of_ne_zero fun hz => ha (BitVec.eq_of_toNat_eq hz)
  have h32 : Counted a (0, a) (2 * 16) 0 :=
    ⟨⟨by rw [Nat.pow_zero, Nat.div_one, Nat.mul_one], hpos, a.isLt⟩, rfl, Nat.dvd_zero _⟩
  obtain ⟨_, h16⟩ := counted_step (m := 0xffff0000) (by decide) (by decide) h32
  obtain ⟨_, h8⟩ := counted_step (k := 8) (m := 0xff00ff00) (by decide) (by decide) h16
  obtain ⟨_, h4⟩ := counted_step (k := 4) (m := 0xf0f0f0f0) (by decide) (by decide) h8
  obtain ⟨_, h2⟩ := counted_step (k := 2) (m := 0xcccccccc) (by decide) (by decide) h4
  obtain ⟨s, h1⟩ := counted_step (k := 1) (m := 0xaaaaaaaa) (by decide) (by decide) h2
  have hcount : lzcntw a + s + 1 = 32 := by
    unfold lzcntw
    rw [if_pos ha]
    exact h1.count
  obtain ⟨hlow, hhigh⟩ := h1.cleared.top
  refine ⟨by omega, ?_, ?_⟩
  · rw [show 31 - lzcntw a = s by omega]
    exact hlow
  · rw [show 32 - lzcntw a = s + 1 by omega]
    exact hhigh

/-! ## Codes in a bit string -/

section Codes

variable {f : Nat → Bool} {p : Nat}

/-- How many zeros there are from bit `p` on, up to `k`. -/
def zerosAt (f : Nat → Bool) (p : Nat) : Nat → Nat
  | 0 => 0
  | k + 1 => if f p then 0 else zerosAt f (p + 1) k + 1

/-- The number of the Exp-Golomb code at bit `p`. -/
def codeAt (f : Nat → Bool) (p : Nat) : Nat :=
  2 ^ zerosAt f p 32 - 1 + numeral (fun i => f (p + zerosAt f p 32 + 1 + i)) (zerosAt f p 32)

/-- The bits it has. -/
def codeLength (f : Nat → Bool) (p : Nat) : Nat := 2 * zerosAt f p 32 + 1

/-- The signed number of a code: odd ones are positive. -/
def signedCode (code : Nat) : Int := if code % 2 = 1 then (code / 2 : Nat) + 1 else -(code / 2 : Nat)

theorem zerosAt_spec (f : Nat → Bool) (p k : Nat) :
    (∀ i, i < zerosAt f p k → f (p + i) = false) ∧
      (zerosAt f p k < k → f (p + zerosAt f p k) = true) := by
  induction k generalizing p with
  | zero => exact ⟨fun _ hi => absurd hi (Nat.not_lt_zero _), fun h => absurd h (Nat.lt_irrefl 0)⟩
  | succ k ih =>
    obtain ⟨hzeros, hone⟩ := ih (p + 1)
    unfold zerosAt
    split
    · next hbit => exact ⟨fun _ hi => absurd hi (Nat.not_lt_zero _), fun _ => hbit⟩
    · next hbit =>
      refine ⟨fun i hi => ?_, fun hlt => ?_⟩
      · cases i with
        | zero => exact Bool.eq_false_iff.mpr hbit
        | succ i =>
          rw [show p + (i + 1) = p + 1 + i by omega]
          exact hzeros i (by omega)
      · rw [show p + (zerosAt f (p + 1) k + 1) = p + 1 + zerosAt f (p + 1) k by omega]
        exact hone (by omega)

theorem numeral_false {f : Nat → Bool} {n : Nat} (h : ∀ i, i < n → f i = false) :
    numeral f n = 0 := by
  induction n with
  | zero => rfl
  | succ n ih =>
    show 2 * numeral f n + (f n).toNat = 0
    rw [ih fun i hi => h i (Nat.lt_succ_of_lt hi), h n (Nat.lt_succ_self n)]
    rfl

theorem numeral_zerosAt (h : zerosAt f p 32 ≤ 31) :
    2 ^ (31 - zerosAt f p 32) ≤ numeral (fun i => f (p + i)) 32 ∧
      numeral (fun i => f (p + i)) 32 < 2 ^ (32 - zerosAt f p 32) := by
  obtain ⟨hzeros, hone⟩ := zerosAt_spec f p 32
  generalize zerosAt f p 32 = z at h hzeros hone ⊢
  have hpre : numeral (fun i => f (p + i)) (z + 1) = 1 := by
    show 2 * numeral (fun i => f (p + i)) z + (f (p + z)).toNat = 1
    rw [numeral_false hzeros, hone (by omega)]
    rfl
  have hsplit := numeral_add (fun i => f (p + i)) (z + 1) (31 - z)
  rw [show z + 1 + (31 - z) = 32 by omega, hpre, Nat.one_mul] at hsplit
  have hrest := numeral_lt (fun i => f (p + (z + 1 + i))) (31 - z)
  rw [hsplit, show 32 - z = 31 - z + 1 by omega, Nat.pow_succ]
  omega

theorem lzcntw_eq {a : BitVec 32} (ha : a.toNat = numeral (fun i => f (p + i)) 32)
    (h : zerosAt f p 32 ≤ 31) : lzcntw a = zerosAt f p 32 := by
  obtain ⟨hlow, hhigh⟩ := numeral_zerosAt h
  rw [← ha] at hlow hhigh
  have hne : a ≠ 0 := by
    intro hz
    rw [hz] at hlow
    exact absurd hlow (Nat.not_le.mpr (Nat.two_pow_pos _))
  obtain ⟨hle, hlow', hhigh'⟩ := lzcntw_spec hne
  have hleft := (Nat.pow_lt_pow_iff_right (by decide : 1 < 2)).mp (Nat.lt_of_le_of_lt hlow hhigh')
  have hright := (Nat.pow_lt_pow_iff_right (by decide : 1 < 2)).mp (Nat.lt_of_le_of_lt hlow' hhigh)
  omega

end Codes

namespace BitStream

variable (m : Nat → BitVec 8)

/-- `GetUe`. -/
def getUe (s : BitStream) : BitVec 32 × BitStream :=
  let (shown, s) := s.showBits m 32
  let leadingZeros := lzcntw shown
  let s := s.flush (leadingZeros + 1)
  if leadingZeros ≠ 0 then
    let (value, s) := s.get m leadingZeros
    (1#32 <<< leadingZeros - 1 + value, s)
  else (0, s)

/-- What `GetSe` makes of a code. -/
def codeToSigned (code : BitVec 32) : BitVec 32 :=
  if code &&& 1 ≠ 0 then code >>> 1 + 1 else -(code >>> 1)

/-- `GetSe`. -/
def getSe (s : BitStream) : BitVec 32 × BitStream :=
  let (code, s) := s.getUe m
  (codeToSigned code, s)

variable {m} {s : BitStream} {p n : Nat}

theorem one_shift_toNat {z : Nat} (h : z ≤ 31) : (1#32 <<< z - 1).toNat = 2 ^ z - 1 := by
  have hall : ∀ z ≤ 31, (1#32 <<< z - 1).toNat = 2 ^ z - 1 := by decide
  exact hall z h

theorem At.getUe (h : s.At m p) (hz : zerosAt (byteBit m) p 32 ≤ 31) :
    (s.getUe m).1.toNat = codeAt (byteBit m) p ∧
      (s.getUe m).2.At m (p + codeLength (byteBit m) p) := by
  obtain ⟨hshown, hat, henough, -⟩ := h.showBits (n := 32) (Nat.le_refl 32)
  have hcount := lzcntw_eq hshown hz
  have hflush := hat.flush (n := zerosAt (byteBit m) p 32 + 1) (by omega)
  obtain ⟨hvalue, hget, -⟩ := hflush.get (n := zerosAt (byteBit m) p 32) (by omega)
  unfold BitStream.getUe
  dsimp only
  rw [hcount]
  unfold codeAt codeLength
  split
  · refine ⟨?_, ?_⟩
    · have hlt := numeral_lt (fun i => byteBit m (p + zerosAt (byteBit m) p 32 + 1 + i))
        (zerosAt (byteBit m) p 32)
      have hpow : 2 ^ zerosAt (byteBit m) p 32 ≤ 2 ^ 31 := Nat.pow_le_pow_right (by decide) hz
      rw [BitVec.toNat_add, one_shift_toNat hz, hvalue]
      rw [← Nat.add_assoc]
      exact Nat.mod_eq_of_lt (by omega)
    · rw [show p + (2 * zerosAt (byteBit m) p 32 + 1) =
        p + (zerosAt (byteBit m) p 32 + 1) + zerosAt (byteBit m) p 32 by omega]
      exact hget
  · next hzero =>
    have hzero := Decidable.not_not.mp hzero
    rw [hzero] at hflush ⊢
    exact ⟨rfl, hflush⟩

theorem codeAt_lt {f : Nat → Bool} (hz : zerosAt f p 32 ≤ 31) : codeAt f p < 2 ^ 32 - 1 := by
  have hlt := numeral_lt (fun i => f (p + zerosAt f p 32 + 1 + i)) (zerosAt f p 32)
  have hpow : 2 ^ zerosAt f p 32 ≤ 2 ^ 31 := Nat.pow_le_pow_right (by decide) hz
  unfold codeAt
  omega

theorem codeToSigned_toInt {code : BitVec 32} (h : code.toNat < 2 ^ 32 - 1) :
    (codeToSigned code).toInt = signedCode code.toNat := by
  have hodd : code &&& 1 ≠ 0 ↔ code.toNat % 2 = 1 := by
    rw [ne_eq, ← BitVec.toNat_inj, BitVec.toNat_and]
    show ¬code.toNat &&& 1 = 0 ↔ _
    rw [Nat.and_one_is_mod]
    omega
  have hhalf : (code >>> 1).toNat = code.toNat / 2 := by
    rw [BitVec.toNat_ushiftRight, Nat.shiftRight_eq_div_pow]
  have hone : (1 : BitVec 32).toNat = 1 := rfl
  unfold codeToSigned signedCode
  by_cases hcode : code.toNat % 2 = 1
  · rw [if_pos (hodd.mpr hcode), if_pos hcode]
    have hsum : (code >>> 1 + 1).toNat = code.toNat / 2 + 1 := by
      rw [BitVec.toNat_add, hhalf, hone]
      omega
    rw [BitVec.toInt_eq_toNat_of_lt (by omega), hsum]
    rfl
  · rw [if_neg fun hne => hcode (hodd.mp hne), if_neg hcode]
    have hint : (code >>> 1).toInt = (code.toNat / 2 : Nat) := by
      rw [BitVec.toInt_eq_toNat_of_lt (by omega), hhalf]
    rw [BitVec.toInt_neg, hint]
    exact Int.bmod_eq_of_le (by omega) (by omega)

theorem At.getSe (h : s.At m p) (hz : zerosAt (byteBit m) p 32 ≤ 31) :
    (s.getSe m).1.toInt = signedCode (codeAt (byteBit m) p) ∧
      (s.getSe m).2.At m (p + codeLength (byteBit m) p) := by
  obtain ⟨hcode, hat⟩ := h.getUe hz
  refine ⟨?_, hat⟩
  unfold BitStream.getSe
  dsimp only
  rw [codeToSigned_toInt (by rw [hcode]; exact codeAt_lt hz), hcode]

end BitStream

/-! ## Signed fields -/

/-- A field of `n` bits with its top bit for a sign. -/
def twosComplement (n value : Nat) : Int := if 2 ^ (n - 1) ≤ value then (value : Int) - 2 ^ n else value

theorem or_ones {i x : Nat} (hi : i ≤ 30) (hx : 2 ^ i ≤ x) (hx' : x < 2 * 2 ^ i) :
    x ||| (0xffffffff#32 <<< i).toNat = x + (2 ^ 32 - 2 * 2 ^ i) := by
  have hones : ∀ i ≤ 30, (0xffffffff#32 <<< i).toNat = (2 ^ (32 - i) - 1) <<< i ∧
      1 ||| (2 ^ (32 - i) - 1) = 2 ^ (32 - i) - 1 ∧ (2 ^ (32 - i) - 1) <<< i = 2 ^ 32 - 2 ^ i := by
    decide
  obtain ⟨hmask, hone, hvalue⟩ := hones i hi
  obtain ⟨r, rfl⟩ : ∃ r, x = 1 <<< i + r := ⟨x - 2 ^ i, by rw [Nat.one_shiftLeft]; omega⟩
  rw [Nat.one_shiftLeft] at hx'
  have hr : r < 2 ^ i := by omega
  have hpow : 2 ^ i ≤ 2 ^ 30 := Nat.pow_le_pow_right (by decide) hi
  rw [hmask, Nat.shiftLeft_add_eq_or_of_lt hr, Nat.or_assoc, Nat.or_comm r, ← Nat.or_assoc,
    ← Nat.shiftLeft_or_distrib, hone, ← Nat.shiftLeft_add_eq_or_of_lt hr,
    ← Nat.shiftLeft_add_eq_or_of_lt hr, hvalue, Nat.one_shiftLeft]
  omega

theorem signed_toInt {n : Nat} {value : BitVec 32} (hn : 2 ≤ n) (hn' : n ≤ 32)
    (hvalue : value.toNat < 2 ^ n) :
    (BitStream.signed n value).toInt = twosComplement n value.toNat := by
  unfold BitStream.signed twosComplement
  by_cases h32 : n = 32
  · obtain rfl := h32
    rw [if_neg (by omega), BitVec.toInt_eq_toNat_cond]
    split <;> split <;> omega
  · have hpow : 2 ^ n = 2 * 2 ^ (n - 1) := by
      rw [← Nat.pow_succ', Nat.succ_eq_add_one, Nat.sub_add_cancel (by omega)]
    have hpow' : 2 ^ (n - 1) ≤ 2 ^ 30 := Nat.pow_le_pow_right (by decide) (by omega)
    have hbit : ∀ n, 2 ≤ n → n ≤ 31 → (1#32 <<< (n - 1)).toNat = 2 ^ (n - 1) := by decide
    have hcond : 1#32 <<< (n - 1) ≤ value ↔ 2 ^ (n - 1) ≤ value.toNat := by
      rw [BitVec.le_def, hbit n hn (by omega)]
    by_cases hsign : 2 ^ (n - 1) ≤ value.toNat
    · rw [if_pos ⟨hn, by omega, hcond.mpr hsign⟩, if_pos hsign]
      have hor : (value ||| 0xffffffff#32 <<< (n - 1)).toNat =
          value.toNat + (2 ^ 32 - 2 ^ n) := by
        rw [BitVec.toNat_or, or_ones (by omega) hsign (by omega), hpow]
      have hcast : (2 : Int) ^ n = (2 ^ n : Nat) := by push_cast; rfl
      rw [BitVec.toInt_eq_toNat_cond, hor, if_neg (by omega), hcast]
      omega
    · rw [if_neg fun h => hsign (hcond.mp h.2.2), if_neg hsign]
      exact BitVec.toInt_eq_toNat_of_lt (by omega)

end Duckbox.FrameParser
