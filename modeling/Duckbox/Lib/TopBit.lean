import Mathlib.Algebra.Order.Ring.Int
import Mathlib.Data.Nat.Size

/-!
# The place of the top bit

A word's top bit is found by halving: with the bit known to be among `2 * k`, a mask
of the upper `k` of them tells which half it is in (`topBit_step`). The mask of
the bits from `k` on clears the others (`and_mask`). The word may be shifted down
to the mask, or a mask of every second group of `k` may be laid over the word with
the lower half cleared as it goes (`topBit_masked`).
-/

namespace Duckbox.Lib

/-- Bits from `k` on, `m` of them. -/
theorem and_mask {y k m : Nat} (h : y < 2 ^ (m + k)) :
    y &&& (2 ^ m - 1) * 2 ^ k = y / 2 ^ k * 2 ^ k := by
  rw [← Nat.shiftLeft_eq, ← Nat.shiftLeft_eq, ← Nat.shiftRight_eq_div_pow]
  apply Nat.eq_of_testBit_eq
  intro i
  rw [Nat.testBit_and, Nat.testBit_shiftLeft, Nat.testBit_shiftLeft, Nat.testBit_shiftRight,
    Nat.testBit_two_pow_sub_one]
  by_cases hk : i ≥ k
  · rw [show k + (i - k) = i by omega]
    by_cases hm : i - k < m
    · simp [hk, hm]
    · have hhigh : y.testBit i = false :=
        Nat.testBit_lt_two_pow (Nat.lt_of_lt_of_le h (Nat.pow_le_pow_right (by decide) (by omega)))
      simp [hhigh]
  · simp [hk]

/-- The top bit of `x` is bit `s` or one of the `k - 1` after it. -/
def TopBitAt (x s k : Nat) : Prop := 2 ^ s ≤ x ∧ x < 2 ^ (s + k)

theorem topBitAt_size {x s : Nat} (h : TopBitAt x s 1) : x.size = s + 1 := by
  apply Nat.le_antisymm
  · exact Nat.size_le.mpr h.2
  · exact Nat.lt_size.mpr h.1

/-- One halving. -/
theorem topBit_step {x m : BitVec 64} {s k : Nat} (hmask : m.toNat = (2 ^ k - 1) * 2 ^ k)
    (h : TopBitAt x.toNat s (2 * k)) :
    TopBitAt x.toNat (s + if x >>> s &&& m ≠ 0 then k else 0) k := by
  have hs := Nat.two_pow_pos s
  have hlt : x.toNat / 2 ^ s < 2 ^ (k + k) := by
    rw [Nat.div_lt_iff_lt_mul hs, ← Nat.pow_add, Nat.add_comm, ← Nat.two_mul]
    exact h.2
  have hand : (x >>> s &&& m).toNat = x.toNat / 2 ^ s / 2 ^ k * 2 ^ k := by
    rw [BitVec.toNat_and, BitVec.toNat_ushiftRight, Nat.shiftRight_eq_div_pow, hmask, and_mask hlt]
  have hzero : x >>> s &&& m = 0 ↔ x.toNat < 2 ^ (s + k) := by
    rw [← BitVec.toNat_inj, hand]
    show _ = 0 ↔ _
    rw [Nat.mul_eq_zero, Nat.div_div_eq_div_mul, ← Nat.pow_add, Nat.div_eq_zero_iff]
    have hpos := Nat.two_pow_pos k
    have hpos' := Nat.two_pow_pos (s + k)
    constructor
    · intro hz
      rcases hz with (hz | hz) | hz
      · omega
      · exact hz
      · omega
    · intro hz
      exact .inl (.inr hz)
  split
  · next hne =>
    refine ⟨Nat.le_of_not_lt fun hlt' => hne (hzero.mpr hlt'), ?_⟩
    rw [Nat.add_assoc, ← Nat.two_mul]
    exact h.2
  · next heq => exact ⟨h.1, hzero.mp (Decidable.not_not.mp heq)⟩

section Masked

variable {w : Nat} {x y mask : BitVec w} {s k : Nat}

/-- A mask of the upper half of the `2 * k` bits from `s` on. -/
def UpperHalf (mask : BitVec w) (s k : Nat) : Prop :=
  ∀ i, i < 2 * k → mask.getLsbD (s + i) = decide (k ≤ i)

/-- The bits below `s` are cleared, and the top bit is one of the `k` from `s` on. -/
structure Cleared (x y : BitVec w) (s k : Nat) : Prop where
  bits : y.toNat = x.toNat / 2 ^ s * 2 ^ s
  top : TopBitAt x.toNat s k

theorem and_upperHalf (hmask : UpperHalf mask s k) (h : Cleared x y s (2 * k)) :
    (y &&& mask).toNat = x.toNat / 2 ^ (s + k) * 2 ^ (s + k) := by
  have hlt : x.toNat < 2 ^ (s + 2 * k) := h.top.2
  rw [BitVec.toNat_and, h.bits]
  apply Nat.eq_of_testBit_eq
  intro i
  rw [Nat.testBit_and, Nat.testBit_mul_two_pow, Nat.testBit_mul_two_pow, Nat.testBit_div_two_pow,
    Nat.testBit_div_two_pow]
  by_cases hs : s ≤ i
  · rw [Nat.sub_add_cancel hs]
    by_cases hk : i < s + 2 * k
    · have hbit : mask.toNat.testBit i = decide (s + k ≤ i) := by
        have := hmask (i - s) (by omega)
        rw [Nat.add_sub_cancel' hs] at this
        rw [BitVec.testBit_toNat, this]
        exact decide_eq_decide.mpr (by omega)
      rw [hbit]
      by_cases hsk : s + k ≤ i
      · rw [Nat.sub_add_cancel hsk]
        simp [hs, hsk]
      · simp [hsk]
    · have hhigh : x.toNat.testBit i = false :=
        Nat.testBit_lt_two_pow (Nat.lt_of_lt_of_le hlt (Nat.pow_le_pow_right (by decide) (by omega)))
      rw [hhigh, show i - (s + k) + (s + k) = i by omega, hhigh]
      simp
  · simp [hs, show ¬s + k ≤ i by omega]

/-- One halving with the mask laid over the word. -/
theorem topBit_masked (hmask : UpperHalf mask s k) (h : Cleared x y s (2 * k)) :
    if y &&& mask ≠ 0 then Cleared x (y &&& mask) (s + k) k else Cleared x y s k := by
  have hand := and_upperHalf hmask h
  have hpos := Nat.two_pow_pos (s + k)
  obtain ⟨hlow, hhigh⟩ := h.top
  split
  · next hne =>
    refine ⟨hand, ?_, ?_⟩
    · apply Nat.le_of_not_lt
      intro hlt
      rw [Nat.div_eq_of_lt hlt, Nat.zero_mul] at hand
      exact hne (BitVec.eq_of_toNat_eq hand)
    · rw [Nat.add_assoc, ← Nat.two_mul]
      exact hhigh
  · next heq =>
    refine ⟨h.bits, hlow, ?_⟩
    rw [Decidable.not_not.mp heq] at hand
    have hquot : x.toNat / 2 ^ (s + k) = 0 :=
      (Nat.mul_eq_zero.mp hand.symm).resolve_right (Nat.ne_of_gt hpos)
    exact (Nat.div_eq_zero_iff.mp hquot).resolve_left (Nat.ne_of_gt hpos)

end Masked

end Duckbox.Lib
