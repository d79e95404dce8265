import Duckbox.ClassDefinitions.Rational
import Duckbox.Lib.TopBit
import Mathlib.Data.Nat.Prime.Basic

/-!
# Restriction to 32 bits

`Restrict` shifts the numerator and the denominator down together, by as many
bits as the wider of the two sticks out over 32 (`excess`). It rounds as it
shifts, and that is where it can go wrong: a carry takes a number of 32 ones to
`2 ^ 32`, and a denominator that is small beside the numerator is rounded, or
masked, to 0.
-/

namespace Duckbox.ClassDefinitions

open Lib

namespace Rational

/-- How many bits of the wider of the two stick out over 32. -/
def excess (n d : Nat) : Nat := Nat.size (max n d) - 32

/-! ## The shift -/

theorem shiftOf_topBit {tmp : BitVec 64} (hne : tmp ≠ 0) (hlt : tmp.toNat < 2 ^ 32) :
    TopBitAt tmp.toNat (shiftOf tmp) 1 := by
  have hpos : 0 < tmp.toNat := Nat.pos_of_ne_zero fun hz => hne (BitVec.eq_of_toNat_eq hz)
  have h32 : TopBitAt tmp.toNat 0 (2 * 16) := ⟨hpos, hlt⟩
  have h16 := topBit_step (m := 0xffff0000) (by decide) h32
  have h8 := topBit_step (k := 8) (m := 0x0000ff00) (by decide) h16
  have h4 := topBit_step (k := 4) (m := 0x000000f0) (by decide) h8
  have h2 := topBit_step (k := 2) (m := 0x0000000c) (by decide) h4
  have h1 := topBit_step (k := 1) (m := 0x00000002) (by decide) h2
  rw [BitVec.ushiftRight_zero, Nat.zero_add] at h1
  exact h1

section Excess

variable {n d : BitVec 64}

theorem sticksOut_toNat : ((n ||| d) >>> 32).toNat = (n.toNat ||| d.toNat) / 2 ^ 32 := by
  rw [BitVec.toNat_ushiftRight, BitVec.toNat_or, Nat.shiftRight_eq_div_pow]

theorem or_lt {k : Nat} : n.toNat ||| d.toNat < 2 ^ k ↔ max n.toNat d.toNat < 2 ^ k := by
  constructor
  · intro h
    exact max_lt (Nat.lt_of_le_of_lt Nat.left_le_or h) (Nat.lt_of_le_of_lt Nat.right_le_or h)
  · intro h
    exact Nat.or_lt_two_pow (Nat.lt_of_le_of_lt (Nat.le_max_left _ _) h)
      (Nat.lt_of_le_of_lt (Nat.le_max_right _ _) h)

theorem excess_zero (h : (n ||| d) >>> 32 = 0) : max n.toNat d.toNat < 2 ^ 32 := by
  have hz := congrArg BitVec.toNat h
  rw [sticksOut_toNat] at hz
  exact or_lt.mp ((Nat.div_eq_zero_iff.mp hz).resolve_left (by decide))

theorem excess_succ (h : (n ||| d) >>> 32 ≠ 0) :
    excess n.toNat d.toNat = shiftOf ((n ||| d) >>> 32) + 1 ∧
      max n.toNat d.toNat < 2 ^ (32 + excess n.toNat d.toNat) ∧ excess n.toNat d.toNat ≤ 32 := by
  have hlt : ((n ||| d) >>> 32).toNat < 2 ^ 32 := by
    rw [sticksOut_toNat]
    exact Nat.div_lt_of_lt_mul (Nat.or_lt_two_pow n.isLt d.isLt)
  obtain ⟨hlow, hhigh⟩ := shiftOf_topBit h hlt
  generalize hs : shiftOf ((n ||| d) >>> 32) = s at hlow hhigh ⊢
  rw [sticksOut_toNat] at hlow hhigh
  have hlt' : max n.toNat d.toNat < 2 ^ (32 + (s + 1)) := by
    rw [← or_lt, Nat.pow_add, Nat.mul_comm]
    exact (Nat.div_lt_iff_lt_mul (by decide)).mp hhigh
  have hge : ¬max n.toNat d.toNat < 2 ^ (32 + s) := by
    rw [← or_lt, Nat.not_lt, Nat.pow_add, Nat.mul_comm]
    exact (Nat.le_div_iff_mul_le (by decide)).mp hlow
  have hsize : Nat.size (max n.toNat d.toNat) = 32 + s + 1 :=
    topBitAt_size ⟨Nat.le_of_not_lt hge, hlt'⟩
  have hexcess : excess n.toNat d.toNat = s + 1 := by
    unfold excess
    omega
  have h64 : Nat.size (max n.toNat d.toNat) ≤ 64 := Nat.size_le.mpr (max_lt n.isLt d.isLt)
  refine ⟨hexcess, ?_, by omega⟩
  rw [hexcess]
  exact hlt'

end Excess

/-! ## What is shifted -/

/-- `x` in units of `2 ^ e`, to the nearest. -/
def rounded (x e : Nat) : Nat := (x + 2 ^ (e - 1)) / 2 ^ e

section Half

variable {s : Nat} {x : BitVec 64}

theorem one_shift_toNat (hs : s < 64) : (1#64 <<< s).toNat = 2 ^ s := by
  have hpow : 2 ^ s < 2 ^ 64 := Nat.pow_lt_pow_right (by decide) hs
  rw [BitVec.toNat_shiftLeft, Nat.shiftLeft_eq]
  show 1 * 2 ^ s % 2 ^ 64 = 2 ^ s
  rw [Nat.one_mul, Nat.mod_eq_of_lt hpow]

theorem half_toNat (hs : s < 31) : (extend (1#32 <<< s)).toNat = 2 ^ s := by
  have hall : ∀ s < 31, (extend (1#32 <<< s)).toNat = 2 ^ s := by decide
  exact hall s hs

theorem rounded_toNat (hs : s < 31) (hx : x.toNat < 2 ^ (33 + s)) :
    ((x + extend (1#32 <<< s)) >>> (s + 1)).toNat = rounded x.toNat (s + 1) := by
  have hpow : 2 ^ (33 + s) ≤ 2 ^ 63 := Nat.pow_le_pow_right (by decide) (by omega)
  have hpow' : 2 ^ s ≤ 2 ^ 30 := Nat.pow_le_pow_right (by decide) (by omega)
  rw [BitVec.toNat_ushiftRight, BitVec.toNat_add, half_toNat hs, Nat.shiftRight_eq_div_pow,
    Nat.mod_eq_of_lt (by omega)]
  rfl

theorem rounded_le {x e : Nat} (he : 1 ≤ e) (hx : x < 2 ^ (32 + e)) : rounded x e ≤ 2 ^ 32 := by
  have hhalf : 2 ^ (e - 1) ≤ 2 ^ e := Nat.pow_le_pow_right (by decide) (by omega)
  unfold rounded
  rw [← Nat.lt_add_one_iff, Nat.div_lt_iff_lt_mul (Nat.two_pow_pos e), Nat.add_mul, Nat.one_mul,
    ← Nat.pow_add]
  omega

theorem rounded_top (x : BitVec 64) : ((x + extend (1#32 <<< 31)) >>> 32).toNat =
    if x.toNat < 2 ^ 31 then 2 ^ 32 - 1 else (x.toNat - 2 ^ 31) / 2 ^ 32 := by
  have hhalf : (extend (1#32 <<< 31)).toNat = 2 ^ 64 - 2 ^ 31 := by decide
  have hlt := x.isLt
  rw [BitVec.toNat_ushiftRight, BitVec.toNat_add, hhalf, Nat.shiftRight_eq_div_pow]
  split <;> omega

theorem masked_toNat (hs : s < 32) (hx : x.toNat < 2 ^ 32) :
    (x &&& (0xffffffff#32 <<< (s + 1)).setWidth 64).toNat =
      x.toNat / 2 ^ (s + 1) * 2 ^ (s + 1) := by
  have hmask : ∀ s < 32, ((0xffffffff#32 <<< (s + 1)).setWidth 64).toNat =
      (2 ^ (31 - s) - 1) * 2 ^ (s + 1) := by decide
  rw [BitVec.toNat_and, hmask s hs, and_mask]
  rw [show 31 - s + (s + 1) = 32 by omega]
  exact hx

theorem rounded_mul {q e : Nat} (he : 1 ≤ e) : rounded (q * 2 ^ e) e = q := by
  have hhalf : 2 ^ (e - 1) < 2 ^ e := Nat.pow_lt_pow_right (by decide) (by omega)
  unfold rounded
  rw [Nat.add_comm, Nat.add_mul_div_right _ _ (Nat.two_pow_pos e), Nat.div_eq_of_lt hhalf,
    Nat.zero_add]

end Half

section ShiftDown

variable {a : Rational}

theorem shiftDown_none (h : (a.numerator ||| a.denominator) >>> 32 = 0) : a.shiftDown = a :=
  if_neg fun hne => hne h

variable {s : Nat} (h : (a.numerator ||| a.denominator) >>> 32 ≠ 0)
  (hs : shiftOf ((a.numerator ||| a.denominator) >>> 32) = s)

include h hs

theorem shiftDown_small (hsmall : a.denominator < 1#64 <<< (31 - s)) :
    a.shiftDown =
      let newDenominator := a.denominator &&& (0xffffffff#32 <<< (s + 1)).setWidth 64
      { a with
        numerator :=
          (a.numerator * newDenominator / a.denominator + extend (1#32 <<< s)) >>> (s + 1)
        denominator := (newDenominator + extend (1#32 <<< s)) >>> (s + 1) } := by
  unfold shiftDown
  dsimp only
  rw [if_pos h, hs, if_pos hsmall]

theorem shiftDown_large (hlarge : ¬a.denominator < 1#64 <<< (31 - s)) :
    a.shiftDown =
      { a with
        numerator := (a.numerator + extend (1#32 <<< s)) >>> (s + 1)
        denominator := (a.denominator + extend (1#32 <<< s)) >>> (s + 1) } := by
  unfold shiftDown
  dsimp only
  rw [if_pos h, hs, if_neg hlarge]

end ShiftDown

/-! ## The conditions -/

/-- What `Restrict` is for: a number of 32 bits over another that is not 0. -/
def Safe (a : Rational) : Prop :=
  a.denominator ≠ 0 ∧ a.numerator.toNat < 2 ^ 32 ∧ a.denominator.toNat < 2 ^ 32

instance (a : Rational) : Decidable a.Safe := inferInstanceAs (Decidable (_ ∧ _))

section TakeTens

variable {a : Rational}

/-- A ten can be taken off both. -/
def HasTen (a : Rational) : Prop := 10 ∣ a.numerator.toNat ∧ 10 ∣ a.denominator.toNat

/-- One ten less. -/
def byTen (a : Rational) : Rational :=
  { a with numerator := a.numerator / 10, denominator := a.denominator / 10 }

theorem hasTen_iff :
    10 * (a.numerator / 10) = a.numerator ∧ 10 * (a.denominator / 10) = a.denominator ↔ a.HasTen :=
  and_congr (exact_iff_dvd (r := 10)) (exact_iff_dvd (r := 10))

theorem takeTens_succ (k : Nat) (h : a.HasTen) : takeTens (k + 1) a = takeTens k a.byTen :=
  if_pos (hasTen_iff.mpr h)

theorem takeTens_stop (k : Nat) (h : ¬a.HasTen) : takeTens k a = a := by
  cases k with
  | zero => rfl
  | succ k => exact if_neg fun hten => h (hasTen_iff.mp hten)

theorem byTen_denominator (hne : a.denominator ≠ 0) (h : a.HasTen) : a.byTen.denominator ≠ 0 := by
  intro hz
  have hzero : a.denominator.toNat / 10 = 0 := congrArg BitVec.toNat hz
  have hmul := Nat.div_mul_cancel h.2
  rw [hzero, Nat.zero_mul] at hmul
  exact hne (BitVec.eq_of_toNat_eq hmul.symm)

theorem takeTens_safe (k : Nat) (h : a.Safe) : (takeTens k a).Safe := by
  induction k generalizing a with
  | zero => exact h
  | succ k ih =>
    by_cases hten : a.HasTen
    · rw [takeTens_succ k hten]
      apply ih
      refine ⟨byTen_denominator h.1 hten, ?_, ?_⟩
      · exact Nat.lt_of_le_of_lt (Nat.div_le_self _ 10) h.2.1
      · exact Nat.lt_of_le_of_lt (Nat.div_le_self _ 10) h.2.2
    · rw [takeTens_stop _ hten]
      exact h

end TakeTens

/-- Of two numbers other than 1, one divides the other. -/
def OneDivides (n d : Nat) : Prop := n ≠ 1 ∧ d ≠ 1 ∧ (d ∣ n ∨ n ∣ d)

section Simplify

variable {a : Rational}

theorem ne_one_iff {x : BitVec 64} : x ≠ 1 ↔ x.toNat ≠ 1 := not_congr BitVec.toNat_inj.symm

theorem ne_zero_iff {x : BitVec 64} : x ≠ 0 ↔ x.toNat ≠ 0 := not_congr BitVec.toNat_inj.symm

theorem quotient_lt {x y : BitVec 64} (hx : x.toNat ≤ 2 ^ 32) (hy : 2 ≤ y.toNat) :
    (x / y).toNat < 2 ^ 32 := by
  rw [BitVec.toNat_udiv]
  exact Nat.lt_of_le_of_lt (Nat.div_le_div hx hy (by decide)) (by decide)

/-- With `2 ^ 32` left by a carry, one of the two has to divide the other. -/
theorem simplify_safe (hn : a.numerator.toNat ≤ 2 ^ 32) (hd : a.denominator.toNat ≤ 2 ^ 32) :
    a.simplify.Safe ↔ a.denominator.toNat ≠ 0 ∧
      (max a.numerator.toNat a.denominator.toNat < 2 ^ 32 ∨
        OneDivides a.numerator.toNat a.denominator.toNat) := by
  unfold simplify
  rw [max_lt_iff]
  split
  · next hcond =>
    rw [ne_one_iff, ne_one_iff, ne_zero_iff] at hcond
    obtain ⟨hd1, hn1, hd0⟩ := hcond
    split
    · next hexact =>
      have hdvd := exact_iff_dvd.mp hexact
      have hone : (1 : BitVec 64) ≠ 0 ∧ (1 : BitVec 64).toNat < 2 ^ 32 := by decide
      exact iff_of_true ⟨hone.1, quotient_lt hn (by omega), hone.2⟩ ⟨hd0, .inr ⟨hn1, hd1, .inl hdvd⟩⟩
    · next hinexact =>
      have hn0 : a.numerator.toNat ≠ 0 := fun hz =>
        hinexact (exact_iff_dvd.mpr (hz ▸ Nat.dvd_zero _))
      split
      · next hexact =>
        have hdvd := exact_iff_dvd.mp hexact
        have hone : (a.numerator / a.numerator).toNat < 2 ^ 32 := by
          rw [BitVec.toNat_udiv, Nat.div_self (Nat.pos_of_ne_zero hn0)]
          decide
        have hquot : a.denominator / a.numerator ≠ 0 := by
          rw [ne_zero_iff, BitVec.toNat_udiv]
          exact Nat.ne_of_gt (Nat.div_pos (Nat.le_of_dvd (Nat.pos_of_ne_zero hd0) hdvd)
            (Nat.pos_of_ne_zero hn0))
        exact iff_of_true ⟨hquot, hone, quotient_lt hd (by omega)⟩ ⟨hd0, .inr ⟨hn1, hd1, .inr hdvd⟩⟩
      · next hinexact' =>
        have hnone : ¬OneDivides a.numerator.toNat a.denominator.toNat := by
          intro h
          rcases h.2.2 with hdvd | hdvd
          · exact hinexact (exact_iff_dvd.mpr hdvd)
          · exact hinexact' (exact_iff_dvd.mpr hdvd)
        constructor
        · intro hsafe
          refine ⟨hd0, .inl ?_⟩
          by_cases hten : a.HasTen
          · -- a multiple of ten is not `2 ^ 32`
            obtain ⟨⟨x, hx⟩, y, hy⟩ := hten
            omega
          · rw [takeTens_stop _ hten] at hsafe
            exact hsafe.2
        · intro h
          exact takeTens_safe _ ⟨ne_zero_iff.mpr hd0, h.2.resolve_right hnone⟩
  · next hcond =>
    rw [ne_one_iff, ne_one_iff, ne_zero_iff] at hcond
    constructor
    · intro hsafe
      exact ⟨ne_zero_iff.mp hsafe.1, .inl hsafe.2⟩
    · intro h
      refine ⟨ne_zero_iff.mpr h.1, h.2.resolve_right fun hdiv => hcond ⟨hdiv.2.1, hdiv.1, h.1⟩⟩

end Simplify

/-- `2 ^ 1` to `2 ^ 32`. -/
def PowerOfTwo (m : Nat) : Prop := ∃ j, 1 ≤ j ∧ j ≤ 32 ∧ m = 2 ^ j

theorem powerOfTwo_iff {m : Nat} : PowerOfTwo m ↔ m ≠ 1 ∧ m ∣ 2 ^ 32 := by
  rw [Nat.dvd_prime_pow Nat.prime_two]
  constructor
  · intro ⟨j, hj, hle, hm⟩
    refine ⟨?_, j, hle, hm⟩
    rw [hm]
    exact Nat.ne_of_gt (Nat.one_lt_two_pow (by omega))
  · intro ⟨hne, j, hle, hm⟩
    refine ⟨j, ?_, hle, hm⟩
    by_cases hj : j = 0
    · rw [hj] at hm
      exact absurd hm hne
    · omega

theorem carried_iff {n d : Nat} (hn : n ≤ 2 ^ 32) (hd : d ≤ 2 ^ 32) (hd0 : d ≠ 0) :
    (max n d < 2 ^ 32 ∨ OneDivides n d) ↔
      (2 ^ 32 ≤ n → PowerOfTwo d) ∧ (2 ^ 32 ≤ d → n = 0 ∨ PowerOfTwo n) := by
  have htop {x : Nat} (hx : x ≤ 2 ^ 32) (hx0 : x ≠ 0) (h : 2 ^ 32 ∣ x) : x ∣ 2 ^ 32 := by
    have hle := Nat.le_of_dvd (Nat.pos_of_ne_zero hx0) h
    rw [Nat.le_antisymm hx hle]
  rw [powerOfTwo_iff, powerOfTwo_iff, max_lt_iff]
  constructor
  · intro h
    constructor
    · intro hn'
      obtain rfl : n = 2 ^ 32 := Nat.le_antisymm hn hn'
      obtain ⟨-, hne, hdvd⟩ := h.resolve_left (fun hlt => Nat.lt_irrefl _ hlt.1)
      exact ⟨hne, hdvd.elim id (htop hd hd0)⟩
    · intro hd'
      obtain rfl : d = 2 ^ 32 := Nat.le_antisymm hd hd'
      obtain ⟨hne, -, hdvd⟩ := h.resolve_left (fun hlt => Nat.lt_irrefl _ hlt.2)
      by_cases hn0 : n = 0
      · exact .inl hn0
      · exact .inr ⟨hne, hdvd.elim (htop hn hn0) id⟩
  · intro ⟨hleft, hright⟩
    by_cases hn' : 2 ^ 32 ≤ n
    · obtain rfl : n = 2 ^ 32 := Nat.le_antisymm hn hn'
      obtain ⟨hne, hdvd⟩ := hleft hn'
      exact .inr ⟨by decide, hne, .inl hdvd⟩
    · by_cases hd' : 2 ^ 32 ≤ d
      · obtain rfl : d = 2 ^ 32 := Nat.le_antisymm hd hd'
        rcases hright hd' with hn0 | ⟨hne, hdvd⟩
        · exact .inr ⟨by omega, by decide, .inl (hn0 ▸ Nat.dvd_zero _)⟩
        · exact .inr ⟨hne, by decide, .inr hdvd⟩
      · exact .inl ⟨by omega, by omega⟩

/-! ## When the result is safe -/

/-- `x` is nearest to `m` units of `2 ^ e`, halves going up. -/
def RoundsTo (x e m : Nat) : Prop :=
  m * 2 ^ e ≤ x + 2 ^ (e - 1) ∧ x + 2 ^ (e - 1) < (m + 1) * 2 ^ e

/-- A denominator under `2 ^ (32 - e)` has a bit the mask leaves; and if the
numerator, scaled as much, rounds to `2 ^ 32`, what the mask leaves is a power of
two. -/
def ScaledFits (n d e : Nat) : Prop :=
  2 ^ e ≤ d ∧
    ((2 ^ (32 + e) - 2 ^ (e - 1)) * d ≤ n * (d / 2 ^ e * 2 ^ e) →
      ∃ j, 1 ≤ j ∧ j ≤ 32 ∧ 2 ^ j * 2 ^ e ≤ d ∧ d < (2 ^ j + 1) * 2 ^ e)

/-- A larger one is not rounded to 0; and if one of the two is rounded to `2 ^ 32`,
the other is rounded to a power of two, or the numerator to 0. -/
def ShiftedFits (n d e : Nat) : Prop :=
  2 ^ (e - 1) ≤ d ∧
    (2 ^ (32 + e) ≤ n + 2 ^ (e - 1) → ∃ j, 1 ≤ j ∧ j ≤ 32 ∧ RoundsTo d e (2 ^ j)) ∧
    (2 ^ (32 + e) ≤ d + 2 ^ (e - 1) →
      RoundsTo n e 0 ∨ ∃ j, 1 ≤ j ∧ j ≤ 32 ∧ RoundsTo n e (2 ^ j))

/-- With 32 bits out, the denominator is not in the one unit that wraps or rounds to 0. -/
def TopFits (d : Nat) : Prop := d < 2 ^ 31 ∨ 2 ^ 31 + 2 ^ 32 ≤ d

/-- The condition for `e` bits that stick out. -/
def FitsBy (n d e : Nat) : Prop :=
  if e = 0 then True
  else if e = 32 then TopFits d
  else if d < 2 ^ (32 - e) then ScaledFits n d e
  else ShiftedFits n d e

/-- The condition. -/
def Restrictable (n d : Nat) : Prop := FitsBy n d (excess n d)

section Rounded

variable {x e m : Nat}

theorem rounded_eq_iff : rounded x e = m ↔ RoundsTo x e m := by
  unfold rounded RoundsTo
  rw [Nat.div_eq_iff (Nat.two_pow_pos e), Nat.add_mul, Nat.one_mul]
  have hpos := Nat.two_pow_pos e
  omega

theorem le_rounded_iff : 2 ^ 32 ≤ rounded x e ↔ 2 ^ (32 + e) ≤ x + 2 ^ (e - 1) := by
  unfold rounded
  rw [Nat.le_div_iff_mul_le (Nat.two_pow_pos e), Nat.pow_add]

theorem two_pow_half (he : 1 ≤ e) : 2 ^ e = 2 * 2 ^ (e - 1) := by
  rw [← Nat.pow_succ', Nat.succ_eq_add_one, Nat.sub_add_cancel he]

theorem rounded_ne_zero_iff (he : 1 ≤ e) : rounded x e ≠ 0 ↔ 2 ^ (e - 1) ≤ x := by
  have hhalf := two_pow_half he
  rw [ne_eq, rounded_eq_iff]
  unfold RoundsTo
  omega

theorem powerOfTwo_rounded : PowerOfTwo (rounded x e) ↔ ∃ j, 1 ≤ j ∧ j ≤ 32 ∧ RoundsTo x e (2 ^ j) :=
  exists_congr fun _ => and_congr_right fun _ => and_congr_right fun _ => rounded_eq_iff

theorem powerOfTwo_div :
    PowerOfTwo (x / 2 ^ e) ↔ ∃ j, 1 ≤ j ∧ j ≤ 32 ∧ 2 ^ j * 2 ^ e ≤ x ∧ x < (2 ^ j + 1) * 2 ^ e := by
  refine exists_congr fun j => and_congr_right fun _ => and_congr_right fun _ => ?_
  rw [Nat.div_eq_iff (Nat.two_pow_pos e), Nat.add_mul, Nat.one_mul]
  have hpos := Nat.two_pow_pos e
  omega

theorem scaledFits_iff {n d : Nat} (hd : 0 < d)
    (hn32 : rounded (n * (d / 2 ^ e * 2 ^ e) / d) e ≤ 2 ^ 32) (hd32 : d / 2 ^ e < 2 ^ 32) :
    (d / 2 ^ e ≠ 0 ∧ (max (rounded (n * (d / 2 ^ e * 2 ^ e) / d) e) (d / 2 ^ e) < 2 ^ 32 ∨
      OneDivides (rounded (n * (d / 2 ^ e * 2 ^ e) / d) e) (d / 2 ^ e))) ↔ ScaledFits n d e := by
  have hne : d / 2 ^ e ≠ 0 ↔ 2 ^ e ≤ d := by
    rw [Nat.div_ne_zero_iff, and_iff_right (Nat.ne_of_gt (Nat.two_pow_pos e))]
  have hcarry : 2 ^ 32 ≤ rounded (n * (d / 2 ^ e * 2 ^ e) / d) e ↔
      (2 ^ (32 + e) - 2 ^ (e - 1)) * d ≤ n * (d / 2 ^ e * 2 ^ e) := by
    rw [le_rounded_iff, ← Nat.sub_le_iff_le_add, Nat.le_div_iff_mul_le hd]
  unfold ScaledFits
  rw [← hne, ← hcarry, ← powerOfTwo_div]
  refine and_congr_right fun hd0 => ?_
  rw [carried_iff hn32 (Nat.le_of_lt hd32) hd0, and_iff_left]
  intro hge
  exact absurd hd32 (Nat.not_lt.mpr hge)

end Rounded

section Restrict

variable {a : Rational}

theorem restrict_none (hd : a.denominator ≠ 0)
    (h : (a.numerator ||| a.denominator) >>> 32 = 0) : a.restrict.Safe := by
  have hmax := excess_zero h
  obtain ⟨hn32, hd32⟩ := max_lt_iff.mp hmax
  unfold restrict
  rw [shiftDown_none h, simplify_safe (Nat.le_of_lt hn32) (Nat.le_of_lt hd32)]
  exact ⟨ne_zero_iff.mp hd, .inl hmax⟩

variable {s : Nat} (h : (a.numerator ||| a.denominator) >>> 32 ≠ 0)
  (hs : shiftOf ((a.numerator ||| a.denominator) >>> 32) = s)

include h hs

theorem below_excess : a.numerator.toNat < 2 ^ (33 + s) ∧ a.denominator.toNat < 2 ^ (33 + s) := by
  obtain ⟨hsucc, hmax, -⟩ := excess_succ h
  rw [hsucc, hs, show 32 + (s + 1) = 33 + s by omega] at hmax
  exact max_lt_iff.mp hmax

theorem restrict_shifted (hlt : s < 31) (hlarge : ¬a.denominator.toNat < 2 ^ (31 - s)) :
    a.restrict.Safe ↔ ShiftedFits a.numerator.toNat a.denominator.toNat (s + 1) := by
  obtain ⟨hn, hd⟩ := below_excess h hs
  have hbits : ¬a.denominator < 1#64 <<< (31 - s) := by
    rw [BitVec.lt_def, one_shift_toNat (by omega)]
    exact hlarge
  have hn' := rounded_toNat hlt hn
  have hd' := rounded_toNat hlt hd
  have hnle : rounded a.numerator.toNat (s + 1) ≤ 2 ^ 32 :=
    rounded_le (by omega) (by rw [show 32 + (s + 1) = 33 + s by omega]; exact hn)
  have hdle : rounded a.denominator.toNat (s + 1) ≤ 2 ^ 32 :=
    rounded_le (by omega) (by rw [show 32 + (s + 1) = 33 + s by omega]; exact hd)
  unfold restrict
  rw [shiftDown_large h hs hbits, simplify_safe (hn' ▸ hnle) (hd' ▸ hdle)]
  dsimp only
  rw [hn', hd']
  unfold ShiftedFits
  rw [← rounded_ne_zero_iff (by omega)]
  refine and_congr_right fun hne => ?_
  rw [carried_iff hnle hdle hne, le_rounded_iff, le_rounded_iff, powerOfTwo_rounded,
    powerOfTwo_rounded, rounded_eq_iff]

theorem shiftDown_scaled (hlt : s < 31)
    (hsmall : a.denominator.toNat < 2 ^ (31 - s)) :
    a.shiftDown.numerator.toNat = rounded (a.numerator.toNat *
        (a.denominator.toNat / 2 ^ (s + 1) * 2 ^ (s + 1)) / a.denominator.toNat) (s + 1) ∧
      a.shiftDown.denominator.toNat = a.denominator.toNat / 2 ^ (s + 1) ∧
      a.shiftDown.negative = a.negative ∧ a.shiftDown.numerator.toNat ≤ 2 ^ 32 := by
  obtain ⟨hn, -⟩ := below_excess h hs
  have hbits : a.denominator < 1#64 <<< (31 - s) := by
    rw [BitVec.lt_def, one_shift_toNat (by omega)]
    exact hsmall
  have hpow : 2 ^ (31 - s) ≤ 2 ^ 32 := Nat.pow_le_pow_right (by decide) (by omega)
  have hmask := masked_toNat (x := a.denominator) (by omega : s < 32) (by omega)
  generalize hnew : a.denominator &&& (0xffffffff#32 <<< (s + 1)).setWidth 64 = new at hmask
  have hle : new.toNat ≤ a.denominator.toNat := hmask ▸ Nat.div_mul_le_self _ _
  -- the scaling fits in 64 bits
  have hprod : a.numerator.toNat * new.toNat < 2 ^ 64 := by
    calc a.numerator.toNat * new.toNat
        < 2 ^ (33 + s) * 2 ^ (31 - s) :=
          Nat.mul_lt_mul_of_lt_of_lt hn (Nat.lt_of_le_of_lt hle hsmall)
      _ = 2 ^ 64 := by rw [← Nat.pow_add]; congr 1; omega
  have hscaled : (a.numerator * new / a.denominator).toNat =
      a.numerator.toNat * new.toNat / a.denominator.toNat := by
    rw [BitVec.toNat_udiv, BitVec.toNat_mul, Nat.mod_eq_of_lt hprod]
  have hscaled_le : a.numerator.toNat * new.toNat / a.denominator.toNat ≤ a.numerator.toNat :=
    Nat.div_le_of_le_mul (Nat.mul_comm _ _ ▸ Nat.mul_le_mul_right _ hle)
  have hlt' : a.numerator.toNat * new.toNat / a.denominator.toNat < 2 ^ (33 + s) :=
    Nat.lt_of_le_of_lt hscaled_le hn
  have hn' := rounded_toNat hlt (hscaled ▸ hlt')
  have hd' := rounded_toNat (x := new) hlt (by
    have : 2 ^ 32 ≤ 2 ^ (33 + s) := Nat.pow_le_pow_right (by decide) (by omega)
    omega)
  rw [hscaled] at hn'
  rw [hmask, rounded_mul (by omega)] at hd'
  have hnle : rounded (a.numerator.toNat * new.toNat / a.denominator.toNat) (s + 1) ≤ 2 ^ 32 :=
    rounded_le (by omega) (by rw [show 32 + (s + 1) = 33 + s by omega]; exact hlt')
  rw [shiftDown_small h hs hbits]
  dsimp only
  rw [hnew]
  rw [← hn'] at hnle
  rw [hmask] at hn'
  exact ⟨hn', hd', rfl, hnle⟩

theorem restrict_scaled (hlt : s < 31) (hne : a.denominator ≠ 0)
    (hsmall : a.denominator.toNat < 2 ^ (31 - s)) :
    a.restrict.Safe ↔ ScaledFits a.numerator.toNat a.denominator.toNat (s + 1) := by
  obtain ⟨hn', hd', -, hnle⟩ := shiftDown_scaled h hs hlt hsmall
  have hdpos : 0 < a.denominator.toNat := Nat.pos_of_ne_zero (ne_zero_iff.mp hne)
  have hpow : 2 ^ (31 - s) ≤ 2 ^ 32 := Nat.pow_le_pow_right (by decide) (by omega)
  have hdlt : a.denominator.toNat / 2 ^ (s + 1) < 2 ^ 32 :=
    Nat.lt_of_le_of_lt (Nat.div_le_self _ _) (by omega)
  unfold restrict
  rw [simplify_safe hnle (hd' ▸ Nat.le_of_lt hdlt), hn', hd']
  exact scaledFits_iff hdpos (hn' ▸ hnle) hdlt

theorem restrict_top (hs31 : s = 31) (hne : a.denominator ≠ 0) :
    a.restrict.Safe ↔ TopFits a.denominator.toNat := by
  have hpos : 0 < a.denominator.toNat := Nat.pos_of_ne_zero (ne_zero_iff.mp hne)
  have hbits : ¬a.denominator < 1#64 <<< (31 - s) := by
    rw [BitVec.lt_def, hs31]
    show ¬a.denominator.toNat < 1
    omega
  have hn' := rounded_top a.numerator
  have hd' := rounded_top a.denominator
  have hn := a.numerator.isLt
  have hd := a.denominator.isLt
  unfold restrict
  rw [shiftDown_large h hs hbits, hs31]
  generalize hx : (a.numerator + extend (1#32 <<< 31)) >>> (31 + 1) = x at hn' ⊢
  generalize hy : (a.denominator + extend (1#32 <<< 31)) >>> (31 + 1) = y at hd' ⊢
  have hx32 : x.toNat < 2 ^ 32 := by
    rw [hn']
    split <;> omega
  have hy32 : y.toNat < 2 ^ 32 := by
    rw [hd']
    split <;> omega
  rw [simplify_safe (Nat.le_of_lt hx32) (Nat.le_of_lt hy32), and_iff_left (.inl (max_lt hx32 hy32))]
  dsimp only
  rw [hd']
  unfold TopFits
  split <;> omega

end Restrict

theorem restrict_safe {a : Rational} (hd : a.denominator ≠ 0) :
    a.restrict.Safe ↔ Restrictable a.numerator.toNat a.denominator.toNat := by
  unfold Restrictable FitsBy
  by_cases h : (a.numerator ||| a.denominator) >>> 32 = 0
  · have hsize : excess a.numerator.toNat a.denominator.toNat = 0 :=
      Nat.sub_eq_zero_of_le (Nat.size_le.mpr (excess_zero h))
    rw [if_pos hsize]
    exact iff_of_true (restrict_none hd h) trivial
  · obtain ⟨hsucc, -, hle⟩ := excess_succ h
    rw [hsucc] at hle ⊢
    generalize hs : shiftOf ((a.numerator ||| a.denominator) >>> 32) = s at hle ⊢
    rw [if_neg (Nat.succ_ne_zero s)]
    by_cases htop : s = 31
    · rw [if_pos (by omega)]
      exact restrict_top h hs htop hd
    · rw [if_neg (by omega), show 32 - (s + 1) = 31 - s by omega]
      split
      · next hsmall => exact restrict_scaled h hs (by omega) hd hsmall
      · next hlarge => exact restrict_shifted h hs (by omega) hlarge

/-- The factor that the constructor takes off both. -/
def commonFactor (n d r : Nat) : Nat := if r ≠ 0 ∧ r ∣ n ∧ r ∣ d then r else 1

theorem make_toNat (n d r : BitVec 64) (negative : Bool) :
    (make n d r negative).numerator.toNat = n.toNat / commonFactor n.toNat d.toNat r.toNat ∧
      (make n d r negative).denominator.toNat = d.toNat / commonFactor n.toNat d.toNat r.toNat := by
  have hcond : r ≠ 0 ∧ r * (n / r) = n ∧ r * (d / r) = d ↔
      r.toNat ≠ 0 ∧ r.toNat ∣ n.toNat ∧ r.toNat ∣ d.toNat :=
    and_congr ne_zero_iff (and_congr exact_iff_dvd exact_iff_dvd)
  unfold make commonFactor
  by_cases h : r ≠ 0 ∧ r * (n / r) = n ∧ r * (d / r) = d
  · rw [if_pos h, if_pos (hcond.mp h)]
    exact ⟨BitVec.toNat_udiv, BitVec.toNat_udiv⟩
  · rw [if_neg h, if_neg fun h' => h (hcond.mpr h'), Nat.div_one, Nat.div_one]
    exact ⟨rfl, rfl⟩

theorem make_negative (n d r : BitVec 64) (negative : Bool) :
    (make n d r negative).negative = negative := by
  unfold make
  split
  · rfl
  · rfl

theorem make_denominator {n d r : BitVec 64} {negative : Bool} (hd : d ≠ 0) :
    (make n d r negative).denominator ≠ 0 := by
  rw [ne_zero_iff] at hd ⊢
  rw [(make_toNat n d r negative).2]
  unfold commonFactor
  split
  · next h =>
    exact Nat.ne_of_gt (Nat.div_pos (Nat.le_of_dvd (Nat.pos_of_ne_zero hd) h.2.2)
      (Nat.pos_of_ne_zero h.1))
  · rw [Nat.div_one]
    exact hd

/-- A common factor taken off and the rest restricted: the result is a number of 32
bits over another that is not 0 exactly where what is left of the two allows it. -/
theorem normalise_safe (n d r : BitVec 64) (negative : Bool) (hd : d ≠ 0) :
    (make n d r negative).assign.Safe ↔
      Restrictable (n.toNat / commonFactor n.toNat d.toNat r.toNat)
        (d.toNat / commonFactor n.toNat d.toNat r.toNat) := by
  obtain ⟨hn', hd'⟩ := make_toNat n d r negative
  unfold assign
  rw [restrict_safe (make_denominator hd), hn', hd']

/-- Three sevenths with 35 bits each. -/
theorem normalise_safe_sevenths : (make 0x300000000 0x700000000 0 false).assign.Safe := by
  have hexcess : excess 0x300000000 0x700000000 = 3 := by
    unfold excess
    rw [topBitAt_size (s := 34) ⟨by decide, by decide⟩]
  refine (normalise_safe 0x300000000 0x700000000 0 false (by decide)).mpr ?_
  show Restrictable 0x300000000 0x700000000
  unfold Restrictable
  rw [hexcess]
  exact ⟨by decide, fun h => absurd h (by decide), fun h => absurd h (by decide)⟩

/-- 4294967296 has one bit too many, and a denominator that the mask takes away. -/
theorem normalise_fails :
    (make 0x100000000 1 3 false).assign = ⟨false, 0, 0⟩ ∧ ¬(make 0x100000000 1 3 false).assign.Safe := by
  have hzero : (make 0x100000000 1 3 false).assign = ⟨false, 0, 0⟩ := by decide +kernel
  refine ⟨hzero, ?_⟩
  rw [hzero]
  exact fun h => h.1 rfl

end Rational

end Duckbox.ClassDefinitions
