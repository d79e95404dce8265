import Duckbox.OutputCoordinator.Translation

/-!
# Scaled times

At a speed of `p / q` an elapsed time is scaled by `Rational_c` operators that take an
`int`: of a time that is none a multiple of `2 ^ 32` is lost (`cut_far`). The quotient or
product is then assigned, and keeps its integer part, or is no number any more
(`Scaled`).
-/

namespace Duckbox.OutputCoordinator

open ClassDefinitions Lib
open ClassDefinitions.Rational (assignedPart commonFactor excess leftOver nearest)

/-! ## Speeds -/

/-- A speed, of two numbers below `2 ^ 16`. -/
structure SmallSpeed (a : Rational) : Prop where
  positive : a.negative = false
  numerator_pos : 0 < a.numerator.toNat
  denominator_pos : 0 < a.denominator.toNat
  numerator_lt : a.numerator.toNat < 2 ^ 16
  denominator_lt : a.denominator.toNat < 2 ^ 16

namespace SmallSpeed

variable {a : Rational} (h : SmallSpeed a)

include h

theorem denominator : a.denominator ≠ 0 := Rational.ne_zero_iff.mpr (Nat.ne_of_gt h.denominator_pos)

theorem numerator : a.numerator ≠ 0 := Rational.ne_zero_iff.mpr (Nat.ne_of_gt h.numerator_pos)

theorem value_eq : a.value = a.numerator.toNat / a.denominator.toNat := by
  rw [Rational.value_signed, h.positive, if_neg Bool.false_ne_true]

theorem value_pos : 0 < a.value := by
  rw [h.value_eq]
  exact div_pos (Nat.cast_pos.mpr h.numerator_pos) (Nat.cast_pos.mpr h.denominator_pos)

theorem value_one (hone : a.numerator = a.denominator) : a.value = 1 := by
  rw [h.value_eq, hone]
  exact div_self (Nat.cast_ne_zero.mpr (Nat.ne_of_gt h.denominator_pos))

theorem eqInt_one : a.eqInt 1 = true ↔ a.numerator = a.denominator := by
  have hone : extend (ClassDefinitions.abs (1 : BitVec 32)) = 1 := by decide
  have hmul : (1 : BitVec 64) * a.denominator = a.denominator := BitVec.one_mul _
  unfold Rational.eqInt
  rw [hone, hmul, h.positive, Bool.and_eq_true, beq_iff_eq, beq_iff_eq]
  exact and_iff_right rfl

theorem eqInt_zero : a.eqInt 0 = false := by
  have hzero : extend (ClassDefinitions.abs (0 : BitVec 32)) = 0 := by decide
  have hmul : (0 : BitVec 64) * a.denominator = 0 := BitVec.zero_mul
  unfold Rational.eqInt
  rw [hzero, hmul, beq_eq_false_iff_ne.mpr h.numerator, Bool.and_false]

theorem value_lt : a.value < 2 ^ 16 := by
  have hd : (1 : ℚ) ≤ a.denominator.toNat := by exact_mod_cast h.denominator_pos
  have hn : (a.numerator.toNat : ℚ) < 2 ^ 16 := by exact_mod_cast h.numerator_lt
  rw [h.value_eq]
  exact lt_of_le_of_lt (div_le_self (Nat.cast_nonneg _) hd) hn

theorem inv_value_lt : a.value⁻¹ < 2 ^ 16 := by
  have hn : (1 : ℚ) ≤ a.numerator.toNat := by exact_mod_cast h.numerator_pos
  have hd : (a.denominator.toNat : ℚ) < 2 ^ 16 := by exact_mod_cast h.denominator_lt
  rw [h.value_eq, inv_div]
  exact lt_of_le_of_lt (div_le_self (Nat.cast_nonneg _) hn) hd

/-- Two such numbers that differ do so by their `2 ^ 16`th. -/
theorem apart (hne : a.numerator ≠ a.denominator) :
    1 + 1 / 2 ^ 16 < a.value⁻¹ ∨ a.value⁻¹ < 1 - 1 / 2 ^ 16 := by
  have hn : (0 : ℚ) < a.numerator.toNat := Nat.cast_pos.mpr h.numerator_pos
  have hlt : (a.numerator.toNat : ℚ) < 2 ^ 16 := by exact_mod_cast h.numerator_lt
  rw [h.value_eq, inv_div, lt_div_iff₀ hn, div_lt_iff₀ hn]
  rcases Nat.lt_or_gt_of_ne fun heq => hne (BitVec.eq_of_toNat_eq heq) with hslow | hfast
  · refine .inl ?_
    have hle : (a.numerator.toNat : ℚ) + 1 ≤ a.denominator.toNat := by exact_mod_cast hslow
    linarith
  · refine .inr ?_
    have hle : (a.denominator.toNat : ℚ) + 1 ≤ a.numerator.toNat := by exact_mod_cast hfast
    linarith

end SmallSpeed

/-! ## Scaled times -/

section

variable {a : Rational}

theorem integerPart_close (hleft : 0 < leftOver a.numerator.toNat a.denominator.toNat)
    (hhigh : a.denominator.toNat < 2 ^ 16) (hnum : a.numerator.toNat < 2 ^ 47) :
    |(a.assign.longLongIntegerPart.toInt : ℚ) - a.value| ≤ 3 / 2 ∧
      |(a.assign.longLongIntegerPart.toInt : ℚ)| ≤ |a.value| + 1 / 2 := by
  have hlow : 2 ^ excess a.numerator.toNat a.denominator.toNat ≤ a.denominator.toNat :=
    (Nat.div_pos_iff.mp hleft).2
  obtain ⟨hd, hclose⟩ := Rational.assign_close hlow hhigh hnum
  have hpos : (1 : ℚ) ≤ a.denominator.toNat := by
    exact_mod_cast Nat.lt_of_lt_of_le (Nat.two_pow_pos _) hlow
  have hvalue : |a.value| < 2 ^ 47 := by
    rw [Rational.abs_value]
    have hnum' : (a.numerator.toNat : ℚ) < 2 ^ 47 := by exact_mod_cast hnum
    exact lt_of_le_of_lt (div_le_self (Nat.cast_nonneg _) hpos) hnum'
  have hassigned : |a.assign.value| ≤ |a.value| + 1 / 2 := by
    have := abs_sub_abs_le_abs_sub a.assign.value a.value
    linarith
  obtain ⟨hpart, hle⟩ := Rational.longLong_close hd (by linarith)
  refine ⟨?_, hle.trans hassigned⟩
  rw [abs_le] at hclose ⊢
  rw [abs_lt] at hpart
  constructor <;> linarith [hclose.1, hclose.2, hpart.1, hpart.2]

/-- An assignment leaves some of the denominator. -/
def KeepsDenominator (parts : Nat × Nat) : Prop := 0 < leftOver parts.1 parts.2

/-- What `z` is of a number with a small denominator: the -1 for no number, of a large one,
or else its integer part, to the rounding of the assignment. -/
inductive Scaled (negative : Bool) (parts : Nat × Nat) (value : ℚ) (z : BitVec 64) : Prop where
  | lost (hgone : ¬ KeepsDenominator parts) (hlarge : 2 ^ 31 ≤ |value|) (hpart : z = -1)
  | kept (hkept : KeepsDenominator parts)
      (hpart : z.toInt = signed negative (assignedPart parts.1 parts.2))
      (hclose : |(z.toInt : ℚ) - value| ≤ 3 / 2) (hbound : |(z.toInt : ℚ)| ≤ |value| + 1 / 2)

theorem toInt_eq_zero {z : BitVec 64} (h : |(z.toInt : ℚ)| < 1) : z.toInt = 0 :=
  Int.abs_lt_one_iff.mp (by exact_mod_cast h)

theorem Scaled.eq_zero {negative : Bool} {parts : Nat × Nat} {z : BitVec 64}
    (h : Scaled negative parts 0 z) : z.toInt = 0 := by
  cases h with
  | lost _ hlarge _ =>
    rw [abs_zero] at hlarge
    norm_num at hlarge
  | kept _ _ _ hbound =>
    rw [abs_zero, zero_add] at hbound
    exact toInt_eq_zero (by linarith)

theorem scaled_of_small (hd : a.denominator ≠ 0) (hhigh : a.denominator.toNat < 2 ^ 16)
    (hnum : a.numerator.toNat < 2 ^ 47) :
    Scaled a.negative (a.numerator.toNat, a.denominator.toNat) a.value
      a.assign.longLongIntegerPart := by
  obtain ⟨hgone, hpart⟩ := Rational.assign_longLong hd hhigh hnum
  have hpos := Rational.denominator_pos hd
  by_cases hleft : 0 < leftOver a.numerator.toNat a.denominator.toNat
  · obtain ⟨hclose, hbound⟩ := integerPart_close hleft hhigh hnum
    exact .kept hleft (hpart hleft) hclose hbound
  · refine .lost hleft ?_ (hgone (Nat.eq_zero_of_not_pos hleft))
    have hlarge : 2 ^ 31 * a.denominator.toNat ≤ a.numerator.toNat := by
      by_contra hlt
      exact hleft (Rational.leftOver_pos hpos (Nat.lt_of_not_le hlt))
    have hd' : (0 : ℚ) < a.denominator.toNat := Nat.cast_pos.mpr hpos
    rw [Rational.abs_value, le_div_iff₀ hd']
    exact_mod_cast hlarge

/-- The parts of the quotient of an `int` of magnitude `k` with `a`. -/
def quotientParts (a : Rational) (k : Nat) : Nat × Nat :=
  let factor := commonFactor (k * a.denominator.toNat) a.numerator.toNat
    (if k = a.numerator.toNat then k else if 1 = a.denominator.toNat then 1 else 10)
  (k * a.denominator.toNat / factor, a.numerator.toNat / factor)

theorem slt_zero (v : BitVec 32) : v.slt 0 = decide (v.toInt < 0) := by
  rw [Bool.eq_iff_iff, slt_zero_iff, decide_eq_true_iff]

theorem SmallSpeed.intDiv_parts (h : SmallSpeed a) (v : BitVec 32) :
    (Rational.intDiv v a).numerator.toNat = (quotientParts a v.toInt.natAbs).1 ∧
      (Rational.intDiv v a).denominator.toNat = (quotientParts a v.toInt.natAbs).2 ∧
      (Rational.intDiv v a).negative = decide (v.toInt < 0) := by
  have hk : (Rational.ofInt v).numerator.toNat = v.toInt.natAbs := Rational.toNat_abs_extend v
  have hbounds := Rational.toInt_bounds v
  have hq := h.denominator_lt
  have hprod : v.toInt.natAbs * a.denominator.toNat ≤ 2 ^ 31 * a.denominator.toNat :=
    Nat.mul_le_mul_right _ (by omega)
  have hmul : ((Rational.ofInt v).numerator * a.denominator).toNat
      = v.toInt.natAbs * a.denominator.toNat := by
    rw [BitVec.toNat_mul, hk, Nat.mod_eq_of_lt (by omega)]
  have hmul' : ((Rational.ofInt v).denominator * a.numerator).toNat = a.numerator.toNat :=
    congrArg BitVec.toNat (BitVec.one_mul a.numerator)
  have hfactor : (if (Rational.ofInt v).numerator = a.numerator then (Rational.ofInt v).numerator
        else if (Rational.ofInt v).denominator = a.denominator then (Rational.ofInt v).denominator
        else 10).toNat
      = if v.toInt.natAbs = a.numerator.toNat then v.toInt.natAbs
        else if 1 = a.denominator.toNat then 1 else 10 := by
    have hsame : (Rational.ofInt v).numerator = a.numerator ↔ v.toInt.natAbs = a.numerator.toNat := by
      rw [← BitVec.toNat_inj, hk]
    have hwhole : (Rational.ofInt v).denominator = a.denominator ↔ 1 = a.denominator.toNat := by
      rw [← BitVec.toNat_inj]
      exact Iff.rfl
    by_cases heq : v.toInt.natAbs = a.numerator.toNat
    · rw [if_pos (hsame.mpr heq), if_pos heq, hk]
    · rw [if_neg (mt hsame.mp heq), if_neg heq]
      by_cases hone : 1 = a.denominator.toNat
      · rw [if_pos (hwhole.mpr hone), if_pos hone]
        rfl
      · rw [if_neg (mt hwhole.mp hone), if_neg hone]
        rfl
  obtain ⟨hnum, hden⟩ := Rational.make_toNat ((Rational.ofInt v).numerator * a.denominator)
    ((Rational.ofInt v).denominator * a.numerator)
    (if (Rational.ofInt v).numerator = a.numerator then (Rational.ofInt v).numerator
      else if (Rational.ofInt v).denominator = a.denominator then (Rational.ofInt v).denominator
      else 10) ((Rational.ofInt v).negative ^^ a.negative)
  rw [hmul, hmul', hfactor] at hnum hden
  refine ⟨hnum, hden, ?_⟩
  have hslt : (Rational.ofInt v).negative = decide (v.toInt < 0) := by
    show (extend v).slt 0 = _
    rw [Rational.extend_slt, slt_zero]
  exact (Rational.make_negative _ _ _ _).trans ((congrArg₂ xor hslt h.positive).trans (Bool.xor_false _))

theorem SmallSpeed.intDiv_scaled (h : SmallSpeed a) (v : BitVec 32) :
    Scaled (decide (v.toInt < 0)) (quotientParts a v.toInt.natAbs) (v.toInt / a.value)
      (Rational.intDiv v a).assign.longLongIntegerPart := by
  have hbounds := Rational.toInt_bounds v
  have hp := h.numerator_lt
  have hq := h.denominator_lt
  have hone : (Rational.ofInt v).denominator.toNat = 1 := rfl
  have hk : (Rational.ofInt v).numerator.toNat = v.toInt.natAbs := Rational.toNat_abs_extend v
  have hprod : v.toInt.natAbs * a.denominator.toNat ≤ 2 ^ 31 * a.denominator.toNat :=
    Nat.mul_le_mul_right _ (by omega)
  have hfits : (Rational.ofInt v).CrossFits a := by
    refine ⟨by rw [hk]; omega, ?_⟩
    rw [hone]
    omega
  obtain ⟨hd, hvalue⟩ := Rational.represents_div (Rational.ne_zero_iff.mpr (by rw [hone]; decide))
    h.denominator h.numerator hfits
  obtain ⟨hnum, hden, hnegative⟩ := h.intDiv_parts v
  have hnumle : (quotientParts a v.toInt.natAbs).1 ≤ v.toInt.natAbs * a.denominator.toNat :=
    Nat.div_le_self _ _
  have hdenle : (quotientParts a v.toInt.natAbs).2 ≤ a.numerator.toNat := Nat.div_le_self _ _
  have hscaled := scaled_of_small (a := Rational.intDiv v a) hd (by omega) (by omega)
  rw [hnum, hden, hnegative] at hscaled
  rw [← Rational.value_ofInt, ← hvalue]
  exact hscaled

theorem SmallSpeed.mulInt_negative (h : SmallSpeed a) (v : BitVec 32) :
    (a.mulInt v).negative = decide (v.toInt < 0) :=
  (Rational.make_negative _ _ _ _).trans
    ((congrArg₂ xor (slt_zero v) h.positive).trans (Bool.xor_false _))

theorem SmallSpeed.mulInt_scaled (h : SmallSpeed a) {v : BitVec 32} (hv : v.toInt.natAbs < 2 ^ 31) :
    Scaled (decide (v.toInt < 0)) (a.productParts v.toInt.natAbs) (a.value * v.toInt)
      (a.mulInt v).assign.longLongIntegerPart := by
  have hmin : v ≠ Rational.intMin := by
    rintro rfl
    exact absurd hv (by decide)
  have hk := Rational.toNat_extend_abs hmin
  have hp := h.numerator_lt
  have hq := h.denominator_lt
  have hprod : a.numerator.toNat * v.toInt.natAbs ≤ a.numerator.toNat * 2 ^ 31 :=
    Nat.mul_le_mul_left _ (Nat.le_of_lt hv)
  obtain ⟨hden, hvalue⟩ := Rational.represents_mulInt (i := v) h.denominator hmin (by omega)
  have hmul : (a.numerator * extend (ClassDefinitions.abs v)).toNat
      = a.numerator.toNat * v.toInt.natAbs := by
    rw [BitVec.toNat_mul, hk, Nat.mod_eq_of_lt (by omega)]
  obtain ⟨hnum, hdenominator⟩ := Rational.make_toNat (a.numerator * extend (ClassDefinitions.abs v))
    a.denominator (Rational.minimum a.denominator (extend (ClassDefinitions.abs v)))
    (v.slt 0 ^^ a.negative)
  rw [hmul, Rational.minimum_toNat, hk] at hnum hdenominator
  have hnum' : (a.mulInt v).numerator.toNat = (a.productParts v.toInt.natAbs).1 := hnum
  have hden' : (a.mulInt v).denominator.toNat = (a.productParts v.toInt.natAbs).2 := hdenominator
  have hnumle : (a.productParts v.toInt.natAbs).1 ≤ a.numerator.toNat * v.toInt.natAbs :=
    Nat.div_le_self _ _
  have hdenle : (a.productParts v.toInt.natAbs).2 ≤ a.denominator.toNat := Nat.div_le_self _ _
  have hscaled := scaled_of_small hden (by omega) (by omega)
  rw [hnum', hden', h.mulInt_negative] at hscaled
  rw [← hvalue]
  exact hscaled

/-- Nothing is left of a denominator 1 under a numerator of more than 32 bits. -/
theorem longLong_lost {b : Rational} (hone : b.denominator.toNat = 1)
    (h' : (b.numerator ||| b.denominator) >>> 32 ≠ 0) (hlt : b.numerator.toNat < 2 ^ 63) :
    b.assign.longLongIntegerPart = -1 := by
  unfold Rational.assign Rational.restrict
  rw [Rational.simplify_longLong]
  generalize hs : Rational.shiftOf ((b.numerator ||| b.denominator) >>> 32) = s
  have hexcess := Rational.excess_eq h' hs
  have hsize : Nat.size (max b.numerator.toNat b.denominator.toNat) ≤ 63 :=
    Nat.size_le.mpr (max_lt hlt (by omega))
  have hs30 : s ≤ 30 := by
    unfold excess at hexcess
    omega
  have hroom : b.denominator.toNat < 2 ^ (31 - s) := by
    rw [hone]
    exact Nat.one_lt_two_pow (by omega)
  obtain ⟨-, hd', -, -⟩ := Rational.shiftDown_scaled h' hs (by omega) hroom
  rw [hone, Nat.div_eq_of_lt (Nat.one_lt_two_pow (Nat.succ_ne_zero s))] at hd'
  have hgone : b.shiftDown.denominator = 0 := BitVec.eq_of_toNat_eq hd'
  unfold Rational.longLongIntegerPart
  exact if_pos hgone

/-- Under one of 64 bits a small denominator wraps to `2 ^ 32 - 1`. -/
theorem longLong_wrapped {b : Rational} (htop : 2 ^ 63 ≤ b.numerator.toNat)
    (hsmall : b.denominator.toNat < 2 ^ 16) (hb0 : b.denominator.toNat ≠ 0)
    (h' : (b.numerator ||| b.denominator) >>> 32 ≠ 0) :
    -1 ≤ b.assign.longLongIntegerPart.toInt := by
  unfold Rational.assign Rational.restrict
  rw [Rational.simplify_longLong]
  generalize hs : Rational.shiftOf ((b.numerator ||| b.denominator) >>> 32) = s
  have hexcess := Rational.excess_eq h' hs
  have hsize : 64 ≤ Nat.size (max b.numerator.toNat b.denominator.toNat) :=
    Nat.lt_size.mpr (Nat.le_trans htop (Nat.le_max_left _ _))
  obtain ⟨-, -, hle⟩ := Rational.excess_succ h'
  have hs31 : s = 31 := by
    unfold excess at hexcess hle
    omega
  have hroom : ¬ b.denominator < 1#64 <<< (31 - s) := by
    rw [hs31, BitVec.lt_def]
    show ¬ b.denominator.toNat < 1
    omega
  have hn' := Rational.rounded_top b.numerator
  have hd' := Rational.rounded_top b.denominator
  rw [if_pos (by omega)] at hd'
  rw [if_neg (by omega)] at hn'
  have hnlt := b.numerator.isLt
  rw [Rational.shiftDown_large h' hs hroom, hs31]
  generalize (b.numerator + extend (1#32 <<< 31)) >>> (31 + 1) = n at hn' ⊢
  generalize (b.denominator + extend (1#32 <<< 31)) >>> (31 + 1) = d at hd' ⊢
  have hle : n.toNat / d.toNat ≤ 1 := by
    rw [hd', ← Nat.lt_succ_iff, Nat.div_lt_iff_lt_mul (by decide)]
    omega
  have hd0 : d ≠ 0 := Rational.ne_zero_iff.mpr (by omega)
  have hpart := Rational.toInt_longLong (a := ⟨b.negative, n, d⟩) hd0
    (Nat.lt_of_le_of_lt hle (by decide))
  rw [hpart]
  show -1 ≤ signed b.negative (n.toNat / d.toNat)
  generalize n.toNat / d.toNat = k at hle ⊢
  cases b.negative with
  | true =>
    rw [signed_true]
    omega
  | false =>
    rw [signed_false]
    omega

/-- The product with the least `int`, of which `Abs` is that `int` again, is hardly a number. -/
theorem SmallSpeed.mulInt_intMin (h : SmallSpeed a) :
    -1 ≤ (a.mulInt Rational.intMin).assign.longLongIntegerPart.toInt := by
  have hp := h.numerator_lt
  have hp' := h.numerator_pos
  have hq := h.denominator_lt
  have hq' := h.denominator_pos
  have habs : (extend (ClassDefinitions.abs Rational.intMin)).toNat = 2 ^ 64 - 2 ^ 31 := by decide
  have hmul : (a.numerator * extend (ClassDefinitions.abs Rational.intMin)).toNat
      = 2 ^ 64 - 2 ^ 31 * a.numerator.toNat := by
    rw [BitVec.toNat_mul, habs]
    omega
  have hmin : min a.denominator.toNat (2 ^ 64 - 2 ^ 31) = a.denominator.toNat :=
    Nat.min_eq_left (by omega)
  obtain ⟨hnum, hden⟩ := Rational.make_toNat
    (a.numerator * extend (ClassDefinitions.abs Rational.intMin)) a.denominator
    (Rational.minimum a.denominator (extend (ClassDefinitions.abs Rational.intMin)))
    (Rational.intMin.slt 0 ^^ a.negative)
  rw [hmul, Rational.minimum_toNat, habs, hmin] at hnum hden
  generalize hb : Rational.make (a.numerator * extend (ClassDefinitions.abs Rational.intMin))
    a.denominator (Rational.minimum a.denominator (extend (ClassDefinitions.abs Rational.intMin)))
    (Rational.intMin.slt 0 ^^ a.negative) = b at hnum hden
  show -1 ≤ (Rational.make _ _ _ _).assign.longLongIntegerPart.toInt
  rw [hb]
  have hexceeds (hlarge : 2 ^ 32 ≤ b.numerator.toNat) :
      (b.numerator ||| b.denominator) >>> 32 ≠ 0 := by
    intro hzero
    have := (max_lt_iff.mp (Rational.excess_zero hzero)).1
    omega
  unfold commonFactor at hnum hden
  by_cases hdvd : a.denominator.toNat ≠ 0 ∧
      a.denominator.toNat ∣ 2 ^ 64 - 2 ^ 31 * a.numerator.toNat ∧
      a.denominator.toNat ∣ a.denominator.toNat
  · rw [if_pos hdvd] at hnum hden
    rw [Nat.div_self hq'] at hden
    by_cases hone : a.denominator.toNat = 1
    · rw [hone, Nat.div_one] at hnum
      exact longLong_wrapped (by omega) (by omega) (by omega) (hexceeds (by omega))
    · have hlarge : 2 ^ 32 ≤ b.numerator.toNat := by
        rw [hnum, Nat.le_div_iff_mul_le hq']
        calc 2 ^ 32 * a.denominator.toNat ≤ 2 ^ 32 * 2 ^ 16 := Nat.mul_le_mul_left _ (Nat.le_of_lt hq)
          _ ≤ 2 ^ 64 - 2 ^ 31 * a.numerator.toNat := by omega
      have hlt : b.numerator.toNat < 2 ^ 63 := by
        rw [hnum, Nat.div_lt_iff_lt_mul hq']
        calc 2 ^ 64 - 2 ^ 31 * a.numerator.toNat < 2 ^ 63 * 2 := by omega
          _ ≤ 2 ^ 63 * a.denominator.toNat := Nat.mul_le_mul_left _ (by omega)
      rw [longLong_lost hden (hexceeds hlarge) hlt]
      decide
  · rw [if_neg hdvd, Nat.div_one] at hnum hden
    exact longLong_wrapped (by omega) (by omega) (by omega) (hexceeds (by omega))

end

/-! ## What an `int` holds -/

/-- What an `int` holds of a number. -/
def cut (i : Int) : Int := i.bmod (2 ^ 32)

def IsInt (i : Int) : Prop := -2 ^ 31 ≤ i ∧ i < 2 ^ 31

instance (i : Int) : Decidable (IsInt i) := inferInstanceAs (Decidable (_ ∧ _))

theorem cut_isInt (i : Int) : IsInt (cut i) := by
  unfold cut IsInt
  rw [Int.bmod_def]
  split <;> omega

theorem cut_of_isInt {i : Int} (h : IsInt i) : cut i = i := by
  unfold cut
  unfold IsInt at h
  rw [Int.bmod_def]
  split <;> omega

theorem cut_far {i : Int} (h : ¬ IsInt i) : i - cut i ≤ -2 ^ 32 ∨ 2 ^ 32 ≤ i - cut i := by
  unfold cut
  unfold IsInt at h
  rw [Int.bmod_def]
  split <;> omega

theorem toInt_cut (x : BitVec 64) : (x.setWidth 32).toInt = cut x.toInt := by
  unfold cut
  rw [BitVec.toInt_setWidth, BitVec.toInt_eq_toNat_bmod, Int.bmod_bmod_of_dvd (by decide)]

theorem exists_narrow (x : BitVec 64) :
    ∃ y : BitVec 64, y.setWidth 32 = x.setWidth 32 ∧ y.toInt = cut x.toInt := by
  have hextend : (extend (x.setWidth 32)).toInt = cut x.toInt :=
    (Rational.toInt_extend _).trans (toInt_cut x)
  refine ⟨extend (x.setWidth 32), BitVec.eq_of_toInt_eq ?_, hextend⟩
  rw [toInt_cut, toInt_cut, hextend, cut_of_isInt (cut_isInt _)]

section

variable {a : Rational}

theorem over_cut (ha : NearOne a) (x : BitVec 64) :
    |((Rational.intDiv (x.setWidth 32) a).roundedLongLongIntegerPart.toInt : ℚ)
      - cut x.toInt / a.value| ≤ 1 / 2 := by
  obtain ⟨y, hnarrow, hy⟩ := exists_narrow x
  have hbounds := cut_isInt x.toInt
  rw [← hnarrow, ← hy]
  rw [← hy] at hbounds
  exact over_close ha hbounds.1 hbounds.2

theorem times_cut (ha : NearOne a) {x : BitVec 64} (hx : (cut x.toInt).natAbs < 2 ^ 31) :
    |((Rational.intMul (x.setWidth 32) a).roundedLongLongIntegerPart.toInt : ℚ)
        - cut x.toInt * a.value| ≤ 1 / 2 ∧
      (Rational.intMul (x.setWidth 32) a).roundedLongLongIntegerPart.toInt.natAbs
        = nearest ((cut x.toInt).natAbs * a.numerator.toNat) a.denominator.toNat := by
  obtain ⟨y, hnarrow, hy⟩ := exists_narrow x
  rw [← hnarrow, ← hy]
  rw [← hy] at hx
  exact ⟨times_close ha hx, by rw [toInt_times ha hx, natAbs_signed]⟩

end

section

variable {i : Int}

theorem abs_le_of_isInt (h : IsInt i) : |(i : ℚ)| ≤ 2 ^ 31 := by
  have habs : |i| ≤ 2 ^ 31 := abs_le.mpr ⟨h.1, le_of_lt h.2⟩
  exact_mod_cast habs

theorem le_abs_of_not_isInt (h : ¬ IsInt i) : 2 ^ 31 ≤ |(i : ℚ)| := by
  have habs : 2 ^ 31 ≤ |i| := by
    unfold IsInt at h
    rw [le_abs]
    omega
  exact_mod_cast habs

theorem cut_far_abs (h : ¬ IsInt i) : 2 ^ 32 ≤ |(i : ℚ) - cut i| := by
  have habs : 2 ^ 32 ≤ |i - cut i| := by
    have hfar := cut_far h
    rw [le_abs]
    omega
  exact_mod_cast habs

end

end Duckbox.OutputCoordinator
