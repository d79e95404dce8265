import Duckbox.ClassDefinitions.Rational
import Mathlib.Data.BitVec
import Mathlib.Tactic.Linarith

/-!
# Comparison of rationals

Where the cross products fit in 64 bits the order of two rationals is the order
of the signed cross products (`value_lt_iff`), and each operator decides it from
the signs and the magnitudes. It does so rightly except where the first operand
is not negative and the second is, which `>` gets wrong, and where both are zero
with different signs, which `==` takes for different numbers
(`comparison_iff`).
-/

namespace Duckbox.ClassDefinitions

open Lib

namespace Rational

/-! ## Signed magnitudes -/

theorem value_eq (a : Rational) :
    a.value = (signed a.negative a.numerator.toNat : ℚ) / (a.denominator.toNat : ℚ) := by
  unfold value signed
  cases a.negative <;> simp

variable {a : Rational}

theorem denominator_pos (h : a.denominator ≠ 0) : 0 < a.denominator.toNat :=
  Nat.pos_of_ne_zero fun hz => h (BitVec.eq_of_toNat_eq hz)

section Cross

variable {a b : Rational}

/-- The signed cross product of two rationals. -/
def cross (a b : Rational) : Int := signed a.negative (a.numerator.toNat * b.denominator.toNat)

theorem value_lt_iff (ha : a.denominator ≠ 0) (hb : b.denominator ≠ 0) :
    a.value < b.value ↔ cross a b < cross b a := by
  have ha' : (0 : ℚ) < a.denominator.toNat := Nat.cast_pos.mpr (denominator_pos ha)
  have hb' : (0 : ℚ) < b.denominator.toNat := Nat.cast_pos.mpr (denominator_pos hb)
  rw [value_eq, value_eq, div_lt_div_iff₀ ha' hb']
  unfold cross
  rw [signed_mul, signed_mul]
  exact_mod_cast Iff.rfl

theorem value_le_iff (ha : a.denominator ≠ 0) (hb : b.denominator ≠ 0) :
    a.value ≤ b.value ↔ cross a b ≤ cross b a := by
  rw [← not_lt, ← not_lt, value_lt_iff hb ha]

theorem value_eq_iff (ha : a.denominator ≠ 0) (hb : b.denominator ≠ 0) :
    a.value = b.value ↔ cross a b = cross b a := by
  rw [le_antisymm_iff, le_antisymm_iff, value_le_iff ha hb, value_le_iff hb ha]

end Cross

/-! ## The operators -/

/-- The cross products fit in 64 bits. -/
def CrossFits (a b : Rational) : Prop :=
  a.numerator.toNat * b.denominator.toNat < 2 ^ 64 ∧ b.numerator.toNat * a.denominator.toNat < 2 ^ 64

/-- All six operators agree with the order of the values. -/
structure Compares (a b : Rational) : Prop where
  eq : a.eq b = true ↔ a.value = b.value
  ne : a.ne b = true ↔ a.value ≠ b.value
  gt : a.gt b = true ↔ a.value > b.value
  ge : a.ge b = true ↔ a.value ≥ b.value
  lt : a.lt b = true ↔ a.value < b.value
  le : a.le b = true ↔ a.value ≤ b.value

/-- The signs are the same, or only the first is negative and not both are zero. -/
def SignsTold (a b : Rational) : Prop :=
  a.negative = b.negative ∨ a.negative = true ∧ ¬ (a.numerator = 0 ∧ b.numerator = 0)

instance (a b : Rational) : Decidable (a.CrossFits b) := inferInstanceAs (Decidable (_ ∧ _))

instance (a b : Rational) : Decidable (a.SignsTold b) := inferInstanceAs (Decidable (_ ∨ _))

theorem toNat_mul_of_lt {x y : BitVec 64} (h : x.toNat * y.toNat < 2 ^ 64) :
    (x * y).toNat = x.toNat * y.toNat := by
  rw [BitVec.toNat_mul, Nat.mod_eq_of_lt h]

theorem numerator_eq_zero_iff {b : Rational} (hb : b.denominator ≠ 0) :
    a.numerator = 0 ↔ a.numerator.toNat * b.denominator.toNat = 0 := by
  have hpos := denominator_pos hb
  rw [Nat.mul_eq_zero, ← BitVec.toNat_inj]
  constructor
  · intro h
    exact .inl h
  · intro h
    exact h.resolve_right (Nat.ne_of_gt hpos)

section Operators

variable {a b : Rational} {x y : Nat}
  (hx : (a.numerator * b.denominator).toNat = x) (hy : (b.numerator * a.denominator).toNat = y)

include hx hy

theorem eq_iff : a.eq b = true ↔ a.negative = b.negative ∧ x = y := by
  unfold Rational.eq
  rw [Bool.and_eq_true, beq_iff_eq, beq_iff_eq, ← BitVec.toNat_inj, hx, hy]

theorem ne_iff : a.ne b = true ↔ a.negative ≠ b.negative ∨ x ≠ y := by
  unfold Rational.ne
  rw [Bool.or_eq_true, bne_iff_ne, bne_iff_ne, ne_eq (_ * _), ← BitVec.toNat_inj, hx, hy]

theorem ge_iff (hza : a.numerator = 0 ↔ x = 0) (hzb : b.numerator = 0 ↔ y = 0) :
    a.ge b = true ↔ signed b.negative y ≤ signed a.negative x := by
  unfold Rational.ge
  cases ha : a.negative <;> cases hb : b.negative <;>
    simp only [if_true, Bool.false_eq_true, if_false, signed_true, signed_false, ge_iff_le,
      BitVec.le_def, hx, hy, decide_eq_true_eq, Bool.and_eq_true, beq_iff_eq, hza, hzb, true_iff] <;>
    omega

theorem gt_iff (hza : a.numerator = 0 ↔ x = 0) (hzb : b.numerator = 0 ↔ y = 0) :
    a.gt b = true ↔ if a.negative = false ∧ b.negative = true then x = 0 ∧ y = 0
      else signed b.negative y < signed a.negative x := by
  unfold Rational.gt
  cases ha : a.negative <;> cases hb : b.negative <;>
    simp only [if_true, Bool.false_eq_true, if_false, signed_true, signed_false, gt_iff_lt,
      BitVec.lt_def, hx, hy, decide_eq_true_eq, Bool.and_eq_true, beq_iff_eq, hza, hzb, reduceCtorEq,
      and_false, and_true, and_self, false_iff] <;>
    omega

end Operators

theorem signed_told_iff (p q : Bool) (x y : Nat) :
    ((p = q ∧ x = y ↔ signed p x = signed q y) ∧
      ((if p = false ∧ q = true then x = 0 ∧ y = 0 else signed q y < signed p x)
        ↔ signed q y < signed p x)) ↔ (p = q ∨ p = true ∧ ¬ (x = 0 ∧ y = 0)) := by
  cases p <;> cases q
  all_goals
    simp
    try omega

theorem compares_iff {b : Rational} (ha : a.denominator ≠ 0) (hb : b.denominator ≠ 0)
    (hfits : a.CrossFits b) : a.Compares b ↔ a.SignsTold b := by
  have hx := toNat_mul_of_lt hfits.1
  have hy := toNat_mul_of_lt hfits.2
  have hza := numerator_eq_zero_iff (a := a) hb
  have hzb := numerator_eq_zero_iff (a := b) ha
  have hgt := value_lt_iff hb ha
  have hge := value_le_iff hb ha
  have heq := value_eq_iff ha hb
  unfold cross at hgt hge heq
  have heqop := eq_iff hx hy
  have hgtop := gt_iff hx hy hza hzb
  unfold SignsTold
  rw [hza, hzb, ← signed_told_iff, ← heq, ← heqop, ← hgtop, ← hgt]
  constructor
  · intro h
    exact ⟨h.eq, h.gt⟩
  · intro h
    have hge' : a.ge b = true ↔ b.value ≤ a.value := by rw [ge_iff hx hy hza hzb, hge]
    refine ⟨h.1, ?_, h.2, hge', ?_, ?_⟩
    · rw [ne_iff hx hy, ne_eq, ne_eq, ← not_and_or, ← heqop, h.1, ne_eq]
    · rw [Rational.lt, Bool.not_eq_true', ← Bool.not_eq_true, hge', not_le]
    · rw [Rational.le, Bool.not_eq_true', ← Bool.not_eq_true, h.2, not_lt]

/-! ## An `int` operand -/

/-- The least `int`. -/
abbrev intMin : BitVec 32 := BitVec.intMin 32

theorem toInt_extend (i : BitVec 32) : (extend i).toInt = i.toInt :=
  BitVec.toInt_signExtend_of_le (by decide)

theorem extend_slt (i : BitVec 32) : (extend i).slt 0 = i.slt 0 := by
  rw [Bool.eq_iff_iff, slt_zero_iff, slt_zero_iff, toInt_extend]

theorem toInt_bounds (i : BitVec 32) : -2 ^ 31 ≤ i.toInt ∧ i.toInt < 2 ^ 31 := by
  have hlo := i.le_toInt
  have hhi := i.toInt_lt
  constructor <;> omega

theorem toNat_abs_extend (i : BitVec 32) : (abs (extend i)).toNat = i.toInt.natAbs := by
  rw [toNat_abs, toInt_extend]
  intro hmin
  have htoInt := congrArg BitVec.toInt hmin
  have hbounds := toInt_bounds i
  rw [toInt_extend, BitVec.toInt_intMin] at htoInt
  norm_num at htoInt
  omega

variable {i : BitVec 32}

theorem extend_abs (h : i ≠ intMin) : extend (abs i) = abs (extend i) := by
  apply BitVec.eq_of_toNat_eq
  have hbounds := toInt_bounds i
  have habs := toNat_abs h
  have hmin : i.toInt ≠ -2 ^ 31 := fun hi => h (BitVec.eq_of_toInt_eq (by rw [hi]; rfl))
  rw [toNat_abs_extend, ← habs]
  unfold extend
  rw [BitVec.toNat_signExtend, if_neg, BitVec.toNat_setWidth, Nat.mod_eq_of_lt]
  · rfl
  · have := (abs i).isLt
    omega
  · rw [BitVec.msb_eq_decide, decide_eq_true_eq, habs]
    omega

theorem value_ofInt (i : BitVec 32) : (ofInt i).value = i.toInt := by
  rw [value_eq]
  show ((signed ((extend i).slt 0) (abs (extend i)).toNat : Int) : ℚ) / ((1 : Nat) : ℚ) = _
  rw [extend_slt, toNat_abs_extend, signed_toInt, Nat.cast_one, div_one]

/-- The six operators with an `int` agree with the order of the values. -/
structure ComparesInt (a : Rational) (i : BitVec 32) : Prop where
  eq : a.eqInt i = true ↔ a.value = i.toInt
  ne : a.neInt i = true ↔ a.value ≠ i.toInt
  gt : a.gtInt i = true ↔ a.value > i.toInt
  ge : a.geInt i = true ↔ a.value ≥ i.toInt
  lt : a.ltInt i = true ↔ a.value < i.toInt
  le : a.leInt i = true ↔ a.value ≤ i.toInt

/-- For the least `int`, whose `Abs` is itself: the numerator is neither the product
with its magnitude nor that with what stands for it, unless these are the same. -/
def AbsTold (a : Rational) (i : BitVec 32) : Prop :=
  i = intMin → 2 ^ 31 * a.denominator = -(2 ^ 31 * a.denominator) ∨
    a.numerator ≠ 2 ^ 31 * a.denominator ∧ a.numerator ≠ -(2 ^ 31 * a.denominator)

instance (a : Rational) (i : BitVec 32) : Decidable (a.AbsTold i) :=
  inferInstanceAs (Decidable (_ → _))

theorem eqInt_eq (h : i ≠ intMin) : a.eqInt i = a.eq (ofInt i) := by
  unfold eqInt Rational.eq
  show _ = (a.negative == (extend i).slt 0 && a.numerator * 1#64 == abs (extend i) * a.denominator)
  rw [extend_slt, extend_abs h, BitVec.mul_one]

theorem eqInt_intMin_iff (ha : a.negative = true) :
    (a.eqInt intMin = a.eq (ofInt intMin)) ↔ a.AbsTold intMin := by
  have hleft : a.eqInt intMin = (a.numerator == -(2 ^ 31 * a.denominator)) := by
    unfold eqInt
    rw [ha]
    show (a.numerator == extend (abs intMin) * a.denominator) = _
    rw [← BitVec.neg_mul]
    rfl
  have hright : a.eq (ofInt intMin) = (a.numerator == 2 ^ 31 * a.denominator) := by
    unfold Rational.eq
    rw [ha]
    show (a.numerator * 1#64 == abs (extend intMin) * a.denominator) = _
    rw [BitVec.mul_one]
    rfl
  rw [hleft, hright, Bool.eq_iff_iff, beq_iff_eq, beq_iff_eq]
  unfold AbsTold
  constructor
  · intro h _
    by_cases hx : a.numerator = 2 ^ 31 * a.denominator
    · exact .inl (hx.symm.trans (h.mpr hx))
    · exact .inr ⟨hx, fun hy => hx (h.mp hy)⟩
  · intro h
    rcases h rfl with hsame | ⟨hx, hy⟩
    · rw [← hsame]
    · exact ⟨fun hy' => absurd hy' hy, fun hx' => absurd hx' hx⟩

theorem neInt_eq_not (a : Rational) (i : BitVec 32) : a.neInt i = !a.eqInt i := by
  unfold neInt eqInt
  rw [Bool.not_and]
  rfl

theorem comparesInt_of_eqInt (h : a.eqInt i = a.eq (ofInt i)) :
    a.ComparesInt i ↔ a.Compares (ofInt i) := by
  have hne : a.neInt i = true ↔ ¬ a.eq (ofInt i) = true := by
    rw [neInt_eq_not, h, Bool.not_eq_true', Bool.not_eq_true]
  have hne' : a.ne (ofInt i) = true ↔ ¬ a.eq (ofInt i) = true := by
    rw [ne_iff rfl rfl, eq_iff rfl rfl, not_and_or]
  have hvalue := value_ofInt i
  constructor
  · intro hc
    refine ⟨?_, ?_, ?_, ?_, ?_, ?_⟩
    all_goals rw [hvalue]
    · rw [← h]
      exact hc.eq
    · rw [hne', ← hne]
      exact hc.ne
    · exact hc.gt
    · exact hc.ge
    · exact hc.lt
    · exact hc.le
  · intro hc
    refine ⟨?_, ?_, ?_, ?_, ?_, ?_⟩
    all_goals rw [← hvalue]
    · rw [h]
      exact hc.eq
    · rw [hne, ← hne']
      exact hc.ne
    · exact hc.gt
    · exact hc.ge
    · exact hc.lt
    · exact hc.le

theorem comparesInt_iff (ha : a.denominator ≠ 0) (hfits : a.CrossFits (ofInt i)) :
    a.ComparesInt i ↔ a.SignsTold (ofInt i) ∧ a.AbsTold i := by
  have hone : (ofInt i).denominator ≠ 0 := fun h => nomatch congrArg BitVec.toNat h
  have hiff := compares_iff ha hone hfits
  by_cases hi : i = intMin
  · obtain rfl := hi
    -- the least int is negative and not zero
    have hy := toNat_mul_of_lt hfits.2
    have hpos := denominator_pos ha
    have hmin : (ofInt intMin).numerator.toNat = 2 ^ 31 := rfl
    have hnz : (ofInt intMin).numerator ≠ 0 := fun h => nomatch congrArg BitVec.toNat h
    have htold : a.SignsTold (ofInt intMin) ↔ a.negative = true := by
      unfold SignsTold
      show a.negative = true ∨ a.negative = true ∧ _ ↔ _
      exact ⟨fun h => h.elim id And.left, .inl⟩
    constructor
    · intro h
      have hneg : a.negative = true := by
        by_contra hpositive
        rw [Bool.not_eq_true] at hpositive
        have hgt := h.gt
        rw [← value_ofInt, gtInt, gt_iff_lt, value_lt_iff hone ha] at hgt
        unfold Rational.gt cross at hgt
        rw [hpositive, hmin] at hgt
        have hlt : -((2 ^ 31 * a.denominator.toNat : Nat) : Int)
            < (a.numerator.toNat * (ofInt intMin).denominator.toNat : Nat) := by omega
        have hfalse := hgt.mpr hlt
        simp only [Bool.false_eq_true, if_false] at hfalse
        have hnum := (Bool.and_eq_true_iff.mp hfalse).2
        exact hnz (beq_iff_eq.mp hnum)
      refine ⟨htold.mpr hneg, (eqInt_intMin_iff hneg).mp ?_⟩
      have hc := hiff.mpr (htold.mpr hneg)
      rw [Bool.eq_iff_iff, h.eq, hc.eq, value_ofInt]
    · intro h
      exact (comparesInt_of_eqInt ((eqInt_intMin_iff (htold.mp h.1)).mpr h.2)).mpr (hiff.mpr h.1)
  · rw [comparesInt_of_eqInt (eqInt_eq hi), hiff]
    exact ⟨fun h => ⟨h, fun hmin => absurd hmin hi⟩, And.left⟩

/-- The comparison operators agree with the order of the values, with a rational
and with an `int`, exactly where the signs are told. -/
theorem comparison_iff (a b : Rational) (i : BitVec 32) (ha : a.denominator ≠ 0)
    (hb : b.denominator ≠ 0) :
    (a.CrossFits b → (a.Compares b ↔ a.SignsTold b)) ∧
      (a.CrossFits (ofInt i) → (a.ComparesInt i ↔ a.SignsTold (ofInt i) ∧ a.AbsTold i)) :=
  ⟨compares_iff ha hb, comparesInt_iff ha⟩

theorem comparison_iff_thirds :
    Compares (make 1 3 0 true) (make 2 3 0 false) ∧ ComparesInt (make 1 3 0 true) 2 :=
  have h := comparison_iff (make 1 3 0 true) (make 2 3 0 false) 2 (by decide) (by decide)
  ⟨(h.1 (by decide)).mpr (by decide), (h.2 (by decide)).mpr (by decide)⟩

/-- One is not greater than minus one, and the difference of one and one is not 0. -/
theorem comparison_fails :
    ((ofLongLong 1).gt (ofLongLong (-1)) = false ∧ (ofLongLong (-1)).value < (ofLongLong 1).value) ∧
      (((ofLongLong 1).sub (ofLongLong 1)).eqInt 0 = false ∧
        ((ofLongLong 1).sub (ofLongLong 1)).value = 0) := by
  refine ⟨⟨by decide, ?_⟩, by decide, ?_⟩
  · rw [value_lt_iff (by decide) (by decide)]
    decide
  · have hzero : ((ofLongLong 1).sub (ofLongLong 1)).value = (ofInt 0).value := by
      rw [value_eq_iff (by decide) (by decide)]
      decide
    rw [hzero, value_ofInt]
    rfl

end Rational

end Duckbox.ClassDefinitions
