import Duckbox.ClassDefinitions.RationalOrder
import Mathlib.Tactic.FieldSimp

/-!
# Exact arithmetic of rationals

Each operator makes a numerator and a denominator out of products of those of
its operands and gives them to the constructor that takes a common factor off.
That changes no value (`represents_make`), so where the products, and the sum of
two of them where it is taken, fit in 64 bits, a result stands for the number it
should (`arithmetic_exact`).
-/

namespace Duckbox.ClassDefinitions

open Lib

namespace Rational

/-- A rational with a denominator stands for a number. -/
def Represents (a : Rational) (q : ℚ) : Prop := a.denominator ≠ 0 ∧ a.value = q

/-! ## The constructor -/

theorem represents_mk {negative : Bool} {n d : BitVec 64} {q : ℚ} (hd : d ≠ 0)
    (h : (signed negative n.toNat : ℚ) = q * d.toNat) : Represents ⟨negative, n, d⟩ q := by
  have hpos : (d.toNat : ℚ) ≠ 0 := Nat.cast_ne_zero.mpr (Nat.ne_of_gt (denominator_pos (a := ⟨negative, n, d⟩) hd))
  refine ⟨hd, ?_⟩
  rw [value_eq]
  exact (div_eq_iff hpos).mpr h

theorem represents_make {negative : Bool} {n d : BitVec 64} {q : ℚ} (r : BitVec 64) (hd : d ≠ 0)
    (h : (signed negative n.toNat : ℚ) = q * d.toNat) : Represents (make n d r negative) q := by
  unfold make
  split
  · next hexact =>
    obtain ⟨hr, hn, hd'⟩ := hexact
    obtain ⟨n', hn'⟩ := exact_iff_dvd.mp hn
    obtain ⟨d', hd''⟩ := exact_iff_dvd.mp hd'
    have hrpos : 0 < r.toNat := Nat.pos_of_ne_zero fun hz => hr (BitVec.eq_of_toNat_eq hz)
    have hdpos : 0 < d.toNat := Nat.pos_of_ne_zero fun hz => hd (BitVec.eq_of_toNat_eq hz)
    have hnq : (n / r).toNat = n' := by rw [BitVec.toNat_udiv, hn', Nat.mul_div_cancel_left _ hrpos]
    have hdq : (d / r).toNat = d' := by rw [BitVec.toNat_udiv, hd'', Nat.mul_div_cancel_left _ hrpos]
    apply represents_mk
    · intro hz
      have hzero : d' = 0 := by rw [← hdq, hz]; rfl
      rw [hd'', hzero, Nat.mul_zero] at hdpos
      exact Nat.lt_irrefl 0 hdpos
    · rw [hn', hd'', Nat.mul_comm, signed_mul] at h
      rw [hnq, hdq]
      have hrq : (r.toNat : ℚ) ≠ 0 := Nat.cast_ne_zero.mpr (Nat.ne_of_gt hrpos)
      apply mul_right_cancel₀ hrq
      push_cast at h ⊢
      rw [h]
      ring
  · exact represents_mk hd h

theorem ne_zero_of_toNat {x : BitVec 64} {n : Nat} (h : x.toNat = n) (hn : 0 < n) : x ≠ 0 := by
  rintro rfl
  exact Nat.ne_of_gt hn h.symm

/-! ## Signs -/

section Sums

variable {p q : Bool} {x y : BitVec 64}

theorem sum_add (hpq : p = q) (h : x.toNat + y.toNat < 2 ^ 64) :
    signed p (x + y).toNat = signed p x.toNat + signed q y.toNat := by
  obtain rfl := hpq
  rw [BitVec.toNat_add, Nat.mod_eq_of_lt h, signed_add]

theorem sum_sub (hpq : p ≠ q) (h : y.toNat ≤ x.toNat) :
    signed p (x - y).toNat = signed p x.toNat + signed q y.toNat := by
  rw [BitVec.toNat_sub_of_le (BitVec.le_def.mpr h), signed_sub p h, signed_of_ne hpq, sub_eq_add_neg]

theorem sum_not_sub (hpq : p ≠ q) (h : x.toNat ≤ y.toNat) :
    signed (!p) (y - x).toNat = signed p x.toNat + signed q y.toNat := by
  rw [BitVec.toNat_sub_of_le (BitVec.le_def.mpr h), signed_not_sub p h, signed_of_ne hpq,
    sub_eq_add_neg]

end Sums

/-! ## The operators -/

/-- The denominators' product fits in 64 bits. -/
def DenominatorsFit (a b : Rational) : Prop :=
  a.denominator.toNat * b.denominator.toNat < 2 ^ 64

/-- The cross products' sum fits in 64 bits. -/
def SumFits (a b : Rational) : Prop :=
  a.numerator.toNat * b.denominator.toNat + b.numerator.toNat * a.denominator.toNat < 2 ^ 64

instance (a b : Rational) : Decidable (a.DenominatorsFit b) := inferInstanceAs (Decidable (_ < _))

instance (a b : Rational) : Decidable (a.SumFits b) := inferInstanceAs (Decidable (_ < _))

section Operators

variable {a b : Rational} (ha : a.denominator ≠ 0) (hb : b.denominator ≠ 0)

include ha hb

theorem value_add : a.value + b.value
    = (cross a b + cross b a : ℚ) / (a.denominator.toNat * b.denominator.toNat) := by
  have ha' : (a.denominator.toNat : ℚ) ≠ 0 := Nat.cast_ne_zero.mpr (Nat.ne_of_gt (denominator_pos ha))
  have hb' : (b.denominator.toNat : ℚ) ≠ 0 := Nat.cast_ne_zero.mpr (Nat.ne_of_gt (denominator_pos hb))
  unfold cross
  rw [value_eq, value_eq, signed_mul, signed_mul]
  push_cast
  field_simp

theorem denominators_ne_zero (hfit : a.DenominatorsFit b) : a.denominator * b.denominator ≠ 0 :=
  ne_zero_of_toNat (toNat_mul_of_lt hfit) (Nat.mul_pos (denominator_pos ha) (denominator_pos hb))

theorem represents_sum {negative : Bool} {n : BitVec 64} (r : BitVec 64) (hfit : a.DenominatorsFit b)
    (h : signed negative n.toNat = cross a b + cross b a) :
    Represents (make n (a.denominator * b.denominator) r negative) (a.value + b.value) := by
  have hprod := toNat_mul_of_lt hfit
  have hd := denominators_ne_zero ha hb hfit
  have hpos : ((a.denominator * b.denominator).toNat : ℚ) ≠ 0 :=
    Nat.cast_ne_zero.mpr (Nat.ne_of_gt (denominator_pos (a := ⟨false, 0, _⟩) hd))
  apply represents_make r hd
  rw [h, value_add ha hb]
  rw [hprod] at hpos ⊢
  push_cast at hpos ⊢
  rw [div_mul_cancel₀ _ hpos]

theorem represents_add (hfits : a.CrossFits b) (hden : a.DenominatorsFit b)
    (hsum : a.negative = b.negative → a.SumFits b) : Represents (a.add b) (a.value + b.value) := by
  have hx := toNat_mul_of_lt hfits.1
  have hy := toNat_mul_of_lt hfits.2
  unfold add
  by_cases hsign : a.negative = b.negative
  · rw [if_neg (by rw [hsign]; simp)]
    apply represents_sum ha hb _ hden
    rw [sum_add hsign (by rw [hx, hy]; exact hsum hsign), hx, hy]
    rfl
  · rw [if_pos (by cases hna : a.negative <;> cases hnb : b.negative <;> simp_all)]
    by_cases hgt : a.numerator * b.denominator > b.numerator * a.denominator
    · rw [if_pos hgt]
      apply represents_sum ha hb _ hden
      rw [sum_sub hsign (Nat.le_of_lt (BitVec.lt_def.mp hgt)), hx, hy]
      rfl
    · rw [if_neg hgt]
      apply represents_sum ha hb _ hden
      rw [sum_not_sub hsign (Nat.le_of_not_lt fun hlt => hgt (BitVec.lt_def.mpr hlt)), hx, hy]
      rfl

omit ha hb in
theorem sub_eq_add (a b : Rational) : a.sub b = a.add { b with negative := !b.negative } := by
  obtain ⟨p, n, d⟩ := a
  obtain ⟨q, m, e⟩ := b
  cases p <;> cases q <;> rfl

theorem represents_sub (hfits : a.CrossFits b) (hden : a.DenominatorsFit b)
    (hsum : a.negative ≠ b.negative → a.SumFits b) : Represents (a.sub b) (a.value - b.value) := by
  have hneg : ({ b with negative := !b.negative } : Rational).value = -b.value := by
    rw [value_eq, value_eq, ← neg_div]
    cases b.negative <;> simp
  rw [sub_eq_add, sub_eq_add_neg, ← hneg]
  refine represents_add ha hb hfits hden fun hsign => hsum ?_
  rw [hsign]
  cases b.negative <;> simp

theorem represents_mul (hnum : a.numerator.toNat * b.numerator.toNat < 2 ^ 64)
    (hden : a.DenominatorsFit b) : Represents (a.mul b) (a.value * b.value) := by
  have hd := denominators_ne_zero ha hb hden
  have ha' : (a.denominator.toNat : ℚ) ≠ 0 := Nat.cast_ne_zero.mpr (Nat.ne_of_gt (denominator_pos ha))
  have hb' : (b.denominator.toNat : ℚ) ≠ 0 := Nat.cast_ne_zero.mpr (Nat.ne_of_gt (denominator_pos hb))
  apply represents_make _ hd
  rw [toNat_mul_of_lt hnum, toNat_mul_of_lt hden, signed_xor, value_eq, value_eq]
  push_cast
  field_simp

theorem represents_div (hzero : b.numerator ≠ 0) (hfits : a.CrossFits b) :
    Represents (a.div b) (a.value / b.value) := by
  have hy := toNat_mul_of_lt hfits.2
  have hbpos : 0 < b.numerator.toNat :=
    Nat.pos_of_ne_zero fun hz => hzero (BitVec.eq_of_toNat_eq hz)
  have ha' : (a.denominator.toNat : ℚ) ≠ 0 := Nat.cast_ne_zero.mpr (Nat.ne_of_gt (denominator_pos ha))
  have hb' : (b.denominator.toNat : ℚ) ≠ 0 := Nat.cast_ne_zero.mpr (Nat.ne_of_gt (denominator_pos hb))
  have hn' : (b.numerator.toNat : ℚ) ≠ 0 := Nat.cast_ne_zero.mpr (Nat.ne_of_gt hbpos)
  have hd : a.denominator * b.numerator ≠ 0 := by
    rw [BitVec.mul_comm]
    exact ne_zero_of_toNat hy (Nat.mul_pos hbpos (denominator_pos ha))
  apply represents_make _ hd
  rw [toNat_mul_of_lt hfits.1, BitVec.mul_comm, hy, value_eq, value_eq]
  cases a.negative <;> cases b.negative <;> simp <;> field_simp

end Operators

/-! ## With an `int` -/

section Ints

variable {a b : Rational} {i : BitVec 32}

theorem represents_shift {x : BitVec 64} {q : Bool} {z : ℤ} (ha : a.denominator ≠ 0)
    (hx : signed q x.toNat = z * a.denominator.toNat)
    (hsum : q = a.negative → a.numerator.toNat + x.toNat < 2 ^ 64) :
    Represents (if q == a.negative then { a with numerator := a.numerator + x }
      else if x ≤ a.numerator then { a with numerator := a.numerator - x }
      else { a with numerator := x - a.numerator, negative := !a.negative }) (a.value + z) := by
  have ha' : (a.denominator.toNat : ℚ) ≠ 0 := Nat.cast_ne_zero.mpr (Nat.ne_of_gt (denominator_pos ha))
  have hvalue : ∀ {p : Bool} {n : BitVec 64},
      signed p n.toNat = signed a.negative a.numerator.toNat + signed q x.toNat →
      Represents ⟨p, n, a.denominator⟩ (a.value + z) := by
    intro p n h
    apply represents_mk ha
    rw [h, hx, value_eq]
    push_cast
    field_simp
  by_cases hsign : q = a.negative
  · rw [if_pos (beq_iff_eq.mpr hsign)]
    exact hvalue (sum_add hsign.symm (hsum hsign))
  · rw [if_neg (fun h => hsign (beq_iff_eq.mp h))]
    by_cases hle : x ≤ a.numerator
    · rw [if_pos hle]
      exact hvalue (sum_sub (Ne.symm hsign) (BitVec.le_def.mp hle))
    · rw [if_neg hle]
      have hlt : a.numerator.toNat ≤ x.toNat :=
        Nat.le_of_lt (Nat.lt_of_not_le fun h => hle (BitVec.le_def.mpr h))
      exact hvalue (sum_not_sub (Ne.symm hsign) hlt)

theorem toNat_extend_abs (hi : i ≠ intMin) : (extend (abs i)).toNat = i.toInt.natAbs := by
  rw [extend_abs hi, toNat_abs_extend]

theorem toNat_product (hi : i ≠ intMin) {x : BitVec 64} (h : i.toInt.natAbs * x.toNat < 2 ^ 64) :
    (extend (abs i) * x).toNat = i.toInt.natAbs * x.toNat := by
  rw [← toNat_extend_abs hi] at h ⊢
  exact toNat_mul_of_lt h

theorem represents_addInt (ha : a.denominator ≠ 0) (hi : i ≠ intMin)
    (hfits : i.toInt.natAbs * a.denominator.toNat < 2 ^ 64)
    (hsum : i.slt 0 = a.negative →
      a.numerator.toNat + i.toInt.natAbs * a.denominator.toNat < 2 ^ 64) :
    Represents (a.addInt i) (a.value + i.toInt) := by
  have hx := toNat_product hi hfits
  apply represents_shift ha
  · rw [hx, signed_mul, signed_toInt]
  · rw [hx]
    exact hsum

theorem represents_subInt (ha : a.denominator ≠ 0) (hi : i ≠ intMin)
    (hfits : i.toInt.natAbs * a.denominator.toNat < 2 ^ 64)
    (hsum : i.slt 0 ≠ a.negative →
      a.numerator.toNat + i.toInt.natAbs * a.denominator.toNat < 2 ^ 64) :
    Represents (a.subInt i) (a.value - i.toInt) := by
  have hx := toNat_product hi hfits
  have hturn : ∀ p q : Bool, (p != q) = ((!p) == q) := by
    intro p q
    cases p <;> cases q <;> rfl
  have hsigned : signed (!i.slt 0) i.toInt.natAbs = -i.toInt := by
    rw [← signed_toInt i]
    cases i.slt 0 <;> simp
  have hshift := represents_shift (q := !i.slt 0) (z := -i.toInt) ha
    (by rw [hx, signed_mul, hsigned]) (by
      rw [hx]
      intro h
      apply hsum
      rw [← h]
      cases i.slt 0 <;> simp)
  unfold subInt
  rw [hturn]
  rw [Int.cast_neg, ← sub_eq_add_neg] at hshift
  exact hshift

theorem represents_mulInt (ha : a.denominator ≠ 0) (hi : i ≠ intMin)
    (hfits : a.numerator.toNat * i.toInt.natAbs < 2 ^ 64) :
    Represents (a.mulInt i) (a.value * i.toInt) := by
  have ha' : (a.denominator.toNat : ℚ) ≠ 0 := Nat.cast_ne_zero.mpr (Nat.ne_of_gt (denominator_pos ha))
  have hx : (a.numerator * extend (abs i)).toNat = a.numerator.toNat * i.toInt.natAbs := by
    rw [← toNat_extend_abs hi] at hfits ⊢
    exact toNat_mul_of_lt hfits
  apply represents_make _ ha
  rw [hx, Bool.xor_comm, signed_xor, signed_toInt, value_eq]
  push_cast
  field_simp

theorem represents_divInt (ha : a.denominator ≠ 0) (hi : i ≠ intMin) (hzero : i ≠ 0)
    (hfits : a.denominator.toNat * i.toInt.natAbs < 2 ^ 64) :
    Represents (a.divInt i) (a.value / i.toInt) := by
  have ha' : (a.denominator.toNat : ℚ) ≠ 0 := Nat.cast_ne_zero.mpr (Nat.ne_of_gt (denominator_pos ha))
  have hint : i.toInt ≠ 0 := fun hz => hzero (BitVec.eq_of_toInt_eq hz)
  have hi' : (i.toInt.natAbs : ℚ) ≠ 0 := Nat.cast_ne_zero.mpr (Int.natAbs_ne_zero.mpr hint)
  have hx : (a.denominator * extend (abs i)).toNat = a.denominator.toNat * i.toInt.natAbs := by
    rw [← toNat_extend_abs hi] at hfits ⊢
    exact toNat_mul_of_lt hfits
  apply represents_make
  · exact ne_zero_of_toNat hx (Nat.mul_pos (denominator_pos ha) (Int.natAbs_pos.mpr hint))
  · have hvalue : (i.toInt : ℚ) = signed (i.slt 0) i.toInt.natAbs := by rw [signed_toInt]
    rw [hx, value_eq, hvalue]
    generalize i.toInt.natAbs = m at hi'
    cases i.slt 0 <;> cases a.negative <;> simp <;> field_simp

end Ints

/-! ## The integer part and the remainder -/

section Parts

variable {a : Rational}

theorem toNat_quotient (a : Rational) :
    (a.numerator / a.denominator).toNat = a.numerator.toNat / a.denominator.toNat := BitVec.toNat_udiv

/-- The integer part is an `int`. -/
def PartFits (a : Rational) : Prop :=
  -2 ^ 31 ≤ signed a.negative (a.numerator.toNat / a.denominator.toNat) ∧
    signed a.negative (a.numerator.toNat / a.denominator.toNat) < 2 ^ 31

instance (a : Rational) : Decidable a.PartFits := inferInstanceAs (Decidable (_ ∧ _))

theorem toInt_integerPart (h : a.PartFits) :
    a.integerPart.toInt = signed a.negative (a.numerator.toNat / a.denominator.toNat) := by
  have hq := toNat_quotient a
  unfold PartFits at h
  unfold integerPart
  have hlt := (a.numerator / a.denominator).isLt
  rw [hq] at hlt
  cases hneg : a.negative with
  | true =>
    rw [hneg, signed_true] at h
    rw [if_pos rfl, signed_true, BitVec.toInt_setWidth, BitVec.toNat_neg, hq, Int.bmod_def]
    omega
  | false =>
    rw [hneg, signed_false] at h
    rw [if_neg Bool.false_ne_true, signed_false, BitVec.toInt_setWidth, hq, Int.bmod_def]
    omega

theorem represents_remainder (ha : a.denominator ≠ 0) :
    Represents a.remainder
      (signed a.negative (a.numerator.toNat % a.denominator.toNat) / a.denominator.toNat) := by
  have ha' : (a.denominator.toNat : ℚ) ≠ 0 := Nat.cast_ne_zero.mpr (Nat.ne_of_gt (denominator_pos ha))
  have hle : a.denominator.toNat * (a.numerator.toNat / a.denominator.toNat) ≤ a.numerator.toNat :=
    Nat.mul_div_le _ _
  have hprod : (a.denominator * (a.numerator / a.denominator)).toNat
      = a.denominator.toNat * (a.numerator.toNat / a.denominator.toNat) := by
    rw [← toNat_quotient]
    apply toNat_mul_of_lt
    rw [toNat_quotient]
    exact Nat.lt_of_le_of_lt hle a.numerator.isLt
  have hrest : (a.numerator - a.denominator * (a.numerator / a.denominator)).toNat
      = a.numerator.toNat % a.denominator.toNat := by
    rw [BitVec.toNat_sub_of_le (BitVec.le_def.mpr (by rw [hprod]; exact hle)), hprod, Nat.mod_def]
  apply represents_make _ ha
  rw [hrest, div_mul_cancel₀ _ ha']

theorem integerPart_add_remainder (ha : a.denominator ≠ 0) (h : a.PartFits) :
    (a.integerPart.toInt : ℚ) + a.remainder.value = a.value := by
  have ha' : (a.denominator.toNat : ℚ) ≠ 0 := Nat.cast_ne_zero.mpr (Nat.ne_of_gt (denominator_pos ha))
  have hdiv : (a.numerator.toNat : ℚ) = (a.numerator.toNat / a.denominator.toNat : Nat)
      * a.denominator.toNat + (a.numerator.toNat % a.denominator.toNat : Nat) := by
    exact_mod_cast (Nat.div_add_mod' _ _).symm
  rw [toInt_integerPart h, (represents_remainder ha).2, value_eq, eq_div_iff ha', add_mul,
    div_mul_cancel₀ _ ha']
  generalize a.numerator.toNat / a.denominator.toNat = quotient at hdiv ⊢
  generalize a.numerator.toNat % a.denominator.toNat = rest at hdiv ⊢
  cases a.negative with
  | true =>
    rw [signed_true, signed_true, signed_true]
    push_cast
    rw [hdiv]
    ring
  | false =>
    rw [signed_false, signed_false, signed_false]
    push_cast
    exact hdiv.symm

end Parts

/-! ## All together -/

/-- The results of the operators, where the products they take fit in 64 bits, and
the sums where they add. -/
structure ArithmeticExact (a b : Rational) (i : BitVec 32) : Prop where
  add : a.CrossFits b → a.DenominatorsFit b → (a.negative = b.negative → a.SumFits b) →
    Represents (a.add b) (a.value + b.value)
  sub : a.CrossFits b → a.DenominatorsFit b → (a.negative ≠ b.negative → a.SumFits b) →
    Represents (a.sub b) (a.value - b.value)
  mul : a.numerator.toNat * b.numerator.toNat < 2 ^ 64 → a.DenominatorsFit b →
    Represents (a.mul b) (a.value * b.value)
  div : b.numerator ≠ 0 → a.CrossFits b → Represents (a.div b) (a.value / b.value)
  addInt : i.toInt.natAbs * a.denominator.toNat < 2 ^ 64 → (i.slt 0 = a.negative →
      a.numerator.toNat + i.toInt.natAbs * a.denominator.toNat < 2 ^ 64) →
    Represents (a.addInt i) (a.value + i.toInt) ∧ Represents (intAdd i a) (i.toInt + a.value)
  subInt : i.toInt.natAbs * a.denominator.toNat < 2 ^ 64 → (i.slt 0 ≠ a.negative →
      a.numerator.toNat + i.toInt.natAbs * a.denominator.toNat < 2 ^ 64) →
    Represents (a.subInt i) (a.value - i.toInt) ∧ Represents (intSub i a) (i.toInt - a.value)
  mulInt : a.numerator.toNat * i.toInt.natAbs < 2 ^ 64 →
    Represents (a.mulInt i) (a.value * i.toInt) ∧ Represents (intMul i a) (i.toInt * a.value)
  divInt : i ≠ 0 → a.denominator.toNat * i.toInt.natAbs < 2 ^ 64 →
    Represents (a.divInt i) (a.value / i.toInt)
  intDiv : a.numerator ≠ 0 → i.toInt.natAbs * a.denominator.toNat < 2 ^ 64 →
    Represents (intDiv i a) (i.toInt / a.value)
  /-- A common factor is taken off without changing the value. -/
  make : ∀ r : BitVec 64, Represents (make a.numerator a.denominator r a.negative) a.value
  parts : a.PartFits → (a.integerPart.toInt : ℚ) + a.remainder.value = a.value

/-- For rationals with a denominator, and an `int` other than the least. -/
theorem arithmetic_exact (a b : Rational) (i : BitVec 32) (ha : a.denominator ≠ 0)
    (hb : b.denominator ≠ 0) (hi : i ≠ intMin) : ArithmeticExact a b i where
  add := represents_add ha hb
  sub := represents_sub ha hb
  mul := represents_mul ha hb
  div := represents_div ha hb
  addInt hfits hsum := by
    have hadd := represents_addInt ha hi hfits hsum
    refine ⟨hadd, ?_⟩
    rw [add_comm]
    exact hadd
  subInt hfits hsum := by
    refine ⟨represents_subInt ha hi hfits hsum, ?_⟩
    have hone : (ofInt i).denominator ≠ 0 := fun h => nomatch congrArg BitVec.toNat h
    have hnum : (ofInt i).numerator.toNat = i.toInt.natAbs := toNat_abs_extend i
    have hden : (ofInt i).denominator.toNat = 1 := rfl
    have hneg : (ofInt i).negative = i.slt 0 := extend_slt i
    have hlt := a.numerator.isLt
    have hlt' := a.denominator.isLt
    rw [← value_ofInt]
    refine represents_sub hone ha ⟨?_, ?_⟩ ?_ fun hsign => ?_
    · rw [hnum]
      exact hfits
    · rw [hden, Nat.mul_one]
      exact hlt
    · unfold DenominatorsFit
      rw [hden, Nat.one_mul]
      exact hlt'
    · unfold SumFits
      rw [hnum, hden, Nat.mul_one, Nat.add_comm]
      rw [hneg] at hsign
      exact hsum hsign
  mulInt hfits := by
    have hmul := represents_mulInt ha hi hfits
    refine ⟨hmul, ?_⟩
    rw [mul_comm]
    exact hmul
  divInt := represents_divInt ha hi
  intDiv hzero hfits := by
    have hone : (ofInt i).denominator ≠ 0 := fun h => nomatch congrArg BitVec.toNat h
    have hnum : (ofInt i).numerator.toNat = i.toInt.natAbs := toNat_abs_extend i
    have hden : (ofInt i).denominator.toNat = 1 := rfl
    rw [← value_ofInt]
    refine represents_div hone ha hzero ⟨?_, ?_⟩
    · rw [hnum]
      exact hfits
    · rw [hden, Nat.mul_one]
      exact a.numerator.isLt
  make r := by
    have ha' : (a.denominator.toNat : ℚ) ≠ 0 :=
      Nat.cast_ne_zero.mpr (Nat.ne_of_gt (denominator_pos ha))
    apply represents_make r ha
    rw [value_eq, div_mul_cancel₀ _ ha']
  parts := integerPart_add_remainder ha

theorem arithmetic_exact_thirds :
    Represents ((make 1 3 0 true).add (make 1 2 0 false))
        ((make 1 3 0 true).value + (make 1 2 0 false).value) ∧
      ((make 7 3 0 true).integerPart.toInt : ℚ) + (make 7 3 0 true).remainder.value
        = (make 7 3 0 true).value :=
  ⟨(arithmetic_exact (make 1 3 0 true) (make 1 2 0 false) 5 (by decide) (by decide)
      (by decide)).add (by decide) (by decide) (by decide),
    (arithmetic_exact (make 7 3 0 true) (make 1 2 0 false) 5 (by decide) (by decide)
      (by decide)).parts (by decide)⟩

theorem value_whole (n : BitVec 64) : value ⟨false, n, 1⟩ = n.toNat := by
  show (n.toNat : ℚ) / ((1 : Nat) : ℚ) = n.toNat
  rw [Nat.cast_one, div_one]

/-- Products may fit where their sum does not, and an integer part that is no `int`
is cut off. -/
theorem arithmetic_wraps :
    (CrossFits ⟨false, 2 ^ 63, 1⟩ ⟨false, 2 ^ 63, 1⟩ ∧
        DenominatorsFit ⟨false, 2 ^ 63, 1⟩ ⟨false, 2 ^ 63, 1⟩ ∧
        (add ⟨false, 2 ^ 63, 1⟩ ⟨false, 2 ^ 63, 1⟩).value
          ≠ value ⟨false, 2 ^ 63, 1⟩ + value ⟨false, 2 ^ 63, 1⟩) ∧
      ((integerPart ⟨false, 2 ^ 31, 1⟩).toInt : ℚ) + (remainder ⟨false, 2 ^ 31, 1⟩).value
        ≠ value ⟨false, 2 ^ 31, 1⟩ := by
  have hadd : add ⟨false, 2 ^ 63, 1⟩ ⟨false, 2 ^ 63, 1⟩ = ⟨false, 0, 1⟩ := by decide +kernel
  have hpart : (integerPart ⟨false, 2 ^ 31, 1⟩).toInt = -2 ^ 31 := by decide
  have hrest : remainder ⟨false, 2 ^ 31, 1⟩ = ⟨false, 0, 1⟩ := by decide
  have h63 : (2 ^ 63 : BitVec 64).toNat = 2 ^ 63 := by decide
  have h31 : (2 ^ 31 : BitVec 64).toNat = 2 ^ 31 := by decide
  have h0 : (0 : BitVec 64).toNat = 0 := rfl
  refine ⟨⟨by decide, by decide, ?_⟩, ?_⟩
  · rw [hadd, value_whole, value_whole, h63, h0]
    norm_num
  · rw [hpart, hrest, value_whole, value_whole, h31, h0]
    norm_num

end Rational

end Duckbox.ClassDefinitions
