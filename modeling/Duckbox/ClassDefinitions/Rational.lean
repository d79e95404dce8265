import Duckbox.ClassDefinitions.Abs
import Mathlib.Algebra.Order.Field.Rat

/-!
# Rationals

`Rational_c`: a sign beside an `unsigned long long` numerator and denominator,
whose operators wrap. An `int` operand is extended to 64 bits where it meets
them, as `Abs` of it is; `Abs` of the least `int` is that `int` again.

The operators are the source's, one each; `value` is the number that a rational
stands for, where its denominator is not 0.
-/

namespace Duckbox.ClassDefinitions

/-- An `int` as an `unsigned long long`. -/
def extend (i : BitVec 32) : BitVec 64 := i.signExtend 64

/-- `Rational_c`. -/
structure Rational where
  negative : Bool
  numerator : BitVec 64
  denominator : BitVec 64
deriving DecidableEq, Repr

namespace Rational

/-! ## Construction -/

/-- `Rational_c( N )`. -/
def ofLongLong (n : BitVec 64) : Rational := ⟨n.slt 0, abs n, 1⟩

/-- `Rational_c( N, D )`. -/
def ofLongLongs (n d : BitVec 64) : Rational := ⟨n.slt 0 ^^ d.slt 0, abs n, abs d⟩

/-- `Rational_c( I )` for an `int`. -/
def ofInt (i : BitVec 32) : Rational := ofLongLong (extend i)

/-- `Rational_c( N, D, R, Neg )`, which divides both by `R` if that is exact. -/
def make (n d r : BitVec 64) (negative : Bool) : Rational :=
  if r ≠ 0 ∧ r * (n / r) = n ∧ r * (d / r) = d then ⟨negative, n / r, d / r⟩ else ⟨negative, n, d⟩

/-! ## Comparison -/

/-- `==`. -/
def eq (a f : Rational) : Bool :=
  a.negative == f.negative && a.numerator * f.denominator == f.numerator * a.denominator

/-- `==` with an `int`. -/
def eqInt (a : Rational) (i : BitVec 32) : Bool :=
  a.negative == i.slt 0 && a.numerator == extend (abs i) * a.denominator

/-- `!=`. -/
def ne (a f : Rational) : Bool :=
  a.negative != f.negative || a.numerator * f.denominator != f.numerator * a.denominator

/-- `!=` with an `int`. -/
def neInt (a : Rational) (i : BitVec 32) : Bool :=
  a.negative != i.slt 0 || a.numerator != extend (abs i) * a.denominator

/-- `>=`. -/
def ge (a f : Rational) : Bool :=
  if a.negative then
    if f.negative then decide (a.numerator * f.denominator ≤ f.numerator * a.denominator)
    else a.numerator == 0 && f.numerator == 0
  else
    if f.negative then true
    else decide (a.numerator * f.denominator ≥ f.numerator * a.denominator)

/-- `>=` with an `int`. -/
def geInt (a : Rational) (i : BitVec 32) : Bool := a.ge (ofInt i)

/-- `>`. -/
def gt (a f : Rational) : Bool :=
  if a.negative then
    if f.negative then decide (a.numerator * f.denominator < f.numerator * a.denominator)
    else false
  else
    if f.negative then a.numerator == 0 && f.numerator == 0
    else decide (a.numerator * f.denominator > f.numerator * a.denominator)

/-- `>` with an `int`. -/
def gtInt (a : Rational) (i : BitVec 32) : Bool := a.gt (ofInt i)

/-- `<=`. -/
def le (a f : Rational) : Bool := !a.gt f

/-- `<=` with an `int`. -/
def leInt (a : Rational) (i : BitVec 32) : Bool := !a.gtInt i

/-- `<`. -/
def lt (a f : Rational) : Bool := !a.ge f

/-- `<` with an `int`. -/
def ltInt (a : Rational) (i : BitVec 32) : Bool := !a.geInt i

/-! ## Arithmetic -/

/-- `+`. -/
def add (a f : Rational) : Rational :=
  let x := a.numerator * f.denominator
  let y := f.numerator * a.denominator
  let d := a.denominator * f.denominator
  if a.negative ^^ f.negative then
    if x > y then make (x - y) d a.denominator a.negative
    else make (y - x) d a.denominator (!a.negative)
  else make (x + y) d a.denominator a.negative

/-- `+` with an `int`. -/
def addInt (a : Rational) (i : BitVec 32) : Rational :=
  let x := extend (abs i) * a.denominator
  if i.slt 0 == a.negative then { a with numerator := a.numerator + x }
  else if x ≤ a.numerator then { a with numerator := a.numerator - x }
  else { a with numerator := x - a.numerator, negative := !a.negative }

/-- `-`. -/
def sub (a f : Rational) : Rational :=
  let x := a.numerator * f.denominator
  let y := f.numerator * a.denominator
  let d := a.denominator * f.denominator
  if a.negative ^^ f.negative then make (x + y) d a.denominator a.negative
  else
    if x > y then make (x - y) d a.denominator a.negative
    else make (y - x) d a.denominator (!a.negative)

/-- `-` with an `int`. -/
def subInt (a : Rational) (i : BitVec 32) : Rational :=
  let x := extend (abs i) * a.denominator
  if i.slt 0 != a.negative then { a with numerator := a.numerator + x }
  else if x ≤ a.numerator then { a with numerator := a.numerator - x }
  else { a with numerator := x - a.numerator, negative := !a.negative }

/-- `min`. -/
def minimum (x y : BitVec 64) : BitVec 64 := if x < y then x else y

/-- `*`. -/
def mul (a f : Rational) : Rational :=
  make (a.numerator * f.numerator) (a.denominator * f.denominator)
    (minimum a.denominator f.denominator) (a.negative ^^ f.negative)

/-- `*` with an `int`. -/
def mulInt (a : Rational) (v : BitVec 32) : Rational :=
  make (a.numerator * extend (abs v)) a.denominator (minimum a.denominator (extend (abs v)))
    (v.slt 0 ^^ a.negative)

/-- `/`. -/
def div (a f : Rational) : Rational :=
  let factor := if a.numerator = f.numerator then a.numerator
    else if a.denominator = f.denominator then a.denominator
    else 10
  make (a.numerator * f.denominator) (a.denominator * f.numerator) factor (a.negative ^^ f.negative)

/-- `/` with an `int`. -/
def divInt (a : Rational) (v : BitVec 32) : Rational :=
  make a.numerator (a.denominator * extend (abs v)) (extend (abs v)) (v.slt 0 ^^ a.negative)

/-! With the `int` on the left. -/

def intAdd (i : BitVec 32) (f : Rational) : Rational := f.addInt i

def intSub (i : BitVec 32) (f : Rational) : Rational := (ofInt i).sub f

def intMul (v : BitVec 32) (f : Rational) : Rational := f.mulInt v

def intDiv (v : BitVec 32) (f : Rational) : Rational := (ofInt v).div f

/-! ## Extraction -/

/-- `LongLongIntegerPart`. -/
def longLongIntegerPart (a : Rational) : BitVec 64 :=
  if a.denominator = 0 then -1
  else if a.negative then -(a.numerator / a.denominator)
  else a.numerator / a.denominator

/-- `IntegerPart`. -/
def integerPart (a : Rational) : BitVec 32 :=
  (if a.negative then -(a.numerator / a.denominator) else a.numerator / a.denominator).setWidth 32

/-- `RoundedLongLongIntegerPart`. -/
def roundedLongLongIntegerPart (a : Rational) : BitVec 64 :=
  if a.negative then -((a.numerator + a.denominator / 2) / a.denominator)
  else (a.numerator + a.denominator / 2) / a.denominator

/-- `Remainder`. -/
def remainder (a : Rational) : Rational :=
  make (a.numerator - a.denominator * (a.numerator / a.denominator)) a.denominator 3 a.negative

/-! ## Restriction -/

theorem exact_iff_dvd {r n : BitVec 64} : r * (n / r) = n ↔ r.toNat ∣ n.toNat := by
  have hle : r.toNat * (n.toNat / r.toNat) ≤ n.toNat := Nat.mul_div_le _ _
  have hmul : (r * (n / r)).toNat = r.toNat * (n.toNat / r.toNat) := by
    rw [BitVec.toNat_mul, BitVec.toNat_udiv, Nat.mod_eq_of_lt (Nat.lt_of_le_of_lt hle n.isLt)]
  rw [← BitVec.toNat_inj, hmul, Nat.dvd_iff_mod_eq_zero, Nat.mod_eq_sub_mul_div]
  omega

/-- How far down `Restrict` shifts, less one: the place of the top bit of what
sticks out over 32 bits. -/
def shiftOf (tmp : BitVec 64) : Nat :=
  let shift := if tmp &&& 0xffff0000 ≠ 0 then 16 else 0
  let shift := shift + if (tmp >>> shift) &&& 0x0000ff00 ≠ 0 then 8 else 0
  let shift := shift + if (tmp >>> shift) &&& 0x000000f0 ≠ 0 then 4 else 0
  let shift := shift + if (tmp >>> shift) &&& 0x0000000c ≠ 0 then 2 else 0
  shift + if (tmp >>> shift) &&& 0x00000002 ≠ 0 then 1 else 0

/-- The first half of `Restrict`. The constants are an `unsigned int` and an `int`. -/
def shiftDown (a : Rational) : Rational :=
  let tmp := (a.numerator ||| a.denominator) >>> 32
  if tmp ≠ 0 then
    let shift := shiftOf tmp
    let spareBitsForArithmetic := 31 - shift
    let a :=
      if a.denominator < 1#64 <<< spareBitsForArithmetic then
        let newDenominator := a.denominator &&& (0xffffffff#32 <<< (shift + 1)).setWidth 64
        { a with
          numerator := (a.numerator * newDenominator) / a.denominator
          denominator := newDenominator }
      else a
    let half := extend (1#32 <<< shift)
    { a with
      numerator := (a.numerator + half) >>> (shift + 1)
      denominator := (a.denominator + half) >>> (shift + 1) }
  else a

/-- The loop that takes factors of ten off, at most `k` of them. -/
def takeTens : Nat → Rational → Rational
  | 0, a => a
  | k + 1, a =>
    if 10 * (a.numerator / 10) = a.numerator ∧ 10 * (a.denominator / 10) = a.denominator then
      takeTens k { a with numerator := a.numerator / 10, denominator := a.denominator / 10 }
    else a

/-- The second half: "three oft repeated conditions". A number below `2 ^ 64` other
than 0 has fewer than 64 factors of ten. -/
def simplify (a : Rational) : Rational :=
  if a.denominator ≠ 1 ∧ a.numerator ≠ 1 ∧ a.denominator ≠ 0 then
    if a.denominator * (a.numerator / a.denominator) = a.numerator then
      { a with numerator := a.numerator / a.denominator, denominator := 1 }
    else if a.numerator * (a.denominator / a.numerator) = a.denominator then
      { a with
        denominator := a.denominator / a.numerator
        numerator := a.numerator / a.numerator }
    else takeTens 64 a
  else a

/-- `Restrict`. -/
def restrict (a : Rational) : Rational := a.shiftDown.simplify

/-- `operator=`. -/
def assign (r : Rational) : Rational := r.restrict

/-! ## The number -/

/-- The number that a rational stands for. -/
def value (a : Rational) : ℚ :=
  (if a.negative then -(a.numerator.toNat : ℚ) else a.numerator.toNat) / a.denominator.toNat

end Rational

end Duckbox.ClassDefinitions
