import Mathlib.Tactic.Ring

/-!
# Signed magnitudes

A sign beside a natural number, as the integer that the two stand for. There are
two zeros.
-/

namespace Duckbox.Lib

/-- A magnitude with its sign. -/
def signed (negative : Bool) (x : Nat) : Int := if negative then -x else x

@[simp] theorem signed_true (x : Nat) : signed true x = -x := rfl

@[simp] theorem signed_false (x : Nat) : signed false x = x := rfl

theorem signed_mul (negative : Bool) (x y : Nat) : signed negative (x * y) = signed negative x * y := by
  cases negative <;> simp

theorem signed_xor (p q : Bool) (x y : Nat) :
    signed (p ^^ q) (x * y) = signed p x * signed q y := by
  cases p <;> cases q <;> simp

theorem signed_add (p : Bool) (x y : Nat) : signed p (x + y) = signed p x + signed p y := by
  cases p
  · exact Int.natCast_add x y
  · rw [signed_true, signed_true, signed_true]
    omega

theorem signed_not (p : Bool) (x : Nat) : signed (!p) x = -signed p x := by
  cases p <;> simp

theorem signed_of_ne {p q : Bool} (h : p ≠ q) (x : Nat) : signed q x = -signed p x := by
  obtain rfl : q = !p := Bool.eq_not.mpr h.symm
  exact signed_not p x

theorem signed_sub {x y : Nat} (p : Bool) (h : y ≤ x) : signed p (x - y) = signed p x - signed p y := by
  rw [← Nat.sub_add_cancel h, signed_add, Nat.add_sub_cancel]
  ring

theorem signed_not_sub {x y : Nat} (p : Bool) (h : x ≤ y) :
    signed (!p) (y - x) = signed p x - signed p y := by
  rw [signed_not, signed_sub p h]
  ring

theorem natAbs_signed (p : Bool) (x : Nat) : (signed p x).natAbs = x := by
  cases p <;> simp

theorem signed_div (p : Bool) (x y : Nat) : signed p (x / y) = (signed p x).tdiv y := by
  cases p
  · exact (Int.ofNat_tdiv x y).symm
  · rw [signed_true, signed_true, Int.neg_tdiv, Int.ofNat_tdiv]

end Duckbox.Lib
