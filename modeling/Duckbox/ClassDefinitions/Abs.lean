import Duckbox.Lib.Signed

/-!
# The magnitude of a machine integer

`Abs`, a macro: of the least integer of a width it is that integer again, and of
every other the magnitude.
-/

namespace Duckbox.ClassDefinitions

open Lib

/-- `Abs`. -/
def abs {w : Nat} (v : BitVec w) : BitVec w := if v.slt 0 then -v else v

theorem slt_zero_iff {w : Nat} (v : BitVec w) : v.slt 0 = true ↔ v.toInt < 0 := by
  rw [BitVec.slt_iff_toInt_lt]
  show v.toInt < (0#w).toInt ↔ _
  rw [BitVec.toInt_zero]

theorem toNat_abs {w : Nat} {v : BitVec w} (h : v ≠ BitVec.intMin w) :
    (abs v).toNat = v.toInt.natAbs := by
  have hnonneg : ∀ x : BitVec w, 0 ≤ x.toInt → x.toNat = x.toInt.natAbs := by
    intro x hx
    have hcond := BitVec.toInt_eq_toNat_cond x
    have hlt := x.isLt
    split at hcond <;> omega
  unfold abs
  split
  · next hneg =>
    have hlt := (slt_zero_iff v).mp hneg
    have htoInt := BitVec.toInt_neg_of_ne_intMin h
    rw [hnonneg (-v) (by omega), htoInt, Int.natAbs_neg]
  · next hneg =>
    have hge : ¬ v.toInt < 0 := fun hlt => hneg ((slt_zero_iff v).mpr hlt)
    exact hnonneg v (by omega)

theorem signed_toInt {w : Nat} (i : BitVec w) : signed (i.slt 0) i.toInt.natAbs = i.toInt := by
  cases hslt : i.slt 0 with
  | true =>
    have hlt := (slt_zero_iff i).mp hslt
    rw [signed_true]
    omega
  | false =>
    have hge : ¬ i.toInt < 0 := fun hlt => nomatch hslt.symm.trans ((slt_zero_iff i).mpr hlt)
    rw [signed_false]
    omega

end Duckbox.ClassDefinitions
