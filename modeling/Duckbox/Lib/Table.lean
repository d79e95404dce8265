/-!
# Fixed tables

A C array of `n` records, read and written by an index: reading past the end
gives a zero record, writing there does nothing. `tally n q` counts the indices
below `n` that satisfy `q`; writing one record changes a tally by what that
record contributed before and after (`tally_change`).
-/

namespace Duckbox.Lib

variable {α : Type} {n : Nat}

namespace Table

/-- `t[i]`, `zero` past the end. -/
def read (zero : α) (t : Vector α n) (i : Nat) : α := t[i]?.getD zero

/-- `t[i] = x`. -/
def write (t : Vector α n) (i : Nat) (x : α) : Vector α n := t.setIfInBounds i x

theorem read_write_eq {zero x : α} {t : Vector α n} {i : Nat} (h : i < n) :
    read zero (write t i x) i = x := by
  simp [read, write, h]

theorem read_write_ne {zero x : α} {t : Vector α n} {i j : Nat} (h : i ≠ j) :
    read zero (write t i x) j = read zero t j := by
  simp [read, write, h]

theorem read_of_le {zero : α} {t : Vector α n} {i : Nat} (h : n ≤ i) : read zero t i = zero := by
  simp [read, Vector.getElem?_eq_none h]

theorem read_replicate {zero : α} (i : Nat) : read zero (Vector.replicate n zero) i = zero := by
  by_cases h : i < n
  · simp [read, h]
  · exact read_of_le (Nat.le_of_not_lt h)

end Table

/-! ## Tallies -/

/-- How many indices below `n` satisfy `q`. -/
def tally (q : Nat → Bool) : Nat → Nat
  | 0 => 0
  | k + 1 => tally q k + (q k).toNat

theorem tally_congr {q r : Nat → Bool} {k : Nat} (h : ∀ i, i < k → q i = r i) :
    tally q k = tally r k := by
  induction k with
  | zero => rfl
  | succ k ih =>
    unfold tally
    rw [ih (fun i hi => h i (Nat.lt_succ_of_lt hi)), h k (Nat.lt_succ_self k)]

/-- Two properties that differ in one index only. -/
theorem tally_change {q r : Nat → Bool} {j : Nat} (hsame : ∀ i, i ≠ j → r i = q i) :
    ∀ {k : Nat}, j < k → tally r k + (q j).toNat = tally q k + (r j).toNat
  | 0, h => absurd h (Nat.not_lt_zero j)
  | k + 1, h => by
    unfold tally
    rcases Nat.lt_succ_iff_lt_or_eq.mp h with hlt | rfl
    · have ih := tally_change hsame hlt
      rw [hsame k (Nat.ne_of_gt hlt)]
      omega
    · rw [tally_congr (fun i hi => hsame i (Nat.ne_of_lt hi))]
      omega

theorem tally_eq_zero {q : Nat → Bool} {k : Nat} (h : ∀ i, i < k → q i = false) :
    tally q k = 0 := by
  induction k with
  | zero => rfl
  | succ k ih =>
    unfold tally
    rw [ih (fun i hi => h i (Nat.lt_succ_of_lt hi)), h k (Nat.lt_succ_self k)]
    rfl

theorem tally_single {q : Nat → Bool} {j k : Nat} (hj : j < k)
    (h : ∀ i, i < k → i ≠ j → q i = false) : tally q k = (q j).toNat := by
  have hcongr : tally q k = tally (fun i => if i = j then q j else false) k := by
    apply tally_congr
    intro i hi
    by_cases hij : i = j
    · rw [if_pos hij, hij]
    · rw [if_neg hij, h i hi hij]
  have hchange := tally_change (q := fun _ => false) (r := fun i => if i = j then q j else false)
    (fun i hi => if_neg hi) hj
  rw [tally_eq_zero (q := fun _ => false) fun _ _ => rfl, if_pos rfl] at hchange
  rw [hcongr]
  simpa using hchange

theorem tally_le (q : Nat → Bool) (k : Nat) : tally q k ≤ k := by
  induction k with
  | zero => exact Nat.le_refl 0
  | succ k ih =>
    have hone : (q k).toNat ≤ 1 := Bool.toNat_le (q k)
    unfold tally
    omega

end Duckbox.Lib
