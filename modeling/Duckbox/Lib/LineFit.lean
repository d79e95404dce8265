import Mathlib.Algebra.Order.BigOperators.Group.List
import Mathlib.Algebra.Order.Field.Basic
import Mathlib.Tactic.FieldSimp
import Mathlib.Tactic.LinearCombination
import Mathlib.Tactic.Linarith
import Mathlib.Tactic.Ring

/-!
# Least squares

The line through a list of points `(x, y)` whose squared errors add up to the
least. It solves the normal equations (`Normal`), which have one solution unless
every point is at the same `x` (`spread_pos`), and that solution is the slope and
the intercept of the textbook. A line that all points are on solves them.
-/

namespace Duckbox.Lib.LineFit

section Sums

variable {R : Type} [CommRing R]

/-- The sum of `f` over the points. -/
def total (f : R × R → R) (ps : List (R × R)) : R := (ps.map f).sum

@[simp] theorem total_nil (f : R × R → R) : total f [] = 0 := rfl

@[simp] theorem total_cons (f : R × R → R) (p : R × R) (ps : List (R × R)) :
    total f (p :: ps) = f p + total f ps := by
  unfold total
  rw [List.map_cons, List.sum_cons]

theorem total_concat (f : R × R → R) (ps : List (R × R)) (p : R × R) :
    total f (ps ++ [p]) = total f ps + f p := by
  unfold total
  rw [List.map_append, List.sum_append, List.map_singleton, List.sum_singleton]

def sumX : List (R × R) → R := total fun p => p.1

def sumY : List (R × R) → R := total fun p => p.2

def sumXX : List (R × R) → R := total fun p => p.1 * p.1

def sumXY : List (R × R) → R := total fun p => p.1 * p.2

/-- How far the points are apart in `x`. -/
def spread (ps : List (R × R)) : R := ps.length * sumXX ps - sumX ps * sumX ps

theorem total_line_sq (a b : R) (ps : List (R × R)) :
    total (fun p => (a * p.1 + b) ^ 2) ps =
      a ^ 2 * sumXX ps + 2 * a * b * sumX ps + ps.length * b ^ 2 := by
  unfold sumXX sumX
  induction ps with
  | nil => simp
  | cons p ps ih =>
    rw [total_cons, total_cons, total_cons, ih, List.length_cons]
    push_cast
    ring

theorem spread_cons (p : R × R) (ps : List (R × R)) :
    spread (p :: ps) = spread ps + total (fun q => (-1 * q.1 + p.1) ^ 2) ps := by
  rw [total_line_sq]
  unfold spread sumXX sumX
  rw [total_cons, total_cons, List.length_cons]
  push_cast
  ring

variable {S : Type} [CommRing S]

theorem total_map (f : R →+* S) {g : R × R → R} {g' : S × S → S}
    (h : ∀ p, g' (Prod.map f f p) = f (g p)) (ps : List (R × R)) :
    total g' (ps.map (Prod.map f f)) = f (total g ps) := by
  induction ps with
  | nil => exact (map_zero f).symm
  | cons p ps ih => rw [List.map_cons, total_cons, total_cons, ih, h, map_add]

end Sums

section Fit

variable {K : Type} [Field K]

/-- The normal equations of a line. -/
structure Normal (a b : K) (ps : List (K × K)) : Prop where
  moment : sumXY ps = a * sumXX ps + b * sumX ps
  mean : sumY ps = a * sumX ps + b * ps.length

def slope (ps : List (K × K)) : K := (ps.length * sumXY ps - sumX ps * sumY ps) / spread ps

def intercept (ps : List (K × K)) : K := (sumY ps * sumXX ps - sumX ps * sumXY ps) / spread ps

/-- The sum of the squared errors of a line. -/
def error (a b : K) (ps : List (K × K)) : K := total (fun p => (p.2 - (a * p.1 + b)) ^ 2) ps

variable {a b : K} {ps : List (K × K)}

theorem normal_slope_intercept (h : spread ps ≠ 0) : Normal (slope ps) (intercept ps) ps := by
  constructor
  · unfold slope intercept
    field_simp
    unfold spread
    ring
  · unfold slope intercept
    field_simp
    unfold spread
    ring

theorem Normal.unique (hn : Normal a b ps) (h : spread ps ≠ 0) :
    a = slope ps ∧ b = intercept ps := by
  constructor
  · unfold slope
    rw [eq_div_iff h, hn.moment, hn.mean]
    unfold spread
    ring
  · unfold intercept
    rw [eq_div_iff h, hn.moment, hn.mean]
    unfold spread
    ring

theorem normal_of_collinear (h : ∀ p ∈ ps, p.2 = a * p.1 + b) : Normal a b ps := by
  constructor
  · unfold sumXY sumXX sumX
    induction ps with
    | nil => simp
    | cons p ps ih =>
      have hp := h p List.mem_cons_self
      rw [total_cons, total_cons, total_cons, ih fun q hq => h q (List.mem_cons_of_mem _ hq), hp]
      ring
  · unfold sumY sumX
    induction ps with
    | nil => simp
    | cons p ps ih =>
      have hp := h p List.mem_cons_self
      rw [total_cons, total_cons, ih fun q hq => h q (List.mem_cons_of_mem _ hq), hp,
        List.length_cons]
      push_cast
      ring

theorem Normal.error_eq (hn : Normal a b ps) (a' b' : K) :
    error a' b' ps = error a b ps + total (fun p => ((a' - a) * p.1 + (b' - b)) ^ 2) ps := by
  have hexpand (c d : K) : error c d ps = total (fun p => p.2 ^ 2) ps - 2 * c * sumXY ps -
      2 * d * sumY ps + (c ^ 2 * sumXX ps + 2 * c * d * sumX ps + ps.length * d ^ 2) := by
    rw [← total_line_sq]
    unfold error sumXY sumY
    clear hn
    induction ps with
    | nil => simp
    | cons p ps ih =>
      rw [total_cons, total_cons, total_cons, total_cons, total_cons, ih]
      ring
  rw [hexpand, hexpand, total_line_sq, hn.moment, hn.mean]
  ring

end Fit

section Order

variable {K : Type} [Field K] [LinearOrder K] [IsStrictOrderedRing K]

/-- A line with the least error. -/
def Least (a b : K) (ps : List (K × K)) : Prop := ∀ a' b', error a b ps ≤ error a' b' ps

theorem total_nonneg {f : K × K → K} (ps : List (K × K)) (h : ∀ p ∈ ps, 0 ≤ f p) :
    0 ≤ total f ps := by
  apply List.sum_nonneg
  intro x hx
  obtain ⟨p, hp, rfl⟩ := List.mem_map.mp hx
  exact h p hp

theorem total_sq_eq_zero {f : K × K → K} (ps : List (K × K))
    (h : total (fun p => f p ^ 2) ps = 0) : ∀ p ∈ ps, f p = 0 := by
  induction ps with
  | nil => exact fun _ hp => absurd hp List.not_mem_nil
  | cons q ps ih =>
    have hrest : 0 ≤ total (fun p => f p ^ 2) ps := total_nonneg ps fun p _ => sq_nonneg (f p)
    have hq := sq_nonneg (f q)
    rw [total_cons] at h
    intro p hp
    rcases List.mem_cons.mp hp with rfl | hp
    · exact pow_eq_zero_iff (two_ne_zero) |>.mp (by linarith)
    · exact ih (by linarith) p hp

theorem spread_nonneg (ps : List (K × K)) : 0 ≤ spread ps := by
  induction ps with
  | nil => simp [spread, sumXX, sumX]
  | cons p ps ih =>
    rw [spread_cons]
    have hsq := total_nonneg ps fun q _ => sq_nonneg (-1 * q.1 + p.1)
    linarith

/-- The spread is 0 only where all points have the same `x`. -/
theorem spread_pos {ps : List (K × K)} (h : ∃ p ∈ ps, ∃ q ∈ ps, p.1 ≠ q.1) : 0 < spread ps := by
  refine lt_of_le_of_ne (spread_nonneg ps) fun hzero => ?_
  have hsame : ∀ ps : List (K × K), spread ps = 0 → ∀ p ∈ ps, ∀ q ∈ ps, p.1 = q.1 := by
    intro ps hps
    cases ps with
    | nil => exact fun _ hp => absurd hp List.not_mem_nil
    | cons r rs =>
      rw [spread_cons] at hps
      have hrs := spread_nonneg rs
      have hsq := total_nonneg rs fun q _ => sq_nonneg (-1 * q.1 + r.1)
      have hall := total_sq_eq_zero (f := fun q => -1 * q.1 + r.1) rs (by linarith)
      have hr : ∀ p ∈ r :: rs, p.1 = r.1 := by
        intro p hp
        rcases List.mem_cons.mp hp with rfl | hp
        · rfl
        · have := hall p hp
          linarith
      intro p hp q hq
      rw [hr p hp, hr q hq]
  obtain ⟨p, hp, q, hq, hne⟩ := h
  exact hne (hsame ps hzero.symm p hp q hq)

variable {a b : K} {ps : List (K × K)}

theorem Normal.least (hn : Normal a b ps) : Least a b ps := by
  intro a' b'
  rw [hn.error_eq a' b']
  have hsq := total_nonneg ps fun p _ => sq_nonneg ((a' - a) * p.1 + (b' - b))
  linarith

theorem least_iff (h : ∃ p ∈ ps, ∃ q ∈ ps, p.1 ≠ q.1) :
    Least a b ps ↔ a = slope ps ∧ b = intercept ps := by
  have hn := normal_slope_intercept (spread_pos h).ne'
  constructor
  · intro hleast
    have hle := hleast (slope ps) (intercept ps)
    have heq := hn.error_eq a b
    have hsq := total_nonneg ps fun p _ =>
      sq_nonneg ((a - slope ps) * p.1 + (b - intercept ps))
    have hzero := total_sq_eq_zero (f := fun p => (a - slope ps) * p.1 + (b - intercept ps))
      ps (by linarith)
    obtain ⟨p, hp, q, hq, hne⟩ := h
    have hp' := hzero p hp
    have hq' := hzero q hq
    have hdiff : (a - slope ps) * (p.1 - q.1) = 0 := by linear_combination hp' - hq'
    have ha : a - slope ps = 0 := (mul_eq_zero.mp hdiff).resolve_right (sub_ne_zero.mpr hne)
    rw [ha, zero_mul, zero_add] at hp'
    exact ⟨sub_eq_zero.mp ha, sub_eq_zero.mp hp'⟩
  · intro ⟨ha, hb⟩
    rw [ha, hb]
    exact hn.least

end Order

end Duckbox.Lib.LineFit
