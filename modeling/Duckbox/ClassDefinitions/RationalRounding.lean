import Duckbox.ClassDefinitions.RationalExact
import Duckbox.ClassDefinitions.RationalRestrict
import Mathlib.Tactic.Positivity

/-!
# Assignment of rationals

Where numerator and denominator are below `2 ^ 32` nothing is shifted out, and an
assignment takes common factors off only: it keeps the value (`assign_safe`).
-/

namespace Duckbox.ClassDefinitions.Rational

open Lib

variable {a : Rational}

theorem restrict_of_safe (h : a.Safe) : a.restrict = a.simplify := by
  have hsticks : (a.numerator ||| a.denominator) >>> 32 = 0 := by
    apply BitVec.eq_of_toNat_eq
    rw [sticksOut_toNat]
    exact Nat.div_eq_of_lt (or_lt.mpr (max_lt h.2.1 h.2.2))
  unfold restrict
  rw [shiftDown_none hsticks]

theorem value_div (negative : Bool) {n d r : BitVec 64} (hd : d ≠ 0) (hr : r ≠ 0)
    (hn : r.toNat ∣ n.toNat) (hd' : r.toNat ∣ d.toNat) :
    Represents ⟨negative, n / r, d / r⟩ (value ⟨negative, n, d⟩) := by
  have hpos : (d.toNat : ℚ) ≠ 0 :=
    Nat.cast_ne_zero.mpr (Nat.ne_of_gt (denominator_pos (a := ⟨negative, n, d⟩) hd))
  have hsigned : (signed negative n.toNat : ℚ) = value ⟨negative, n, d⟩ * d.toNat := by
    rw [value_eq]
    field_simp
  have hmake := represents_make r hd hsigned
  unfold make at hmake
  rwa [if_pos ⟨hr, exact_iff_dvd.mpr hn, exact_iff_dvd.mpr hd'⟩] at hmake

theorem takeTens_value (k : Nat) (h : a.denominator ≠ 0) :
    Represents (takeTens k a) a.value ∧ (takeTens k a).negative = a.negative := by
  induction k generalizing a with
  | zero => exact ⟨⟨h, rfl⟩, rfl⟩
  | succ k ih =>
    by_cases hten : a.HasTen
    · obtain ⟨hrepresents, hnegative⟩ := ih (byTen_denominator h hten)
      have hbyTen : a.byTen.value = a.value :=
        (value_div a.negative h (by decide : (10 : BitVec 64) ≠ 0) hten.1 hten.2).2
      rw [takeTens_succ k hten]
      rw [hbyTen] at hrepresents
      exact ⟨hrepresents, hnegative⟩
    · rw [takeTens_stop _ hten]
      exact ⟨⟨h, rfl⟩, rfl⟩

theorem simplify_value (h : a.denominator ≠ 0) :
    Represents a.simplify a.value ∧ a.simplify.negative = a.negative := by
  unfold simplify
  split
  · split
    · next hexact =>
      refine ⟨?_, rfl⟩
      have hdvd := exact_iff_dvd.mp hexact
      have hself : a.denominator / a.denominator = 1 := by
        apply BitVec.eq_of_toNat_eq
        rw [BitVec.toNat_udiv, Nat.div_self (denominator_pos h)]
        rfl
      have hvalue := value_div a.negative h h hdvd (Nat.dvd_refl _)
      rw [hself] at hvalue
      exact hvalue
    · next hinexact =>
      split
      · next hexact =>
        -- a numerator of 0 would have been divided before
        have hzero : a.numerator ≠ 0 := by
          intro hz
          exact hinexact (exact_iff_dvd.mpr (by rw [hz]; exact Nat.dvd_zero _))
        have hdvd := exact_iff_dvd.mp hexact
        exact ⟨value_div a.negative h hzero (Nat.dvd_refl _) hdvd, rfl⟩
      · exact takeTens_value 64 h
  · exact ⟨⟨h, rfl⟩, rfl⟩

theorem assign_safe (h : a.Safe) :
    a.assign.Safe ∧ a.assign.value = a.value ∧ a.assign.negative = a.negative := by
  unfold assign
  rw [restrict_of_safe h]
  obtain ⟨hvalue, hnegative⟩ := simplify_value h.1
  refine ⟨?_, hvalue.2, hnegative⟩
  rw [simplify_safe (Nat.le_of_lt h.2.1) (Nat.le_of_lt h.2.2)]
  exact ⟨ne_zero_iff.mp h.1, .inl (max_lt h.2.1 h.2.2)⟩

end Duckbox.ClassDefinitions.Rational

/-!
## How close whole numbers come

The two ways from a rational to a `long long`, by half a unit (`rounded_close`) and
by less than one (`longLong_close`), and what an assignment that has to shift
changes: where the denominator has a bit that the shift leaves, by half a unit at most
(`assign_close`).
-/

namespace Duckbox.ClassDefinitions.Rational

open Lib

/-! ## Quotients -/

/-- A quotient to the nearest whole number, as the integer operations give it. -/
def nearest (n d : Nat) : Nat := (n + d / 2) / d

section

variable {n d : Nat}

theorem nearest_close (hd : 0 < d) : |(nearest n d : ℚ) - n / d| ≤ 1 / 2 := by
  have hd' : (0 : ℚ) < d := Nat.cast_pos.mpr hd
  have hdiv := Nat.div_add_mod (n + d / 2) d
  have hmod := Nat.mod_lt (n + d / 2) hd
  have hlow : 2 * (d * nearest n d) ≤ 2 * n + d := by
    unfold nearest
    omega
  have hhigh : 2 * n ≤ 2 * (d * nearest n d) + d := by
    unfold nearest
    omega
  have hlow' : (2 * (d * nearest n d) : ℚ) ≤ 2 * n + d := by exact_mod_cast hlow
  have hhigh' : (2 * n : ℚ) ≤ 2 * (d * nearest n d) + d := by exact_mod_cast hhigh
  have hscaled : (d : ℚ) * (nearest n d - n / d) = d * nearest n d - n := by
    field_simp
  rw [abs_le]
  constructor
  · by_contra hlt
    have := mul_lt_mul_of_pos_left (lt_of_not_ge hlt) hd'
    linarith
  · by_contra hlt
    have := mul_lt_mul_of_pos_left (lt_of_not_ge hlt) hd'
    linarith

theorem nearest_eq (hd : 0 < d) : nearest n d = (2 * n + d) / (2 * d) := by
  unfold nearest
  have hdiv := Nat.div_add_mod (n + d / 2) d
  have hmod := Nat.mod_lt (n + d / 2) hd
  generalize hq : (n + d / 2) / d = q at hdiv ⊢
  refine (Nat.div_eq_of_lt_le ?_ ?_).symm
  · rw [Nat.mul_left_comm, Nat.mul_comm q d]
    omega
  · rw [Nat.mul_left_comm (q + 1), Nat.add_one_mul q d, Nat.mul_comm q d]
    omega

theorem nearest_mul {f : Nat} (hf : 0 < f) (hd : 0 < d) : nearest (f * n) (f * d) = nearest n d := by
  rw [nearest_eq (Nat.mul_pos hf hd), nearest_eq hd, Nat.mul_left_comm 2 f n,
    Nat.mul_left_comm 2 f d, ← Nat.mul_add, Nat.mul_div_mul_left _ _ hf]

theorem nearest_mono {n' d' : Nat} (hd : 0 < d) (hd' : 0 < d') (h : n * d' ≤ n' * d) :
    nearest n d ≤ nearest n' d' := by
  rw [nearest_eq hd, nearest_eq hd', Nat.le_div_iff_mul_le (by omega)]
  have hfloor := Nat.div_mul_le_self (2 * n + d) (2 * d)
  generalize (2 * n + d) / (2 * d) = q at hfloor ⊢
  refine Nat.le_of_mul_le_mul_left (c := d) ?_ hd
  have hscaled := Nat.mul_le_mul_right d' hfloor
  nlinarith

theorem div_close (hd : 0 < d) : ((n / d : Nat) : ℚ) ≤ n / d ∧ (n : ℚ) / d < (n / d : Nat) + 1 := by
  have hd' : (0 : ℚ) < d := Nat.cast_pos.mpr hd
  have hdiv := Nat.div_add_mod n d
  have hmod := Nat.mod_lt n hd
  constructor
  · rw [le_div_iff₀ hd']
    exact_mod_cast Nat.div_mul_le_self n d
  · rw [div_lt_iff₀ hd']
    have hlt : n < (n / d + 1) * d := by
      rw [Nat.add_mul, Nat.one_mul, Nat.mul_comm]
      omega
    exact_mod_cast hlt

end

theorem abs_signed_sub (p : Bool) (x : Nat) (q : ℚ) :
    |((signed p x : Int) : ℚ) - (if p then -q else q)| = |(x : ℚ) - q| := by
  cases p with
  | true =>
    rw [signed_true, if_pos rfl, Int.cast_neg, Int.cast_natCast, ← abs_neg]
    congr 1
    ring
  | false =>
    rw [signed_false, if_neg Bool.false_ne_true, Int.cast_natCast]

/-! ## The number of a `long long` -/

section

variable {a : Rational}

theorem toInt_signed {negative : Bool} {x : BitVec 64} (h : x.toNat < 2 ^ 63) :
    (if negative then -x else x).toInt = signed negative x.toNat := by
  have hx : x.toInt = x.toNat := BitVec.toInt_eq_toNat_of_lt (by omega)
  cases negative with
  | true =>
    rw [if_pos rfl, signed_true, ← hx]
    refine BitVec.toInt_neg_of_ne_intMin fun hmin => ?_
    rw [hmin, BitVec.toNat_intMin] at h
    exact absurd h (by decide)
  | false =>
    rw [if_neg Bool.false_ne_true, signed_false, hx]

theorem value_signed (a : Rational) :
    a.value = if a.negative then -((a.numerator.toNat : ℚ) / a.denominator.toNat)
      else (a.numerator.toNat : ℚ) / a.denominator.toNat := by
  rw [value_eq]
  cases a.negative with
  | true => rw [signed_true, if_pos rfl, Int.cast_neg, Int.cast_natCast, neg_div]
  | false => rw [signed_false, if_neg Bool.false_ne_true, Int.cast_natCast]

theorem abs_value (a : Rational) : |a.value| = (a.numerator.toNat : ℚ) / a.denominator.toNat := by
  have hnonneg : (0 : ℚ) ≤ (a.numerator.toNat : ℚ) / a.denominator.toNat := by positivity
  rw [value_signed]
  split
  · rw [abs_neg, abs_of_nonneg hnonneg]
  · exact abs_of_nonneg hnonneg

theorem toInt_rounded (hfits : a.numerator.toNat + a.denominator.toNat < 2 ^ 64)
    (hsmall : nearest a.numerator.toNat a.denominator.toNat < 2 ^ 63) :
    a.roundedLongLongIntegerPart.toInt
      = signed a.negative (nearest a.numerator.toNat a.denominator.toNat) := by
  have hquotient : ((a.numerator + a.denominator / 2) / a.denominator).toNat
      = nearest a.numerator.toNat a.denominator.toNat := by
    rw [BitVec.toNat_udiv, BitVec.toNat_add, BitVec.toNat_udiv, Nat.mod_eq_of_lt]
    · rfl
    · show a.numerator.toNat + a.denominator.toNat / 2 < 2 ^ 64
      omega
  unfold roundedLongLongIntegerPart
  rw [toInt_signed (by rw [hquotient]; exact hsmall), hquotient]

theorem toInt_rounded_make {n d : BitVec 64} (r : BitVec 64) (negative : Bool) (hd : d ≠ 0)
    (hfits : n.toNat + d.toNat < 2 ^ 64) (hsmall : nearest n.toNat d.toNat < 2 ^ 63) :
    (make n d r negative).roundedLongLongIntegerPart.toInt
      = signed negative (nearest n.toNat d.toNat) := by
  obtain ⟨hn', hd'⟩ := make_toNat n d r negative
  have hpos : 0 < d.toNat := Nat.pos_of_ne_zero (ne_zero_iff.mp hd)
  have hsign := make_negative n d r negative
  have hsame : nearest (make n d r negative).numerator.toNat (make n d r negative).denominator.toNat
      = nearest n.toNat d.toNat := by
    rw [hn', hd']
    unfold commonFactor
    split
    · next hfactor =>
      obtain ⟨hr, ⟨x, hx⟩, ⟨y, hy⟩⟩ := hfactor
      have hrpos := Nat.pos_of_ne_zero hr
      rw [hx, hy, Nat.mul_div_cancel_left _ hrpos, Nat.mul_div_cancel_left _ hrpos]
      rw [hy] at hpos
      exact (nearest_mul hrpos (Nat.pos_of_mul_pos_left hpos)).symm
    · rw [Nat.div_one, Nat.div_one]
  have hle : (make n d r negative).numerator.toNat + (make n d r negative).denominator.toNat
      < 2 ^ 64 := by
    rw [hn', hd']
    exact Nat.lt_of_le_of_lt (Nat.add_le_add (Nat.div_le_self _ _) (Nat.div_le_self _ _)) hfits
  rw [toInt_rounded hle (by rw [hsame]; exact hsmall), hsame, hsign]

theorem nearest_lt {n d k : Nat} (hd : 0 < d) (h : n < k * d) : nearest n d ≤ k := by
  unfold nearest
  rw [← Nat.lt_succ_iff, Nat.div_lt_iff_lt_mul hd, Nat.succ_mul]
  omega

theorem toInt_longLong (hd : a.denominator ≠ 0)
    (hsmall : a.numerator.toNat / a.denominator.toNat < 2 ^ 63) :
    a.longLongIntegerPart.toInt = signed a.negative (a.numerator.toNat / a.denominator.toNat) := by
  unfold longLongIntegerPart
  rw [if_neg hd, toInt_signed (by rw [toNat_quotient]; exact hsmall), toNat_quotient]

theorem longLong_close (hd : a.denominator ≠ 0) (hsmall : |a.value| < 2 ^ 63) :
    |(a.longLongIntegerPart.toInt : ℚ) - a.value| < 1 ∧
      |(a.longLongIntegerPart.toInt : ℚ)| ≤ |a.value| := by
  have hpos := denominator_pos hd
  obtain ⟨hlow, hhigh⟩ := div_close (n := a.numerator.toNat) hpos
  have hlt : a.numerator.toNat / a.denominator.toNat < 2 ^ 63 := by
    rw [abs_value] at hsmall
    exact_mod_cast lt_of_le_of_lt hlow hsmall
  rw [toInt_longLong hd hlt]
  constructor
  · rw [value_signed, abs_signed_sub, abs_sub_comm, abs_of_nonneg (by linarith)]
    linarith
  · rw [abs_value, ← Int.cast_abs, Int.abs_eq_natAbs, natAbs_signed, Int.cast_natCast]
    exact hlow

end

/-! ## Assignment -/

section

variable {a : Rational}

theorem rounded_scaled {n d e : Nat} (he : 1 ≤ e) (hd : 0 < d) :
    rounded (n * (d / 2 ^ e * 2 ^ e) / d) e = nearest (n * (d / 2 ^ e) * 2) (d * 2) := by
  obtain ⟨k, rfl⟩ : ∃ k, e = k + 1 := ⟨e - 1, by omega⟩
  have hpow : 0 < 2 ^ k := Nat.two_pow_pos k
  unfold rounded nearest
  rw [Nat.add_sub_cancel, ← Nat.add_mul_div_right _ _ hd, Nat.div_div_eq_div_mul,
    Nat.mul_div_cancel _ (by decide : 0 < 2)]
  have hnum : n * (d / 2 ^ (k + 1) * 2 ^ (k + 1)) + 2 ^ k * d
      = 2 ^ k * (n * (d / 2 ^ (k + 1)) * 2 + d) := by
    rw [Nat.pow_succ]
    ring
  have hden : d * 2 ^ (k + 1) = 2 ^ k * (d * 2) := by
    rw [Nat.pow_succ]
    ring
  rw [hnum, hden, Nat.mul_div_mul_left _ _ hpow]

theorem scaled_close {n d k : Nat} (hd : 0 < d) (hk : 0 < k) :
    |(nearest (n * k * 2) (d * 2) : ℚ) / k - n / d| ≤ 1 / (2 * k) := by
  have hclose := nearest_close (n := n * k * 2) (d := d * 2) (by omega)
  have hkq : (0 : ℚ) < k := Nat.cast_pos.mpr hk
  have hdq : (0 : ℚ) < d := Nat.cast_pos.mpr hd
  have hquotient : (nearest (n * k * 2) (d * 2) : ℚ) / k - n / d
      = (nearest (n * k * 2) (d * 2) - (n * k * 2 : Nat) / (d * 2 : Nat)) / k := by
    push_cast
    field_simp
  rw [hquotient, abs_div, abs_of_pos hkq, ← div_div]
  exact div_le_div_of_nonneg_right hclose hkq.le

theorem assign_close (hlow : 2 ^ excess a.numerator.toNat a.denominator.toNat ≤ a.denominator.toNat)
    (hhigh : a.denominator.toNat < 2 ^ 16) (hnum : a.numerator.toNat < 2 ^ 47) :
    a.assign.denominator ≠ 0 ∧ |a.assign.value - a.value| ≤ 1 / 2 := by
  have hd : 0 < a.denominator.toNat := Nat.lt_of_lt_of_le (Nat.two_pow_pos _) hlow
  have hne : a.denominator ≠ 0 := ne_zero_iff.mpr (Nat.ne_of_gt hd)
  unfold assign
  by_cases h : (a.numerator ||| a.denominator) >>> 32 = 0
  · -- nothing is shifted out
    have hsafe : a.Safe := ⟨hne, max_lt_iff.mp (excess_zero h)⟩
    obtain ⟨hassign, hvalue, -⟩ := assign_safe hsafe
    unfold assign at hassign hvalue
    refine ⟨hassign.1, ?_⟩
    rw [hvalue, sub_self, abs_zero]
    norm_num
  · obtain ⟨hsucc, -, -⟩ := excess_succ h
    generalize hs : shiftOf ((a.numerator ||| a.denominator) >>> 32) = s at hsucc
    have hs14 : s ≤ 14 := by
      have hsize : Nat.size (max a.numerator.toNat a.denominator.toNat) ≤ 47 :=
        Nat.size_le.mpr (max_lt hnum (Nat.lt_of_lt_of_le hhigh (by decide)))
      unfold excess at hsucc
      omega
    have hsmall : a.denominator.toNat < 2 ^ (31 - s) :=
      Nat.lt_of_lt_of_le hhigh (Nat.pow_le_pow_right (by decide) (by omega))
    obtain ⟨hn', hd', hsign, -⟩ := shiftDown_scaled h hs (by omega) hsmall
    rw [rounded_scaled (by omega) hd] at hn'
    rw [hsucc] at hlow
    -- what the shift leaves of the denominator
    generalize hk : a.denominator.toNat / 2 ^ (s + 1) = k at hn' hd'
    have hkpos : 0 < k := hk ▸ Nat.div_pos hlow (Nat.two_pow_pos _)
    have hne' : a.shiftDown.denominator ≠ 0 := ne_zero_iff.mpr (by rw [hd']; omega)
    obtain ⟨⟨hsimplify, hvalue⟩, -⟩ := simplify_value hne'
    refine ⟨hsimplify, ?_⟩
    have hclose := scaled_close (n := a.numerator.toNat) hd hkpos
    rw [← hn'] at hclose
    have hkq : (1 : ℚ) ≤ k := by exact_mod_cast hkpos
    have hmagnitude : |(a.shiftDown.numerator.toNat : ℚ) / k
        - a.numerator.toNat / a.denominator.toNat| ≤ 1 / 2 :=
      hclose.trans (div_le_div_of_nonneg_left zero_le_one two_pos (by linarith))
    unfold restrict
    rw [hvalue, value_signed, value_signed, hsign, hd']
    cases a.negative with
    | true =>
      rw [if_pos rfl, if_pos rfl, ← abs_neg]
      refine le_trans (le_of_eq (congrArg _ ?_)) hmagnitude
      ring
    | false =>
      rw [if_neg Bool.false_ne_true, if_neg Bool.false_ne_true]
      exact hmagnitude

end

end Duckbox.ClassDefinitions.Rational

/-!
## Assignments that shift

An assignment that shifts rounds numerator and denominator to what it leaves of
them. Where that leaves a denominator, the number changes by one and itself over
twice that denominator at most, and by one over it where the denominator was small
(`assign_within`).
-/

namespace Duckbox.ClassDefinitions.Rational

open Lib

theorem quotient_close {n d n' d' u : ℚ} (hn : 0 ≤ n) (hd : 0 < d) (hd' : 0 < d') (hu : 0 < u)
    (hnum : |n' - n / u| ≤ 1 / 2) (hden : |d' - d / u| ≤ 1 / 2) :
    |n' / d' - n / d| ≤ (1 + n / d) / (2 * d') := by
  have hsplit : n' / d' - n / d = ((n' - n / u) - n / d * (d' - d / u)) / d' := by
    field_simp
    ring
  have hquotient : 0 ≤ n / d := div_nonneg hn hd.le
  have hsum : |(n' - n / u) - n / d * (d' - d / u)| ≤ 1 / 2 + n / d * (1 / 2) := by
    refine (abs_sub _ _).trans (add_le_add hnum ?_)
    rw [abs_mul, abs_of_nonneg hquotient]
    exact mul_le_mul_of_nonneg_left hden hquotient
  rw [hsplit, abs_div, abs_of_pos hd', div_le_div_iff₀ hd' (by positivity)]
  nlinarith

theorem rounded_close_div {x e : Nat} (he : 1 ≤ e) :
    |(rounded x e : ℚ) - x / 2 ^ e| ≤ 1 / 2 := by
  have hnearest : rounded x e = nearest x (2 ^ e) := by
    unfold rounded nearest
    rw [two_pow_half he, Nat.mul_div_cancel_left _ (by decide)]
  have hclose := nearest_close (n := x) (Nat.two_pow_pos e)
  rw [← hnearest] at hclose
  exact_mod_cast hclose

variable {a : Rational}

theorem takeTens_le (k : Nat) :
    (takeTens k a).numerator.toNat ≤ a.numerator.toNat ∧
      (takeTens k a).denominator.toNat ≤ a.denominator.toNat := by
  induction k generalizing a with
  | zero => exact ⟨le_rfl, le_rfl⟩
  | succ k ih =>
    by_cases hten : a.HasTen
    · rw [takeTens_succ k hten]
      obtain ⟨hn, hd⟩ := ih (a := a.byTen)
      exact ⟨hn.trans (Nat.div_le_self _ 10), hd.trans (Nat.div_le_self _ 10)⟩
    · rw [takeTens_stop _ hten]
      exact ⟨le_rfl, le_rfl⟩

theorem simplify_le (a : Rational) :
    a.simplify.numerator.toNat ≤ a.numerator.toNat ∧
      a.simplify.denominator.toNat ≤ a.denominator.toNat := by
  unfold simplify
  split
  · next hcond =>
    split
    · refine ⟨?_, Nat.pos_of_ne_zero (ne_zero_iff.mp hcond.2.2)⟩
      rw [BitVec.toNat_udiv]
      exact Nat.div_le_self _ _
    · split
      · refine ⟨?_, ?_⟩
        · rw [BitVec.toNat_udiv]
          exact Nat.div_le_self _ _
        · rw [BitVec.toNat_udiv]
          exact Nat.div_le_self _ _
      · exact takeTens_le 64
  · exact ⟨le_rfl, le_rfl⟩

/-- What a shift by what sticks out of 32 bits leaves of the denominator. -/
def leftOver (n d : Nat) : Nat := d / 2 ^ excess n d

/-- What a shift loses, in units of half of what is left: a small denominator is made a
multiple of the unit first, and only the numerator is rounded. -/
def lost (n d : Nat) : ℚ := if d < 2 ^ (32 - excess n d) then 1 else 1 + n / d

/-- How far an assignment may put a number off. -/
def slack (n d : Nat) : ℚ := if excess n d = 0 then 0 else lost n d / (2 * leftOver n d)

theorem leftOver_pos {n d : Nat} (hd : 0 < d) (h : n < 2 ^ 31 * d) : 0 < leftOver n d := by
  have hsize : 0 < Nat.size d := Nat.size_pos.mpr hd
  have hlow : 2 ^ (Nat.size d - 1) ≤ d := Nat.lt_size.mp (by omega)
  have hmax : max n d < 2 ^ (31 + Nat.size d) := by
    have hlt := Nat.lt_size_self d
    rw [Nat.pow_add]
    exact max_lt (h.trans_le (Nat.mul_le_mul_left _ hlt.le))
      (hlt.trans_le (Nat.le_mul_of_pos_left _ (by decide)))
  have hexcess : excess n d ≤ Nat.size d - 1 := by
    have := Nat.size_le.mpr hmax
    unfold excess
    omega
  exact Nat.div_pos ((Nat.pow_le_pow_right (by decide) hexcess).trans hlow) (Nat.two_pow_pos _)

theorem lost_pos (n d : Nat) : 0 < lost n d := by
  unfold lost
  split
  · exact one_pos
  · positivity

theorem slack_nonneg (n d : Nat) : 0 ≤ slack n d := by
  unfold slack
  split
  · exact le_rfl
  · exact div_nonneg (lost_pos n d).le (by positivity)

/-- What the shift leaves: the parts in 32 bits, or `2 ^ 32`, and close to the number. -/
structure ShiftsTo (a b : Rational) : Prop where
  negative : b.negative = a.negative
  numerator : b.numerator.toNat ≤ 2 ^ 32
  denominator : b.denominator.toNat ≤ 2 ^ 32
  left : leftOver a.numerator.toNat a.denominator.toNat ≤ b.denominator.toNat
  close : |(b.numerator.toNat : ℚ) / b.denominator.toNat -
    a.numerator.toNat / a.denominator.toNat| ≤ slack a.numerator.toNat a.denominator.toNat

section Shift

variable {s : Nat} (h : (a.numerator ||| a.denominator) >>> 32 ≠ 0)
  (hs : shiftOf ((a.numerator ||| a.denominator) >>> 32) = s)

include h hs

theorem excess_eq : excess a.numerator.toNat a.denominator.toNat = s + 1 := by
  obtain ⟨hsucc, -, -⟩ := excess_succ h
  rw [hs] at hsucc
  exact hsucc

theorem leftOver_eq :
    leftOver a.numerator.toNat a.denominator.toNat = a.denominator.toNat / 2 ^ (s + 1) := by
  unfold leftOver
  rw [excess_eq h hs]

theorem slack_eq : slack a.numerator.toNat a.denominator.toNat =
    (if a.denominator.toNat < 2 ^ (31 - s) then 1
      else 1 + (a.numerator.toNat : ℚ) / a.denominator.toNat) /
      (2 * leftOver a.numerator.toNat a.denominator.toNat) := by
  unfold slack lost
  rw [if_neg (by rw [excess_eq h hs]; exact Nat.succ_ne_zero s), excess_eq h hs,
    show 32 - (s + 1) = 31 - s by omega]

variable (hlt : s < 31) (hleft : 0 < leftOver a.numerator.toNat a.denominator.toNat)

include hlt hleft

theorem shiftsTo_scaled (hsmall : a.denominator.toNat < 2 ^ (31 - s)) : ShiftsTo a a.shiftDown := by
  have hle : leftOver a.numerator.toNat a.denominator.toNat ≤ a.denominator.toNat :=
    Nat.div_le_self _ _
  have hd : 0 < a.denominator.toNat := Nat.lt_of_lt_of_le hleft hle
  obtain ⟨hn', hd', hsign, hnle⟩ := shiftDown_scaled h hs hlt hsmall
  rw [rounded_scaled (by omega) hd] at hn'
  rw [← leftOver_eq h hs] at hn' hd'
  have hpow : 2 ^ (31 - s) ≤ 2 ^ 32 := Nat.pow_le_pow_right (by decide) (by omega)
  refine ⟨hsign, hnle, by omega, hd'.ge, ?_⟩
  have hclose := scaled_close (n := a.numerator.toNat) hd hleft
  rw [← hn'] at hclose
  rw [hd', slack_eq h hs, if_pos hsmall]
  exact hclose

theorem shiftsTo_large (hlarge : ¬a.denominator.toNat < 2 ^ (31 - s)) :
    ShiftsTo a a.shiftDown := by
  obtain ⟨hn, hd⟩ := below_excess h hs
  have hbits : ¬a.denominator < 1#64 <<< (31 - s) := by
    rw [BitVec.lt_def, one_shift_toNat (by omega)]
    exact hlarge
  have hn' := rounded_toNat hlt hn
  have hd' := rounded_toNat hlt hd
  have hpos : 0 < a.denominator.toNat := Nat.lt_of_lt_of_le hleft (Nat.div_le_self _ _)
  have hfloor : leftOver a.numerator.toNat a.denominator.toNat ≤
      rounded a.denominator.toNat (s + 1) := by
    rw [leftOver_eq h hs]
    exact Nat.div_le_div_right (Nat.le_add_right _ _)
  have hbelow : 32 + (s + 1) = 33 + s := by omega
  rw [shiftDown_large h hs hbits]
  refine ⟨rfl, ?_, ?_, ?_, ?_⟩
  · rw [hn']
    exact rounded_le (by omega) (hbelow ▸ hn)
  · rw [hd']
    exact rounded_le (by omega) (hbelow ▸ hd)
  · rw [hd']
    exact hfloor
  · have hclose := quotient_close (Nat.cast_nonneg a.numerator.toNat) (Nat.cast_pos.mpr hpos)
      (Nat.cast_pos.mpr (Nat.lt_of_lt_of_le hleft hfloor)) (by positivity : (0 : ℚ) < 2 ^ (s + 1))
      (rounded_close_div (x := a.numerator.toNat) (by omega))
      (rounded_close_div (x := a.denominator.toNat) (by omega))
    rw [hn', hd', slack_eq h hs, if_neg hlarge]
    refine hclose.trans (div_le_div_of_nonneg_left (by positivity) (by positivity) ?_)
    exact mul_le_mul_of_nonneg_left (Nat.cast_le.mpr hfloor) two_pos.le

end Shift

theorem shiftDown_within (hexcess : excess a.numerator.toNat a.denominator.toNat ≤ 31)
    (hleft : 0 < leftOver a.numerator.toNat a.denominator.toNat) : ShiftsTo a a.shiftDown := by
  by_cases h : (a.numerator ||| a.denominator) >>> 32 = 0
  · rw [shiftDown_none h]
    obtain ⟨hn, hd⟩ := max_lt_iff.mp (excess_zero h)
    refine ⟨rfl, Nat.le_of_lt hn, Nat.le_of_lt hd, Nat.div_le_self _ _, ?_⟩
    rw [sub_self, abs_zero]
    exact slack_nonneg _ _
  · generalize hs : shiftOf ((a.numerator ||| a.denominator) >>> 32) = s
    have hlt : s < 31 := by
      rw [excess_eq h hs] at hexcess
      exact hexcess
    by_cases hsmall : a.denominator.toNat < 2 ^ (31 - s)
    · exact shiftsTo_scaled h hs hlt hleft hsmall
    · exact shiftsTo_large h hs hlt hleft hsmall

/-- What an assignment gives that leaves some of the denominator. -/
structure AssignsTo (a b : Rational) : Prop where
  defined : b.denominator ≠ 0
  negative : b.negative = a.negative
  numerator : b.numerator.toNat ≤ 2 ^ 32
  denominator : b.denominator.toNat ≤ 2 ^ 32
  close : |b.value - a.value| ≤ slack a.numerator.toNat a.denominator.toNat

theorem assign_within (hexcess : excess a.numerator.toNat a.denominator.toNat ≤ 31)
    (hleft : 0 < leftOver a.numerator.toNat a.denominator.toNat) : AssignsTo a a.assign := by
  have hshift := shiftDown_within hexcess hleft
  have hne : a.shiftDown.denominator ≠ 0 :=
    ne_zero_iff.mpr (Nat.ne_of_gt (Nat.lt_of_lt_of_le hleft hshift.left))
  obtain ⟨⟨hsimplify, hvalue⟩, hnegative⟩ := simplify_value hne
  obtain ⟨hn, hd⟩ := simplify_le a.shiftDown
  refine ⟨hsimplify, hnegative.trans hshift.negative, hn.trans hshift.numerator,
    hd.trans hshift.denominator, ?_⟩
  have hclose := hshift.close
  unfold assign restrict
  rw [hvalue, value_signed, value_signed, hshift.negative]
  cases a.negative with
  | true =>
    rw [if_pos rfl, if_pos rfl, ← abs_neg]
    refine le_trans (le_of_eq (congrArg _ ?_)) hclose
    ring
  | false =>
    rw [if_neg Bool.false_ne_true, if_neg Bool.false_ne_true]
    exact hclose

/-! ## The integer part of what is assigned -/

theorem simplify_longLong (a : Rational) :
    a.simplify.longLongIntegerPart = a.longLongIntegerPart := by
  by_cases hd : a.denominator = 0
  · have hsame : a.simplify = a := if_neg fun hcond => hcond.2.2 hd
    rw [hsame]
  · obtain ⟨⟨hd', hvalue⟩, hnegative⟩ := simplify_value hd
    have hpos := denominator_pos hd
    have hpos' := denominator_pos hd'
    have habs : (a.simplify.numerator.toNat : ℚ) / a.simplify.denominator.toNat
        = a.numerator.toNat / a.denominator.toNat := by rw [← abs_value, ← abs_value, hvalue]
    rw [div_eq_div_iff (Nat.cast_ne_zero.mpr (Nat.ne_of_gt hpos'))
      (Nat.cast_ne_zero.mpr (Nat.ne_of_gt hpos))] at habs
    have hcross : a.simplify.numerator.toNat * a.denominator.toNat
        = a.numerator.toNat * a.simplify.denominator.toNat := by exact_mod_cast habs
    have hquotient : a.simplify.numerator / a.simplify.denominator
        = a.numerator / a.denominator := by
      apply BitVec.eq_of_toNat_eq
      rw [toNat_quotient, toNat_quotient, ← Nat.mul_div_mul_right _ _ hpos, hcross,
        Nat.mul_comm a.simplify.denominator.toNat, Nat.mul_div_mul_right _ _ hpos']
    unfold longLongIntegerPart
    rw [if_neg hd, if_neg hd', hnegative, hquotient]

/-- The integer part of `n / d` once assigned. -/
def assignedPart (n d : Nat) : Nat := nearest (n * leftOver n d * 2) (d * 2) / leftOver n d

/-- Of a number with a small denominator. -/
theorem assign_longLong (hd : a.denominator ≠ 0) (hhigh : a.denominator.toNat < 2 ^ 16)
    (hnum : a.numerator.toNat < 2 ^ 47) :
    (leftOver a.numerator.toNat a.denominator.toNat = 0 → a.assign.longLongIntegerPart = -1) ∧
      (0 < leftOver a.numerator.toNat a.denominator.toNat → a.assign.longLongIntegerPart.toInt =
        signed a.negative (assignedPart a.numerator.toNat a.denominator.toNat)) := by
  have hpos := denominator_pos hd
  unfold assign restrict
  rw [simplify_longLong]
  by_cases h : (a.numerator ||| a.denominator) >>> 32 = 0
  · -- nothing is shifted out
    have hexcess : excess a.numerator.toNat a.denominator.toNat = 0 :=
      Nat.sub_eq_zero_of_le (Nat.size_le.mpr (excess_zero h))
    have hleft : leftOver a.numerator.toNat a.denominator.toNat = a.denominator.toNat := by
      unfold leftOver
      rw [hexcess, Nat.pow_zero, Nat.div_one]
    have hpart : assignedPart a.numerator.toNat a.denominator.toNat
        = a.numerator.toNat / a.denominator.toNat := by
      unfold assignedPart nearest
      rw [hleft, Nat.mul_assoc, Nat.mul_div_cancel _ (by decide : 0 < 2),
        Nat.add_div_eq_of_add_mod_lt, Nat.mul_div_cancel _ (by omega : 0 < a.denominator.toNat * 2),
        Nat.div_eq_of_lt (by omega : a.denominator.toNat < a.denominator.toNat * 2), Nat.add_zero]
      rw [Nat.mul_mod_left, Nat.mod_eq_of_lt (by omega)]
      omega
    rw [shiftDown_none h, hleft, hpart]
    refine ⟨fun hzero => absurd hzero (Nat.ne_of_gt hpos), fun _ => toInt_longLong hd ?_⟩
    exact Nat.lt_of_le_of_lt (Nat.div_le_self _ _) (Nat.lt_trans hnum (by decide))
  · generalize hs : shiftOf ((a.numerator ||| a.denominator) >>> 32) = s
    have hexcess := excess_eq h hs
    have hs14 : s ≤ 14 := by
      have hsize : Nat.size (max a.numerator.toNat a.denominator.toNat) ≤ 47 :=
        Nat.size_le.mpr (max_lt hnum (Nat.lt_of_lt_of_le hhigh (by decide)))
      unfold excess at hexcess
      omega
    have hsmall : a.denominator.toNat < 2 ^ (31 - s) :=
      Nat.lt_of_lt_of_le hhigh (Nat.pow_le_pow_right (by decide) (by omega))
    obtain ⟨hn', hd', hsign, hnle⟩ := shiftDown_scaled h hs (by omega) hsmall
    rw [rounded_scaled (by omega) hpos] at hn'
    rw [← leftOver_eq h hs] at hn' hd'
    constructor
    · intro hzero
      have hgone : a.shiftDown.denominator = 0 := BitVec.eq_of_toNat_eq (by rw [hd', hzero]; rfl)
      exact if_pos hgone
    · intro hleft
      have hkept : a.shiftDown.denominator ≠ 0 :=
        ne_zero_iff.mpr (by rw [hd']; exact Nat.ne_of_gt hleft)
      have hpart : a.shiftDown.numerator.toNat / a.shiftDown.denominator.toNat
          = assignedPart a.numerator.toNat a.denominator.toNat := by
        rw [hn', hd']
        rfl
      have hlt : a.shiftDown.numerator.toNat / a.shiftDown.denominator.toNat < 2 ^ 63 :=
        Nat.lt_of_le_of_lt ((Nat.div_le_self _ _).trans hnle) (by decide)
      rw [toInt_longLong hkept hlt, hsign, hpart]

/-- Of any number: it has the sign of the number, where it is not the -1 for no number. -/
theorem assign_longLong_sign (a : Rational) :
    a.assign.longLongIntegerPart = -1 ∨
      ∃ k, a.assign.longLongIntegerPart.toInt = signed a.negative k := by
  unfold assign restrict
  rw [simplify_longLong]
  by_cases hd : a.shiftDown.denominator = 0
  · exact .inl (if_pos hd)
  · refine .inr ⟨a.shiftDown.numerator.toNat / a.shiftDown.denominator.toNat, ?_⟩
    have hshift : a.shiftDown.negative = a.negative ∧ a.shiftDown.numerator.toNat < 2 ^ 63 := by
      unfold shiftDown
      dsimp only
      split
      · have hshifted (x : BitVec 64) (k : Nat) : (x >>> (k + 1)).toNat < 2 ^ 63 := by
          have hx := x.isLt
          rw [BitVec.toNat_ushiftRight, Nat.shiftRight_eq_div_pow, Nat.pow_succ]
          have hle : x.toNat / (2 ^ k * 2) ≤ x.toNat / 2 :=
            Nat.div_le_div_left (Nat.le_mul_of_pos_left 2 (Nat.two_pow_pos k)) (by decide)
          omega
        split
        · exact ⟨rfl, hshifted _ _⟩
        · exact ⟨rfl, hshifted _ _⟩
      · next hsticks =>
        have hlt := (max_lt_iff.mp (excess_zero (not_not.mp hsticks))).1
        exact ⟨rfl, Nat.lt_trans hlt (by decide)⟩
    have hlt := Nat.lt_of_le_of_lt
      (Nat.div_le_self a.shiftDown.numerator.toNat a.shiftDown.denominator.toNat) hshift.2
    rw [toInt_longLong hd hlt, hshift.1]

/-! ## Divisors -/

/-- What the second half of `Restrict` divides by, beside the tens. -/
def simplifyDivisors (a : Rational) : List (BitVec 64) :=
  if a.denominator ≠ 1 ∧ a.numerator ≠ 1 ∧ a.denominator ≠ 0 then
    if a.denominator * (a.numerator / a.denominator) = a.numerator then [a.denominator]
    else [a.denominator, a.numerator]
  else []

/-- What `Restrict` divides by. -/
def restrictDivisors (a : Rational) : List (BitVec 64) :=
  let tmp := (a.numerator ||| a.denominator) >>> 32
  (if tmp ≠ 0 ∧ a.denominator < 1#64 <<< (31 - shiftOf tmp) then [a.denominator] else []) ++
    a.shiftDown.simplifyDivisors

theorem simplifyDivisors_ne_zero (a : Rational) : 0 ∉ a.simplifyDivisors := by
  unfold simplifyDivisors
  split
  · next hcond =>
    split
    · rw [List.mem_singleton]
      exact hcond.2.2.symm
    · next hinexact =>
      have hnum : a.numerator ≠ 0 := by
        intro hz
        exact hinexact (exact_iff_dvd.mpr (by rw [hz]; exact Nat.dvd_zero _))
      rw [List.mem_cons, List.mem_singleton, not_or]
      exact ⟨hcond.2.2.symm, hnum.symm⟩
  · exact List.not_mem_nil

theorem restrictDivisors_ne_zero (h : a.denominator ≠ 0) : 0 ∉ a.restrictDivisors := by
  unfold restrictDivisors
  dsimp only
  rw [List.mem_append, not_or]
  refine ⟨?_, simplifyDivisors_ne_zero _⟩
  split
  · rw [List.mem_singleton]
    exact h.symm
  · exact List.not_mem_nil

/-! ## The product with an elapsed time -/

/-- The parts of the product with a number that an `int` holds. -/
def productParts (g : Rational) (k : Nat) : Nat × Nat :=
  let factor := commonFactor (g.numerator.toNat * k) g.denominator.toNat (min g.denominator.toNat k)
  (g.numerator.toNat * k / factor, g.denominator.toNat / factor)

theorem minimum_toNat (x y : BitVec 64) : (minimum x y).toNat = min x.toNat y.toNat := by
  unfold minimum
  split
  · next hlt => exact (min_eq_left (Nat.le_of_lt hlt)).symm
  · next hge => exact (min_eq_right (Nat.le_of_not_lt hge)).symm

/-- A rational that an assignment has been through. -/
structure Restricted (g : Rational) : Prop where
  defined : g.denominator ≠ 0
  numerator : g.numerator.toNat ≤ 2 ^ 32
  denominator : g.denominator.toNat ≤ 2 ^ 32

theorem AssignsTo.restricted {b : Rational} (h : AssignsTo a b) : b.Restricted :=
  ⟨h.defined, h.numerator, h.denominator⟩

section Product

variable {g : Rational} {k : Nat} {i : BitVec 32} (hg : g.Restricted) (hi : i.toInt = k)

include hg hi

theorem product_fits : g.numerator.toNat * k < 2 ^ 63 := by
  have hk : k < 2 ^ 31 := by
    have := (toInt_bounds i).2
    omega
  calc g.numerator.toNat * k ≤ 2 ^ 32 * k := Nat.mul_le_mul_right k hg.numerator
    _ < 2 ^ 63 := by omega

theorem mulInt_parts : (g.mulInt i).numerator.toNat = (g.productParts k).1 ∧
    (g.mulInt i).denominator.toNat = (g.productParts k).2 ∧
    (g.mulInt i).negative = g.negative := by
  have hmin : i ≠ BitVec.intMin 32 := by
    rintro rfl
    rw [BitVec.toInt_intMin] at hi
    omega
  have habs : (extend (abs i)).toNat = k := by
    rw [toNat_extend_abs hmin, hi, Int.natAbs_natCast]
  have hslt : i.slt 0 = false := by
    rw [Bool.eq_false_iff, ne_eq, slt_zero_iff]
    omega
  have hproduct : (g.numerator * extend (abs i)).toNat = g.numerator.toNat * k := by
    rw [BitVec.toNat_mul, habs, Nat.mod_eq_of_lt (by have := product_fits hg hi; omega)]
  obtain ⟨hn, hd⟩ := make_toNat (g.numerator * extend (abs i)) g.denominator
    (minimum g.denominator (extend (abs i))) (i.slt 0 ^^ g.negative)
  rw [hproduct, minimum_toNat, habs] at hn hd
  refine ⟨hn, hd, ?_⟩
  unfold mulInt make
  rw [hslt, Bool.false_xor]
  split
  · rfl
  · rfl

theorem mulInt_value : Represents (g.mulInt i) (g.value * k) := by
  have hmin : i ≠ BitVec.intMin 32 := by
    rintro rfl
    rw [BitVec.toInt_intMin] at hi
    omega
  have hrepresents := represents_mulInt hg.defined hmin
    (by rw [hi, Int.natAbs_natCast]; have := product_fits hg hi; omega)
  rw [hi, Int.cast_natCast] at hrepresents
  exact hrepresents

theorem product_excess : excess (g.productParts k).1 (g.productParts k).2 ≤ 31 := by
  have hn : (g.productParts k).1 < 2 ^ 63 :=
    Nat.lt_of_le_of_lt (Nat.div_le_self _ _) (product_fits hg hi)
  have hd : (g.productParts k).2 < 2 ^ 63 :=
    Nat.lt_of_le_of_lt (Nat.div_le_self _ _) (Nat.lt_of_le_of_lt hg.denominator (by decide))
  have hsize := Nat.size_le.mpr (max_lt hn hd)
  unfold excess
  omega

end Product

/-! ## Rounding what has been restricted -/

section Restricted

variable {e f : Rational} (he : e.Restricted)

include he

theorem Restricted.toInt_rounded : e.roundedLongLongIntegerPart.toInt =
    signed e.negative (nearest e.numerator.toNat e.denominator.toNat) ∧
      nearest e.numerator.toNat e.denominator.toNat ≤ 2 ^ 32 + 1 := by
  have hd := denominator_pos he.defined
  have hn := he.numerator
  have hd' := he.denominator
  have hbound : nearest e.numerator.toNat e.denominator.toNat ≤ 2 ^ 32 + 1 :=
    nearest_lt hd (Nat.lt_of_lt_of_le (Nat.lt_succ_of_le hn) (Nat.le_mul_of_pos_right _ hd))
  exact ⟨Rational.toInt_rounded (by omega) (by omega), hbound⟩

theorem Restricted.rounded_bound : e.roundedLongLongIntegerPart.toInt.natAbs ≤ 2 ^ 32 + 1 := by
  obtain ⟨hrounded, hbound⟩ := he.toInt_rounded
  rw [hrounded, natAbs_signed]
  exact hbound

theorem Restricted.rounded_close :
    |(e.roundedLongLongIntegerPart.toInt : ℚ) - e.value| ≤ 1 / 2 := by
  obtain ⟨hrounded, -⟩ := he.toInt_rounded
  rw [hrounded, value_signed, abs_signed_sub]
  exact nearest_close (denominator_pos he.defined)

theorem Restricted.rounded_nonneg (hsign : e.negative = false) :
    0 ≤ e.roundedLongLongIntegerPart.toInt := by
  obtain ⟨hrounded, -⟩ := he.toInt_rounded
  rw [hrounded, hsign, signed_false]
  exact Int.natCast_nonneg _

theorem Restricted.rounded_mono (hf : f.Restricted) (hsign : e.negative = false)
    (hsign' : f.negative = false) (h : e.value ≤ f.value) :
    e.roundedLongLongIntegerPart.toInt ≤ f.roundedLongLongIntegerPart.toInt := by
  have hd : (0 : ℚ) < e.denominator.toNat := Nat.cast_pos.mpr (denominator_pos he.defined)
  have hd' : (0 : ℚ) < f.denominator.toNat := Nat.cast_pos.mpr (denominator_pos hf.defined)
  rw [value_signed, value_signed, hsign, hsign', if_neg Bool.false_ne_true,
    if_neg Bool.false_ne_true, div_le_div_iff₀ hd hd'] at h
  rw [he.toInt_rounded.1, hf.toInt_rounded.1, hsign, hsign', signed_false, signed_false]
  exact Int.ofNat_le.mpr (nearest_mono (denominator_pos he.defined) (denominator_pos hf.defined)
    (by exact_mod_cast h))

end Restricted

end Duckbox.ClassDefinitions.Rational
