import Duckbox.OutputCoordinator.ScaledTimes

/-!
# How accurate a translation is

Where no elapsed time is cut on its way through the `int` operators, and the assigned
product keeps its denominator, a translation is within `2 (1 + p/q + q/p)` microseconds of
the exact one, and where one of them happens it is not (`translate_accurate_iff`): so at
no speed is every time translated right.

What is lost of a time is scaled with the rest of it. At a speed of tens of thousands, or
of its inverse, the tolerance is as wide, and a system time may be cut twice, with one
loss for the other; there nothing is said of the times that are cut.
-/

namespace Duckbox.OutputCoordinator

open ClassDefinitions Lib
open ClassDefinitions.Rational (assignedPart nearest)

/-- How far off a translation may be. -/
def tolerance (c : Clock) : ℚ := 2 * (1 + c.speed.value + c.speed.value⁻¹)

theorem SmallSpeed.tolerance_bounds {c : Clock} (hspeed : SmallSpeed c.speed) :
    4 ≤ tolerance c ∧ tolerance c < 2 ^ 18 + 2 := by
  have hpos := hspeed.value_pos
  have hinv : 0 < c.speed.value⁻¹ := inv_pos.mpr hpos
  have hvalue := hspeed.value_lt
  have hinvlt := hspeed.inv_value_lt
  unfold tolerance
  refine ⟨?_, by linarith⟩
  rcases le_total 1 c.speed.value with hge | hle
  · linarith
  · have := (one_le_inv₀ hpos).mpr hle
    linarith

namespace Clock

/-- The whole microseconds of a playback time at a speed other than 1. -/
def scaledPart (c : Clock) (x : BitVec 64) : Int :=
  let parts := quotientParts c.speed x.toInt.natAbs
  signed (decide (c.sign * x.toInt < 0)) (assignedPart parts.1 parts.2)

/-- An elapsed playback time that is scaled right: it is an `int`, and so is what the
speed makes of it. -/
def SystemFits (c : Clock) (x : BitVec 64) : Prop :=
  IsInt (c.sign * x.toInt) ∧
    (c.speed.numerator ≠ c.speed.denominator →
      KeepsDenominator (quotientParts c.speed x.toInt.natAbs) ∧ IsInt (c.scaledPart x))

/-- The magnitude of an elapsed system time with the adjustment. -/
def adjusted (c : Clock) (i : Int) : Nat :=
  nearest (i.natAbs * c.systemClockAdjustment.numerator.toNat)
    c.systemClockAdjustment.denominator.toNat

/-- An elapsed system time that is scaled right: its magnitude is that of an `int`, and so
is what the adjustment makes of it, and the product with the speed keeps its denominator. -/
def PlaybackFits (c : Clock) (x : BitVec 64) : Prop :=
  x.toInt.natAbs < 2 ^ 31 ∧
    (c.speed.numerator ≠ c.speed.denominator → c.adjusted x.toInt < 2 ^ 31 ∧
      KeepsDenominator (c.speed.productParts (c.adjusted x.toInt)))

/-- An elapsed system time that is cut to the least `int`, which has no magnitude, or
once more when it is adjusted. -/
def CutTwice (c : Clock) (x : BitVec 64) : Prop :=
  cut x.toInt = -2 ^ 31 ∨
    2 ^ 31 ≤ x.toInt.natAbs ∧ c.speed.numerator ≠ c.speed.denominator ∧
      2 ^ 31 ≤ c.adjusted (cut x.toInt)

instance (parts : Nat × Nat) : Decidable (KeepsDenominator parts) :=
  inferInstanceAs (Decidable (_ < _))

instance (c : Clock) (x : BitVec 64) : Decidable (c.SystemFits x) :=
  inferInstanceAs (Decidable (_ ∧ _))

instance (c : Clock) (x : BitVec 64) : Decidable (c.PlaybackFits x) :=
  inferInstanceAs (Decidable (_ ∧ _))

theorem sign_div (c : Clock) (i : Int) (s : ℚ) : c.sign * ((i : ℚ) / s) = (c.sign * i : Int) / s := by
  rw [Int.cast_mul, mul_div_assoc]

variable {c : Clock} (hspeed : SmallSpeed c.speed)

include hspeed

theorem speedScale_scaled (hone : c.speed.numerator ≠ c.speed.denominator) {x : BitVec 64}
    (hx : x.toInt.natAbs < 2 ^ 63) :
    Scaled (decide (cut (c.sign * x.toInt) < 0))
      (quotientParts c.speed (cut (c.sign * x.toInt)).natAbs)
      (cut (c.sign * x.toInt) / c.speed.value) (c.speedScale x) := by
  have hscaled := hspeed.intDiv_scaled ((c.turn x).setWidth 32)
  have hscale : c.speedScale x
      = (Rational.intDiv ((c.turn x).setWidth 32) c.speed).assign.longLongIntegerPart := by
    unfold speedScale
    dsimp only
    rw [if_neg (fun h => hone (hspeed.eqInt_one.mp h)), hspeed.eqInt_zero]
    rfl
  rw [toInt_cut, c.toInt_turn hx] at hscaled
  rw [hscale]
  exact hscaled

theorem speedScale_close {x : BitVec 64} (h : c.SystemFits x) :
    |(cut (c.speedScale x).toInt : ℚ) - c.sign * (x.toInt / c.speed.value)| ≤ 3 / 2 := by
  obtain ⟨hint, hfits⟩ := h
  have hmagnitude := c.natAbs_sign_mul x.toInt
  have hx : x.toInt.natAbs < 2 ^ 63 := by
    unfold IsInt at hint
    omega
  rw [c.sign_div]
  by_cases hone : c.speed.numerator = c.speed.denominator
  · rw [c.speedScale_one (hspeed.eqInt_one.mpr hone), c.toInt_turn hx, cut_of_isInt hint,
      hspeed.value_one hone, div_one, sub_self, abs_zero]
    norm_num
  · obtain ⟨hkeeps, hpartInt⟩ := hfits hone
    have hscaled := speedScale_scaled hspeed hone hx
    rw [cut_of_isInt hint, hmagnitude] at hscaled
    cases hscaled with
    | lost hgone _ _ => exact absurd hkeeps hgone
    | kept _ hpart hclose _ =>
      have hsame : cut (c.speedScale x).toInt = (c.speedScale x).toInt :=
        cut_of_isInt (by rw [hpart]; exact hpartInt)
      rw [hsame]
      exact hclose

theorem abs_div_speed (q : ℚ) : |q / c.speed.value| = |q| * c.speed.value⁻¹ := by
  rw [div_eq_mul_inv, abs_mul, abs_of_pos (inv_pos.mpr hspeed.value_pos)]

/-- Where what the speed makes of a time is cut. -/
theorem speedScale_far_scaled {x : BitVec 64} (hx : x.toInt.natAbs < 2 ^ 63)
    (hint : IsInt (c.sign * x.toInt)) (h : ¬ c.SystemFits x) :
    9 / 8 * (tolerance c + 1 / 2)
      < |(cut (c.speedScale x).toInt : ℚ) - (c.sign * x.toInt : Int) / c.speed.value| := by
  have hvalue := hspeed.value_lt
  have hinv := hspeed.inv_value_lt
  have htolerance : tolerance c = 2 * (1 + c.speed.value + c.speed.value⁻¹) := rfl
  have hone : c.speed.numerator ≠ c.speed.denominator := fun hone => h ⟨hint, fun hne =>
    absurd hone hne⟩
  have hscaled := speedScale_scaled hspeed hone hx
  rw [cut_of_isInt hint, c.natAbs_sign_mul x.toInt] at hscaled
  cases hscaled with
  | lost _ hlarge hpart =>
    have hminus : cut (c.speedScale x).toInt = -1 := by
      rw [hpart]
      decide
    have hgap := abs_sub_abs_le_abs_sub ((c.sign * x.toInt : Int) / c.speed.value : ℚ)
      (cut (c.speedScale x).toInt)
    rw [abs_sub_comm] at hgap
    rw [hminus] at hgap ⊢
    have hsmall : |((-1 : Int) : ℚ)| = 1 := by norm_num
    rw [hsmall] at hgap
    linarith
  | kept hkept hpart hclose _ =>
    have hnot : ¬ IsInt (c.speedScale x).toInt := by
      intro hpartInt
      rw [hpart] at hpartInt
      exact h ⟨hint, fun _ => ⟨hkept, hpartInt⟩⟩
    have hlost := cut_far_abs hnot
    have hgap := abs_sub_le ((c.speedScale x).toInt : ℚ)
      ((c.sign * x.toInt : Int) / c.speed.value) (cut (c.speedScale x).toInt)
    rw [abs_sub_comm ((c.sign * x.toInt : Int) / c.speed.value : ℚ)] at hgap
    linarith

/-- Where the time itself is: faster than 1, what is left of it is scaled, and the loss with it. -/
theorem speedScale_far_faster (hfaster : c.speed.value⁻¹ < 1 - 1 / 2 ^ 16)
    (hslow : c.speed.numerator.toNat < 2 ^ 15 * c.speed.denominator.toNat) {x : BitVec 64}
    (hx : x.toInt.natAbs < 2 ^ 63) (hone : c.speed.numerator ≠ c.speed.denominator)
    (hint : ¬ IsInt (c.sign * x.toInt)) :
    9 / 8 * (tolerance c + 1 / 2)
      < |(cut (c.speedScale x).toInt : ℚ) - (c.sign * x.toInt : Int) / c.speed.value| := by
  have hpos := hspeed.value_pos
  have htolerance : tolerance c = 2 * (1 + c.speed.value + c.speed.value⁻¹) := rfl
  have hlost := cut_far_abs hint
  have hscaled := speedScale_scaled hspeed hone hx
  have hleft := abs_le_of_isInt (cut_isInt (c.sign * x.toInt))
  have hsmall : |(cut (c.sign * x.toInt) : ℚ)| * c.speed.value⁻¹ ≤ 2 ^ 31 * c.speed.value⁻¹ :=
    mul_le_mul_of_nonneg_right hleft (le_of_lt (inv_pos.mpr hpos))
  cases hscaled with
  | lost _ hlarge' _ =>
    rw [abs_div_speed hspeed] at hlarge'
    linarith
  | kept _ _ hclose hbound =>
    rw [abs_div_speed hspeed] at hbound
    have hsame : cut (c.speedScale x).toInt = (c.speedScale x).toInt := by
      apply cut_of_isInt
      have hlt : |((c.speedScale x).toInt : ℚ)| < 2 ^ 31 := by linarith
      have hlt' : |(c.speedScale x).toInt| < 2 ^ 31 := by exact_mod_cast hlt
      rw [abs_lt] at hlt'
      exact ⟨le_of_lt hlt'.1, hlt'.2⟩
    have hslow' : c.speed.value < 2 ^ 15 := by
      have hd : (0 : ℚ) < c.speed.denominator.toNat := Nat.cast_pos.mpr hspeed.denominator_pos
      rw [hspeed.value_eq, div_lt_iff₀ hd]
      exact_mod_cast hslow
    have hinv' : 1 / 2 ^ 15 < c.speed.value⁻¹ := by
      rw [one_div]
      exact inv_strictAnti₀ hpos hslow'
    have hloss : 2 ^ 32 * c.speed.value⁻¹
        ≤ |((c.sign * x.toInt : Int) : ℚ) - cut (c.sign * x.toInt)| * c.speed.value⁻¹ :=
      mul_le_mul_of_nonneg_right hlost (le_of_lt (inv_pos.mpr hpos))
    have hgap := abs_sub_le (((c.sign * x.toInt : Int) : ℚ) / c.speed.value)
      ((c.speedScale x).toInt : ℚ) (cut (c.sign * x.toInt) / c.speed.value)
    rw [← sub_div, abs_div_speed hspeed, abs_sub_comm _ ((c.speedScale x).toInt : ℚ)] at hgap
    rw [hsame]
    linarith

/-- A time that does not fit is scaled to something far from it. -/
theorem speedScale_far (hslow : c.speed.numerator.toNat < 2 ^ 15 * c.speed.denominator.toNat)
    {x : BitVec 64} (hx : x.toInt.natAbs < 2 ^ 63) (h : ¬ c.SystemFits x) :
    9 / 8 * (tolerance c + 1 / 2)
      < |(cut (c.speedScale x).toInt : ℚ) - c.sign * (x.toInt / c.speed.value)| := by
  have hpos := hspeed.value_pos
  have hvalue := hspeed.value_lt
  have hinv := hspeed.inv_value_lt
  have htolerance : tolerance c = 2 * (1 + c.speed.value + c.speed.value⁻¹) := rfl
  rw [c.sign_div]
  by_cases hint : IsInt (c.sign * x.toInt)
  · exact speedScale_far_scaled hspeed hx hint h
  · have hlarge := le_abs_of_not_isInt hint
    by_cases hone : c.speed.numerator = c.speed.denominator
    · have hlost := cut_far_abs hint
      rw [c.speedScale_one (hspeed.eqInt_one.mpr hone), c.toInt_turn hx,
        hspeed.value_one hone, div_one, abs_sub_comm]
      linarith
    · rcases hspeed.apart hone with hslower | hfaster
      · -- slower than 1, the scaled time is beyond every `int`
        have hcut := abs_le_of_isInt (cut_isInt (c.speedScale x).toInt)
        have hgap := abs_sub_abs_le_abs_sub ((c.sign * x.toInt : Int) / c.speed.value : ℚ)
          (cut (c.speedScale x).toInt)
        have hbelow : c.speed.value < 1 := by
          rw [← inv_inv c.speed.value]
          exact inv_lt_one_of_one_lt₀ (by linarith)
        have hfar : 2 ^ 31 * c.speed.value⁻¹
            ≤ |((c.sign * x.toInt : Int) : ℚ)| * c.speed.value⁻¹ :=
          mul_le_mul_of_nonneg_right hlarge (le_of_lt (inv_pos.mpr hpos))
        rw [abs_div_speed hspeed, abs_sub_comm] at hgap
        linarith
      · exact speedScale_far_faster hspeed hfaster hslow hx hone hint

end Clock

namespace Clock

variable {c : Clock} (hspeed : SmallSpeed c.speed)

include hspeed

theorem inverseSpeedScale_eq (hone : c.speed.numerator ≠ c.speed.denominator) (y : BitVec 64) :
    c.inverseSpeedScale y
      = (c.speed.mulInt ((c.turn y).setWidth 32)).assign.longLongIntegerPart :=
  if_neg fun h => hone (hspeed.eqInt_one.mp h)

theorem inverseSpeedScale_scaled (hone : c.speed.numerator ≠ c.speed.denominator) {y : BitVec 64}
    (hsmall : y.toInt.natAbs < 2 ^ 31) :
    Scaled (decide (c.sign * y.toInt < 0)) (c.speed.productParts y.toInt.natAbs)
      (c.speed.value * (c.sign * y.toInt : Int)) (c.inverseSpeedScale y) := by
  have hmagnitude := c.natAbs_sign_mul y.toInt
  have hint : IsInt (c.sign * y.toInt) := by
    unfold IsInt
    omega
  have hnarrow : ((c.turn y).setWidth 32).toInt = c.sign * y.toInt := by
    rw [toInt_cut, c.toInt_turn (by omega), cut_of_isInt hint]
  have hscaled := hspeed.mulInt_scaled (v := (c.turn y).setWidth 32)
    (by rw [hnarrow, hmagnitude]; exact hsmall)
  rw [hnarrow, hmagnitude] at hscaled
  rw [inverseSpeedScale_eq hspeed hone]
  exact hscaled

/-- A time that no `int` holds comes out with the other sign, or as nothing. -/
theorem inverseSpeedScale_sign (hone : c.speed.numerator ≠ c.speed.denominator) {y : BitVec 64}
    (hlarge : 2 ^ 31 ≤ y.toInt.natAbs) (hlt : y.toInt.natAbs < 2 ^ 32) :
    (0 < c.sign * y.toInt → (c.inverseSpeedScale y).toInt ≤ 0) ∧
      (c.sign * y.toInt < 0 → -1 ≤ (c.inverseSpeedScale y).toInt) := by
  have hmagnitude := c.natAbs_sign_mul y.toInt
  have hnarrow : ((c.turn y).setWidth 32).toInt = cut (c.sign * y.toInt) := by
    rw [toInt_cut, c.toInt_turn (by omega)]
  have hnegative := hspeed.mulInt_negative ((c.turn y).setWidth 32)
  have hsign := Rational.assign_longLong_sign (c.speed.mulInt ((c.turn y).setWidth 32))
  rw [hnegative, hnarrow] at hsign
  rw [inverseSpeedScale_eq hspeed hone]
  have hminus : (-1 : BitVec 64).toInt = -1 := by decide
  constructor
  · intro hpositive
    have hcut : cut (c.sign * y.toInt) < 0 := by
      unfold cut
      rw [Int.bmod_def]
      split <;> omega
    rw [decide_eq_true hcut] at hsign
    rcases hsign with hlost | ⟨k, hk⟩
    · rw [hlost, hminus]
      decide
    · rw [hk, signed_true]
      omega
  · intro hnegative
    by_cases hleast : c.sign * y.toInt = -2 ^ 31
    · have hmin : (c.turn y).setWidth 32 = Rational.intMin := by
        apply BitVec.eq_of_toInt_eq
        rw [hnarrow, hleast]
        decide
      rw [hmin]
      exact hspeed.mulInt_intMin
    · have hcut : ¬ cut (c.sign * y.toInt) < 0 := by
        unfold cut
        rw [Int.bmod_def]
        split <;> omega
      rw [decide_eq_false hcut] at hsign
      rcases hsign with hlost | ⟨k, hk⟩
      · rw [hlost, hminus]
      · rw [hk, signed_false]
        omega

/-! The product with the speed of an adjusted time `y` that should be `e`. -/

section

variable {y : BitVec 64} {e : ℚ}

theorem abs_scaled_sub (y : BitVec 64) (e : ℚ) :
    |c.speed.value * (c.sign * y.toInt : Int) - c.sign * (e * c.speed.value)|
      = |(y.toInt : ℚ) - e| * c.speed.value := by
  have hfactor : c.speed.value * (c.sign * y.toInt : Int) - c.sign * (e * c.speed.value)
      = c.sign * ((y.toInt - e) * c.speed.value) := by
    push_cast
    ring
  rw [hfactor, c.abs_sign_mul, abs_mul, abs_of_pos hspeed.value_pos]

theorem abs_scaled (y : BitVec 64) :
    |c.speed.value * (c.sign * y.toInt : Int)| = |(y.toInt : ℚ)| * c.speed.value := by
  have hzero := abs_scaled_sub hspeed y 0
  rw [zero_mul, mul_zero, sub_zero, sub_zero] at hzero
  exact hzero

theorem fast_bounds (hfast : c.speed.denominator.toNat < 2 ^ 14 * c.speed.numerator.toNat) :
    c.speed.value⁻¹ < 2 ^ 14 ∧ 1 / 2 ^ 14 < c.speed.value := by
  have hn : (0 : ℚ) < c.speed.numerator.toNat := Nat.cast_pos.mpr hspeed.numerator_pos
  have hinv : c.speed.value⁻¹ < 2 ^ 14 := by
    rw [hspeed.value_eq, inv_div, div_lt_iff₀ hn]
    exact_mod_cast hfast
  refine ⟨hinv, ?_⟩
  rw [one_div, ← inv_inv c.speed.value]
  exact inv_strictAnti₀ (inv_pos.mpr hspeed.value_pos) hinv

/-- A product without a number is that of a large time. -/
theorem lost_far (hlarge : 2 ^ 31 ≤ |c.speed.value * (c.sign * y.toInt : Int)|)
    (hpart : c.inverseSpeedScale y = -1) (hy : |(y.toInt : ℚ)| ≤ |e| + 1 / 2) :
    tolerance c < |((c.inverseSpeedScale y).toInt : ℚ) - c.sign * (e * c.speed.value)| := by
  have hpos := hspeed.value_pos
  have hvalue := hspeed.value_lt
  have hbounds := hspeed.tolerance_bounds
  have hle : |(y.toInt : ℚ)| * c.speed.value ≤ (|e| + 1 / 2) * c.speed.value :=
    mul_le_mul_of_nonneg_right hy (le_of_lt hpos)
  have hexact : |c.sign * (e * c.speed.value)| = |e| * c.speed.value := by
    rw [c.abs_sign_mul, abs_mul, abs_of_pos hpos]
  have hminus : |((c.inverseSpeedScale y).toInt : ℚ)| = 1 := by
    rw [hpart, show (-1 : BitVec 64).toInt = -1 by decide]
    norm_num
  have hgap := abs_sub_abs_le_abs_sub (c.sign * (e * c.speed.value))
    ((c.inverseSpeedScale y).toInt : ℚ)
  rw [hexact, hminus, abs_sub_comm] at hgap
  rw [abs_scaled hspeed] at hlarge
  linarith

/-- One of a time far from `e` is as far at any speed that is not tiny. -/
theorem kept_far (hfast : c.speed.denominator.toNat < 2 ^ 14 * c.speed.numerator.toNat)
    (hclose : |((c.inverseSpeedScale y).toInt : ℚ)
      - c.speed.value * (c.sign * y.toInt : Int)| ≤ 3 / 2) (hy : 2 ^ 31 < |(y.toInt : ℚ) - e|) :
    tolerance c < |((c.inverseSpeedScale y).toInt : ℚ) - c.sign * (e * c.speed.value)| := by
  have hpos := hspeed.value_pos
  have htolerance : tolerance c = 2 * (1 + c.speed.value + c.speed.value⁻¹) := rfl
  obtain ⟨hinv, hvalue⟩ := fast_bounds hspeed hfast
  have hloss := abs_scaled_sub hspeed y e
  have hscaled : 2 ^ 31 * c.speed.value ≤ |(y.toInt : ℚ) - e| * c.speed.value :=
    mul_le_mul_of_nonneg_right (le_of_lt hy) (le_of_lt hpos)
  have hgap := abs_sub_le (c.speed.value * (c.sign * y.toInt : Int))
    ((c.inverseSpeedScale y).toInt : ℚ) (c.sign * (e * c.speed.value))
  rw [hloss, abs_sub_comm _ ((c.inverseSpeedScale y).toInt : ℚ)] at hgap
  linarith

/-- One of a time that no `int` holds has changed its sign. -/
theorem turned_far (hone : c.speed.numerator ≠ c.speed.denominator)
    (hfast : c.speed.denominator.toNat < 2 ^ 14 * c.speed.numerator.toNat)
    (hlarge : 2 ^ 31 ≤ y.toInt.natAbs) (hlt : y.toInt.natAbs < 2 ^ 32)
    (hy : |(y.toInt : ℚ) - e| ≤ 1 / 2) :
    tolerance c < |((c.inverseSpeedScale y).toInt : ℚ) - c.sign * (e * c.speed.value)| := by
  have hpos := hspeed.value_pos
  have htolerance : tolerance c = 2 * (1 + c.speed.value + c.speed.value⁻¹) := rfl
  obtain ⟨hinv, hvalue⟩ := fast_bounds hspeed hfast
  obtain ⟨hpositive, hnegative⟩ := inverseSpeedScale_sign hspeed hone hlarge hlt
  have hlarge' : 2 ^ 31 ≤ |(y.toInt : ℚ)| := by
    rw [← Int.cast_abs, Int.abs_eq_natAbs]
    exact_mod_cast hlarge
  have hrounding : |(y.toInt : ℚ) - e| * c.speed.value ≤ 1 / 2 * c.speed.value :=
    mul_le_mul_of_nonneg_right hy (le_of_lt hpos)
  have hscaled : 2 ^ 31 * c.speed.value ≤ |(y.toInt : ℚ)| * c.speed.value :=
    mul_le_mul_of_nonneg_right hlarge' (le_of_lt hpos)
  rw [← abs_scaled_sub hspeed] at hrounding
  rw [← abs_scaled hspeed] at hscaled
  have hside := abs_le.mp hrounding
  rcases Int.lt_trichotomy 0 (c.sign * y.toInt) with hup | hzero | hdown
  · have hz : ((c.inverseSpeedScale y).toInt : ℚ) ≤ 0 := by exact_mod_cast hpositive hup
    have hup' : (0 : ℚ) < (c.sign * y.toInt : Int) := by exact_mod_cast hup
    rw [abs_of_pos (mul_pos hpos hup')] at hscaled
    rw [lt_abs]
    right
    linarith [hside.1, hside.2]
  · have hmagnitude := c.natAbs_sign_mul y.toInt
    omega
  · have hz : (-1 : ℚ) ≤ ((c.inverseSpeedScale y).toInt : ℚ) := by exact_mod_cast hnegative hdown
    have hdown' : ((c.sign * y.toInt : Int) : ℚ) < 0 := by exact_mod_cast hdown
    rw [abs_of_neg (mul_neg_of_pos_of_neg hpos hdown')] at hscaled
    rw [lt_abs]
    left
    linarith [hside.1, hside.2]

end

end Clock

/-! ## Translations -/

section

variable {c : Clock} (hspeed : SmallSpeed c.speed) (hnear : NearOne c.systemClockAdjustment)

/-- A system time that is the exact one for a playback time, within the tolerance. -/
def SystemAccurate (c : Clock) (m : Mapping) (playbackTime systemTime : BitVec 64) : Prop :=
  |((systemTime - m.baseSystemTime).toInt : ℚ) - c.sign *
    ((playbackTime - m.basePlaybackTime).toInt / c.speed.value / c.systemClockAdjustment.value)|
      ≤ tolerance c

/-- A playback time that is the exact one for a system time. -/
def PlaybackAccurate (c : Clock) (m : Mapping) (systemTime playbackTime : BitVec 64) : Prop :=
  |((playbackTime - m.basePlaybackTime).toInt : ℚ) - c.sign *
    ((systemTime - m.baseSystemTime).toInt * c.systemClockAdjustment.value * c.speed.value)|
      ≤ tolerance c

variable {t : BitVec 64}

omit hspeed hnear in
theorem systemTime_elapsed (m : Mapping) :
    m.systemTime c t - m.baseSystemTime = c.elapsedSystemTime (t - m.basePlaybackTime) := by
  unfold Mapping.systemTime
  ring

omit hspeed hnear in
theorem playbackTime_elapsed (m : Mapping) :
    m.playbackTime c t - m.basePlaybackTime = c.elapsedPlaybackTime (t - m.baseSystemTime) := by
  unfold Mapping.playbackTime
  ring

include hspeed hnear

theorem systemTime_accurate (m : Mapping) (h : c.SystemFits (t - m.basePlaybackTime)) :
    SystemAccurate c m t (m.systemTime c t) := by
  unfold SystemAccurate
  rw [systemTime_elapsed]
  generalize t - m.basePlaybackTime = x at h ⊢
  have hscaled := c.speedScale_close hspeed h
  have hover := over_cut hnear (c.speedScale x)
  have hfour := hspeed.tolerance_bounds.1
  have hα := hnear.value_low
  unfold Clock.elapsedSystemTime
  generalize (Rational.intDiv ((c.speedScale x).setWidth 32)
    c.systemClockAdjustment).roundedLongLongIntegerPart.toInt = y at hover ⊢
  generalize cut (c.speedScale x).toInt = z at hscaled hover
  generalize c.systemClockAdjustment.value = α at hover hα ⊢
  have hpos : 0 < α := by linarith
  -- less than two microseconds of what is scaled
  have hdiv : |(z : ℚ) / α - c.sign * ((x.toInt : ℚ) / c.speed.value / α)| ≤ 2 := by
    rw [← mul_div_assoc, ← sub_div, abs_div, abs_of_pos hpos, div_le_iff₀ hpos]
    linarith
  rw [abs_le] at hover hdiv ⊢
  constructor <;> linarith [hover.1, hover.2, hdiv.1, hdiv.2]

theorem systemTime_inaccurate (m : Mapping)
    (hfar : 9 / 8 * (tolerance c + 1 / 2) < |(cut (c.speedScale (t - m.basePlaybackTime)).toInt : ℚ)
      - c.sign * ((t - m.basePlaybackTime).toInt / c.speed.value)|) :
    ¬ SystemAccurate c m t (m.systemTime c t) := by
  unfold SystemAccurate
  rw [systemTime_elapsed, not_le]
  generalize t - m.basePlaybackTime = x at hfar ⊢
  have hover := over_cut hnear (c.speedScale x)
  have hfour := hspeed.tolerance_bounds.1
  have hlow := hnear.value_low
  have hhigh := hnear.value_high
  unfold Clock.elapsedSystemTime
  generalize (Rational.intDiv ((c.speedScale x).setWidth 32)
    c.systemClockAdjustment).roundedLongLongIntegerPart.toInt = y at hover ⊢
  generalize cut (c.speedScale x).toInt = z at hfar hover
  generalize c.systemClockAdjustment.value = α at hover hlow hhigh ⊢
  have hpos : 0 < α := by linarith
  have hdiv : tolerance c + 1 / 2
      < |(z : ℚ) / α - c.sign * ((x.toInt : ℚ) / c.speed.value / α)| := by
    rw [← mul_div_assoc, ← sub_div, abs_div, abs_of_pos hpos, lt_div_iff₀ hpos]
    have hle : (tolerance c + 1 / 2) * α ≤ (tolerance c + 1 / 2) * (9 / 8) :=
      mul_le_mul_of_nonneg_left hhigh (by linarith)
    linarith
  have hgap := abs_sub_le ((z : ℚ) / α) y (c.sign * ((x.toInt : ℚ) / c.speed.value / α))
  rw [abs_sub_comm ((z : ℚ) / α) y] at hgap
  linarith

theorem playbackTime_accurate (m : Mapping) (h : c.PlaybackFits (t - m.baseSystemTime)) :
    PlaybackAccurate c m t (m.playbackTime c t) := by
  unfold PlaybackAccurate
  rw [playbackTime_elapsed]
  generalize t - m.baseSystemTime = x at h ⊢
  obtain ⟨hx, hkept⟩ := h
  have hfour := hspeed.tolerance_bounds.1
  by_cases hone : c.speed.numerator = c.speed.denominator
  · have hvalue := hspeed.value_one hone
    have hclose := c.elapsedPlaybackTime_close (hspeed.eqInt_one.mpr hone) hnear hx
    rw [hvalue, mul_one]
    linarith
  · obtain ⟨hsmall, hkeeps⟩ := hkept hone
    have htimes := times_close hnear hx
    have hmagnitude : (Rational.intMul (x.setWidth 32)
        c.systemClockAdjustment).roundedLongLongIntegerPart.toInt.natAbs = c.adjusted x.toInt := by
      rw [toInt_times hnear hx, natAbs_signed]
      rfl
    have hinverse := Clock.inverseSpeedScale_scaled hspeed hone (y := (Rational.intMul
      (x.setWidth 32) c.systemClockAdjustment).roundedLongLongIntegerPart)
      (by rw [hmagnitude]; exact hsmall)
    rw [hmagnitude] at hinverse
    unfold Clock.elapsedPlaybackTime
    generalize (Rational.intMul (x.setWidth 32)
      c.systemClockAdjustment).roundedLongLongIntegerPart = y at htimes hinverse ⊢
    cases hinverse with
    | lost hgone _ _ => exact absurd hkeeps hgone
    | kept _ _ hclose _ =>
      generalize (c.inverseSpeedScale y).toInt = z at hclose ⊢
      have hpos := hspeed.value_pos
      have hscaled := mul_le_mul_of_nonneg_right htimes (le_of_lt hpos)
      rw [← Clock.abs_scaled_sub hspeed] at hscaled
      have hinv : 0 < c.speed.value⁻¹ := inv_pos.mpr hpos
      have htolerance : tolerance c = 2 * (1 + c.speed.value + c.speed.value⁻¹) := rfl
      have hgap := abs_sub_le (z : ℚ) (c.speed.value * (c.sign * y.toInt : Int))
        (c.sign * (x.toInt * c.systemClockAdjustment.value * c.speed.value))
      linarith

variable {x : BitVec 64}

omit hspeed in
/-- What a cut takes from a time is far more than the adjustment of it. -/
theorem times_far {y : BitVec 64} (hint : ¬ IsInt x.toInt)
    (htimes : |(y.toInt : ℚ) - cut x.toInt * c.systemClockAdjustment.value| ≤ 1 / 2) :
    2 ^ 31 < |(y.toInt : ℚ) - x.toInt * c.systemClockAdjustment.value| := by
  have hlow := hnear.value_low
  have hlost := cut_far_abs hint
  generalize c.systemClockAdjustment.value = α at htimes hlow ⊢
  have hloss : |(x.toInt : ℚ) * α - cut x.toInt * α| = |(x.toInt : ℚ) - cut x.toInt| * α := by
    rw [← sub_mul, abs_mul, abs_of_pos (by linarith : (0 : ℚ) < α)]
  have hscaled : 2 ^ 32 * (7 / 8) ≤ |(x.toInt : ℚ) - cut x.toInt| * α :=
    mul_le_mul hlost hlow (by norm_num) (abs_nonneg _)
  have hgap := abs_sub_le ((x.toInt : ℚ) * α) y.toInt (cut x.toInt * α)
  rw [hloss, abs_sub_comm ((x.toInt : ℚ) * α) y.toInt] at hgap
  linarith

omit hspeed in
theorem natAbs_times_lt_of_isInt {y : BitVec 64} (hx : x.toInt.natAbs < 2 ^ 31)
    (htimes : |(y.toInt : ℚ) - x.toInt * c.systemClockAdjustment.value| ≤ 1 / 2) :
    y.toInt.natAbs < 2 ^ 32 := by
  have hlow := hnear.value_low
  have hhigh := hnear.value_high
  have hxq : |(x.toInt : ℚ)| < 2 ^ 31 := by
    rw [← Int.cast_abs, Int.abs_eq_natAbs]
    exact_mod_cast hx
  have hproduct : |(x.toInt : ℚ) * c.systemClockAdjustment.value| ≤ 2 ^ 31 * (9 / 8) := by
    rw [abs_mul, abs_of_pos (by linarith : 0 < c.systemClockAdjustment.value)]
    exact mul_le_mul (le_of_lt hxq) hhigh (by linarith) (by norm_num)
  have hrounded := abs_sub_abs_le_abs_sub (y.toInt : ℚ) (x.toInt * c.systemClockAdjustment.value)
  have hyq : |(y.toInt : ℚ)| < 2 ^ 32 := by linarith
  rw [← Int.cast_abs, Int.abs_eq_natAbs] at hyq
  exact_mod_cast hyq

omit hspeed hnear in
/-- What is left of a time is adjusted to no more than the time. -/
theorem abs_times_le {y : BitVec 64}
    (htimes : |(y.toInt : ℚ) - cut x.toInt * c.systemClockAdjustment.value| ≤ 1 / 2) :
    |(y.toInt : ℚ)| ≤ |(x.toInt : ℚ) * c.systemClockAdjustment.value| + 1 / 2 := by
  have hlarger : |(cut x.toInt : ℚ)| ≤ |(x.toInt : ℚ)| := by
    by_cases hint : IsInt x.toInt
    · rw [cut_of_isInt hint]
    · exact (abs_le_of_isInt (cut_isInt _)).trans (le_abs_of_not_isInt hint)
  have hlarger' : |(cut x.toInt : ℚ) * c.systemClockAdjustment.value|
      ≤ |(x.toInt : ℚ) * c.systemClockAdjustment.value| := by
    rw [abs_mul, abs_mul]
    exact mul_le_mul_of_nonneg_right hlarger (abs_nonneg _)
  have hrounded := abs_sub_abs_le_abs_sub (y.toInt : ℚ)
    (cut x.toInt * c.systemClockAdjustment.value)
  linarith

/-- A time that does not fit is scaled to something far from it. -/
theorem elapsedPlaybackTime_far
    (hfast : c.speed.denominator.toNat < 2 ^ 14 * c.speed.numerator.toNat) (hcut : ¬ c.CutTwice x)
    (h : ¬ c.PlaybackFits x) :
    tolerance c < |((c.elapsedPlaybackTime x).toInt : ℚ)
      - c.sign * (x.toInt * c.systemClockAdjustment.value * c.speed.value)| := by
  have hleast : cut x.toInt ≠ -2 ^ 31 := fun hleast => hcut (.inl hleast)
  have hleft := cut_isInt x.toInt
  have hleft31 : (cut x.toInt).natAbs < 2 ^ 31 := by
    unfold IsInt at hleft
    omega
  obtain ⟨htimes, hmagnitude⟩ := times_cut hnear hleft31
  have hadjusted : nearest ((cut x.toInt).natAbs * c.systemClockAdjustment.numerator.toNat)
    c.systemClockAdjustment.denominator.toNat = c.adjusted (cut x.toInt) := rfl
  have hadjusted_le : c.adjusted (cut x.toInt) ≤ 2 ^ 32 := hnear.times_le (Nat.le_of_lt hleft31)
  -- a time that an `int` holds is not cut
  have huncut : x.toInt.natAbs < 2 ^ 31 → cut x.toInt = x.toInt := by
    intro hx
    apply cut_of_isInt
    unfold IsInt
    omega
  have hsame : x.toInt.natAbs < 2 ^ 31 ∨ ¬ IsInt x.toInt := by
    by_cases hint : IsInt x.toInt
    · rw [cut_of_isInt hint] at hleft31
      exact .inl hleft31
    · exact .inr hint
  rw [hadjusted] at hmagnitude
  unfold Clock.elapsedPlaybackTime
  generalize (Rational.intMul (x.setWidth 32)
    c.systemClockAdjustment).roundedLongLongIntegerPart = y at htimes hmagnitude ⊢
  by_cases hone : c.speed.numerator = c.speed.denominator
  · -- at speed 1 the time was cut once
    have hnot : ¬ IsInt x.toInt := hsame.resolve_left fun hx => h ⟨hx, fun hne => absurd hone hne⟩
    have hfar := times_far hnear hnot htimes
    have hbounds := hspeed.tolerance_bounds
    rw [c.inverseSpeedScale_one (hspeed.eqInt_one.mpr hone), c.toInt_turn (by omega),
      hspeed.value_one hone, mul_one, Int.cast_mul, ← mul_sub, c.abs_sign_mul]
    linarith
  · by_cases hsmall : y.toInt.natAbs < 2 ^ 31
    · cases Clock.inverseSpeedScale_scaled hspeed hone hsmall with
      | lost _ hlarge hpart =>
        exact Clock.lost_far hspeed hlarge hpart (abs_times_le htimes)
      | kept hkept _ hclose _ =>
        have hnot : ¬ IsInt x.toInt := by
          refine hsame.resolve_left fun hx => ?_
          rw [huncut hx] at hmagnitude
          rw [hmagnitude] at hsmall hkept
          exact h ⟨hx, fun _ => ⟨hsmall, hkept⟩⟩
        exact Clock.kept_far hspeed hfast hclose (times_far hnear hnot htimes)
    · -- the adjusted time is cut
      have hx : x.toInt.natAbs < 2 ^ 31 := by
        by_contra hx
        exact hcut (.inr ⟨by omega, hone, by omega⟩)
      rw [huncut hx] at htimes
      exact Clock.turned_far hspeed hone hfast (Nat.le_of_not_lt hsmall)
        (natAbs_times_lt_of_isInt hnear hx htimes) htimes

omit hspeed hnear in
theorem playbackTime_inaccurate (m : Mapping)
    (hfar : tolerance c < |((c.elapsedPlaybackTime (t - m.baseSystemTime)).toInt : ℚ) - c.sign *
      ((t - m.baseSystemTime).toInt * c.systemClockAdjustment.value * c.speed.value)|) :
    ¬ PlaybackAccurate c m t (m.playbackTime c t) := by
  unfold PlaybackAccurate
  rw [playbackTime_elapsed, not_le]
  exact hfar

/-! At `2 ^ 39` microseconds nothing is left of a time. -/

omit hnear in
theorem speedScale_far_away (hx : x.toInt = 2 ^ 39) :
    9 / 8 * (tolerance c + 1 / 2)
      < |(cut (c.speedScale x).toInt : ℚ) - c.sign * (x.toInt / c.speed.value)| := by
  have hpos := hspeed.value_pos
  have hvalue := hspeed.value_lt
  have hbounds := hspeed.tolerance_bounds
  have hzero : cut (c.sign * x.toInt) = 0 := by
    rw [hx]
    unfold Clock.sign
    split
    · decide
    · decide
  have hnothing : cut (c.speedScale x).toInt = 0 := by
    by_cases hone : c.speed.numerator = c.speed.denominator
    · rw [c.speedScale_one (hspeed.eqInt_one.mpr hone), c.toInt_turn (by rw [hx]; decide), hzero]
    · have hscaled := Clock.speedScale_scaled hspeed hone (x := x) (by rw [hx]; decide)
      rw [hzero, Int.cast_zero, zero_div] at hscaled
      rw [hscaled.eq_zero]
      rfl
  have hinv : 1 / 2 ^ 16 < c.speed.value⁻¹ := by
    rw [one_div]
    exact inv_strictAnti₀ hpos hvalue
  have hexact : |(c.sign : ℚ) * (x.toInt / c.speed.value)| = 2 ^ 39 * c.speed.value⁻¹ := by
    rw [c.abs_sign_mul, hx, Clock.abs_div_speed hspeed]
    norm_num
  rw [hnothing, Int.cast_zero, zero_sub, abs_neg, hexact]
  linarith

theorem elapsedPlaybackTime_far_away (hx : x.toInt = 2 ^ 39) :
    tolerance c < |((c.elapsedPlaybackTime x).toInt : ℚ)
      - c.sign * (x.toInt * c.systemClockAdjustment.value * c.speed.value)| := by
  have hpos := hspeed.value_pos
  have hinv := hspeed.inv_value_lt
  have hlow := hnear.value_low
  have hbounds := hspeed.tolerance_bounds
  have hzero : cut x.toInt = 0 := by
    rw [hx]
    decide
  have hnothing : (c.elapsedPlaybackTime x).toInt = 0 := by
    obtain ⟨htimes, -⟩ := times_cut hnear (x := x) (by rw [hzero]; decide)
    rw [hzero, Int.cast_zero, zero_mul, sub_zero] at htimes
    unfold Clock.elapsedPlaybackTime
    generalize (Rational.intMul (x.setWidth 32)
      c.systemClockAdjustment).roundedLongLongIntegerPart = y at htimes ⊢
    have hy : y.toInt = 0 := toInt_eq_zero (by linarith)
    by_cases hone : c.speed.numerator = c.speed.denominator
    · rw [c.inverseSpeedScale_one (hspeed.eqInt_one.mpr hone), c.toInt_turn (by rw [hy]; decide),
        hy, mul_zero]
    · have hscaled := Clock.inverseSpeedScale_scaled hspeed hone (y := y) (by rw [hy]; decide)
      rw [hy, mul_zero, Int.cast_zero, mul_zero] at hscaled
      exact hscaled.eq_zero
  have hvalue : 1 / 2 ^ 16 < c.speed.value := by
    rw [one_div, ← inv_inv c.speed.value]
    exact inv_strictAnti₀ (inv_pos.mpr hpos) hinv
  have hα : 0 < c.systemClockAdjustment.value := by linarith
  have hproduct : 7 / 8 * (1 / 2 ^ 16) ≤ c.systemClockAdjustment.value * c.speed.value :=
    mul_le_mul hlow (le_of_lt hvalue) (by norm_num) (le_of_lt hα)
  have hexact : |(c.sign : ℚ) * (x.toInt * c.systemClockAdjustment.value * c.speed.value)|
      = 2 ^ 39 * (c.systemClockAdjustment.value * c.speed.value) := by
    rw [c.abs_sign_mul, hx, mul_assoc, abs_mul, abs_of_pos (mul_pos hα hpos)]
    norm_num
  rw [hnothing, Int.cast_zero, zero_sub, abs_neg, hexact]
  linarith

end

/-- A playback time is translated to a system time as it should be. -/
def SystemTranslated (c : Clock) (s : Base) (id : Option Nat) (m : Mapping) (t : BitVec 64) : Prop :=
  ∃ systemTime, (c.translatePlaybackTimeToSystem s id t).2 = some systemTime ∧
    SystemAccurate c m t systemTime

/-- A system time is translated to a playback time as it should be. -/
def PlaybackTranslated (c : Clock) (s : Base) (id : Option Nat) (m : Mapping) (t : BitVec 64) :
    Prop :=
  ∃ playbackTime, c.translateSystemTimeToPlayback s id t = some playbackTime ∧
    PlaybackAccurate c m t playbackTime

section

variable {c : Clock} {s : Base} {id : Option Nat} {m : Mapping} (h : s.mapping id = some m)
  (t : BitVec 64)

include h

theorem systemTranslated_iff :
    SystemTranslated c s id m t ↔ SystemAccurate c m t (m.systemTime c t) := by
  unfold SystemTranslated
  rw [translatePlaybackTimeToSystem_of_mapping h t]
  constructor
  · rintro ⟨_, heq, haccurate⟩
    rw [Option.some.inj heq]
    exact haccurate
  · exact fun haccurate => ⟨_, rfl, haccurate⟩

theorem playbackTranslated_iff :
    PlaybackTranslated c s id m t ↔ PlaybackAccurate c m t (m.playbackTime c t) := by
  unfold PlaybackTranslated
  rw [translateSystemTimeToPlayback_of_mapping h t]
  constructor
  · rintro ⟨_, heq, haccurate⟩
    rw [Option.some.inj heq]
    exact haccurate
  · exact fun haccurate => ⟨_, rfl, haccurate⟩

end

/-- The translations of every mapping are accurate where the elapsed times fit, and not
where one of them is cut, unless at a speed at which that is hardly felt; and those of no
mapping are accurate at every distance. -/
theorem translate_accurate_iff {c : Clock} (hspeed : SmallSpeed c.speed)
    (hnear : NearOne c.systemClockAdjustment) {s : Base} {id : Option Nat} {m : Mapping}
    (h : s.mapping id = some m) :
    (∀ t, Within (2 ^ 40 - 1) t m.basePlaybackTime →
      (c.SystemFits (t - m.basePlaybackTime) → SystemTranslated c s id m t) ∧
      (c.speed.numerator.toNat < 2 ^ 15 * c.speed.denominator.toNat →
        SystemTranslated c s id m t → c.SystemFits (t - m.basePlaybackTime))) ∧
    (∀ t, Within (2 ^ 40 - 1) t m.baseSystemTime →
      (c.PlaybackFits (t - m.baseSystemTime) → PlaybackTranslated c s id m t) ∧
      (c.speed.denominator.toNat < 2 ^ 14 * c.speed.numerator.toNat →
        ¬ c.CutTwice (t - m.baseSystemTime) →
        PlaybackTranslated c s id m t → c.PlaybackFits (t - m.baseSystemTime))) ∧
    (∃ t, Within (2 ^ 40 - 1) t m.basePlaybackTime ∧ ¬ SystemTranslated c s id m t) ∧
    ∃ t, Within (2 ^ 40 - 1) t m.baseSystemTime ∧ ¬ PlaybackTranslated c s id m t := by
  have haway (base : BitVec 64) : (base + 2 ^ 39 - base).toInt = 2 ^ 39 := by
    rw [show base + 2 ^ 39 - base = 2 ^ 39 by ring]
    decide
  refine ⟨fun t ht => ⟨fun hfits => ?_, fun hslow => ?_⟩, fun t ht => ⟨fun hfits => ?_,
    fun hfast hcut => ?_⟩, ⟨m.basePlaybackTime + 2 ^ 39, ?_, ?_⟩, m.baseSystemTime + 2 ^ 39, ?_, ?_⟩
  · exact (systemTranslated_iff h t).mpr (systemTime_accurate hspeed hnear m hfits)
  · rw [systemTranslated_iff h]
    refine not_imp_not.mp fun hnot => ?_
    unfold Within at ht
    exact systemTime_inaccurate hspeed hnear m
      (Clock.speedScale_far hspeed hslow (by omega) hnot)
  · exact (playbackTranslated_iff h t).mpr (playbackTime_accurate hspeed hnear m hfits)
  · rw [playbackTranslated_iff h]
    refine not_imp_not.mp fun hnot => ?_
    exact playbackTime_inaccurate m (elapsedPlaybackTime_far hspeed hnear hfast hcut hnot)
  · unfold Within
    rw [haway]
    decide
  · rw [systemTranslated_iff h]
    exact systemTime_inaccurate hspeed hnear m (speedScale_far_away hspeed (haway _))
  · unfold Within
    rw [haway]
    decide
  · rw [playbackTranslated_iff h]
    exact playbackTime_inaccurate m (elapsedPlaybackTime_far_away hspeed hnear (haway _))

/-- A master mapping that says that playback time 1 s is at 5 s. -/
def mappedAtOne : Base :=
  { Base.reset with
    masterTimeMappingEstablished := true
    masterBaseNormalizedPlaybackTime := 1000000
    masterBaseSystemTime := 5000000 }

/-- Three seconds from the base, at double speed. -/
theorem translate_accurate_double :
    SystemTranslated ⟨.ofInt 2, .playForward, .ofInt 1⟩ mappedAtOne none ⟨1000000, 5000000⟩ 4000000 ∧
      PlaybackTranslated ⟨.ofInt 2, .playForward, .ofInt 1⟩ mappedAtOne none ⟨1000000, 5000000⟩
        8000000 := by
  have hspeed : SmallSpeed (.ofInt 2) := ⟨rfl, by decide, by decide, by decide, by decide⟩
  have hnear : NearOne (.ofInt 1) := ⟨rfl, by decide, by decide, by decide, by decide, by decide⟩
  have hall := @translate_accurate_iff ⟨.ofInt 2, .playForward, .ofInt 1⟩ hspeed hnear
    mappedAtOne none ⟨1000000, 5000000⟩ rfl
  exact ⟨(hall.1 4000000 (by decide)).1 (by decide +kernel),
    (hall.2.1 8000000 (by decide)).1 (by decide +kernel)⟩

-- at a large speed a cut is hardly felt, and a second cut may make up for the first
example :
    let c : Clock := ⟨.ofInt 65535, .playForward, .ofInt 1⟩
    ¬ c.SystemFits (2 ^ 31) ∧
      SystemAccurate c ⟨0, 0⟩ (2 ^ 31) ((⟨0, 0⟩ : Mapping).systemTime c (2 ^ 31)) := by
  unfold SystemAccurate
  decide +kernel

example :
    let c : Clock := ⟨⟨false, 3, 2⟩, .playForward, ⟨false, 4294967295, 4294967292⟩⟩
    ¬ c.PlaybackFits (2 ^ 31 + 1) ∧
      PlaybackAccurate c ⟨0, 0⟩ (2 ^ 31 + 1) ((⟨0, 0⟩ : Mapping).playbackTime c (2 ^ 31 + 1)) := by
  unfold PlaybackAccurate
  decide +kernel

/-- At speed 1 a time 4294967296 microseconds from the base is translated to the base. -/
theorem translate_inaccurate :
    ¬ ∀ (c : Clock) (s : Base) (id : Option Nat) (m : Mapping) (t : BitVec 64), SmallSpeed c.speed →
      NearOne c.systemClockAdjustment → s.mapping id = some m →
      Within (2 ^ 40 - 1) t m.basePlaybackTime → SystemTranslated c s id m t := by
  intro h
  obtain ⟨systemTime, htranslated, haccurate⟩ := h .reset mappedAtOne none ⟨1000000, 5000000⟩
    (1000000 + 4294967296) ⟨rfl, by decide, by decide, by decide, by decide⟩
    ⟨rfl, by decide, by decide, by decide, by decide, by decide⟩ rfl (by decide)
  have hbase : (Clock.reset.translatePlaybackTimeToSystem mappedAtOne none (1000000 + 4294967296)).2
      = some 5000000 := by decide
  obtain rfl := Option.some.inj (hbase.symm.trans htranslated)
  unfold SystemAccurate tolerance at haccurate
  have hone : (Rational.ofInt 1).value = 1 := by
    rw [Rational.value_ofInt]
    rfl
  have hsystem : ((5000000 : BitVec 64) - 5000000).toInt = 0 := by decide
  have hplayback : ((1000000 + 4294967296 : BitVec 64) - 1000000).toInt = 4294967296 := by decide
  have hsign : Clock.reset.sign = 1 := rfl
  simp only [Clock.reset] at haccurate hsign
  rw [hone, hsign, hsystem, hplayback] at haccurate
  norm_num at haccurate

end Duckbox.OutputCoordinator
