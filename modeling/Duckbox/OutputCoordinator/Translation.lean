import Duckbox.ClassDefinitions.RationalRounding
import Duckbox.OutputCoordinator.Base

/-!
# Translation of times

The two functions that translate between playback and system time, at any speed, in
either direction of play and with any adjustment of the system clock. Elapsed times
go through operators of `Rational_c` that take an `int`.

At speed 1 a translation there and back is off by a microsecond at most, and so is any
other time where the first one has moved the mapping (`translate_round_trip`).
-/

namespace Duckbox.OutputCoordinator

open ClassDefinitions Lib
open ClassDefinitions.Rational (nearest)

/-- `PlayDirection_t`. -/
inductive PlayDirection where
  | playForward
  | playBackward
deriving DecidableEq, Repr

/-- What the translation reads beside the mappings. -/
structure Clock where
  speed : Rational
  direction : PlayDirection
  systemClockAdjustment : Rational

namespace Clock

/-- The values of `Reset`. -/
def reset : Clock := ⟨.ofInt 1, .playForward, .ofInt 1⟩

/-- "Direction of play may change the meaning". -/
def turn (c : Clock) (t : BitVec 64) : BitVec 64 := if c.direction = .playBackward then -t else t

/-- `SpeedScale`. -/
def speedScale (c : Clock) (t : BitVec 64) : BitVec 64 :=
  let t := c.turn t
  if c.speed.eqInt 1 then t
  else
    let temp := if c.speed.eqInt 0 then .ofInt 0 else Rational.intDiv (t.setWidth 32) c.speed
    temp.assign.longLongIntegerPart

/-- `InverseSpeedScale`. -/
def inverseSpeedScale (c : Clock) (t : BitVec 64) : BitVec 64 :=
  let t := c.turn t
  if c.speed.eqInt 1 then t else (c.speed.mulInt (t.setWidth 32)).assign.longLongIntegerPart

/-- `ElapsedSystemTime`, of an elapsed playback time. -/
def elapsedSystemTime (c : Clock) (elapsedPlaybackTime : BitVec 64) : BitVec 64 :=
  (Rational.intDiv ((c.speedScale elapsedPlaybackTime).setWidth 32)
    c.systemClockAdjustment).roundedLongLongIntegerPart

/-- `ElapsedNormalizedPlaybackTime`, of an elapsed system time. -/
def elapsedPlaybackTime (c : Clock) (elapsedSystemTime : BitVec 64) : BitVec 64 :=
  c.inverseSpeedScale
    (Rational.intMul (elapsedSystemTime.setWidth 32) c.systemClockAdjustment).roundedLongLongIntegerPart

/-- `TranslatePlaybackTimeToSystem`: the state with what is rebased, and the system
time, if there is a mapping. -/
def translatePlaybackTimeToSystem (c : Clock) (s : Base) (id : Option Nat)
    (playbackTime : BitVec 64) : Base × Option (BitVec 64) :=
  if !s.masterTimeMappingEstablished then (s, none)
  else
    match id with
    | none =>
      let elapsed := c.elapsedSystemTime (playbackTime - s.masterBaseNormalizedPlaybackTime)
      let systemTime := s.masterBaseSystemTime + elapsed
      (if elapsed > rebaseTimeTriggerValue then
          { s with
            masterBaseNormalizedPlaybackTime := playbackTime
            masterBaseSystemTime := systemTime }
        else s, some systemTime)
    | some id =>
      if !(s.context id).timeMappingEstablished then (s, none)
      else
        let elapsed := c.elapsedSystemTime (playbackTime - (s.context id).baseNormalizedPlaybackTime)
        let systemTime := (s.context id).baseSystemTime + elapsed
        (if elapsed > rebaseTimeTriggerValue then
            let t := if s.masterBaseSystemTime = (s.context id).baseSystemTime then
                { s with
                  masterBaseNormalizedPlaybackTime := playbackTime
                  masterBaseSystemTime := systemTime }
              else s
            t.write id { s.context id with
              baseNormalizedPlaybackTime := playbackTime
              baseSystemTime := systemTime }
          else s, some systemTime)

/-- `TranslateSystemTimeToPlayback`. -/
def translateSystemTimeToPlayback (c : Clock) (s : Base) (id : Option Nat)
    (systemTime : BitVec 64) : Option (BitVec 64) :=
  if !s.masterTimeMappingEstablished then none
  else
    match id with
    | none =>
      some (s.masterBaseNormalizedPlaybackTime +
        c.elapsedPlaybackTime (systemTime - s.masterBaseSystemTime))
    | some id =>
      if !(s.context id).timeMappingEstablished then none
      else
        some ((s.context id).baseNormalizedPlaybackTime +
          c.elapsedPlaybackTime (systemTime - (s.context id).baseSystemTime))

end Clock

/-! ## Mappings -/

/-- A line: the playback time of a system time. -/
structure Mapping where
  basePlaybackTime : BitVec 64
  baseSystemTime : BitVec 64
deriving DecidableEq

/-- The mapping that a translation goes by, that of a stream or the master's. -/
def Base.mapping (s : Base) : Option Nat → Option Mapping
  | none =>
    if s.masterTimeMappingEstablished then
      some ⟨s.masterBaseNormalizedPlaybackTime, s.masterBaseSystemTime⟩
    else none
  | some id =>
    if s.masterTimeMappingEstablished ∧ (s.context id).timeMappingEstablished then
      some ⟨(s.context id).baseNormalizedPlaybackTime, (s.context id).baseSystemTime⟩
    else none

namespace Mapping

/-- The system time of a playback time. -/
def systemTime (m : Mapping) (c : Clock) (playbackTime : BitVec 64) : BitVec 64 :=
  m.baseSystemTime + c.elapsedSystemTime (playbackTime - m.basePlaybackTime)

/-- The playback time of a system time. -/
def playbackTime (m : Mapping) (c : Clock) (systemTime : BitVec 64) : BitVec 64 :=
  m.basePlaybackTime + c.elapsedPlaybackTime (systemTime - m.baseSystemTime)

/-- The mapping after a translation. -/
def rebase (m : Mapping) (c : Clock) (playbackTime : BitVec 64) : Mapping :=
  if c.elapsedSystemTime (playbackTime - m.basePlaybackTime) > rebaseTimeTriggerValue then
    ⟨playbackTime, m.systemTime c playbackTime⟩
  else m

end Mapping

section

variable {c : Clock} {s : Base} {id : Option Nat} {m : Mapping}

theorem mapping_none : s.mapping none = some m ↔ s.masterTimeMappingEstablished = true ∧
    m = ⟨s.masterBaseNormalizedPlaybackTime, s.masterBaseSystemTime⟩ := by
  show (if s.masterTimeMappingEstablished then some _ else none) = some m ↔ _
  split
  · next h => exact ⟨fun heq => ⟨h, (Option.some.inj heq).symm⟩, fun heq => congrArg some heq.2.symm⟩
  · next h => exact iff_of_false (by simp) fun heq => h heq.1

theorem mapping_some {k : Nat} : s.mapping (some k) = some m ↔
    s.masterTimeMappingEstablished = true ∧ (s.context k).timeMappingEstablished = true ∧
      m = ⟨(s.context k).baseNormalizedPlaybackTime, (s.context k).baseSystemTime⟩ := by
  show (if s.masterTimeMappingEstablished ∧ (s.context k).timeMappingEstablished then some _ else none)
    = some m ↔ _
  split
  · next h =>
    exact ⟨fun heq => ⟨h.1, h.2, (Option.some.inj heq).symm⟩, fun heq => congrArg some heq.2.2.symm⟩
  · next h => exact iff_of_false (by simp) fun heq => h ⟨heq.1, heq.2.1⟩

theorem translate_none (h : s.masterTimeMappingEstablished = true) (t : BitVec 64) :
    c.translatePlaybackTimeToSystem s none t =
      (if c.elapsedSystemTime (t - s.masterBaseNormalizedPlaybackTime) > rebaseTimeTriggerValue then
          { s with
            masterBaseNormalizedPlaybackTime := t
            masterBaseSystemTime := s.masterBaseSystemTime +
              c.elapsedSystemTime (t - s.masterBaseNormalizedPlaybackTime) }
        else s, some (s.masterBaseSystemTime +
          c.elapsedSystemTime (t - s.masterBaseNormalizedPlaybackTime))) :=
  if_neg (by rw [h]; exact Bool.false_ne_true)

theorem translate_some {k : Nat} (h : s.masterTimeMappingEstablished = true)
    (hk : (s.context k).timeMappingEstablished = true) (t : BitVec 64) :
    c.translatePlaybackTimeToSystem s (some k) t =
      (if c.elapsedSystemTime (t - (s.context k).baseNormalizedPlaybackTime)
            > rebaseTimeTriggerValue then
          (if s.masterBaseSystemTime = (s.context k).baseSystemTime then
            { s with
              masterBaseNormalizedPlaybackTime := t
              masterBaseSystemTime := (s.context k).baseSystemTime +
                c.elapsedSystemTime (t - (s.context k).baseNormalizedPlaybackTime) }
          else s).write k { s.context k with
            baseNormalizedPlaybackTime := t
            baseSystemTime := (s.context k).baseSystemTime +
              c.elapsedSystemTime (t - (s.context k).baseNormalizedPlaybackTime) }
        else s, some ((s.context k).baseSystemTime +
          c.elapsedSystemTime (t - (s.context k).baseNormalizedPlaybackTime))) :=
  (if_neg (by rw [h]; exact Bool.false_ne_true)).trans
    (if_neg (by rw [hk]; exact Bool.false_ne_true))

theorem translatePlaybackTimeToSystem_of_mapping (h : s.mapping id = some m) (t : BitVec 64) :
    (c.translatePlaybackTimeToSystem s id t).2 = some (m.systemTime c t) := by
  cases id with
  | none =>
    obtain ⟨hmaster, rfl⟩ := mapping_none.mp h
    rw [translate_none hmaster]
    rfl
  | some k =>
    obtain ⟨hmaster, hcontext, rfl⟩ := mapping_some.mp h
    rw [translate_some hmaster hcontext]
    rfl

theorem mapping_write (k : Nat) (context : Context) (j : Nat) :
    (s.write k context).mapping (some j) =
      if j = k then
        if s.masterTimeMappingEstablished ∧ context.timeMappingEstablished then
          some ⟨context.baseNormalizedPlaybackTime, context.baseSystemTime⟩
        else none
      else s.mapping (some j) := by
  show (if s.masterTimeMappingEstablished ∧
    (Function.update s.context k context j).timeMappingEstablished then some _ else none) = _
  by_cases hj : j = k
  · rw [if_pos hj, hj]
    simp only [Base.write, Function.update_self]
  · rw [if_neg hj]
    simp only [Base.write, Function.update_of_ne hj]
    rfl

theorem mapping_translate (h : s.mapping id = some m) (t : BitVec 64) :
    (c.translatePlaybackTimeToSystem s id t).1.mapping id = some (m.rebase c t) ∧
      ∀ other, s.mapping other = some m →
        (c.translatePlaybackTimeToSystem s id t).1.mapping other = some m ∨
          (c.translatePlaybackTimeToSystem s id t).1.mapping other = some (m.rebase c t) := by
  unfold Mapping.rebase
  cases id with
  | none =>
    obtain ⟨hmaster, rfl⟩ := mapping_none.mp h
    rw [translate_none hmaster]
    dsimp only
    split
    · refine ⟨mapping_none.mpr ⟨hmaster, rfl⟩, fun other hother => ?_⟩
      cases other with
      | none => exact .inr (mapping_none.mpr ⟨hmaster, rfl⟩)
      | some j => exact .inl hother
    · exact ⟨h, fun other hother => .inl hother⟩
  | some k =>
    obtain ⟨hmaster, hcontext, rfl⟩ := mapping_some.mp h
    rw [translate_some hmaster hcontext]
    dsimp only
    split
    · -- the stream's mapping is written, after the master's or without
      have hstream : ∀ u : Base, u.masterTimeMappingEstablished = true → ∀ p q : BitVec 64,
          (u.write k { s.context k with
            baseNormalizedPlaybackTime := p, baseSystemTime := q }).mapping (some k) = some ⟨p, q⟩ := by
        intro u hu p q
        rw [mapping_write, if_pos rfl, if_pos ⟨hu, hcontext⟩]
      have hothers : ∀ (u : Base) (context : Context) (j : Nat), j ≠ k →
          (u.write k context).mapping (some j) = u.mapping (some j) := by
        intro u context j hj
        rw [mapping_write, if_neg hj]
      split
      · refine ⟨hstream _ hmaster _ _, fun other hother => ?_⟩
        cases other with
        | none => exact .inr (mapping_none.mpr ⟨hmaster, rfl⟩)
        | some j =>
          by_cases hj : j = k
          · subst hj
            exact .inr (hstream _ hmaster _ _)
          · exact .inl ((hothers _ _ j hj).trans hother)
      · next hapart =>
        refine ⟨hstream _ hmaster _ _, fun other hother => ?_⟩
        cases other with
        | none => exact absurd (Mapping.mk.inj (mapping_none.mp hother).2).2.symm hapart
        | some j =>
          by_cases hj : j = k
          · subst hj
            exact .inr (hstream _ hmaster _ _)
          · exact .inl ((hothers _ _ j hj).trans hother)
    · exact ⟨h, fun other hother => .inl hother⟩

theorem translateSystemTimeToPlayback_of_mapping (h : s.mapping id = some m) (t : BitVec 64) :
    c.translateSystemTimeToPlayback s id t = some (m.playbackTime c t) := by
  cases id with
  | none =>
    obtain ⟨hmaster, rfl⟩ := mapping_none.mp h
    exact if_neg (by rw [hmaster]; exact Bool.false_ne_true)
  | some k =>
    obtain ⟨hmaster, hcontext, rfl⟩ := mapping_some.mp h
    exact (if_neg (by rw [hmaster]; exact Bool.false_ne_true)).trans
      (if_neg (by rw [hcontext]; exact Bool.false_ne_true))

end

/-! ## Elapsed times -/

/-- An adjustment of the clock by an eighth at most. -/
structure NearOne (a : Rational) : Prop where
  positive : a.negative = false
  denominator : a.denominator ≠ 0
  numerator_lt : a.numerator.toNat < 2 ^ 32
  denominator_lt : a.denominator.toNat < 2 ^ 32
  low : 7 * a.denominator.toNat ≤ 8 * a.numerator.toNat
  high : 8 * a.numerator.toNat ≤ 9 * a.denominator.toNat

namespace NearOne

variable {a : Rational} (h : NearOne a)

include h

theorem denominator_pos : 0 < a.denominator.toNat := Rational.denominator_pos h.denominator

theorem numerator_pos : 0 < a.numerator.toNat := by
  have := h.denominator_pos
  have := h.low
  omega

theorem numerator : a.numerator ≠ 0 := Rational.ne_zero_iff.mpr (Nat.ne_of_gt h.numerator_pos)

theorem value_eq : a.value = a.numerator.toNat / a.denominator.toNat := by
  rw [Rational.value_signed, h.positive, if_neg Bool.false_ne_true]

theorem value_low : 7 / 8 ≤ a.value := by
  have hd : (0 : ℚ) < a.denominator.toNat := Nat.cast_pos.mpr h.denominator_pos
  have hlow : (7 * a.denominator.toNat : ℚ) ≤ 8 * a.numerator.toNat := by exact_mod_cast h.low
  rw [h.value_eq, div_le_div_iff₀ (by norm_num) hd]
  linarith

theorem value_high : a.value ≤ 9 / 8 := by
  have hd : (0 : ℚ) < a.denominator.toNat := Nat.cast_pos.mpr h.denominator_pos
  have hhigh : (8 * a.numerator.toNat : ℚ) ≤ 9 * a.denominator.toNat := by exact_mod_cast h.high
  rw [h.value_eq, div_le_div_iff₀ hd (by norm_num)]
  linarith

theorem over_le {k : Nat} (hk : k ≤ 2 ^ 31) :
    nearest (k * a.denominator.toNat) a.numerator.toNat ≤ 2 ^ 32 := by
  refine Rational.nearest_lt h.numerator_pos ?_
  have hbound : k * a.denominator.toNat ≤ 2 ^ 31 * a.denominator.toNat := Nat.mul_le_mul_right _ hk
  have := h.low
  have := h.denominator_pos
  omega

theorem times_le {k : Nat} (hk : k ≤ 2 ^ 31) :
    nearest (k * a.numerator.toNat) a.denominator.toNat ≤ 2 ^ 32 := by
  refine Rational.nearest_lt h.denominator_pos ?_
  have hbound : k * a.numerator.toNat ≤ 2 ^ 31 * a.numerator.toNat := Nat.mul_le_mul_right _ hk
  have := h.high
  have := h.denominator_pos
  omega

end NearOne

section

variable {a : Rational} {x : BitVec 64}

theorem toInt_narrow (hlow : -2 ^ 31 ≤ x.toInt) (hhigh : x.toInt < 2 ^ 31) :
    (x.setWidth 32).toInt = x.toInt := by
  have hcond := BitVec.toInt_eq_toNat_cond x
  have hlt := x.isLt
  rw [BitVec.toInt_setWidth, Int.bmod_def]
  split at hcond <;> omega

theorem magnitude_mul_lt {k n : Nat} (hk : k ≤ 2 ^ 31) (hn : n < 2 ^ 32) : k * n < 2 ^ 63 := by
  calc k * n ≤ 2 ^ 31 * n := Nat.mul_le_mul_right _ hk
    _ < 2 ^ 31 * 2 ^ 32 := Nat.mul_lt_mul_of_pos_left hn (by decide)
    _ = 2 ^ 63 := by decide

theorem toInt_over (ha : NearOne a) (hlow : -2 ^ 31 ≤ x.toInt) (hhigh : x.toInt < 2 ^ 31) :
    (Rational.intDiv (x.setWidth 32) a).roundedLongLongIntegerPart.toInt
      = signed ((x.setWidth 32).slt 0)
          (nearest (x.toInt.natAbs * a.denominator.toNat) a.numerator.toNat) := by
  have hv := toInt_narrow hlow hhigh
  generalize x.setWidth 32 = v at hv ⊢
  have hk : x.toInt.natAbs ≤ 2 ^ 31 := by omega
  have hn : (ClassDefinitions.abs (extend v) * a.denominator).toNat
      = x.toInt.natAbs * a.denominator.toNat := by
    rw [BitVec.toNat_mul, Rational.toNat_abs_extend, hv, Nat.mod_eq_of_lt]
    exact Nat.lt_trans (magnitude_mul_lt hk ha.denominator_lt) (by decide)
  have hd : ((1 : BitVec 64) * a.numerator) = a.numerator := BitVec.one_mul _
  have hsmall := ha.over_le hk
  have hlt := magnitude_mul_lt hk ha.denominator_lt
  have hlt' := ha.numerator_lt
  unfold Rational.intDiv Rational.div Rational.ofInt Rational.ofLongLong
  dsimp only
  rw [Rational.toInt_rounded_make _ _ (by rw [hd]; exact ha.numerator)
    (by rw [hn, hd]; omega) (by rw [hn, hd]; omega), hn, hd, ha.positive, Bool.xor_false,
    Rational.extend_slt]

theorem toInt_times (ha : NearOne a) (hx : x.toInt.natAbs < 2 ^ 31) :
    (Rational.intMul (x.setWidth 32) a).roundedLongLongIntegerPart.toInt
      = signed ((x.setWidth 32).slt 0)
          (nearest (x.toInt.natAbs * a.numerator.toNat) a.denominator.toNat) := by
  have hv := toInt_narrow (x := x) (by omega) (by omega)
  generalize x.setWidth 32 = v at hv ⊢
  have hmin : v ≠ Rational.intMin := by
    rintro rfl
    rw [show Rational.intMin.toInt = -2 ^ 31 from rfl] at hv
    omega
  have hk : x.toInt.natAbs ≤ 2 ^ 31 := by omega
  have hlt := magnitude_mul_lt hk ha.numerator_lt
  have hlt' := ha.denominator_lt
  have hn : (a.numerator * extend (ClassDefinitions.abs v)).toNat
      = x.toInt.natAbs * a.numerator.toNat := by
    rw [BitVec.toNat_mul, Rational.toNat_extend_abs hmin, hv, Nat.mul_comm, Nat.mod_eq_of_lt]
    omega
  have hsmall := ha.times_le hk
  unfold Rational.intMul Rational.mulInt
  rw [Rational.toInt_rounded_make _ _ ha.denominator (by rw [hn]; omega) (by rw [hn]; omega), hn,
    ha.positive, Bool.xor_false]

theorem natAbs_times_lt (ha : NearOne a) (hx : x.toInt.natAbs < 2 ^ 31) :
    (Rational.intMul (x.setWidth 32) a).roundedLongLongIntegerPart.toInt.natAbs < 2 ^ 63 := by
  rw [toInt_times ha hx, natAbs_signed]
  exact Nat.lt_of_le_of_lt (ha.times_le (Nat.le_of_lt hx)) (by decide)

theorem signed_nearest_close {n d : Nat} (hd : 0 < d) (hlow : -2 ^ 31 ≤ x.toInt)
    (hhigh : x.toInt < 2 ^ 31) :
    |((signed ((x.setWidth 32).slt 0) (nearest (x.toInt.natAbs * n) d) : Int) : ℚ)
      - x.toInt * (n / d)| ≤ 1 / 2 := by
  have hv := toInt_narrow hlow hhigh
  have hsigned : (x.toInt : ℚ) * (n / d) = if (x.setWidth 32).slt 0 then
      -(((x.toInt.natAbs * n : Nat) : ℚ) / d) else ((x.toInt.natAbs * n : Nat) : ℚ) / d := by
    have hx := signed_toInt (x.setWidth 32)
    rw [hv] at hx
    cases hslt : (x.setWidth 32).slt 0 with
    | true =>
      rw [hslt, signed_true] at hx
      generalize x.toInt.natAbs = k at hx ⊢
      rw [if_pos rfl, ← hx]
      push_cast
      ring
    | false =>
      rw [hslt, signed_false] at hx
      generalize x.toInt.natAbs = k at hx ⊢
      rw [if_neg Bool.false_ne_true, ← hx]
      push_cast
      ring
  rw [hsigned, Rational.abs_signed_sub]
  exact Rational.nearest_close hd

theorem over_close (ha : NearOne a) (hlow : -2 ^ 31 ≤ x.toInt) (hhigh : x.toInt < 2 ^ 31) :
    |((Rational.intDiv (x.setWidth 32) a).roundedLongLongIntegerPart.toInt : ℚ) - x.toInt / a.value|
      ≤ 1 / 2 := by
  rw [toInt_over ha hlow hhigh, ha.value_eq, div_eq_mul_inv, inv_div]
  exact signed_nearest_close ha.numerator_pos hlow hhigh

theorem times_close (ha : NearOne a) (hx : x.toInt.natAbs < 2 ^ 31) :
    |((Rational.intMul (x.setWidth 32) a).roundedLongLongIntegerPart.toInt : ℚ) - x.toInt * a.value|
      ≤ 1 / 2 := by
  rw [toInt_times ha hx, ha.value_eq]
  exact signed_nearest_close ha.denominator_pos (by omega) (by omega)

end

/-! ## At speed 1 -/

namespace Clock

/-- The sign of the direction of play. -/
def sign (c : Clock) : Int := if c.direction = .playBackward then -1 else 1

theorem toInt_turn (c : Clock) {x : BitVec 64} (hx : x.toInt.natAbs < 2 ^ 63) :
    (c.turn x).toInt = c.sign * x.toInt := by
  unfold turn sign
  split
  · rw [BitVec.toInt_neg_of_ne_intMin, Int.neg_one_mul]
    rintro rfl
    rw [BitVec.toInt_intMin] at hx
    exact absurd hx (by decide)
  · rw [Int.one_mul]

theorem natAbs_sign_mul (c : Clock) (i : Int) : (c.sign * i).natAbs = i.natAbs := by
  rw [Int.natAbs_mul]
  unfold sign
  split
  · exact Nat.one_mul _
  · exact Nat.one_mul _

theorem sign_sq (c : Clock) : c.sign * c.sign = 1 := by
  unfold sign
  split
  · rfl
  · rfl

theorem abs_sign (c : Clock) : |c.sign| = 1 := by
  unfold sign
  split
  · rfl
  · rfl

theorem abs_sign_mul (c : Clock) (q : ℚ) : |(c.sign : ℚ) * q| = |q| := by
  rw [abs_mul, ← Int.cast_abs, c.abs_sign, Int.cast_one, one_mul]

section

variable {c : Clock} (hspeed : c.speed.eqInt 1 = true) (hnear : NearOne c.systemClockAdjustment)

include hspeed

theorem speedScale_one (t : BitVec 64) : c.speedScale t = c.turn t := if_pos hspeed

theorem inverseSpeedScale_one (t : BitVec 64) : c.inverseSpeedScale t = c.turn t := if_pos hspeed

include hnear

theorem elapsedSystemTime_close {x : BitVec 64} (hx : x.toInt.natAbs < 2 ^ 31) :
    |((c.elapsedSystemTime x).toInt : ℚ) - c.sign * (x.toInt / c.systemClockAdjustment.value)|
      ≤ 1 / 2 := by
  have hturn := c.toInt_turn (x := x) (by omega)
  have habs : (c.turn x).toInt.natAbs = x.toInt.natAbs := by
    rw [hturn, c.natAbs_sign_mul]
  have hclose := over_close (x := c.turn x) hnear (by omega) (by omega)
  rw [hturn, Int.cast_mul, mul_div_assoc] at hclose
  unfold elapsedSystemTime
  rw [speedScale_one hspeed]
  exact hclose

theorem elapsedPlaybackTime_close {x : BitVec 64} (hx : x.toInt.natAbs < 2 ^ 31) :
    |((c.elapsedPlaybackTime x).toInt : ℚ) - c.sign * (x.toInt * c.systemClockAdjustment.value)|
      ≤ 1 / 2 := by
  have hclose := times_close hnear hx
  have hsmall := natAbs_times_lt hnear hx
  unfold elapsedPlaybackTime
  rw [inverseSpeedScale_one hspeed]
  generalize (Rational.intMul (x.setWidth 32) c.systemClockAdjustment).roundedLongLongIntegerPart = y
    at hclose hsmall ⊢
  rw [c.toInt_turn hsmall, Int.cast_mul, ← mul_sub, c.abs_sign_mul]
  exact hclose

end

end Clock

/-! ## There and back -/

/-- Two times no more than so far apart. -/
def Within (distance : Nat) (a b : BitVec 64) : Prop := (a - b).toInt.natAbs ≤ distance

instance (distance : Nat) (a b : BitVec 64) : Decidable (Within distance a b) :=
  inferInstanceAs (Decidable (_ ≤ _))

theorem within_self (a : BitVec 64) : Within 1 a a := by
  unfold Within
  rw [BitVec.sub_self]
  decide

theorem within_of_sum {a b x y w : BitVec 64} (heq : a - b = x + y - w)
    (h : |(x.toInt : ℚ) + y.toInt - w.toInt| < 2) : Within 1 a b := by
  have hint : |x.toInt + y.toInt - w.toInt| < 2 := by exact_mod_cast h
  obtain ⟨hlow, hhigh⟩ := abs_lt.mp hint
  unfold Within
  rw [heq, BitVec.toInt_sub, BitVec.toInt_add, Int.bmod_sub_bmod, Int.bmod_def]
  omega

theorem toInt_between {a b x : BitVec 64} (hax : (a - x).toInt.natAbs < 2 ^ 31)
    (hxb : (x - b).toInt.natAbs < 2 ^ 31) : (a - b).toInt = (a - x).toInt + (x - b).toInt := by
  have hsplit : a - b = (a - x) + (x - b) := by ring
  rw [hsplit, BitVec.toInt_add, Int.bmod_def]
  omega

section

variable {c : Clock} (hspeed : c.speed.eqInt 1 = true) (hnear : NearOne c.systemClockAdjustment)
  {m : Mapping} {t : BitVec 64} (ht : Within (2 ^ 28) t m.basePlaybackTime)

include hspeed hnear ht

theorem elapsed_back_close :
    |((t - m.basePlaybackTime).toInt : ℚ) - c.sign * ((c.elapsedSystemTime
      (t - m.basePlaybackTime)).toInt * c.systemClockAdjustment.value)| ≤ 9 / 16 := by
  unfold Within at ht
  generalize t - m.basePlaybackTime = e at ht ⊢
  have hclose := c.elapsedSystemTime_close hspeed hnear (x := e) (by omega)
  generalize c.elapsedSystemTime e = elapsed at hclose ⊢
  have hlow := hnear.value_low
  have hhigh := hnear.value_high
  generalize c.systemClockAdjustment.value = α at hclose hlow hhigh ⊢
  have hα : α ≠ 0 := by linarith
  have hsq : (c.sign : ℚ) * c.sign = 1 := by exact_mod_cast c.sign_sq
  have hscaled : (e.toInt : ℚ) - c.sign * (elapsed.toInt * α)
      = c.sign * (-α * (elapsed.toInt - c.sign * (e.toInt / α))) := by
    have hone : (e.toInt : ℚ) = (c.sign * c.sign) * (α * (e.toInt / α)) := by
      rw [hsq, one_mul, mul_div_cancel₀ _ hα]
    calc (e.toInt : ℚ) - c.sign * (elapsed.toInt * α)
        = (c.sign * c.sign) * (α * (e.toInt / α)) - c.sign * (elapsed.toInt * α) := by rw [← hone]
      _ = c.sign * (-α * (elapsed.toInt - c.sign * (e.toInt / α))) := by ring
  rw [hscaled, c.abs_sign_mul, abs_mul, abs_neg, abs_of_pos (by linarith)]
  calc α * |(elapsed.toInt : ℚ) - c.sign * (e.toInt / α)| ≤ 9 / 8 * (1 / 2) :=
        mul_le_mul hhigh hclose (abs_nonneg _) (by norm_num)
    _ = 9 / 16 := by norm_num

theorem elapsedSystemTime_small :
    (c.elapsedSystemTime (t - m.basePlaybackTime)).toInt.natAbs < 2 ^ 30 := by
  have hback := elapsed_back_close hspeed hnear ht
  have hlow := hnear.value_low
  unfold Within at ht
  have htq : |((t - m.basePlaybackTime).toInt : ℚ)| ≤ 2 ^ 28 := by
    rw [← Int.cast_abs, Int.abs_eq_natAbs]
    exact_mod_cast ht
  generalize c.elapsedSystemTime (t - m.basePlaybackTime) = elapsed at hback ⊢
  generalize c.systemClockAdjustment.value = α at hback hlow
  have hscaled : |(elapsed.toInt : ℚ) * α| ≤ 2 ^ 28 + 9 / 16 := by
    rw [← c.abs_sign_mul]
    have := abs_sub_abs_le_abs_sub ((c.sign : ℚ) * (elapsed.toInt * α))
      ((t - m.basePlaybackTime).toInt : ℚ)
    rw [abs_sub_comm] at this
    linarith
  rw [abs_mul, abs_of_pos (by linarith : (0 : ℚ) < α)] at hscaled
  have hle : |(elapsed.toInt : ℚ)| * (7 / 8) ≤ |(elapsed.toInt : ℚ)| * α :=
    mul_le_mul_of_nonneg_left hlow (abs_nonneg _)
  have hlt : |(elapsed.toInt : ℚ)| < 2 ^ 30 := by linarith
  rw [← Int.cast_abs, Int.abs_eq_natAbs] at hlt
  exact_mod_cast hlt

theorem playbackTime_systemTime : Within 1 (m.playbackTime c (m.systemTime c t)) t := by
  have hback := elapsed_back_close hspeed hnear ht
  have hsmall := elapsedSystemTime_small hspeed hnear ht
  have hclose := c.elapsedPlaybackTime_close hspeed hnear
    (x := c.elapsedSystemTime (t - m.basePlaybackTime)) (by omega)
  refine within_of_sum (x := c.elapsedPlaybackTime (c.elapsedSystemTime (t - m.basePlaybackTime)))
    (y := 0) (w := t - m.basePlaybackTime) ?_ ?_
  · unfold Mapping.playbackTime Mapping.systemTime
    rw [show m.baseSystemTime + c.elapsedSystemTime (t - m.basePlaybackTime) - m.baseSystemTime
      = c.elapsedSystemTime (t - m.basePlaybackTime) by ring]
    ring
  · rw [show (0 : BitVec 64).toInt = 0 from rfl, Int.cast_zero, add_zero]
    rw [abs_le] at hback hclose
    rw [abs_lt]
    constructor <;> linarith [hback.1, hback.2, hclose.1, hclose.2]

theorem systemTime_rebase {u : BitVec 64} (hu : Within (2 ^ 28) u m.basePlaybackTime)
    (hu' : Within (2 ^ 28) u t) :
    Within 1 ((⟨t, m.systemTime c t⟩ : Mapping).systemTime c u) (m.systemTime c u) := by
  unfold Within at ht hu hu'
  have hbetween := toInt_between (a := u) (x := t) (b := m.basePlaybackTime) (by omega) (by omega)
  have hclose := c.elapsedSystemTime_close hspeed hnear (x := t - m.basePlaybackTime) (by omega)
  have hbefore := c.elapsedSystemTime_close hspeed hnear (x := u - m.basePlaybackTime) (by omega)
  have hafter := c.elapsedSystemTime_close hspeed hnear (x := u - t) (by omega)
  refine within_of_sum (x := c.elapsedSystemTime (t - m.basePlaybackTime))
    (y := c.elapsedSystemTime (u - t)) (w := c.elapsedSystemTime (u - m.basePlaybackTime)) ?_ ?_
  · unfold Mapping.systemTime
    ring
  · rw [hbetween, Int.cast_add, add_div, mul_add] at hbefore
    rw [abs_le] at hclose hbefore hafter
    rw [abs_lt]
    constructor <;>
      linarith [hclose.1, hclose.2, hbefore.1, hbefore.2, hafter.1, hafter.2]

theorem playbackTime_rebase {w : BitVec 64} (hw : Within (2 ^ 28) w m.baseSystemTime)
    (hw' : Within (2 ^ 28) w (m.systemTime c t)) :
    Within 1 ((⟨t, m.systemTime c t⟩ : Mapping).playbackTime c w) (m.playbackTime c w) := by
  have hback := elapsed_back_close hspeed hnear ht
  have hsmall := elapsedSystemTime_small hspeed hnear ht
  unfold Within at hw hw'
  have helapsed : m.systemTime c t - m.baseSystemTime
      = c.elapsedSystemTime (t - m.basePlaybackTime) := by
    unfold Mapping.systemTime
    ring
  have hbetween := toInt_between (a := w) (x := m.systemTime c t) (b := m.baseSystemTime) (by omega)
    (by rw [helapsed]; omega)
  rw [helapsed] at hbetween
  have hbefore := c.elapsedPlaybackTime_close hspeed hnear (x := w - m.baseSystemTime) (by omega)
  have hafter := c.elapsedPlaybackTime_close hspeed hnear (x := w - m.systemTime c t) (by omega)
  refine within_of_sum (x := t - m.basePlaybackTime)
    (y := c.elapsedPlaybackTime (w - m.systemTime c t))
    (w := c.elapsedPlaybackTime (w - m.baseSystemTime)) ?_ ?_
  · unfold Mapping.playbackTime
    ring
  · rw [hbetween, Int.cast_add, add_mul, mul_add] at hbefore
    rw [abs_le] at hback hbefore hafter
    rw [abs_lt]
    constructor <;>
      linarith [hback.1, hback.2, hbefore.1, hbefore.2, hafter.1, hafter.2]

end

theorem playbackTime_base {c : Clock} (hspeed : c.speed.eqInt 1 = true)
    (hnear : NearOne c.systemClockAdjustment) (t w : BitVec 64) :
    Within 1 ((⟨t, w⟩ : Mapping).playbackTime c w) t := by
  have hzero := c.elapsedPlaybackTime_close hspeed hnear (x := 0) (by decide)
  rw [show (0 : BitVec 64).toInt = 0 from rfl, Int.cast_zero, zero_mul, mul_zero] at hzero
  refine within_of_sum (x := c.elapsedPlaybackTime 0) (y := 0) (w := 0) ?_ ?_
  · have helapsed : w - w = 0 := BitVec.sub_self w
    unfold Mapping.playbackTime
    rw [helapsed]
    ring
  · rw [show (0 : BitVec 64).toInt = 0 from rfl, Int.cast_zero, add_zero]
    linarith

theorem Mapping.rebase_eq (m : Mapping) (c : Clock) (t : BitVec 64) :
    m.rebase c t = ⟨t, m.systemTime c t⟩ ∨ m.rebase c t = m := by
  unfold rebase
  split
  · exact .inl rfl
  · exact .inr rfl

/-- A translation to system time and what it does to the mapping: the translation back is
a microsecond off at most, and so is, for any stream with this mapping, each time near
both bases. -/
def RoundTrips (c : Clock) (s : Base) (id : Option Nat) (m : Mapping) (t : BitVec 64) : Prop :=
  ∃ after systemTime moved,
    c.translatePlaybackTimeToSystem s id t = (after, some systemTime) ∧
    after.mapping id = some moved ∧
    (∃ back, c.translateSystemTimeToPlayback after id systemTime = some back ∧ Within 1 back t) ∧
    ∀ other, s.mapping other = some m →
      (∀ u, Within (2 ^ 28) u m.basePlaybackTime → Within (2 ^ 28) u moved.basePlaybackTime →
        ∃ was is, (c.translatePlaybackTimeToSystem s other u).2 = some was ∧
          (c.translatePlaybackTimeToSystem after other u).2 = some is ∧ Within 1 is was) ∧
      (∀ w, Within (2 ^ 28) w m.baseSystemTime → Within (2 ^ 28) w moved.baseSystemTime →
        ∃ was is, c.translateSystemTimeToPlayback s other w = some was ∧
          c.translateSystemTimeToPlayback after other w = some is ∧ Within 1 is was)

/-- At speed 1 a translation and the rebase that it may make are harmless. -/
theorem translate_round_trip {c : Clock} (hspeed : c.speed.eqInt 1 = true)
    (hnear : NearOne c.systemClockAdjustment) {s : Base} {id : Option Nat} {m : Mapping}
    (h : s.mapping id = some m) {t : BitVec 64} (ht : Within (2 ^ 28) t m.basePlaybackTime) :
    RoundTrips c s id m t := by
  obtain ⟨hmoved, hothers⟩ := mapping_translate (c := c) h t
  refine ⟨(c.translatePlaybackTimeToSystem s id t).1, m.systemTime c t, m.rebase c t,
    Prod.ext rfl (translatePlaybackTimeToSystem_of_mapping h t), hmoved,
    ⟨_, translateSystemTimeToPlayback_of_mapping hmoved _, ?_⟩, fun other hother => ⟨?_, ?_⟩⟩
  · rcases m.rebase_eq c t with hreb | hreb
    · rw [hreb]
      exact playbackTime_base hspeed hnear t _
    · rw [hreb]
      exact playbackTime_systemTime hspeed hnear ht
  · intro u hu hu'
    rcases hothers other hother with hsame | hother'
    · exact ⟨_, _, translatePlaybackTimeToSystem_of_mapping hother u,
        translatePlaybackTimeToSystem_of_mapping hsame u, within_self _⟩
    · refine ⟨_, _, translatePlaybackTimeToSystem_of_mapping hother u,
        translatePlaybackTimeToSystem_of_mapping hother' u, ?_⟩
      rcases m.rebase_eq c t with hreb | hreb
      · rw [hreb] at hu' ⊢
        exact systemTime_rebase hspeed hnear ht hu hu'
      · rw [hreb]
        exact within_self _
  · intro w hw hw'
    rcases hothers other hother with hsame | hother'
    · exact ⟨_, _, translateSystemTimeToPlayback_of_mapping hother w,
        translateSystemTimeToPlayback_of_mapping hsame w, within_self _⟩
    · refine ⟨_, _, translateSystemTimeToPlayback_of_mapping hother w,
        translateSystemTimeToPlayback_of_mapping hother' w, ?_⟩
      rcases m.rebase_eq c t with hreb | hreb
      · rw [hreb] at hw' ⊢
        exact playbackTime_rebase hspeed hnear ht hw hw'
      · rw [hreb]
        exact within_self _

/-- Backwards, with a time after the base: the elapsed time is negative and rebases. -/
theorem translate_round_trip_backward :
    RoundTrips ⟨.ofInt 1, .playBackward, ⟨false, 1000001, 1000000⟩⟩
      { Base.reset with
        masterTimeMappingEstablished := true
        masterBaseNormalizedPlaybackTime := 1000000
        masterBaseSystemTime := 5000000 } none ⟨1000000, 5000000⟩ 1001000 :=
  translate_round_trip rfl ⟨rfl, by decide, by decide, by decide, by decide, by decide⟩ rfl (by decide)

end Duckbox.OutputCoordinator
