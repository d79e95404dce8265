import Duckbox.ClassDefinitions.RationalRounding
import Duckbox.Lib.Loop
import Duckbox.OutputTimer.Video
import Mathlib.Data.Rat.Floor

/-!
# Display time through the field counts

One calculation shows the integer part of `multiplier * count + error` and leaves
its remainder as the next error (`Unit`), so nothing is lost between the two
(`frameCount_exact`). Over a run the counts shown therefore come to the integer
part of the whole product (`fieldCounts_conserve`), as long as one multiplier
serves the run and no calculation leaves 64 bits.
-/

namespace Duckbox.OutputTimer

open ClassDefinitions Lib

namespace Video

/-! ## One calculation -/

/-- An error as it is carried: at least 0, and less than one field. -/
def Unit (e : Rational) : Prop := e.Safe ∧ e.negative = false ∧ e.value < 1

/-- A multiplier of 32 bits that is not negative. -/
def Multiplies (m : Rational) : Prop := m.Safe ∧ m.negative = false

/-- The product and the sum have components of 32 bits, and nothing wraps before
the common factor is taken off the sum. -/
def CountFits (m e : Rational) (count : BitVec 32) : Prop :=
  count.toNat < 2 ^ 31 ∧ (m.mulInt count).Safe ∧ (m.mulInt count).SumFits e ∧
    ((m.mulInt count).add e).Safe

instance (e : Rational) (count : BitVec 32) (m : Rational) : Decidable (CountFits m e count) :=
  inferInstanceAs (Decidable (_ ∧ _))

section Calculation

variable {m e : Rational} {count : BitVec 32}

theorem product_lt {x y : Nat} (hx : x < 2 ^ 32) (hy : y < 2 ^ 32) : x * y < 2 ^ 64 := by
  have h : x * y < 2 ^ 32 * 2 ^ 32 := Nat.mul_lt_mul'' hx hy
  exact h

theorem value_nonneg {a : Rational} (h : a.negative = false) : 0 ≤ a.value := by
  rw [Rational.value_eq, h, signed_false]
  positivity

theorem remainder_unit {a : Rational} (h : a.Safe) (hsign : a.negative = false) :
    Unit a.remainder.assign ∧
      a.remainder.assign.value = (a.numerator.toNat % a.denominator.toNat : Nat) / a.denominator.toNat := by
  have hpos := Rational.denominator_pos h.1
  have hrest := Nat.mod_lt a.numerator.toNat hpos
  obtain ⟨hne, hvalue⟩ := Rational.represents_remainder h.1
  have hsafe : a.remainder.Safe := by
    have hparts := Rational.make_toNat
      (a.numerator - a.denominator * (a.numerator / a.denominator)) a.denominator 3 a.negative
    have hsub : (a.numerator - a.denominator * (a.numerator / a.denominator)).toNat < 2 ^ 32 := by
      have hmod : a.numerator - a.denominator * (a.numerator / a.denominator)
          = a.numerator % a.denominator := by
        apply BitVec.eq_of_toNat_eq
        have hle := Nat.mul_div_le a.numerator.toNat a.denominator.toNat
        have hmul : (a.denominator * (a.numerator / a.denominator)).toNat
            = a.denominator.toNat * (a.numerator.toNat / a.denominator.toNat) := by
          rw [← Rational.toNat_quotient]
          apply Rational.toNat_mul_of_lt
          rw [Rational.toNat_quotient]
          exact Nat.lt_of_le_of_lt hle a.numerator.isLt
        rw [BitVec.toNat_sub_of_le (BitVec.le_def.mpr (by rw [hmul]; exact hle)), hmul,
          BitVec.toNat_umod, Nat.mod_eq_sub_mul_div]
      rw [hmod, BitVec.toNat_umod]
      exact Nat.lt_trans hrest h.2.2
    refine ⟨hne, ?_, ?_⟩
    · exact Nat.lt_of_le_of_lt (hparts.1.le.trans (Nat.div_le_self _ _)) hsub
    · exact Nat.lt_of_le_of_lt (hparts.2.le.trans (Nat.div_le_self _ _)) h.2.2
  have hnegative : a.remainder.negative = false := by
    unfold Rational.remainder
    rw [Rational.make_negative, hsign]
  obtain ⟨hassign, hsame, hsign'⟩ := Rational.assign_safe hsafe
  have hq : a.remainder.assign.value
      = (a.numerator.toNat % a.denominator.toNat : Nat) / a.denominator.toNat := by
    rw [hsame, hvalue, hsign, signed_false, Int.cast_natCast]
  refine ⟨⟨hassign, hsign'.trans hnegative, ?_⟩, hq⟩
  have hpos' : (0 : ℚ) < a.denominator.toNat := Nat.cast_pos.mpr hpos
  rw [hq, div_lt_one hpos']
  exact_mod_cast hrest

theorem integerPart_toNat {a : Rational} (h : a.Safe) (hsign : a.negative = false) :
    a.integerPart.toNat = a.numerator.toNat / a.denominator.toNat := by
  have hle : a.numerator.toNat / a.denominator.toNat ≤ a.numerator.toNat := Nat.div_le_self _ _
  have hlt := h.2.1
  unfold Rational.integerPart
  rw [hsign, if_neg Bool.false_ne_true, BitVec.toNat_setWidth, Rational.toNat_quotient,
    Nat.mod_eq_of_lt (by omega)]

theorem part_add_rest {a : Rational} (h : a.Safe) (hsign : a.negative = false) :
    (a.integerPart.toNat : ℚ) + a.remainder.assign.value = a.value := by
  have hpos : (a.denominator.toNat : ℚ) ≠ 0 :=
    Nat.cast_ne_zero.mpr (Nat.ne_of_gt (Rational.denominator_pos h.1))
  have hdiv : (a.numerator.toNat : ℚ) = a.denominator.toNat
      * (a.numerator.toNat / a.denominator.toNat : Nat)
      + (a.numerator.toNat % a.denominator.toNat : Nat) := by
    exact_mod_cast (Nat.div_add_mod _ _).symm
  rw [integerPart_toNat h hsign, (remainder_unit h hsign).2, Rational.value_eq, hsign, signed_false]
  field_simp
  push_cast
  linarith

theorem frameCount_exact (hm : Multiplies m) (he : Unit e) (hfits : CountFits m e count) :
    (frameCount m e count).Safe ∧ (frameCount m e count).negative = false ∧
      (frameCount m e count).value = m.value * count.toNat + e.value := by
  obtain ⟨hcount, hproduct, hsum, hsafe⟩ := hfits
  have hint : count.toInt = count.toNat := BitVec.toInt_eq_toNat_of_lt (by omega)
  have hsign : count.slt 0 = false := by
    simp [BitVec.slt, hint]
  have hmin : count ≠ Rational.intMin := by
    rintro rfl
    exact absurd hcount (by decide)
  have hmul : Rational.Represents (m.mulInt count) (m.value * count.toInt) := by
    apply Rational.represents_mulInt hm.1.1 hmin
    have h32 := hm.1.2.1
    rw [hint, Int.natAbs_natCast]
    exact product_lt h32 (by omega)
  have hnegative : (m.mulInt count).negative = false := by
    unfold Rational.mulInt
    rw [Rational.make_negative, hsign, hm.2]
    rfl
  -- products of two numbers of 32 bits fit
  have hcross : (m.mulInt count).CrossFits e :=
    ⟨product_lt hproduct.2.1 he.1.2.2, product_lt he.1.2.1 hproduct.2.2⟩
  have hden : (m.mulInt count).DenominatorsFit e := product_lt hproduct.2.2 he.1.2.2
  have hadd := Rational.represents_add hmul.1 he.1.1 hcross hden fun _ => hsum
  have hadd' : ((m.mulInt count).add e).negative = false := by
    unfold Rational.add
    rw [hnegative, he.2.1, if_neg (by decide), Rational.make_negative]
  obtain ⟨hassign, hvalue, hsame⟩ := Rational.assign_safe hsafe
  refine ⟨hassign, hsame.trans hadd', ?_⟩
  unfold frameCount
  rw [hvalue, hadd.2, hmul.2, hint]
  norm_cast

end Calculation

/-! ## The multiplier -/

theorem ne_assign {a : Rational} (h : a.Safe) : a.ne a.assign = false := by
  obtain ⟨hsafe, hvalue, hsign⟩ := Rational.assign_safe h
  have hx := Rational.toNat_mul_of_lt (product_lt h.2.1 hsafe.2.2)
  have hy := Rational.toNat_mul_of_lt (product_lt hsafe.2.1 h.2.2)
  have hcross := (Rational.value_eq_iff hsafe.1 h.1).mp hvalue
  unfold Rational.cross at hcross
  rw [hsign] at hcross
  apply Bool.eq_false_iff.mpr
  rw [ne_eq, Rational.ne_iff hx hy, hsign]
  rintro (hne | hne)
  · exact hne rfl
  · apply hne
    cases hneg : a.negative with
    | true =>
      rw [hneg, signed_true, signed_true] at hcross
      omega
    | false =>
      rw [hneg, signed_false, signed_false] at hcross
      omega

section Recalculate

variable {p : Playback} {t : Video} {rate : Rational} {progressive : Bool}

theorem recalculate_current (hdisplay : p.frameRate.Safe)
    (hspeed : p.adjustedSpeedAfterFrameDrop.Safe) (hrate : rate.Safe) :
    (t.recalculate p rate progressive).outdated p rate progressive = false := by
  unfold recalculate
  split
  · unfold outdated
    dsimp only
    rw [ne_assign hspeed, ne_assign hrate, ne_assign hdisplay]
    simp
  · next h => exact Bool.eq_false_iff.mpr h

theorem unit_zero : Unit (.ofInt 0) := by
  have hzero : (0 : BitVec 32).toInt = 0 := rfl
  refine ⟨by decide, rfl, ?_⟩
  rw [Rational.value_ofInt, hzero]
  norm_num

theorem recalculate_error (he : Unit t.accumulatedError) :
    Unit (t.recalculate p rate progressive).accumulatedError := by
  unfold recalculate
  split
  · dsimp only
    split
    · exact unit_zero
    · exact he
  · exact he

/-- The rates and what is made of them have components of 32 bits. -/
structure RatesFit (p : Playback) (rate : Rational) (progressive : Bool) : Prop where
  display : p.frameRate.Safe
  speed : p.adjustedSpeedAfterFrameDrop.Safe
  content : rate.Safe
  product : (p.adjustedSpeedAfterFrameDrop.mul rate).Safe
  moves : (p.adjustedSpeedAfterFrameDrop.mul rate).numerator ≠ 0
  quotient : (p.frameRate.div (p.adjustedSpeedAfterFrameDrop.mul rate)).Safe
  half : progressive = false →
    ((p.frameRate.div (p.adjustedSpeedAfterFrameDrop.mul rate)).assign.divInt 2).Safe

theorem multiplierFor_value (h : RatesFit p rate progressive) :
    (multiplierFor p rate progressive).value =
      p.frameRate.value / (p.adjustedSpeedAfterFrameDrop.value * rate.value) /
        (if progressive then 1 else 2) := by
  have hmul := Rational.represents_mul h.speed.1 h.content.1
    (product_lt h.speed.2.1 h.content.2.1) (product_lt h.speed.2.2 h.content.2.2)
  have hdiv := Rational.represents_div h.display.1 hmul.1 h.moves
    ⟨product_lt h.display.2.1 h.product.2.2, product_lt h.product.2.1 h.display.2.2⟩
  obtain ⟨hsafe, hvalue, -⟩ := Rational.assign_safe h.quotient
  unfold multiplierFor
  cases hprogressive : progressive with
  | true =>
    simp only [if_true, div_one]
    rw [hvalue, hdiv.2, hmul.2]
  | false =>
    have hden := hsafe.2.2
    have htwo : (2 : BitVec 32).toInt = 2 := rfl
    have hhalf := Rational.represents_divInt hsafe.1 (by decide : (2 : BitVec 32) ≠ Rational.intMin)
      (by decide) (product_lt hden (by decide))
    simp only [Bool.false_eq_true, if_false]
    rw [(Rational.assign_safe (h.half hprogressive)).2.1, hhalf.2, hvalue, hdiv.2, hmul.2, htwo]
    norm_num

end Recalculate

/-! ## One frame -/

section Frame

variable (p : Playback) (rate : Rational) (progressive : Bool)

/-- Whether 3:2 pulldown is being taken out of content of this rate. -/
def removing (t : Video) : Bool :=
  t.threeTwoPulldownDetected && removeAnyThreeTwoPulldown p (validFrameRate p rate progressive)

/-- The frame rate the counts are made for. -/
def countedRate (t : Video) : Rational :=
  pulledDownRate (removing p rate progressive t) (validFrameRate p rate progressive)

/-- The timer with the multiplier for this content. -/
def begun (t : Video) : Video :=
  t.recalculate p (countedRate p rate progressive t) progressive

/-- The content fields of a frame that are converted: a pair on an interlaced display
is converted once, for both. -/
def contentFields (frame : ParsedVideoParameters) : Nat :=
  if interlacedOnInterlaced p frame || frame.progressive then frame.displayCount0.toNat
  else frame.displayCount0.toNat + frame.displayCount1.toNat

/-- The display fields made of them. -/
def shownFields (frame : ParsedVideoParameters) (shown : DisplayCount) : Nat :=
  if interlacedOnInterlaced p frame then shown.first.toNat
  else shown.first.toNat + shown.second.toNat

/-- The calculations of a frame stay in 32 bits. -/
def FieldCountsFit (t : Video) (frame : ParsedVideoParameters) : Prop :=
  CountFits t.countMultiplier t.accumulatedError frame.displayCount0 ∧
    (interlacedOnInterlaced p frame = false → frame.progressive = false →
      CountFits t.countMultiplier
        (frameCount t.countMultiplier t.accumulatedError frame.displayCount0).remainder.assign
        frame.displayCount1)

instance (t : Video) (frame : ParsedVideoParameters) : Decidable (FieldCountsFit p t frame) :=
  inferInstanceAs (Decidable (_ ∧ (_ → _ → _)))

/-- A whole frame of this content, which does not turn the removal of 3:2 pulldown on
or off. -/
def Whole (t : Video) (frame : ParsedVideoParameters) : Prop :=
  frame.pictureStructure = .frame ∧ frame.frameRate = rate ∧ frame.progressive = progressive ∧
    (removeAnyThreeTwoPulldown p (validFrameRate p rate progressive) = true →
      (t.detectPulldown p (validFrameRate p rate progressive) frame).threeTwoPulldownDetected
        = t.threeTwoPulldownDetected) ∧
    FieldCountsFit p (begun p rate progressive t)
      (removeExtraField (removing p rate progressive t) frame)

instance (t : Video) (frame : ParsedVideoParameters) : Decidable (Whole p rate progressive t frame) :=
  inferInstanceAs (Decidable (_ ∧ _))

variable {p rate progressive} {t : Video} {frame : ParsedVideoParameters}

theorem fieldCounts_exact (hm : Multiplies t.countMultiplier) (he : Unit t.accumulatedError)
    (hfits : FieldCountsFit p t frame) :
    Unit (t.fieldCounts p frame).2 ∧
      (shownFields p frame (t.fieldCounts p frame).1 : ℚ) + (t.fieldCounts p frame).2.value =
        t.countMultiplier.value * contentFields p frame + t.accumulatedError.value ∧
      (interlacedOnInterlaced p frame = true →
        (t.fieldCounts p frame).1.first = (t.fieldCounts p frame).1.second) := by
  obtain ⟨hfirst, hsecond⟩ := hfits
  obtain ⟨hsafe, hsign, hvalue⟩ := frameCount_exact hm he hfirst
  have hunit := (remainder_unit hsafe hsign).1
  have hsplit := part_add_rest hsafe hsign
  unfold fieldCounts shownFields contentFields
  cases hpair : interlacedOnInterlaced p frame with
  | true =>
    simp only [if_true, Bool.true_or]
    exact ⟨hunit, hsplit.trans hvalue, fun _ => trivial⟩
  | false =>
    cases hprogressive : frame.progressive with
    | true =>
      simp only [if_true, Bool.false_eq_true, if_false, Bool.or_true, false_implies, and_true]
      refine ⟨hunit, ?_⟩
      have hnone : (0 : BitVec 32).toNat = 0 := rfl
      rw [hnone, Nat.add_zero]
      exact hsplit.trans hvalue
    | false =>
      -- the second count takes the error that the first leaves
      obtain ⟨hsafe', hsign', hvalue'⟩ := frameCount_exact hm hunit (hsecond hpair hprogressive)
      simp only [Bool.false_eq_true, if_false, Bool.or_self, false_implies, and_true]
      refine ⟨(remainder_unit hsafe' hsign').1, ?_⟩
      have hsplit' := part_add_rest hsafe' hsign'
      push_cast
      linarith

theorem moveUp_sum (shown : DisplayCount) :
    (moveUp shown).first.toNat + (moveUp shown).second.toNat =
      shown.first.toNat + shown.second.toNat := by
  unfold moveUp
  split
  · next hzero =>
    rw [hzero]
    exact Nat.add_comm _ _
  · rfl

theorem shownFields_moved (backward : Bool) (shown : DisplayCount)
    (hpair : interlacedOnInterlaced p frame = true → shown.first = shown.second) :
    shownFields p frame (moveUp (reverseFields p backward shown)) = shownFields p frame shown ∧
      (interlacedOnInterlaced p frame = true →
        (moveUp (reverseFields p backward shown)).first =
          (moveUp (reverseFields p backward shown)).second) := by
  obtain ⟨first, second⟩ := shown
  have hturn : reverseFields p backward ⟨first, second⟩ = ⟨first, second⟩ ∨
      reverseFields p backward ⟨first, second⟩ = ⟨second, first⟩ := by
    unfold reverseFields
    split
    · exact .inr rfl
    · exact .inl rfl
  cases hinterlaced : interlacedOnInterlaced p frame with
  | true =>
    obtain rfl : first = second := hpair hinterlaced
    have hsame : reverseFields p backward ⟨first, first⟩ = ⟨first, first⟩ := hturn.elim id id
    have hup : moveUp ⟨first, first⟩ = ⟨first, first⟩ := by
      unfold moveUp
      split
      · next hzero => rw [show first = 0 from hzero]
      · rfl
    rw [hsame, hup]
    exact ⟨rfl, fun _ => rfl⟩
  | false =>
    refine ⟨?_, fun h => nomatch h⟩
    unfold shownFields
    rw [hinterlaced, if_neg Bool.false_ne_true, if_neg Bool.false_ne_true]
    rw [moveUp_sum]
    rcases hturn with h | h
    · rw [h]
    · rw [h]
      exact Nat.add_comm _ _

theorem detectPulldown_keeps {content : Rational}
    (hkeeps : removeAnyThreeTwoPulldown p content = true →
      (t.detectPulldown p content frame).threeTwoPulldownDetected = t.threeTwoPulldownDetected) :
    ∃ detected, t.detectPulldown p content frame = { t with threeTwoPulldownDetected := detected } ∧
      (detected && removeAnyThreeTwoPulldown p content)
        = (t.threeTwoPulldownDetected && removeAnyThreeTwoPulldown p content) := by
  unfold detectPulldown at hkeeps ⊢
  cases hremove : removeAnyThreeTwoPulldown p content with
  | false =>
    simp only [Bool.and_false, Bool.false_eq_true, if_false, and_true]
    split
    · exact ⟨true, rfl⟩
    · split
      · exact ⟨false, rfl⟩
      · exact ⟨t.threeTwoPulldownDetected, rfl⟩
  | true =>
    have hkeeps := hkeeps hremove
    rw [hremove] at hkeeps
    simp only [Bool.and_true]
    refine ⟨t.threeTwoPulldownDetected, ?_, rfl⟩
    split
    · next henters =>
      -- entering would turn the removal on
      rw [if_pos henters, if_pos rfl] at hkeeps
      unfold entersPulldown at henters
      rw [← hkeeps] at henters
      exact absurd henters (by simp)
    · next hnot =>
      rw [if_neg hnot] at hkeeps
      split
      · next hlong =>
        rw [if_pos hlong] at hkeeps
        rw [show t.threeTwoPulldownDetected = false from hkeeps.symm]
      · rfl

theorem detectPulldown_seen (seen : Bool) (content : Rational) :
    { t with seenInterlacedContentOnInterlacedDisplay := seen }.detectPulldown p content frame =
      { t.detectPulldown p content frame with seenInterlacedContentOnInterlacedDisplay := seen } := by
  unfold detectPulldown entersPulldown
  dsimp only
  split
  · split <;> rfl
  · split <;> rfl

theorem recalculate_flags (seen detected : Bool) (content : Rational) :
    { t with
        seenInterlacedContentOnInterlacedDisplay := seen
        threeTwoPulldownDetected := detected }.recalculate p content progressive =
      { t.recalculate p content progressive with
        seenInterlacedContentOnInterlacedDisplay := seen
        threeTwoPulldownDetected := detected } := by
  unfold recalculate outdated
  dsimp only
  split <;> rfl

theorem prepare_whole (h : Whole p rate progressive t frame) :
    ∃ seen detected, t.prepare p frame =
        ({ begun p rate progressive t with
            seenInterlacedContentOnInterlacedDisplay := seen
            threeTwoPulldownDetected := detected },
          removeExtraField (removing p rate progressive t) frame) ∧
      (detected && removeAnyThreeTwoPulldown p (validFrameRate p rate progressive))
        = removing p rate progressive t := by
  obtain ⟨hwhole, hrate, hprogressive, hkeeps, -⟩ := h
  have hadjust : adjustPartialFrame frame = frame := by
    unfold adjustPartialFrame
    rw [if_neg fun hne => hne hwhole]
  obtain ⟨detected, hdetect, hremoving⟩ := detectPulldown_keeps hkeeps
  refine ⟨t.seenInterlacedContentOnInterlacedDisplay || (interlacedOnInterlaced p frame &&
    frame.pictureStructure == PictureStructure.frame), detected, ?_, hremoving⟩
  unfold prepare
  simp only [hadjust, hrate, hprogressive, detectPulldown_seen, hdetect]
  rw [hremoving, recalculate_flags]
  rfl

theorem removeExtraField_keeps (taken : Bool) (frame : ParsedVideoParameters) :
    (removeExtraField taken frame).pictureStructure = frame.pictureStructure ∧
      (removeExtraField taken frame).progressive = frame.progressive := by
  unfold removeExtraField
  split <;> exact ⟨rfl, rfl⟩

theorem fillOut_whole (hspeed : p.speed.eqInt 0 = false) (hlose : t.loseFramesForSynchronization = 0)
    (h : Whole p rate progressive t frame) :
    let frame' := removeExtraField (removing p rate progressive t) frame
    let counts := (begun p rate progressive t).fieldCounts p frame'
    ∃ seen detected, t.fillOutFrameTimingRecord p frame =
        ({ begun p rate progressive t with
            seenInterlacedContentOnInterlacedDisplay := seen
            threeTwoPulldownDetected := detected
            accumulatedError := counts.2 },
          moveUp (reverseFields p progressive counts.1)) ∧
      (detected && removeAnyThreeTwoPulldown p (validFrameRate p rate progressive))
        = removing p rate progressive t := by
  obtain ⟨seen, detected, hprepare, hremoving⟩ := prepare_whole h
  refine ⟨seen, detected, ?_, hremoving⟩
  obtain ⟨hstructure, hprogressive⟩ := removeExtraField_keeps (removing p rate progressive t) frame
  have hnotEmpty : frame.pictureStructure ≠ .empty := by
    rw [h.1]
    exact PictureStructure.noConfusion
  have hlose' : (begun p rate progressive t).loseFramesForSynchronization = 0 := by
    unfold begun recalculate
    split <;> exact hlose
  unfold fillOutFrameTimingRecord
  rw [if_neg hnotEmpty, hprepare]
  dsimp only
  unfold displayCounts
  rw [hstructure, h.1, if_neg fun hne => hne rfl, hlose', hprogressive, h.2.2.1]
  unfold loseFrames singleStep
  simp only [hspeed, Bool.false_eq_true, if_false, ne_eq, not_true_eq_false, false_and]
  rfl

theorem fillOut_step (hspeed : p.speed.eqInt 0 = false) (hdisplay : p.frameRate.Safe)
    (hadjusted : p.adjustedSpeedAfterFrameDrop.Safe) (hrate : (countedRate p rate progressive t).Safe)
    (hlose : t.loseFramesForSynchronization = 0)
    (hm : Multiplies (begun p rate progressive t).countMultiplier)
    (he : Unit (begun p rate progressive t).accumulatedError)
    (h : Whole p rate progressive t frame) :
    let r := t.fillOutFrameTimingRecord p frame
    (r.1.loseFramesForSynchronization = 0 ∧
        removing p rate progressive r.1 = removing p rate progressive t ∧
        begun p rate progressive r.1 = r.1 ∧
        r.1.countMultiplier = (begun p rate progressive t).countMultiplier ∧
        Unit r.1.accumulatedError) ∧
      (shownFields p frame r.2 : ℚ) + r.1.accumulatedError.value =
        (begun p rate progressive t).countMultiplier.value *
            contentFields p (removeExtraField (removing p rate progressive t) frame) +
          (begun p rate progressive t).accumulatedError.value ∧
      (interlacedOnInterlaced p frame = true → r.2.first = r.2.second) := by
  obtain ⟨seen, detected, hfill, hremoving⟩ := fillOut_whole hspeed hlose h
  obtain ⟨hunit, hsum, hpair⟩ := fieldCounts_exact hm he h.2.2.2.2
  have hinterlaced : interlacedOnInterlaced p (removeExtraField (removing p rate progressive t) frame)
      = interlacedOnInterlaced p frame := by
    unfold removeExtraField
    split <;> rfl
  have hshown : ∀ counts, shownFields p (removeExtraField (removing p rate progressive t) frame)
      counts = shownFields p frame counts := by
    intro counts
    unfold shownFields
    rw [hinterlaced]
  rw [hshown] at hsum
  rw [hinterlaced] at hpair
  obtain ⟨hmoved, hpair'⟩ := shownFields_moved progressive _ hpair
  have hcurrent : (begun p rate progressive t).outdated p (countedRate p rate progressive t)
      progressive = false := recalculate_current hdisplay hadjusted hrate
  have hlose' : (begun p rate progressive t).loseFramesForSynchronization = 0 := by
    unfold begun recalculate
    split <;> exact hlose
  simp only [hfill]
  refine ⟨⟨hlose', hremoving, ?_, trivial, hunit⟩, ?_, hpair'⟩
  · generalize hnext : ({ begun p rate progressive t with
      seenInterlacedContentOnInterlacedDisplay := seen
      threeTwoPulldownDetected := detected
      accumulatedError := _ } : Video) = next
    have hsame : countedRate p rate progressive next = countedRate p rate progressive t := by
      unfold countedRate
      rw [show removing p rate progressive next = removing p rate progressive t from
        hnext ▸ hremoving]
    have hcurrent' : next.outdated p (countedRate p rate progressive t) progressive = false :=
      hnext ▸ hcurrent
    unfold begun
    rw [hsame]
    unfold recalculate
    exact if_neg (Bool.eq_false_iff.mp hcurrent')
  · rw [hmoved]
    exact hsum

end Frame

/-! ## A run of frames -/

section Run

variable (p : Playback) (rate : Rational) (progressive : Bool) (t : Video)
  (frames : List ParsedVideoParameters)

/-- The content fields of a run that are converted. -/
def contentSum : Nat :=
  (frames.map fun frame =>
    contentFields p (removeExtraField (removing p rate progressive t) frame)).sum

/-- The display fields made of them. -/
def shownSum : Nat := (frames.zipWith (shownFields p) (t.fillOutAll p frames).2).sum

/-- Display time is conserved over a run. -/
structure Conserves : Prop where
  /-- The fields shown are those of the whole product, to the last full one. -/
  sum : (shownSum p t frames : ℤ) =
    ⌊(begun p rate progressive t).countMultiplier.value * contentSum p rate progressive t frames +
      (begun p rate progressive t).accumulatedError.value⌋
  /-- The error carried on is less than a field. -/
  error : 0 ≤ (t.fillOutAll p frames).1.accumulatedError.value ∧
    (t.fillOutAll p frames).1.accumulatedError.value < 1
  /-- On an interlaced display the fields of an interlaced pair are shown alike. -/
  pairs : ∀ shown ∈ frames.zip (t.fillOutAll p frames).2,
    interlacedOnInterlaced p shown.1 = true → shown.2.first = shown.2.second
  /-- A multiplier that is made for the run is the quotient of the rates. -/
  multiplier : t.outdated p (countedRate p rate progressive t) progressive = true →
    (begun p rate progressive t).countMultiplier.value =
      p.frameRate.value /
          (p.adjustedSpeedAfterFrameDrop.value * (countedRate p rate progressive t).value) /
        (if progressive then 1 else 2)

variable {p rate progressive t frames}

theorem fillOutAll_exact (hspeed : p.speed.eqInt 0 = false) (hdisplay : p.frameRate.Safe)
    (hadjusted : p.adjustedSpeedAfterFrameDrop.Safe) :
    ∀ {t : Video}, (countedRate p rate progressive t).Safe → t.loseFramesForSynchronization = 0 →
      Multiplies (begun p rate progressive t).countMultiplier →
      Unit (begun p rate progressive t).accumulatedError →
      Along (fun t frame => (t.fillOutFrameTimingRecord p frame).1) (Whole p rate progressive)
        t frames →
      let last := (t.fillOutAll p frames).1
      (shownSum p t frames : ℚ) + (begun p rate progressive last).accumulatedError.value =
          (begun p rate progressive t).countMultiplier.value * contentSum p rate progressive t frames +
            (begun p rate progressive t).accumulatedError.value ∧
        Unit (begun p rate progressive last).accumulatedError ∧
        (last = t ∨ begun p rate progressive last = last) ∧
        ∀ shown ∈ frames.zip (t.fillOutAll p frames).2,
          interlacedOnInterlaced p shown.1 = true → shown.2.first = shown.2.second := by
  induction frames with
  | nil =>
    intro t _ _ _ he _
    refine ⟨?_, he, .inl rfl, fun shown hshown => absurd hshown (List.not_mem_nil)⟩
    simp [shownSum, contentSum, fillOutAll]
  | cons frame frames ih =>
    intro t hrate hlose hm he h
    obtain ⟨⟨hlose', hremoving, hbegun, hmult, hunit⟩, hsum, hpair⟩ :=
      fillOut_step hspeed hdisplay hadjusted hrate hlose hm he h.1
    generalize hnext : t.fillOutFrameTimingRecord p frame = r at hlose' hremoving hbegun hmult hunit hsum hpair
    have hrest : Along (fun t frame => (t.fillOutFrameTimingRecord p frame).1)
        (Whole p rate progressive) r.1 frames := by
      rw [← hnext]
      exact h.2
    have hrate' : (countedRate p rate progressive r.1).Safe := by
      unfold countedRate at hrate ⊢
      rw [hremoving]
      exact hrate
    obtain ⟨htotal, hunit', hlast, hpairs⟩ := ih hrate' hlose'
      (by rw [hbegun, hmult]; exact hm) (by rw [hbegun]; exact hunit) hrest
    have hall : t.fillOutAll p (frame :: frames)
        = ((r.1.fillOutAll p frames).1, r.2 :: (r.1.fillOutAll p frames).2) := by
      rw [fillOutAll, hnext]
    have hcontent : contentSum p rate progressive t (frame :: frames)
        = contentFields p (removeExtraField (removing p rate progressive t) frame) +
          contentSum p rate progressive r.1 frames := by
      unfold contentSum
      rw [List.map_cons, List.sum_cons, hremoving]
    have hshown : shownSum p t (frame :: frames) = shownFields p frame r.2 + shownSum p r.1 frames := by
      unfold shownSum
      rw [hall, List.zipWith_cons_cons, List.sum_cons]
    rw [hbegun, hmult] at htotal
    rw [hall, hcontent, hshown]
    refine ⟨?_, hunit', .inr ?_, ?_⟩
    · push_cast
      linarith
    · rcases hlast with hlast | hlast
      · rw [hlast, hbegun]
      · exact hlast
    · intro shown hmem
      rw [List.zip_cons_cons, List.mem_cons] at hmem
      rcases hmem with rfl | hmem
      · exact hpair
      · exact hpairs shown hmem

/-- **Display time is conserved** over a run of whole frames of one content: the
counts shown come to the integer part of the multiplier times the counts converted
and the initial error, which stays below a field. -/
theorem fieldCounts_conserve (p : Playback) (rate : Rational) (progressive : Bool) (t : Video)
    (frames : List ParsedVideoParameters) (hspeed : p.speed.eqInt 0 = false)
    (hlose : t.loseFramesForSynchronization = 0)
    (hrates : RatesFit p (countedRate p rate progressive t) progressive)
    (hmultiplier : Multiplies (begun p rate progressive t).countMultiplier)
    (herror : Unit t.accumulatedError)
    (h : Along (fun t frame => (t.fillOutFrameTimingRecord p frame).1) (Whole p rate progressive)
      t frames) :
    Conserves p rate progressive t frames := by
  have hbegun : Unit (begun p rate progressive t).accumulatedError := recalculate_error herror
  obtain ⟨hsum, hunit, hlast, hpairs⟩ := fillOutAll_exact hspeed hrates.display hrates.speed
    hrates.content hlose hmultiplier hbegun h
  refine ⟨?_, ?_, hpairs, fun houtdated => ?_⟩
  · refine (Int.floor_eq_iff.mpr ⟨?_, ?_⟩).symm
    · rw [← hsum]
      have hpos := value_nonneg hunit.2.1
      push_cast
      linarith
    · rw [← hsum]
      have hlt := hunit.2.2
      push_cast
      linarith
  · rcases hlast with hlast | hlast
    · rw [hlast]
      exact ⟨value_nonneg herror.2.1, herror.2.2⟩
    · rw [hlast] at hunit
      exact ⟨value_nonneg hunit.2.1, hunit.2.2⟩
  · unfold begun recalculate
    rw [if_pos houtdated]
    exact multiplierFor_value hrates

/-- Film on a display of 50 frames. -/
def film : Playback := ⟨.ofInt 50, true, .ofInt 1, false, .ofInt 1⟩

/-- A film frame. -/
def filmFrame : ParsedVideoParameters := ⟨.frame, true, .ofLongLongs 24000 1001, false, 1, 0⟩

theorem fieldCounts_conserve_film :
    Conserves film (.ofLongLongs 24000 1001) true reset (List.replicate 4 filmFrame) :=
  fieldCounts_conserve film (.ofLongLongs 24000 1001) true reset (List.replicate 4 filmFrame)
    (by decide +kernel) rfl
    ⟨by decide +kernel, by decide +kernel, by decide +kernel, by decide +kernel, by decide +kernel,
      by decide +kernel, fun h => nomatch h⟩
    ⟨by decide +kernel, by decide +kernel⟩ unit_zero (by decide +kernel)

/-- What is not conserved: a single field is shown once, though two and a half are
due; where 3:2 pulldown is taken out, the fields taken are not converted; and a
sum of products that wraps loses the frame. -/
theorem fieldCounts_lose :
    (let p : Playback := ⟨.ofInt 50, false, .ofInt 1, false, .ofInt 1⟩
      let field : ParsedVideoParameters := ⟨.topField, false, .ofInt 10, true, 1, 0⟩
      (reset.fillOutAll p [field]).2 = [⟨1, 0⟩] ∧
        (begun p (.ofInt 10) false reset).countMultiplier = ⟨false, 5, 2⟩) ∧
    (let p : Playback := ⟨.ofInt 50, false, .ofInt 1, false, .ofInt 1⟩
      let frame : ParsedVideoParameters := ⟨.frame, false, .ofInt 30, false, 2, 1⟩
      (reset.fillOutAll p [frame, frame, frame]).2 = [⟨1, 1⟩, ⟨1, 1⟩, ⟨1, 1⟩] ∧
        (begun p (.ofInt 30) false reset).countMultiplier = ⟨false, 5, 6⟩) ∧
    (let p : Playback := ⟨⟨false, 4294967294, 7⟩, true, .ofInt 1, false, .ofInt 1⟩
      let frame : ParsedVideoParameters := ⟨.frame, true, .ofInt 1, false, 1, 0⟩
      let t : Video := { reset with accumulatedError := ⟨false, 3067833783, 4294967293⟩ }
      (t.fillOutAll p [frame]).2 = [⟨0, 0⟩] ∧
        (begun p (.ofInt 1) true t).countMultiplier = ⟨false, 4294967294, 7⟩) ∧
    (1 : ℤ) ≠ ⌊(5 / 2 : ℚ) * 1 + 0⌋ ∧ (6 : ℤ) ≠ ⌊(5 / 6 : ℚ) * 9 + 0⌋ ∧
    (0 : ℤ) ≠ ⌊(4294967294 / 7 : ℚ) * 1 + 3067833783 / 4294967293⌋ := by
  refine ⟨by decide +kernel, by decide +kernel, by decide +kernel, ?_, ?_, ?_⟩
  · norm_num
  · norm_num
  · norm_num

end Run

end Video

end Duckbox.OutputTimer
