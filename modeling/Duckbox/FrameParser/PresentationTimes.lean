import Duckbox.ClassDefinitions.Rational
import Duckbox.FrameParser.PlaybackTime
import Duckbox.FrameParser.Video

/-!
# Presentation times and the frame rate they tell

`CalculateFrameIndexAndPts` of `FrameParser_Video_c` as a whole. A frame without a
playback time is given one, counted on in fields from the frame that the last
time was recorded of. Where it has one, the time that has passed is divided by
the fields that have, to deduce the frame rate.

The index of a field that is decoded first and displayed second is one less. A
lone field that is counted once, and behind it (in reverse play in front of it)
such a field, have the same index, and the divisor is 0
(`divisors_good_iff`); no other frames come that close.

The field indices are integers here, and their differences words of 32 bits.
Not modelled: the native times, and what becomes of the rate that is deduced.
-/

namespace Duckbox.FrameParser

open Duckbox.ClassDefinitions Duckbox.Lib

/-- The number of fields of a picture. -/
def Picture.displayCount (p : Picture) : Int := p.displayCount0 + p.displayCount1

/-- "This is a field, but it is not the first field to be displayed." -/
def Picture.displayedSecond (p : Picture) : Bool :=
  p.pictureStructure != structureFrame &&
    ((p.pictureStructure == structureTopField) != p.topFieldFirst)

/-- A frame, with what else the function reads of its parameters. -/
structure TimedFrame where
  frame : CodedFrame
  progressive : Bool
  frameRate : Rational
  /-- `INVALID_TIME` if it was not specified. -/
  normalizedPlaybackTime : Time

/-- A division that deduces a frame rate. -/
structure RateDivision where
  twiceElapsedTime : BitVec 64
  elapsedFields : BitVec 32
deriving DecidableEq, Repr

/-- The members of `FrameParser_Video_c` that the function uses; `divisions` are
those it has made, and `times` the playback times it has left in the frames. -/
structure VideoTimes where
  video : Video
  lastRecordedPlaybackTimeDisplayFieldIndex : Int
  lastRecordedNormalizedPlaybackTime : Time
  lastFieldRate : Rational
  divisions : List RateDivision
  times : List Time

/-- After `Reset`. -/
def VideoTimes.reset : VideoTimes where
  video := .reset
  lastRecordedPlaybackTimeDisplayFieldIndex := 0
  lastRecordedNormalizedPlaybackTime := invalidTime
  lastFieldRate := .ofInt 1
  divisions := []
  times := []

namespace TimedFrame

/-- The frame has a playback time. -/
def hasTime (f : TimedFrame) : Bool := f.normalizedPlaybackTime != invalidTime

/-- It is the first of its output frame to be decoded. -/
def first (f : TimedFrame) : Bool := f.frame.picture.firstDecodeOfFrame

/-- `FieldRate`. -/
def fieldRate (f : TimedFrame) : Rational :=
  let rate := f.frameRate.assign
  if f.progressive then rate else (rate.mulInt 2).assign

/-- How many fields one of the indices stands for in the deduction. -/
def scale (f : TimedFrame) : Int := if f.progressive then 2 else 1

end TimedFrame

namespace VideoTimes

/-- A time has been recorded that is still valid. -/
def recorded (s : VideoTimes) : Bool := s.lastRecordedNormalizedPlaybackTime != invalidTime

/-- The numbering, the same in both directions but for the sign. -/
def number (s : VideoTimes) (forward : Bool) (f : TimedFrame) : VideoTimes :=
  { s with
    video :=
      if forward then s.video.calculateFrameIndexAndPts f.frame
      else s.video.calculateFrameIndexAndPtsReverse f.frame }

/-- `FieldIndex`. -/
def fieldIndex (s : VideoTimes) (forward : Bool) (f : TimedFrame) : Int :=
  let index :=
    if forward then s.video.nextDisplayFieldIndex
    else s.video.nextDisplayFieldIndex - f.frame.picture.displayCount
  if f.frame.picture.displayedSecond then index - 1 else index

/-- The fields since the one that a time was recorded of. -/
def fieldsSince (s : VideoTimes) (forward : Bool) (f : TimedFrame) : Int :=
  s.fieldIndex forward f - s.lastRecordedPlaybackTimeDisplayFieldIndex

/-- The playback time of a frame: its own, or derived, or unspecified. -/
def playbackTime (s : VideoTimes) (forward : Bool) (f : TimedFrame) : Time :=
  if f.hasTime then f.normalizedPlaybackTime
  else if s.recorded then
    let elapsedFields := BitVec.ofInt 32 (s.fieldsSince forward f)
    s.lastRecordedNormalizedPlaybackTime +
      ((Rational.intDiv 1000000 s.lastFieldRate).mulInt elapsedFields).longLongIntegerPart
  else invalidTime + 1

/-- "Can we deduce a framerate from incoming PTS values". -/
def deduces (s : VideoTimes) (f : TimedFrame) : Bool := f.hasTime && s.recorded

def division (s : VideoTimes) (forward : Bool) (f : TimedFrame) : RateDivision where
  twiceElapsedTime := 2 * (f.normalizedPlaybackTime - s.lastRecordedNormalizedPlaybackTime)
  elapsedFields :=
    BitVec.ofInt 32 (s.fieldsSince forward f) * BitVec.ofInt 32 f.scale

/-- "We rebase recorded times": there is a specified time, or the rate has changed. -/
def rebases (s : VideoTimes) (f : TimedFrame) : Bool :=
  f.hasTime || (s.recorded && f.fieldRate.ne s.lastFieldRate)

/-- `CalculateFrameIndexAndPts`. -/
def calculateFrameIndexAndPts (s : VideoTimes) (forward : Bool) (f : TimedFrame) : VideoTimes :=
  if !f.first then s.number forward f
  else
    let fieldIndex := s.fieldIndex forward f
    let time := s.playbackTime forward f
    let rebases := s.rebases f
    { s.number forward f with
      divisions := if s.deduces f then s.divisions ++ [s.division forward f] else s.divisions
      times := s.times ++ [time]
      lastRecordedPlaybackTimeDisplayFieldIndex :=
        if rebases then fieldIndex else s.lastRecordedPlaybackTimeDisplayFieldIndex
      lastRecordedNormalizedPlaybackTime :=
        if rebases then time else s.lastRecordedNormalizedPlaybackTime
      lastFieldRate := f.fieldRate.assign }

end VideoTimes

/-! ## Runs -/

/-- What the times see of a stream: frames in the order in which they are numbered,
frames that reverse play discards, and discontinuities. -/
inductive TimedInput where
  | frame (f : TimedFrame)
  | discarded (p : Picture)
  | discontinuity

namespace VideoTimes

/-- "To ensure decent timing we increment field counts." -/
def discard (s : VideoTimes) (p : Picture) : VideoTimes :=
  { s with
    video := { s.video with
      nextDisplayFieldIndex := s.video.nextDisplayFieldIndex - p.displayCount } }

/-- "Invalidate the time bases used in ongoing calculations". -/
def invalidate (s : VideoTimes) : VideoTimes :=
  { s with
    video := { s.video with collapseHolesInDisplayIndices := true }
    lastRecordedPlaybackTimeDisplayFieldIndex := 0
    lastRecordedNormalizedPlaybackTime := invalidTime }

def step (forward : Bool) (s : VideoTimes) : TimedInput → VideoTimes
  | .frame f => s.calculateFrameIndexAndPts forward f
  | .discarded p => s.discard p
  | .discontinuity => s.invalidate

/-- The parser after a sequence of inputs. -/
def run (forward : Bool) (inputs : List TimedInput) : VideoTimes :=
  inputs.foldl (step forward) reset

/-- Each picture has a field at least, and only reverse play discards. -/
def Played (forward : Bool) : TimedInput → Prop
  | .frame f => 1 ≤ f.frame.picture.displayCount
  | .discarded p => forward = false ∧ 1 ≤ p.displayCount
  | .discontinuity => True

/-- The fields that a division counts are fewer than `2 ^ 31`. -/
def Near (forward : Bool) (s : VideoTimes) : TimedInput → Prop
  | .frame f => f.first = true → s.deduces f = true →
      |s.fieldsSince forward f * f.scale| < 2 ^ 31
  | _ => True

/-- The index of a frame is recorded. -/
def Records (s : VideoTimes) (f : TimedFrame) : Prop := f.first = true ∧ s.rebases f = true

/-- Two frames, one right behind the other, with the same field index: the index
of the first is recorded with a valid time, the second has a time. -/
structure Neighbours (forward : Bool) (s : VideoTimes) (p q : TimedFrame) : Prop where
  records : s.Records p
  recorded : (s.calculateFrameIndexAndPts forward p).recorded = true
  first : q.first = true
  hasTime : q.hasTime = true
  lone :
    if forward then
      p.frame.picture.displayCount = 1 ∧ p.frame.picture.displayedSecond = false ∧
        q.frame.picture.displayedSecond = true
    else
      q.frame.picture.displayCount = 1 ∧ p.frame.picture.displayedSecond = true ∧
        q.frame.picture.displayedSecond = false

/-- No divisor is 0, and none is negative in forward play. -/
def DivisorsGood (forward : Bool) (s : VideoTimes) : Prop :=
  ∀ d ∈ s.divisions, d.elapsedFields ≠ 0 ∧ (forward = true → 0 < d.elapsedFields.toInt)

variable {forward : Bool} {s : VideoTimes} {f p q : TimedFrame} {inputs : List TimedInput}

/-! ## The index that comes next, and the recorded one -/

/-- How far the next index is from the recorded one. -/
def distance (s : VideoTimes) : Int :=
  s.video.nextDisplayFieldIndex - s.lastRecordedPlaybackTimeDisplayFieldIndex

theorem nextDisplayFieldIndex_number (s : VideoTimes) (forward : Bool) (f : TimedFrame) :
    (s.number forward f).video.nextDisplayFieldIndex =
      if forward then s.video.nextDisplayFieldIndex + f.frame.picture.displayCount
      else s.video.nextDisplayFieldIndex - f.frame.picture.displayCount := by
  unfold number Video.calculateFrameIndexAndPts Video.calculateFrameIndexAndPtsReverse
    Picture.displayCount
  cases forward <;> cases hfirst : f.frame.picture.firstDecodeOfFrame <;> simp [hfirst]

theorem distance_of_not_records (forward : Bool) (h : ¬ s.Records f) :
    (s.calculateFrameIndexAndPts forward f).distance =
        (if forward then s.distance + f.frame.picture.displayCount
          else s.distance - f.frame.picture.displayCount) ∧
      (s.calculateFrameIndexAndPts forward f).recorded = s.recorded := by
  have hnext := nextDisplayFieldIndex_number s forward f
  unfold Records at h
  unfold calculateFrameIndexAndPts distance recorded
  cases hfirst : f.first with
  | false =>
    rw [Bool.not_false, if_pos rfl, hnext]
    refine ⟨?_, rfl⟩
    dsimp only [number]
    split <;> ring
  | true =>
    have hnot : s.rebases f = false := by
      rw [← Bool.not_eq_true]
      intro hrebases
      exact h ⟨hfirst, hrebases⟩
    rw [Bool.not_true, if_neg Bool.false_ne_true]
    dsimp only
    rw [hnot, if_neg Bool.false_ne_true, if_neg Bool.false_ne_true, hnext]
    refine ⟨?_, rfl⟩
    split <;> ring

theorem distance_of_records (forward : Bool) (h : s.Records f) :
    (s.calculateFrameIndexAndPts forward f).distance =
      (if forward then f.frame.picture.displayCount else 0) +
        if f.frame.picture.displayedSecond then 1 else 0 := by
  have hnext := nextDisplayFieldIndex_number s forward f
  unfold calculateFrameIndexAndPts distance
  rw [h.1, Bool.not_true, if_neg Bool.false_ne_true]
  dsimp only
  rw [h.2, if_pos rfl, hnext]
  unfold fieldIndex
  dsimp only
  cases forward <;> cases f.frame.picture.displayedSecond <;> simp

/-! ## What a run knows of the distance -/

theorem run_concat (forward : Bool) (inputs : List TimedInput) (i : TimedInput) :
    run forward (inputs ++ [i]) = step forward (run forward inputs) i :=
  List.foldl_concat ..

/-- The last input was a frame that was recorded, as close as the first of two
neighbours is. -/
def Edge (forward : Bool) (inputs : List TimedInput) : Prop :=
  ∃ pre p, inputs = pre ++ [.frame p] ∧ (run forward pre).Records p ∧
    if forward then
      p.frame.picture.displayCount = 1 ∧ p.frame.picture.displayedSecond = false
    else p.frame.picture.displayedSecond = true

theorem edge_concat_frame :
    Edge forward (inputs ++ [.frame p]) ↔ (run forward inputs).Records p ∧
      if forward then
        p.frame.picture.displayCount = 1 ∧ p.frame.picture.displayedSecond = false
      else p.frame.picture.displayedSecond = true := by
  constructor
  · rintro ⟨pre, p', heq, h⟩
    obtain ⟨rfl, hframe⟩ := List.append_inj' heq rfl
    obtain rfl : p = p' := TimedInput.frame.inj (List.singleton_inj.mp hframe)
    exact h
  · intro h
    exact ⟨inputs, p, rfl, h⟩

theorem not_edge_concat_discarded {picture : Picture} :
    ¬ Edge forward (inputs ++ [.discarded picture]) := by
  rintro ⟨pre, p, heq, _⟩
  have hlast := (List.append_inj' heq rfl).2
  cases hlast

theorem distance_forward (inputs : List TimedInput) (hplayed : ∀ i ∈ inputs, Played true i)
    (hrecorded : (run true inputs).recorded = true) :
    1 ≤ (run true inputs).distance ∧ ((run true inputs).distance = 1 ↔ Edge true inputs) := by
  induction inputs using List.reverseRecOn with
  | nil => cases hrecorded
  | append_singleton inputs i ih =>
    rw [run_concat] at hrecorded ⊢
    rw [List.forall_mem_append, List.forall_mem_singleton] at hplayed
    obtain ⟨hbefore, hlast⟩ := hplayed
    cases i with
    | discontinuity => cases hrecorded
    | discarded picture => cases hlast.1
    | frame f =>
      have hcount : 1 ≤ f.frame.picture.displayCount := hlast
      rw [edge_concat_frame]
      unfold step at hrecorded ⊢
      dsimp only at hrecorded ⊢
      by_cases hrecords : (run true inputs).Records f
      · have hdistance := distance_of_records true hrecords
        rw [if_pos rfl] at hdistance ⊢
        cases hsecond : f.frame.picture.displayedSecond <;> rw [hsecond] at hdistance
        · simp only [Bool.false_eq_true, if_false] at hdistance
          exact ⟨by omega, fun h => ⟨hrecords, by omega, rfl⟩, fun h => by omega⟩
        · simp only [if_true] at hdistance
          exact ⟨by omega, fun h => by omega, fun h => absurd h.2.2 (by decide)⟩
      · obtain ⟨hdistance, hsame⟩ := distance_of_not_records true hrecords
        rw [if_pos rfl] at hdistance
        obtain ⟨hle, _⟩ := ih hbefore (hsame.symm.trans hrecorded)
        exact ⟨by omega, fun h => by omega, fun h => absurd h.1 hrecords⟩

theorem distance_reverse (inputs : List TimedInput) (hplayed : ∀ i ∈ inputs, Played false i)
    (hrecorded : (run false inputs).recorded = true) :
    (run false inputs).distance ≤ 1 ∧
      ((run false inputs).distance = 1 ↔ Edge false inputs) := by
  induction inputs using List.reverseRecOn with
  | nil => cases hrecorded
  | append_singleton inputs i ih =>
    rw [run_concat] at hrecorded ⊢
    rw [List.forall_mem_append, List.forall_mem_singleton] at hplayed
    obtain ⟨hbefore, hlast⟩ := hplayed
    cases i with
    | discontinuity => cases hrecorded
    | discarded picture =>
      have hcount : 1 ≤ picture.displayCount := hlast.2
      have hdistance : (step false (run false inputs) (.discarded picture)).distance =
          (run false inputs).distance - picture.displayCount := by
        unfold step discard distance
        dsimp only
        ring
      obtain ⟨hle, _⟩ := ih hbefore hrecorded
      exact ⟨by omega, fun h => by omega, fun h => absurd h not_edge_concat_discarded⟩
    | frame f =>
      have hcount : 1 ≤ f.frame.picture.displayCount := hlast
      rw [edge_concat_frame]
      unfold step at hrecorded ⊢
      dsimp only at hrecorded ⊢
      by_cases hrecords : (run false inputs).Records f
      · have hdistance := distance_of_records false hrecords
        simp only [Bool.false_eq_true, if_false, zero_add] at hdistance ⊢
        rw [hdistance]
        cases f.frame.picture.displayedSecond <;> simp [hrecords]
      · obtain ⟨hdistance, hsame⟩ := distance_of_not_records false hrecords
        simp only [Bool.false_eq_true, if_false] at hdistance
        obtain ⟨hle, _⟩ := ih hbefore (hsame.symm.trans hrecorded)
        exact ⟨by omega, fun h => by omega, fun h => absurd h.1 hrecords⟩

/-! ## The divisor -/

theorem fieldsSince_eq (s : VideoTimes) (forward : Bool) (f : TimedFrame) :
    s.fieldsSince forward f =
      s.distance - (if forward then 0 else f.frame.picture.displayCount) -
        if f.frame.picture.displayedSecond then 1 else 0 := by
  unfold fieldsSince fieldIndex distance
  dsimp only
  cases forward <;> cases f.frame.picture.displayedSecond <;> simp <;> ring

theorem fieldsSince_eq_zero_iff (hplayed : ∀ i ∈ inputs, Played forward i)
    (hrecorded : (run forward inputs).recorded = true)
    (hcount : 1 ≤ q.frame.picture.displayCount) :
    (run forward inputs).fieldsSince forward q = 0 ↔ Edge forward inputs ∧
      if forward then q.frame.picture.displayedSecond = true
      else q.frame.picture.displayCount = 1 ∧ q.frame.picture.displayedSecond = false := by
  rw [fieldsSince_eq]
  cases forward with
  | true =>
    obtain ⟨hle, hedge⟩ := distance_forward inputs hplayed hrecorded
    rw [← hedge]
    cases q.frame.picture.displayedSecond <;> simp <;> omega
  | false =>
    obtain ⟨hle, hedge⟩ := distance_reverse inputs hplayed hrecorded
    rw [← hedge]
    cases q.frame.picture.displayedSecond <;> simp <;> omega

theorem fieldsSince_nonneg (hplayed : ∀ i ∈ inputs, Played true i)
    (hrecorded : (run true inputs).recorded = true) :
    0 ≤ (run true inputs).fieldsSince true q := by
  obtain ⟨hle, _⟩ := distance_forward inputs hplayed hrecorded
  rw [fieldsSince_eq]
  cases q.frame.picture.displayedSecond <;> simp <;> omega

theorem toInt_elapsedFields (h : |s.fieldsSince forward f * f.scale| < 2 ^ 31) :
    (s.division forward f).elapsedFields.toInt = s.fieldsSince forward f * f.scale := by
  unfold division
  dsimp only
  rw [← BitVec.ofInt_mul, BitVec.toInt_ofInt]
  rw [abs_lt] at h
  refine Int.bmod_eq_of_le ?_ ?_ <;> omega

theorem scale_pos (f : TimedFrame) : 0 < f.scale := by
  unfold TimedFrame.scale
  split <;> decide

theorem neighbours_iff (hdeduces : (run forward inputs).deduces q = true)
    (hfirst : q.first = true) :
    (Edge forward inputs ∧
        if forward then q.frame.picture.displayedSecond = true
        else q.frame.picture.displayCount = 1 ∧ q.frame.picture.displayedSecond = false) ↔
      ∃ pre p, inputs = pre ++ [.frame p] ∧ Neighbours forward (run forward pre) p q := by
  unfold deduces at hdeduces
  rw [Bool.and_eq_true] at hdeduces
  constructor
  · rintro ⟨⟨pre, p, rfl, hrecords, hp⟩, hq⟩
    rw [run_concat] at hdeduces
    refine ⟨pre, p, rfl, hrecords, hdeduces.2, hfirst, hdeduces.1, ?_⟩
    cases forward with
    | true => exact ⟨hp.1, hp.2, hq⟩
    | false => exact ⟨hq.1, hp, hq.2⟩
  · rintro ⟨pre, p, rfl, hneighbours⟩
    have hlone := hneighbours.lone
    cases forward with
    | true => exact ⟨⟨pre, p, rfl, hneighbours.records, hlone.1, hlone.2.1⟩, hlone.2.2⟩
    | false => exact ⟨⟨pre, p, rfl, hneighbours.records, hlone.2.1⟩, hlone.1, hlone.2.2⟩

theorem divisor_good_iff (hplayed : ∀ i ∈ inputs, Played forward i)
    (hcount : 1 ≤ q.frame.picture.displayCount) (hfirst : q.first = true)
    (hdeduces : (run forward inputs).deduces q = true)
    (hnear : |(run forward inputs).fieldsSince forward q * q.scale| < 2 ^ 31) :
    (((run forward inputs).division forward q).elapsedFields ≠ 0 ∧
        (forward = true →
          0 < ((run forward inputs).division forward q).elapsedFields.toInt)) ↔
      ¬ ∃ pre p, inputs = pre ++ [.frame p] ∧ Neighbours forward (run forward pre) p q := by
  have hrecorded : (run forward inputs).recorded = true := by
    unfold deduces at hdeduces
    exact (Bool.and_eq_true _ _ ▸ hdeduces).2
  have hscale := scale_pos q
  have hword := toInt_elapsedFields hnear
  have hzero : (0 : BitVec 32).toInt = 0 := rfl
  rw [← neighbours_iff hdeduces hfirst, ← fieldsSince_eq_zero_iff hplayed hrecorded hcount,
    Ne, ← BitVec.toInt_inj, hword, hzero, mul_eq_zero, or_iff_left hscale.ne']
  constructor
  · intro h
    exact h.1
  · intro hne
    refine ⟨hne, ?_⟩
    rintro rfl
    have hnonneg := fieldsSince_nonneg (q := q) hplayed hrecorded
    exact mul_pos (lt_of_le_of_ne hnonneg (Ne.symm hne)) hscale

theorem divisions_step_frame (s : VideoTimes) (forward : Bool) (f : TimedFrame) :
    (step forward s (.frame f)).divisions =
      if f.first = true ∧ s.deduces f = true then s.divisions ++ [s.division forward f]
      else s.divisions := by
  unfold step calculateFrameIndexAndPts
  dsimp only
  cases f.first with
  | false => simp [number]
  | true => cases s.deduces f <;> simp [number]

/-- No two frames of a run, one right behind the other, are neighbours. -/
def NoNeighbours (forward : Bool) (inputs : List TimedInput) : Prop :=
  ∀ pre p q, pre ++ [.frame p, .frame q] <+: inputs → ¬ Neighbours forward (run forward pre) p q

theorem noNeighbours_concat {i : TimedInput} :
    NoNeighbours forward (inputs ++ [i]) ↔ NoNeighbours forward inputs ∧
      ∀ q, i = .frame q →
        ¬ ∃ pre p, inputs = pre ++ [.frame p] ∧ Neighbours forward (run forward pre) p q := by
  unfold NoNeighbours
  constructor
  · intro h
    refine ⟨fun pre p q hbegins => h pre p q (List.prefix_concat_iff.mpr (.inr hbegins)), ?_⟩
    rintro q rfl ⟨pre, p, rfl, hneighbours⟩
    exact h pre p q ⟨[], by simp⟩ hneighbours
  · rintro ⟨hbefore, hlast⟩ pre p q hbegins hneighbours
    rcases List.prefix_concat_iff.mp hbegins with heq | hbegins
    · have hsplit : pre ++ [.frame p, TimedInput.frame q] = (pre ++ [.frame p]) ++ [.frame q] := by
        simp
      rw [hsplit] at heq
      obtain ⟨hpre, hq⟩ := List.append_inj' heq rfl
      exact hlast q (List.singleton_inj.mp hq).symm ⟨pre, p, hpre.symm, hneighbours⟩
    · exact hbefore pre p q hbegins hneighbours

theorem divisorsGood_step_frame (s : VideoTimes) (forward : Bool) (f : TimedFrame) :
    DivisorsGood forward (step forward s (.frame f)) ↔ DivisorsGood forward s ∧
      (f.first = true ∧ s.deduces f = true →
        (s.division forward f).elapsedFields ≠ 0 ∧
          (forward = true → 0 < (s.division forward f).elapsedFields.toInt)) := by
  unfold DivisorsGood
  rw [divisions_step_frame]
  by_cases hdivides : f.first = true ∧ s.deduces f = true
  · rw [if_pos hdivides, List.forall_mem_append, List.forall_mem_singleton]
    exact and_congr_right fun _ => ⟨fun h _ => h, fun h => h hdivides⟩
  · rw [if_neg hdivides]
    exact (and_iff_left fun h => absurd h hdivides).symm

/-- No divisor of a run is 0, or negative in forward play, exactly if no two frames
of it are neighbours: for any stream, in either direction, with at least one field a
picture and fewer than `2 ^ 31` between the times. -/
theorem divisors_good_iff (forward : Bool) (inputs : List TimedInput)
    (hplayed : ∀ i ∈ inputs, Played forward i)
    (hnear : Along (step forward) (Near forward) reset inputs) :
    DivisorsGood forward (run forward inputs) ↔ NoNeighbours forward inputs := by
  induction inputs using List.reverseRecOn with
  | nil =>
    refine iff_of_true (by rintro d ⟨⟩) ?_
    intro pre p q hbegins
    have hlength := hbegins.length_le
    simp at hlength
  | append_singleton inputs i ih =>
    rw [List.forall_mem_append, List.forall_mem_singleton] at hplayed
    rw [along_append] at hnear
    obtain ⟨hbefore, hlast⟩ := hplayed
    obtain ⟨hnearBefore, hnearLast, _⟩ := hnear
    rw [run_concat, noNeighbours_concat, ← ih hbefore hnearBefore]
    cases i with
    | discontinuity => exact (and_iff_left (by rintro q ⟨⟩)).symm
    | discarded picture => exact (and_iff_left (by rintro q ⟨⟩)).symm
    | frame q =>
      rw [divisorsGood_step_frame]
      refine and_congr_right fun _ => ?_
      constructor
      · rintro hgood q' ⟨rfl⟩ hneighbours
        obtain ⟨pre, p, rfl, hpair⟩ := hneighbours
        have hdeduces : (run forward (pre ++ [.frame p])).deduces q = true := by
          rw [run_concat]
          unfold deduces
          rw [hpair.hasTime]
          exact hpair.recorded
        exact (divisor_good_iff hbefore hlast hpair.first hdeduces
          (hnearLast hpair.first hdeduces)).mp (hgood ⟨hpair.first, hdeduces⟩)
            ⟨pre, p, rfl, hpair⟩
      · rintro hnone ⟨hfirst, hdeduces⟩
        exact (divisor_good_iff hbefore hlast hfirst hdeduces (hnearLast hfirst hdeduces)).mpr
          (hnone q rfl)

/-! ## Lone fields -/

/-- A lone field of 25 frames a second that is displayed first, or second. -/
def loneField (displayedSecond : Bool) (normalizedPlaybackTime : Time) : TimedFrame :=
  ⟨⟨0, ⟨if displayedSecond then 2 else structureTopField, true, 1, 0, true, true⟩⟩, false,
    .ofInt 25, normalizedPlaybackTime⟩

/-- Two lone top fields, 20 milliseconds apart. -/
def topFields : List TimedInput := [.frame (loneField false 0), .frame (loneField false 20000)]

theorem divisors_good_top_fields : DivisorsGood true (run true topFields) := by
  refine (divisors_good_iff true topFields ?_ ?_).mpr ?_
  · intro i hi
    rcases List.mem_cons.mp hi with rfl | hi
    · exact Int.le_refl 1
    · rw [List.mem_singleton.mp hi]
      exact Int.le_refl 1
  · refine ⟨?_, ?_, trivial⟩
    · intro _ hdeduces
      revert hdeduces
      decide +kernel
    · intro _ _
      decide +kernel
  · intro pre p q hbegins hneighbours
    have hq : TimedInput.frame q ∈ topFields := hbegins.subset (by simp)
    have hsecond : q.frame.picture.displayedSecond = false := by
      rcases List.mem_cons.mp hq with heq | hq
      · rw [TimedInput.frame.inj heq]
        rfl
      · rw [TimedInput.frame.inj (List.mem_singleton.mp hq)]
        rfl
    have hlone := hneighbours.lone
    rw [if_pos rfl, hsecond] at hlone
    exact Bool.false_ne_true hlone.2.2

/-- A lone top field and a lone bottom field behind it, of a stream that has top
fields first: the divisor is 0. -/
theorem divisor_zero_bottom_field :
    ¬ DivisorsGood true
      (run true [.frame (loneField false 0), .frame (loneField true 20000)]) := by
  intro h
  have hdivision : (⟨40000, 0⟩ : RateDivision) ∈
      (run true [.frame (loneField false 0), .frame (loneField true 20000)]).divisions := by
    decide +kernel
  exact (h _ hdivision).1 rfl

end VideoTimes

end Duckbox.FrameParser
