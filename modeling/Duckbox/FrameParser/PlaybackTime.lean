import Duckbox.Lib.TopBit
import Mathlib.Data.BitVec

/-!
# Playback times

`FrameParser_Base_c` translates native times, 33 bits of a 90kHz clock, to
microseconds and back, by way of 27MHz. The clock wraps, so a base line is kept that
goes up or down by `2 ^ 33` when a time is in the first quarter of the range and the
one before it was in the last, or the other way round.

What a sequence of true times is translated to is counted on from the first
(`value`): the sum of the base line and the native time is that value, modulo
`2 ^ 64` (`run_follows`).

> `unwrapped_iff`: the translated times follow the true ones exactly as long as the
> values stay at or above zero, and in the `2 ^ 64` that three hundred times the first
> is in.

A base line of zero leaves no room below: reverse play past the first wrap is outside.
-/

namespace Duckbox.FrameParser

/-- `unsigned long long`. -/
abbrev Time := BitVec 64

/-- `INVALID_TIME`. -/
abbrev invalidTime : Time := 0xfeedfacedeadbeef

/-- `ValidTime`. -/
def validTime (t : Time) : Bool := t ≠ invalidTime ∧ t ≠ invalidTime + 1

/-- The members of `FrameParser_Base_c`, and of the playback, that times are translated by. -/
structure PlaybackTimes where
  nativeTimeBaseLine : Time
  lastNativeTimeUsedInBaseline : Time
  /-- The playback's `LastNativeTime`. -/
  lastNativeTime : Time

namespace PlaybackTimes

/-- `WrapMask`. -/
abbrev wrapMask : Time := 0x0000000180000000

/-- `WrapOffset`. -/
abbrev wrapOffset : Time := 0x0000000200000000

/-- As `Reset` leaves it, in a playback with that last time. -/
def reset (lastNativeTime : Time) : PlaybackTimes := ⟨0, invalidTime, lastNativeTime⟩

/-- The base line is begun where there is none. -/
def beginBaseLine (s : PlaybackTimes) (nativeTime : Time) : PlaybackTimes :=
  if s.lastNativeTimeUsedInBaseline = invalidTime then
    { s with
      nativeTimeBaseLine :=
        if validTime s.lastNativeTime then
          (s.lastNativeTime - nativeTime + 0x0000000100000000) &&& 0xfffffffe00000000
        else 0
      lastNativeTimeUsedInBaseline := nativeTime }
  else s

/-- The base line is adjusted if there is any wrap. -/
def adjustBaseLine (s : PlaybackTimes) (nativeTime : Time) : PlaybackTimes :=
  { s with
    nativeTimeBaseLine :=
      if s.lastNativeTimeUsedInBaseline &&& wrapMask = wrapMask ∧ nativeTime &&& wrapMask = 0 then
        s.nativeTimeBaseLine + wrapOffset
      else if s.lastNativeTimeUsedInBaseline &&& wrapMask = 0 ∧
          nativeTime &&& wrapMask = wrapMask then
        s.nativeTimeBaseLine - wrapOffset
      else s.nativeTimeBaseLine
    lastNativeTimeUsedInBaseline := nativeTime }

/-- From 90kHz to microseconds. -/
def normalize (time : Time) : Time := (time * 300 + 13) / 27

/-- `TranslatePlaybackTimeNativeToNormalized`. -/
def translatePlaybackTimeNativeToNormalized (s : PlaybackTimes) (nativeTime : Time) :
    Time × PlaybackTimes :=
  let s := (s.beginBaseLine nativeTime).adjustBaseLine nativeTime
  (normalize (s.nativeTimeBaseLine + nativeTime),
    { s with lastNativeTime := s.nativeTimeBaseLine + nativeTime })

/-- `TranslatePlaybackTimeNormalizedToNative`. -/
def translatePlaybackTimeNormalizedToNative (normalizedTime : Time) : Time :=
  (normalizedTime * 27 + 150) / 300 &&& 0x00000001ffffffff

/-! ## Words and integers -/

theorem toNat_ofInt (v : Int) : ((BitVec.ofInt 64 v).toNat : Int) = v % 2 ^ 64 := by
  rw [BitVec.toNat_ofInt]
  omega

theorem toNat_normalize (v : Int) :
    ((normalize (BitVec.ofInt 64 v)).toNat : Int) = (300 * v + 13) % 2 ^ 64 / 27 := by
  have hv := toNat_ofInt v
  show (((BitVec.ofInt 64 v * 300 + 13) / 27).toNat : Int) = _
  rw [BitVec.toNat_udiv, BitVec.toNat_add, BitVec.toNat_mul]
  show ((((BitVec.ofInt 64 v).toNat * 300 % 2 ^ 64 + 13) % 2 ^ 64 / 27 : Nat) : Int) = _
  omega

theorem toNat_and_wrapMask {t : Time} (h : t.toNat < 2 ^ 33) :
    (t &&& wrapMask).toNat = t.toNat / 2 ^ 31 * 2 ^ 31 := by
  have hmask : wrapMask.toNat = (2 ^ 2 - 1) * 2 ^ 31 := rfl
  rw [BitVec.toNat_and, hmask, Lib.and_mask h]

theorem and_wrapMask_eq {t : Time} (h : t.toNat < 2 ^ 33) :
    t &&& wrapMask = wrapMask ↔ 3 * 2 ^ 31 ≤ t.toNat := by
  have hand := toNat_and_wrapMask h
  have hmask : wrapMask.toNat = 3 * 2 ^ 31 := rfl
  rw [← BitVec.toNat_inj, hand, hmask]
  omega

theorem and_wrapMask_zero {t : Time} (h : t.toNat < 2 ^ 33) :
    t &&& wrapMask = 0 ↔ t.toNat < 2 ^ 31 := by
  have hand := toNat_and_wrapMask h
  have hzero : (0 : Time).toNat = 0 := rfl
  rw [← BitVec.toNat_inj, hand, hzero]
  omega

/-! ## A sequence of times -/

/-- The bits of a true time that are sent. -/
def sent (time : Int) : Int := time % 2 ^ 33

/-- The time with the bits sent that is nearest to the last of the playback, or with no
others where it has none. -/
def firstValue (last : Time) (time : Int) : Int :=
  if validTime last then ((last.toNat : Int) - sent time + 2 ^ 32) / 2 ^ 33 * 2 ^ 33 + sent time
  else sent time

/-- The first value, and from there the true differences. -/
def value (last : Time) (times : Nat → Int) (n : Nat) : Int :=
  firstValue last (times 0) + (times n - times 0)

/-- The translation of a time, and of those before it. -/
def run (last : Time) (times : Nat → Int) : Nat → Time × PlaybackTimes
  | 0 => (reset last).translatePlaybackTimeNativeToNormalized (BitVec.ofInt 64 (sent (times 0)))
  | n + 1 =>
    (run last times n).2.translatePlaybackTimeNativeToNormalized
      (BitVec.ofInt 64 (sent (times (n + 1))))

/-- The normalized time, as a number. -/
def normalizedTime (last : Time) (times : Nat → Int) (n : Nat) : Int := (run last times n).1.toNat

/-- The normalized times differ as the true ones do, a microsecond more or less, and
no value is wrapped below zero. -/
structure Unwrapped (last : Time) (times : Nat → Int) (n : Nat) : Prop where
  differences : ∀ i ≤ n, ∀ j ≤ n,
    (9 * (normalizedTime last times i - normalizedTime last times j) -
      100 * (times i - times j)).natAbs ≤ 9
  nonneg : ∀ i ≤ n, 0 ≤ value last times i

/-- Successive times differ by less than `2 ^ 31` either way. -/
def Near (times : Nat → Int) (n : Nat) : Prop :=
  ∀ i < n, (times (i + 1) - times i).natAbs < 2 ^ 31

/-- The value is not below zero, and its product is in the same range as the first's. -/
def InRange (last : Time) (times : Nat → Int) (i : Nat) : Prop :=
  0 ≤ value last times i ∧
    (300 * value last times i + 13) / 2 ^ 64 = (300 * value last times 0 + 13) / 2 ^ 64

/-- The state holds the value that was translated. -/
structure Follows (s : PlaybackTimes) (time v : Int) : Prop where
  sum : s.nativeTimeBaseLine + BitVec.ofInt 64 (sent time) = BitVec.ofInt 64 v
  last : s.lastNativeTimeUsedInBaseline = BitVec.ofInt 64 (sent time)

theorem sent_lt (time : Int) : 0 ≤ sent time ∧ sent time < 2 ^ 33 := by
  unfold sent
  omega

theorem toNat_sent (time : Int) : ((BitVec.ofInt 64 (sent time)).toNat : Int) = sent time := by
  have hsent := sent_lt time
  rw [toNat_ofInt]
  omega

theorem sent_ne_invalid (time : Int) : BitVec.ofInt 64 (sent time) ≠ invalidTime := by
  intro h
  have hsent := sent_lt time
  have hnat := toNat_sent time
  rw [h] at hnat
  have hinvalid : invalidTime.toNat = 0xfeedfacedeadbeef := rfl
  omega

theorem ofInt_toNat (t : Time) : BitVec.ofInt 64 t.toNat = t := by
  apply BitVec.eq_of_toNat_eq
  have hnat := toNat_ofInt t.toNat
  have hlt := t.isLt
  omega

theorem ofInt_sub (v w : Int) : BitVec.ofInt 64 (v - w) = BitVec.ofInt 64 v - BitVec.ofInt 64 w := by
  rw [Int.sub_eq_add_neg, BitVec.ofInt_add, BitVec.ofInt_neg, ← BitVec.sub_eq_add_neg]

theorem beginBaseLine_value (last : Time) (time : Int) :
    ((reset last).beginBaseLine (BitVec.ofInt 64 (sent time))).nativeTimeBaseLine =
      BitVec.ofInt 64 (firstValue last time - sent time) := by
  show (if validTime last then _ else _) = _
  unfold firstValue
  split
  · -- the mask rounds down to a multiple of `2 ^ 33`
    have hword : last - BitVec.ofInt 64 (sent time) + 0x0000000100000000 =
        BitVec.ofInt 64 ((last.toNat : Int) - sent time + 2 ^ 32) := by
      rw [BitVec.ofInt_add, ofInt_sub, ofInt_toNat]
      rfl
    have hmask : (0xfffffffe00000000 : Time).toNat = (2 ^ 31 - 1) * 2 ^ 33 := rfl
    show (last - BitVec.ofInt 64 (sent time) + 0x0000000100000000) &&& 0xfffffffe00000000 = _
    rw [hword]
    generalize (last.toNat : Int) - sent time + 2 ^ 32 = z
    have hz := toNat_ofInt z
    apply BitVec.eq_of_toNat_eq
    have hright := toNat_ofInt (z / 2 ^ 33 * 2 ^ 33 + sent time - sent time)
    rw [BitVec.toNat_and, hmask, Lib.and_mask (BitVec.ofInt 64 z).isLt]
    omega
  · rw [Int.sub_self]
    rfl

theorem first_follows (last : Time) (time : Int) :
    Follows ((reset last).translatePlaybackTimeNativeToNormalized
      (BitVec.ofInt 64 (sent time))).2 time (firstValue last time) := by
  have hbegun := beginBaseLine_value last time
  have hlast : ((reset last).beginBaseLine (BitVec.ofInt 64 (sent time))).lastNativeTimeUsedInBaseline =
      BitVec.ofInt 64 (sent time) := rfl
  have hadjusted : (((reset last).beginBaseLine (BitVec.ofInt 64 (sent time))).adjustBaseLine
      (BitVec.ofInt 64 (sent time))).nativeTimeBaseLine =
        ((reset last).beginBaseLine (BitVec.ofInt 64 (sent time))).nativeTimeBaseLine := by
    have hne : ¬(BitVec.ofInt 64 (sent time) &&& wrapMask = wrapMask ∧
        BitVec.ofInt 64 (sent time) &&& wrapMask = 0) :=
      fun h => absurd (h.1.symm.trans h.2) (by decide)
    unfold adjustBaseLine
    dsimp only
    rw [hlast, if_neg hne, if_neg fun h => hne h.symm]
  refine ⟨?_, rfl⟩
  show (((reset last).beginBaseLine _).adjustBaseLine _).nativeTimeBaseLine + _ = _
  rw [hadjusted, hbegun, ← BitVec.ofInt_add, Int.sub_add_cancel]

theorem next_follows {s : PlaybackTimes} {time time' v : Int} (h : s.Follows time v)
    (hnear : (time' - time).natAbs < 2 ^ 31) :
    Follows (s.translatePlaybackTimeNativeToNormalized (BitVec.ofInt 64 (sent time'))).2 time'
      (v + (time' - time)) := by
  have hsent := sent_lt time
  have hsent' := sent_lt time'
  have hnat := toNat_sent time
  have hnat' := toNat_sent time'
  have hlt : (BitVec.ofInt 64 (sent time)).toNat < 2 ^ 33 := by omega
  have hlt' : (BitVec.ofInt 64 (sent time')).toNat < 2 ^ 33 := by omega
  have hbegun : s.beginBaseLine (BitVec.ofInt 64 (sent time')) = s := by
    unfold beginBaseLine
    rw [h.last, if_neg (sent_ne_invalid time)]
  have hbase : s.nativeTimeBaseLine = BitVec.ofInt 64 (v - sent time) := by
    rw [ofInt_sub, ← h.sum]
    grind
  have hmod : sent time = time % 2 ^ 33 := rfl
  have hmod' : sent time' = time' % 2 ^ 33 := rfl
  refine ⟨?_, rfl⟩
  show ((s.beginBaseLine _).adjustBaseLine _).nativeTimeBaseLine + _ = _
  rw [hbegun]
  unfold adjustBaseLine
  dsimp only
  rw [h.last, hbase]
  simp only [and_wrapMask_eq hlt, and_wrapMask_zero hlt, and_wrapMask_eq hlt', and_wrapMask_zero hlt']
  -- a wrap is what takes the bits sent across the ends of the range
  split
  · have hoffset : wrapOffset = BitVec.ofInt 64 (2 ^ 33) := rfl
    rw [hoffset, ← BitVec.ofInt_add, ← BitVec.ofInt_add]
    exact congrArg _ (by omega)
  · split
    · have hoffset : wrapOffset = BitVec.ofInt 64 (2 ^ 33) := rfl
      rw [hoffset, ← ofInt_sub, ← BitVec.ofInt_add]
      exact congrArg _ (by omega)
    · rw [← BitVec.ofInt_add]
      exact congrArg _ (by omega)

theorem run_follows (last : Time) {times : Nat → Int} {n : Nat} (hnear : Near times n) :
    ∀ i ≤ n, (run last times i).2.Follows (times i) (value last times i) := by
  intro i
  induction i with
  | zero =>
    intro _
    unfold value
    rw [Int.sub_self, Int.add_zero]
    exact first_follows last (times 0)
  | succ i ih =>
    intro hi
    have hnext := next_follows (ih (Nat.le_of_succ_le hi)) (hnear i hi)
    have hvalue : value last times (i + 1) = value last times i + (times (i + 1) - times i) := by
      unfold value
      omega
    rw [hvalue]
    exact hnext

theorem normalizedTime_eq {last : Time} {times : Nat → Int} {n i : Nat} (hnear : Near times n)
    (hi : i ≤ n) : normalizedTime last times i = (300 * value last times i + 13) % 2 ^ 64 / 27 := by
  have hfollows := run_follows last hnear i hi
  have htranslated : (run last times i).1 =
      normalize ((run last times i).2.nativeTimeBaseLine + BitVec.ofInt 64 (sent (times i))) := by
    cases i <;> rfl
  unfold normalizedTime
  rw [htranslated, hfollows.sum, toNat_normalize]

/-- The times are unwrapped exactly as long as they stay in range. -/
theorem unwrapped_iff (last : Time) (times : Nat → Int) (n : Nat) (hnear : Near times n) :
    Unwrapped last times n ↔ ∀ i ≤ n, InRange last times i := by
  have hdifference : ∀ i j, value last times i - value last times j = times i - times j := by
    intro i j
    unfold value
    omega
  constructor
  · intro h i hi
    refine ⟨h.nonneg i hi, ?_⟩
    have hclose := h.differences i hi 0 (Nat.zero_le n)
    have htrue := hdifference i 0
    rw [normalizedTime_eq hnear hi, normalizedTime_eq hnear (Nat.zero_le n)] at hclose
    omega
  · intro h
    refine ⟨fun i hi j hj => ?_, fun i hi => (h i hi).1⟩
    have hi' := (h i hi).2
    have hj' := (h j hj).2
    have htrue := hdifference i j
    rw [normalizedTime_eq hnear hi, normalizedTime_eq hnear hj]
    omega

/-- Times that go on past the end of the range. -/
def forwards (i : Nat) : Int := 2 ^ 33 - 40 + 30 * i

/-- A wrap forward is in range. -/
theorem unwrapped_forwards :
    sent (forwards 2) < sent (forwards 1) ∧ Unwrapped invalidTime forwards 3 := by
  have hnear : Near forwards 3 := by
    intro i _
    unfold forwards
    omega
  refine ⟨by decide, (unwrapped_iff invalidTime forwards 3 hnear).mpr fun i hi => ?_⟩
  have hfirst : firstValue invalidTime (forwards 0) = 2 ^ 33 - 40 := by decide
  unfold InRange value
  rw [hfirst]
  unfold forwards
  omega

/-- Times that go back past the beginning. -/
def backwards (i : Nat) : Int := 2 ^ 33 + 5 - 10 * i

/-- The first wrap in reverse play is to below zero. -/
theorem unwrapped_fails : ¬∀ last times n, Near times n → Unwrapped last times n := by
  intro hall
  have hnear : Near backwards 1 := by
    intro i _
    unfold backwards
    omega
  have hclose := (hall invalidTime backwards 1 hnear).differences 1 (Nat.le_refl 1) 0 (Nat.zero_le 1)
  exact absurd hclose (by decide +kernel)

/-! ## There and back -/

/-- A native time is got back, whatever the wraps, where the products do not overflow. -/
theorem normalizedToNative_nativeToNormalized (s : PlaybackTimes) (nativeTime : Time)
    (hnative : nativeTime.toNat < 2 ^ 33)
    (hbase : 2 ^ 33 ∣
      (s.translatePlaybackTimeNativeToNormalized nativeTime).2.nativeTimeBaseLine.toNat)
    (hproduct : ((s.translatePlaybackTimeNativeToNormalized nativeTime).2.nativeTimeBaseLine.toNat +
      nativeTime.toNat) * 300 < 2 ^ 64)
    (hback : (s.translatePlaybackTimeNativeToNormalized nativeTime).1.toNat * 27 + 150 < 2 ^ 64) :
    translatePlaybackTimeNormalizedToNative
      (s.translatePlaybackTimeNativeToNormalized nativeTime).1 = nativeTime := by
  have htranslated : (s.translatePlaybackTimeNativeToNormalized nativeTime).1 =
      normalize ((s.translatePlaybackTimeNativeToNormalized nativeTime).2.nativeTimeBaseLine +
        nativeTime) := rfl
  rw [htranslated] at hback ⊢
  generalize (s.translatePlaybackTimeNativeToNormalized nativeTime).2.nativeTimeBaseLine = base
    at hbase hproduct hback ⊢
  have hsum : (base + nativeTime).toNat = base.toNat + nativeTime.toNat := by
    rw [BitVec.toNat_add, Nat.mod_eq_of_lt (by omega)]
  -- the product leaves room for the term that rounds, as three hundred does not divide `2 ^ 64`
  have hnormalized : (normalize (base + nativeTime)).toNat =
      ((base.toNat + nativeTime.toNat) * 300 + 13) / 27 := by
    show (((base + nativeTime) * 300 + 13) / 27).toNat = _
    rw [BitVec.toNat_udiv, BitVec.toNat_add, BitVec.toNat_mul, hsum]
    show ((base.toNat + nativeTime.toNat) * 300 % 2 ^ 64 + 13) % 2 ^ 64 / 27 = _
    omega
  have hmask : (0x00000001ffffffff : Time).toNat = 2 ^ 33 - 1 := rfl
  apply BitVec.eq_of_toNat_eq
  unfold translatePlaybackTimeNormalizedToNative
  rw [BitVec.toNat_and, hmask, Nat.and_two_pow_sub_one_eq_mod, BitVec.toNat_udiv, BitVec.toNat_add,
    BitVec.toNat_mul, hnormalized]
  rw [hnormalized] at hback
  show (((base.toNat + nativeTime.toNat) * 300 + 13) / 27 * 27 % 2 ^ 64 + 150) % 2 ^ 64 / 300 % 2 ^ 33 = _
  rw [Nat.mod_eq_of_lt (Nat.lt_of_le_of_lt (Nat.le_add_right _ 150) hback), Nat.mod_eq_of_lt hback]
  have hscaled : (((base.toNat + nativeTime.toNat) * 300 + 13) / 27 * 27 + 150) / 300 =
      base.toNat + nativeTime.toNat := by omega
  rw [hscaled]
  omega

/-- A time after ten wraps. -/
def afterWraps : PlaybackTimes := ⟨10 * 2 ^ 33, 0x1fffffff0, 0⟩

theorem normalizedToNative_wrapped :
    (afterWraps.translatePlaybackTimeNativeToNormalized 7).2.nativeTimeBaseLine = 11 * 2 ^ 33 ∧
      translatePlaybackTimeNormalizedToNative
        (afterWraps.translatePlaybackTimeNativeToNormalized 7).1 = 7 :=
  ⟨by decide +kernel, normalizedToNative_nativeToNormalized afterWraps 7 (by decide +kernel)
    (by decide +kernel) (by decide +kernel) (by decide +kernel)⟩

/-- The last time that three hundred times still is a word. -/
def lastTime : Nat := 2 ^ 64 / 300

/-- The products do not overflow there, but the term that rounds is added to the second. -/
theorem normalizedToNative_fails :
    ¬∀ (s : PlaybackTimes) (nativeTime : Time), nativeTime.toNat < 2 ^ 33 →
      2 ^ 33 ∣ (s.translatePlaybackTimeNativeToNormalized nativeTime).2.nativeTimeBaseLine.toNat →
      ((s.translatePlaybackTimeNativeToNormalized nativeTime).2.nativeTimeBaseLine.toNat +
        nativeTime.toNat) * 300 < 2 ^ 64 →
      (s.translatePlaybackTimeNativeToNormalized nativeTime).1.toNat * 27 < 2 ^ 64 →
      translatePlaybackTimeNormalizedToNative
        (s.translatePlaybackTimeNativeToNormalized nativeTime).1 = nativeTime := by
  intro hall
  have hround := hall
    ⟨BitVec.ofNat 64 (lastTime / 2 ^ 33 * 2 ^ 33), BitVec.ofNat 64 (lastTime % 2 ^ 33), 0⟩
    (BitVec.ofNat 64 (lastTime % 2 ^ 33)) (by decide +kernel) (by decide +kernel) (by decide +kernel)
    (by decide +kernel)
  exact absurd hround (by decide +kernel)

end PlaybackTimes

end Duckbox.FrameParser
