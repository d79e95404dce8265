import Duckbox.OutputCoordinator.Translation

/-!
# The order of system times

Frame after frame of a stream is given a system time, while other streams have theirs
translated and any of these translations may rebase a mapping. A rebase leaves the time
that it is made for where it was, and the next is measured from there.

> `systemTimes_in_order`: where the playback times of a stream go forward, by less than
> `2 ^ 30` microseconds each, its system times never go back.

This is at speed 1 and forward.
-/

namespace Duckbox.OutputCoordinator

open ClassDefinitions Lib
open ClassDefinitions.Rational (nearest)

/-- The second time is not before the first, nor too far from it. -/
def Ahead (a b : BitVec 64) : Prop := 0 ≤ (b - a).toInt ∧ (b - a).toInt < 2 ^ 30

instance (a b : BitVec 64) : Decidable (Ahead a b) := inferInstanceAs (Decidable (_ ∧ _))

/-- What stream `k` is answered, in a run of translations for it and for others. -/
def Clock.systemTimes (c : Clock) (k : Nat) :
    Base → List (Option Nat × BitVec 64) → List (Option (BitVec 64))
  | _, [] => []
  | s, (id, t) :: calls =>
    let (after, systemTime) := c.translatePlaybackTimeToSystem s id t
    if id = some k then systemTime :: c.systemTimes k after calls else c.systemTimes k after calls

theorem mapping_other {c : Clock} {s : Base} {id : Option Nat} {k : Nat} (hid : id ≠ some k)
    (t : BitVec 64) :
    (c.translatePlaybackTimeToSystem s id t).1.mapping (some k) = s.mapping (some k) := by
  unfold Clock.translatePlaybackTimeToSystem
  cases id with
  | none =>
    dsimp only
    split_ifs <;> rfl
  | some j =>
    have hj : k ≠ j := fun h => hid (congrArg some h.symm)
    dsimp only
    split_ifs
    · rfl
    · rfl
    · exact (mapping_write ..).trans (if_neg hj)
    · exact (mapping_write ..).trans (if_neg hj)
    · rfl

section

variable {c : Clock} (hspeed : c.speed.eqInt 1 = true) (hforward : c.direction = .playForward)
  (hnear : NearOne c.systemClockAdjustment) {m : Mapping} {t u : BitVec 64}

include hspeed hforward hnear

theorem toInt_elapsed {x : BitVec 64} (hlow : 0 ≤ x.toInt) (hhigh : x.toInt < 2 ^ 31) :
    (c.elapsedSystemTime x).toInt = nearest (x.toInt.natAbs * c.systemClockAdjustment.denominator.toNat)
      c.systemClockAdjustment.numerator.toNat := by
  have hturn : c.turn x = x := if_neg (by rw [hforward]; decide)
  have hpositive : (x.setWidth 32).slt 0 = false := by
    rw [BitVec.slt_eq_decide, toInt_narrow (by omega) hhigh]
    exact decide_eq_false (by simpa using hlow)
  unfold Clock.elapsedSystemTime
  rw [Clock.speedScale_one hspeed, hturn, toInt_over hnear (by omega) hhigh, hpositive, signed_false]

theorem systemTime_ahead (ht : Ahead m.basePlaybackTime t) (hu : Ahead t u) :
    0 ≤ (m.systemTime c u - m.systemTime c t).toInt := by
  unfold Ahead at ht hu
  have hsum := toInt_between (a := u) (x := t) (b := m.basePlaybackTime) (by omega) (by omega)
  have hbefore := toInt_elapsed hspeed hforward hnear (x := t - m.basePlaybackTime) (by omega) (by omega)
  have hafter := toInt_elapsed hspeed hforward hnear (x := u - m.basePlaybackTime) (by omega) (by omega)
  have hle : (c.elapsedSystemTime (t - m.basePlaybackTime)).toInt ≤
      (c.elapsedSystemTime (u - m.basePlaybackTime)).toInt := by
    rw [hbefore, hafter]
    exact Int.ofNat_le.mpr (Rational.nearest_mono hnear.numerator_pos hnear.numerator_pos
      (Nat.mul_le_mul_right _ (Nat.mul_le_mul_right _ (by omega))))
  have hbound := hnear.over_le (k := (u - m.basePlaybackTime).toInt.natAbs) (by omega)
  unfold Mapping.systemTime
  rw [add_sub_add_left_eq_sub, BitVec.toInt_sub, hbefore, hafter, Int.bmod_def]
  omega

theorem elapsed_zero : c.elapsedSystemTime 0#64 = 0#64 := by
  refine BitVec.eq_of_toInt_eq ?_
  have hhalf := Nat.div_lt_self hnear.numerator_pos Nat.one_lt_two
  rw [toInt_elapsed hspeed hforward hnear (by decide) (by decide)]
  simp [nearest, Nat.div_eq_of_lt hhalf]

/-- The time of a rebase stays where it was, and the base is not far behind it. -/
theorem rebase_ahead (hlow : 0 ≤ (t - m.basePlaybackTime).toInt)
    (hhigh : (t - m.basePlaybackTime).toInt < 2 ^ 31) :
    (m.rebase c t).systemTime c t = m.systemTime c t ∧ Ahead (m.rebase c t).basePlaybackTime t := by
  have helapsed := toInt_elapsed hspeed hforward hnear hlow hhigh
  have hbound := hnear.over_le (k := (t - m.basePlaybackTime).toInt.natAbs) (by omega)
  unfold Mapping.rebase
  split
  · unfold Ahead
    rw [Mapping.systemTime, BitVec.sub_self, elapsed_zero hspeed hforward hnear, BitVec.add_zero]
    exact ⟨rfl, by decide, by decide⟩
  · next hsmall =>
    refine ⟨rfl, hlow, ?_⟩
    have hcond := BitVec.toInt_eq_toNat_cond (c.elapsedSystemTime (t - m.basePlaybackTime))
    have hle := BitVec.not_lt.mp hsmall
    rw [BitVec.le_def, show rebaseTimeTriggerValue.toNat = 2 ^ 28 from rfl] at hle
    by_contra hfar
    -- An elapsed time of `2 ^ 30` is more than the trigger, whatever the adjustment.
    have hmul : 2 ^ 30 * c.systemClockAdjustment.denominator.toNat ≤
        (t - m.basePlaybackTime).toInt.natAbs * c.systemClockAdjustment.denominator.toNat :=
      Nat.mul_le_mul_right _ (by omega)
    have hmore : 2 ^ 28 + 1 ≤ nearest ((t - m.basePlaybackTime).toInt.natAbs *
        c.systemClockAdjustment.denominator.toNat) c.systemClockAdjustment.numerator.toNat := by
      refine (Nat.le_div_iff_mul_le hnear.numerator_pos).mpr ?_
      have := hnear.high
      have := hnear.denominator_pos
      omega
    split at hcond <;> omega

theorem systemTimes_ahead {k : Nat} {calls : List (Option Nat × BitVec 64)} :
    ∀ {s : Base} {m : Mapping} {t : BitVec 64}, s.mapping (some k) = some m →
      Ahead m.basePlaybackTime t →
      ((t :: (calls.filter (·.1 = some k)).map Prod.snd).IsChain Ahead) →
      ∃ times, c.systemTimes k s calls = times.map some ∧
        (m.systemTime c t :: times).IsChain fun a b => 0 ≤ (b - a).toInt := by
  induction calls with
  | nil => intro s m t _ _ _; exact ⟨[], rfl, .singleton _⟩
  | cons call calls ih =>
    intro s m t hm ht hchain
    obtain ⟨id, u⟩ := call
    unfold Clock.systemTimes
    by_cases hid : id = some k
    · rw [hid, List.filter_cons_of_pos (by simp), List.map_cons, List.isChain_cons_cons] at hchain
      dsimp only at hchain
      obtain ⟨htu, hchain⟩ := hchain
      have hsum := toInt_between (a := u) (x := t) (b := m.basePlaybackTime)
        (by unfold Ahead at htu; omega) (by unfold Ahead at ht; omega)
      unfold Ahead at ht htu
      obtain ⟨hself, hahead⟩ := rebase_ahead hspeed hforward hnear (m := m) (t := u)
        (by omega) (by omega)
      obtain ⟨times, htimes, hordered⟩ := ih (mapping_translate (c := c) hm u).1 hahead hchain
      refine ⟨m.systemTime c u :: times, ?_, .cons_cons (systemTime_ahead hspeed hforward hnear ht htu)
        (hself ▸ hordered)⟩
      dsimp only
      rw [if_pos hid, hid, translatePlaybackTimeToSystem_of_mapping hm, htimes]
      rfl
    · rw [List.filter_cons_of_neg (by simpa using hid)] at hchain
      dsimp only
      rw [if_neg hid]
      exact ih ((mapping_other hid u).trans hm) ht hchain

/-- The system times of stream `k` are in order, from that of its base on. -/
theorem systemTimes_in_order {s : Base} {k : Nat} (hm : s.mapping (some k) = some m)
    {calls : List (Option Nat × BitVec 64)}
    (hahead : (m.basePlaybackTime :: (calls.filter (·.1 = some k)).map Prod.snd).IsChain Ahead) :
    ∃ times, c.systemTimes k s calls = times.map some ∧
      (m.baseSystemTime :: times).IsChain fun a b => 0 ≤ (b - a).toInt := by
  have hbase : m.systemTime c m.basePlaybackTime = m.baseSystemTime := by
    rw [Mapping.systemTime, BitVec.sub_self, elapsed_zero hspeed hforward hnear, BitVec.add_zero]
  rw [← hbase]
  refine systemTimes_ahead hspeed hforward hnear hm ?_ hahead
  unfold Ahead
  rw [BitVec.sub_self]
  decide

end

/-- The second of its times rebases the stream's mapping; the master's is gone by between. -/
theorem systemTimes_in_order_two : ∃ times,
    (⟨.ofInt 1, .playForward, ⟨false, 1000001, 1000000⟩⟩ : Clock).systemTimes 3
      ({ Base.reset with masterTimeMappingEstablished := true }.write 3
        { Base.reset.context 3 with
          timeMappingEstablished := true
          baseSystemTime := 5000 }) [(some 3, 2000), (none, 9), (some 3, 0x12000000)] =
      times.map some ∧ ((5000 : BitVec 64) :: times).IsChain fun a b => 0 ≤ (b - a).toInt :=
  systemTimes_in_order (m := ⟨0, 5000⟩) rfl rfl
    ⟨rfl, by decide, by decide, by decide, by decide, by decide⟩ rfl (by decide)

end Duckbox.OutputCoordinator
