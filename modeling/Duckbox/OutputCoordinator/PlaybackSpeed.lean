import Duckbox.Lib.Loop
import Duckbox.OutputCoordinator.Translation

/-!
# Changes of speed

The coordinator at any speed, and `SetPlaybackSpeed`, which moves every mapping's base to
now. A stream's mapping is read through the master's, which `SynchronizeStreams` may have
given up while streams keep theirs; then the translation gives nothing, and only the
system time of the stream's base is moved.

> `continuous_iff_along`: in a run every change of speed is continuous just where none
> finds a stream with a mapping, and something elapsed, without the master's.
-/

namespace Duckbox.OutputCoordinator

open ClassDefinitions Lib

/-- The members that speed, mappings and synchronization are about. -/
structure Coordinator where
  base : Base
  clock : Clock

/-- `ValidTime`: neither `INVALID_TIME` nor `UNSPECIFIED_TIME`. -/
def validTime (t : BitVec 64) : Bool := t ≠ invalidTime ∧ t ≠ invalidTime + 1

/-! ## The functions that translate, at any speed -/

namespace Base

/-- The stream switches to the master mapping, at a speed. -/
def switchMappingAt (c : Clock) (s : Base) (id : Nat) (playbackTime ahead : BitVec 64) : Base :=
  let s := s.write id { s.context id with
    accumulatedPlaybackTimeJumps := 0
    baseSystemTimeAdjusted := true
    baseSystemTime := s.masterBaseSystemTime
    baseNormalizedPlaybackTime := s.masterBaseNormalizedPlaybackTime
    timeMappingEstablished := true
    basedOnMasterMappingVersion := s.masterTimeMappingVersion
    streamOffset := ahead }
  let s := s.lowerMinimum id
  let s := (c.translatePlaybackTimeToSystem s (some id) playbackTime).1
  s.write id { s.context id with inStartupDelay := false }

/-- "Is there an appropriate time mapping we can switch to", at a speed. -/
def switchOrDropAt (c : Clock) (s : Base) (id : Nat) (playbackTime now : BitVec 64) : Base :=
  if s.masterTimeMappingEstablished &&
      (s.context id).basedOnMasterMappingVersion != s.masterTimeMappingVersion then
    let (s, masterMapping) := c.translatePlaybackTimeToSystem s none playbackTime
    let ahead := masterMapping.getD 0 - now
    if mappingIsReasonable ahead then s.switchMappingAt c id playbackTime ahead else s.dropMapping
  else s.dropMapping

/-- The entry of `SynchronizeStreams`, at a speed. -/
def synchronizeEnterAt (c : Clock) (s : Base) (id : Nat) (playbackTime now : BitVec 64) : Base :=
  (s.write id { s.context id with inStartupDelay := true }).switchOrDropAt c id playbackTime now

/-- The stream leaves the loop with its mapping, at a speed. -/
def synchronizeJoinAt (c : Clock) (s : Base) (id : Nat) : Base :=
  let playbackTime := (s.context id).synchronizingAtPlaybackTime
  let s := s.takeMapping id playbackTime
  let s := s.lowerMinimum id
  let s := (c.translatePlaybackTimeToSystem s (some id) playbackTime).1
  { s.write id { s.context id with inSynchronizeFn := false } with
    streamsInSynchronize := s.streamsInSynchronize - 1 }

/-- A pass of the loop, at a speed. -/
def synchronizePassAt (c : Clock) (s : Base) (id : Nat) (pass : Pass) : Base :=
  if s.masterTimeMappingEstablished then s.synchronizeJoinAt c id
  else if s.streamsInSynchronize == s.streamCount || pass.waitedOut then
    (s.establish id pass).synchronizeJoinAt c id
  else s

/-- `EstablishTimeMapping`, with a system time or now. -/
def establishTimeMapping (s : Base) (id : Option Nat) (playbackTime systemTime now : BitVec 64) :
    Base :=
  let systemTime := if validTime systemTime then systemTime else now
  let version := s.masterTimeMappingVersion + 1
  { s with
    masterBaseNormalizedPlaybackTime := playbackTime
    masterBaseSystemTime := systemTime
    accumulatedPlaybackTimeJumps := 0
    jumpSeenAtPlaybackTime := 0
    masterTimeMappingEstablished := true
    masterTimeMappingVersion := version
    context := fun other =>
      if id.elim (decide (other ∈ s.coordinatedContexts)) (fun id => decide (other = id)) then
        { s.context other with
          baseSystemTime := systemTime
          baseNormalizedPlaybackTime := playbackTime
          accumulatedPlaybackTimeJumps := 0
          timeMappingEstablished := true
          basedOnMasterMappingVersion := version }
      else s.context other }

/-! ## Speed -/

/-- "Rebase the master mapping". What the translation does not write stays. -/
def rebaseMaster (c : Clock) (s : Base) (now : BitVec 64) : Base :=
  if s.masterTimeMappingEstablished then
    { s with
      masterBaseNormalizedPlaybackTime :=
        (c.translateSystemTimeToPlayback s none now).getD s.masterBaseNormalizedPlaybackTime
      masterBaseSystemTime := now }
  else s

/-- "Rebase the local mappings". -/
def rebaseLocal (c : Clock) (s : Base) (now : BitVec 64) : Base :=
  { s with
    context := fun id =>
      if id ∈ s.coordinatedContexts ∧ (s.context id).timeMappingEstablished then
        { s.context id with
          baseNormalizedPlaybackTime :=
            (c.translateSystemTimeToPlayback s (some id) now).getD
              (s.context id).baseNormalizedPlaybackTime
          baseSystemTime := now
          baseSystemTimeAdjusted := true }
      else s.context id }

end Base

namespace Coordinator

/-- `Reset`. -/
def reset : Coordinator := ⟨.reset, .reset⟩

/-- `SetPlaybackSpeed`, which is for `PlaybackContext` only. -/
def setPlaybackSpeed (s : Coordinator) (id : Option Nat) (speed : Rational)
    (direction : PlayDirection) (now : BitVec 64) : Coordinator :=
  if id ≠ none then s
  else
    { base :=
        if speed.eqInt 0 then s.base
        -- leaving a pause
        else if s.clock.speed.eqInt 0 then s.base.resetTimeMapping none
        else (s.base.rebaseMaster s.clock now).rebaseLocal s.clock now
      clock := { s.clock with speed := speed.assign, direction := direction } }

inductive Event where
  | register (id : Nat) (video : Bool)
  | deRegister (id : Nat)
  | synchronizeEnter (id : Nat) (playbackTime now : BitVec 64)
  | synchronizeStart (id : Nat) (playbackTime : BitVec 64)
  | synchronizePass (id : Nat) (pass : Base.Pass)
  | establish (id : Option Nat) (playbackTime systemTime now : BitVec 64)
  | reset (id : Option Nat)
  | translate (id : Option Nat) (playbackTime : BitVec 64)
  | setPlaybackSpeed (id : Option Nat) (speed : Rational) (direction : PlayDirection)
      (now : BitVec 64)

/-- What each call is of, as for a coordinator at speed 1. -/
def enabled (s : Base) : Event → Bool
  | .register _ _ | .deRegister _ | .setPlaybackSpeed _ _ _ _ => true
  | .synchronizeEnter id _ _ =>
    id ∈ s.coordinatedContexts && !(s.context id).inStartupDelay && !(s.context id).inSynchronizeFn
  | .synchronizeStart id _ => id ∈ s.coordinatedContexts && (s.context id).inStartupDelay
  | .synchronizePass id _ => id ∈ s.coordinatedContexts && (s.context id).inSynchronizeFn
  | .establish id _ _ _ | .reset id | .translate id _ => id.all (· ∈ s.coordinatedContexts)

def act (s : Coordinator) : Event → Coordinator
  | .register id video => { s with base := s.base.registerStream id video }
  | .deRegister id => { s with base := s.base.deRegisterStream id }
  | .synchronizeEnter id playbackTime now =>
    { s with base := s.base.synchronizeEnterAt s.clock id playbackTime now }
  | .synchronizeStart id playbackTime => { s with base := s.base.synchronizeStart id playbackTime }
  | .synchronizePass id pass => { s with base := s.base.synchronizePassAt s.clock id pass }
  | .establish id playbackTime systemTime now =>
    { s with base := s.base.establishTimeMapping id playbackTime systemTime now }
  | .reset id => { s with base := s.base.resetTimeMapping id }
  | .translate id playbackTime =>
    { s with base := (s.clock.translatePlaybackTimeToSystem s.base id playbackTime).1 }
  | .setPlaybackSpeed id speed direction now => s.setPlaybackSpeed id speed direction now

/-- What cannot happen changes nothing. -/
def step (s : Coordinator) (event : Event) : Coordinator :=
  if enabled s.base event then s.act event else s

/-! ## At speed 1

As `Reset` leaves the clock these functions are the coordinator's of `Base`. -/

/-- What `Base` calls an event, if it has it. -/
def baseEvent : Event → Option Base.Event
  | .register id video => some (.register id video)
  | .deRegister id => some (.deRegister id)
  | .synchronizeEnter id playbackTime now => some (.synchronizeEnter id playbackTime now)
  | .synchronizeStart id playbackTime => some (.synchronizeStart id playbackTime)
  | .synchronizePass id pass => some (.synchronizePass id pass)
  | .reset id => some (.reset id)
  | .translate id playbackTime => some (.translate id playbackTime)
  | .establish _ _ _ _ | .setPlaybackSpeed _ _ _ _ => none

theorem elapsedSystemTime_reset (t : BitVec 64) :
    Clock.reset.elapsedSystemTime t = Base.adjustedElapsed t := by
  unfold Clock.elapsedSystemTime
  rw [Clock.speedScale_one (c := .reset) rfl]
  rfl

theorem translatePlaybackTimeToSystem_reset (s : Base) (id : Option Nat) (t : BitVec 64) :
    Clock.reset.translatePlaybackTimeToSystem s id t = s.translatePlaybackTimeToSystem id t := by
  unfold Clock.translatePlaybackTimeToSystem Base.translatePlaybackTimeToSystem
  cases id with
  | none => simp only [elapsedSystemTime_reset]
  | some id => simp only [elapsedSystemTime_reset]

theorem synchronizeEnterAt_reset (s : Base) (id : Nat) (playbackTime now : BitVec 64) :
    s.synchronizeEnterAt .reset id playbackTime now = s.synchronizeEnter id playbackTime now := by
  unfold Base.synchronizeEnterAt Base.synchronizeEnter Base.switchOrDropAt Base.switchOrDrop
    Base.switchMappingAt Base.switchMapping
  simp only [translatePlaybackTimeToSystem_reset]

theorem synchronizePassAt_reset (s : Base) (id : Nat) (pass : Base.Pass) :
    s.synchronizePassAt .reset id pass = s.synchronizePass id pass := by
  unfold Base.synchronizePassAt Base.synchronizePass Base.synchronizeJoinAt Base.synchronizeJoin
  simp only [translatePlaybackTimeToSystem_reset]

theorem enabled_baseEvent {s : Base} {event : Event} {e : Base.Event}
    (h : baseEvent event = some e) : enabled s event = s.enabled e := by
  cases event with
  | establish | setPlaybackSpeed => cases h
  | _ => cases h; rfl

theorem act_reset {s : Base} {event : Event} {e : Base.Event} (h : baseEvent event = some e) :
    act ⟨s, .reset⟩ event = ⟨s.act e, .reset⟩ := by
  cases event with
  | establish | setPlaybackSpeed => cases h
  | synchronizeEnter id playbackTime now =>
    cases h
    exact congrArg (Coordinator.mk · .reset) (synchronizeEnterAt_reset s id playbackTime now)
  | synchronizePass id pass =>
    cases h
    exact congrArg (Coordinator.mk · .reset) (synchronizePassAt_reset s id pass)
  | translate id playbackTime =>
    cases h
    exact congrArg (fun r => Coordinator.mk r.1 .reset)
      (translatePlaybackTimeToSystem_reset s id playbackTime)
  | _ => cases h; rfl

theorem step_reset {s : Base} {event : Event} {e : Base.Event} (h : baseEvent event = some e) :
    step ⟨s, .reset⟩ event = ⟨s.step e, .reset⟩ := by
  unfold step Base.step
  rw [enabled_baseEvent h, act_reset h]
  split
  · rfl
  · rfl

/-- A run without changes of speed is one of `Base`. -/
theorem foldl_reset {events : List Event} {es : List Base.Event}
    (h : events.map baseEvent = es.map some) :
    ∀ s : Base, events.foldl step ⟨s, .reset⟩ = ⟨es.foldl Base.step s, .reset⟩ := by
  induction events generalizing es with
  | nil =>
    obtain rfl : es = [] := List.map_eq_nil_iff.mp h.symm
    exact fun _ => rfl
  | cons event events ih =>
    match es, h with
    | e :: es, h =>
      obtain ⟨hevent, hrest⟩ := List.cons.inj h
      intro s
      rw [List.foldl_cons, step_reset hevent]
      exact ih hrest (s.step e)

end Coordinator

/-! ## Continuity -/

namespace Base

/-- The base of a stream's mapping, or of the master's, whether it is established or not. -/
def bases (s : Base) : Option Nat → Mapping
  | none => ⟨s.masterBaseNormalizedPlaybackTime, s.masterBaseSystemTime⟩
  | some id => ⟨(s.context id).baseNormalizedPlaybackTime, (s.context id).baseSystemTime⟩

/-- The mapping is marked established. -/
def Marked (s : Base) : Option Nat → Prop
  | none => s.masterTimeMappingEstablished = true
  | some id => id ∈ s.coordinatedContexts ∧ (s.context id).timeMappingEstablished = true

end Base

namespace Coordinator

/-- A change at a time that each line goes through, before and after, and where no base
system time has moved off its line. -/
structure Continuous (s t : Coordinator) (now : BitVec 64) : Prop where
  line : ∀ id, s.base.Marked id → t.base.Marked id ∧
    (t.base.bases id).playbackTime t.clock now = (s.base.bases id).playbackTime s.clock now
  moved : ∀ id, (t.base.bases id).baseSystemTime ≠ (s.base.bases id).baseSystemTime →
    (t.base.bases id).basePlaybackTime
      = (s.base.bases id).playbackTime s.clock (t.base.bases id).baseSystemTime

/-- The event, if it changes from one speed to another, is continuous. -/
def KeepsLines (s : Coordinator) : Event → Prop
  | .setPlaybackSpeed none speed direction now =>
    s.clock.speed.eqInt 0 = false → speed.eqInt 0 = false →
      Continuous s (s.step (.setPlaybackSpeed none speed direction now)) now
  | _ => True

/-- A change of speed finds the master mapping established, or no stream with a mapping by
which playback time has elapsed. -/
def Covered (s : Coordinator) : Event → Prop
  | .setPlaybackSpeed none speed _ now =>
    s.clock.speed.eqInt 0 = false → speed.eqInt 0 = false →
      s.base.masterTimeMappingEstablished = true ∨ ∀ id ∈ s.base.coordinatedContexts,
        (s.base.context id).timeMappingEstablished = true →
          s.clock.elapsedPlaybackTime (now - (s.base.context id).baseSystemTime) = 0
  | _ => True

/-- Speeds are quotients of numbers of 32 bits. -/
def Event.SafeSpeed : Event → Prop
  | .setPlaybackSpeed _ speed _ _ => speed.Safe
  | _ => True

end Coordinator

/-! ## No time elapses in no time -/

theorem mulInt_zero (a : Rational) : ∃ negative, a.mulInt 0 = ⟨negative, 0, a.denominator⟩ := by
  have habs : extend (ClassDefinitions.abs (0 : BitVec 32)) = 0 := by decide
  have hzero : a.numerator * (0 : BitVec 64) = 0 := BitVec.mul_zero
  have hminimum : Rational.minimum a.denominator 0 = 0 := by
    unfold Rational.minimum
    rw [if_neg (by rw [BitVec.lt_def]; exact Nat.not_lt_zero _)]
  refine ⟨(0 : BitVec 32).slt 0 ^^ a.negative, ?_⟩
  unfold Rational.mulInt Rational.make
  rw [habs, hzero, hminimum, if_neg fun h => h.1 rfl]

theorem rounded_zero (negative : Bool) (d : BitVec 64) :
    (⟨negative, 0, d⟩ : Rational).roundedLongLongIntegerPart = 0 := by
  have hquotient : ((0 : BitVec 64) + d / 2) / d = 0 := by
    apply BitVec.eq_of_toNat_eq
    rw [show (0 : BitVec 64) + d / 2 = d / 2 from BitVec.zero_add _, BitVec.toNat_udiv,
      BitVec.toNat_udiv]
    show d.toNat / 2 / d.toNat = 0
    rw [Nat.div_div_eq_div_mul]
    by_cases hd : d.toNat = 0
    · rw [hd]
    · exact Nat.div_eq_of_lt (by omega)
  unfold Rational.roundedLongLongIntegerPart
  dsimp only
  rw [hquotient]
  cases negative
  · rfl
  · rfl

theorem longLong_zero {a : Rational} (hd : a.denominator ≠ 0) (hvalue : a.value = 0) :
    a.longLongIntegerPart = 0 := by
  have hpos := Rational.denominator_pos hd
  have hnum : a.numerator = 0 := by
    rw [Rational.value_eq, div_eq_zero_iff] at hvalue
    have hsigned := Int.cast_eq_zero.mp (hvalue.resolve_right (Nat.cast_ne_zero.mpr (by omega)))
    have habs := natAbs_signed a.negative a.numerator.toNat
    rw [hsigned] at habs
    exact BitVec.eq_of_toNat_eq habs.symm
  have hquotient : a.numerator / a.denominator = 0 := by
    apply BitVec.eq_of_toNat_eq
    rw [hnum, BitVec.toNat_udiv]
    exact Nat.zero_div _
  unfold Rational.longLongIntegerPart
  rw [if_neg hd, hquotient]
  split
  · rfl
  · rfl

theorem Clock.elapsedPlaybackTime_zero {c : Clock} (hspeed : c.speed.Safe) :
    c.elapsedPlaybackTime 0 = 0 := by
  obtain ⟨negative, hadjusted⟩ := mulInt_zero c.systemClockAdjustment
  have hnothing : (Rational.intMul ((0 : BitVec 64).setWidth 32)
      c.systemClockAdjustment).roundedLongLongIntegerPart = 0 := by
    show (c.systemClockAdjustment.mulInt 0).roundedLongLongIntegerPart = 0
    rw [hadjusted, rounded_zero]
  have hturn : c.turn 0 = 0 := by
    unfold turn
    split
    · rfl
    · rfl
  unfold elapsedPlaybackTime inverseSpeedScale
  rw [hnothing, hturn]
  dsimp only
  split
  · rfl
  · obtain ⟨sign, hscaled⟩ := mulInt_zero c.speed
    show (c.speed.mulInt 0).assign.longLongIntegerPart = 0
    rw [hscaled]
    have hsafe : (⟨sign, 0, c.speed.denominator⟩ : Rational).Safe :=
      ⟨hspeed.1, Nat.two_pow_pos 32, hspeed.2.2⟩
    obtain ⟨hassign, hvalue, -⟩ := Rational.assign_safe hsafe
    refine longLong_zero hassign.1 (hvalue.trans ?_)
    rw [Rational.value_eq]
    cases sign
    · exact zero_div _
    · exact zero_div _

/-! ## What a change of speed moves -/

namespace Base

variable (c : Clock) (s : Base) (now : BitVec 64)

/-- Both loops of a change of speed. -/
def rebased : Base := (s.rebaseMaster c now).rebaseLocal c now

theorem rebaseMaster_contexts : (s.rebaseMaster c now).context = s.context ∧
    (s.rebaseMaster c now).coordinatedContexts = s.coordinatedContexts ∧
    (s.rebaseMaster c now).masterTimeMappingEstablished = s.masterTimeMappingEstablished := by
  unfold rebaseMaster
  split
  · exact ⟨rfl, rfl, rfl⟩
  · exact ⟨rfl, rfl, rfl⟩

theorem rebased_context (id : Nat) : (s.rebased c now).context id =
    if id ∈ s.coordinatedContexts ∧ (s.context id).timeMappingEstablished then
      { s.context id with
        baseNormalizedPlaybackTime :=
          (c.translateSystemTimeToPlayback (s.rebaseMaster c now) (some id) now).getD
            (s.context id).baseNormalizedPlaybackTime
        baseSystemTime := now
        baseSystemTimeAdjusted := true }
    else s.context id := by
  obtain ⟨hcontext, hids, -⟩ := s.rebaseMaster_contexts c now
  unfold rebased rebaseLocal
  dsimp only
  rw [hcontext, hids]

theorem rebased_marked (id : Option Nat) : (s.rebased c now).Marked id ↔ s.Marked id := by
  obtain ⟨-, hids, hmaster⟩ := s.rebaseMaster_contexts c now
  cases id with
  | none =>
    show (s.rebaseMaster c now).masterTimeMappingEstablished = true ↔ _
    rw [hmaster]
    rfl
  | some k =>
    show k ∈ (s.rebaseMaster c now).coordinatedContexts ∧
      ((s.rebased c now).context k).timeMappingEstablished = true ↔ _
    rw [hids, rebased_context]
    split
    · exact Iff.rfl
    · exact Iff.rfl

variable {c s now}

theorem rebased_unmarked {id : Option Nat} (h : ¬ s.Marked id) :
    (s.rebased c now).bases id = s.bases id := by
  cases id with
  | none =>
    have hmaster : s.rebaseMaster c now = s := if_neg h
    show Mapping.mk (s.rebaseMaster c now).masterBaseNormalizedPlaybackTime
      (s.rebaseMaster c now).masterBaseSystemTime = _
    rw [hmaster]
    rfl
  | some k =>
    show Mapping.mk ((s.rebased c now).context k).baseNormalizedPlaybackTime
      ((s.rebased c now).context k).baseSystemTime = _
    have hnot : ¬ (k ∈ s.coordinatedContexts ∧ (s.context k).timeMappingEstablished = true) := h
    rw [rebased_context, if_neg hnot]
    rfl

/-- With the master mapping a base moves along its line. -/
theorem rebased_with_master (hmaster : s.masterTimeMappingEstablished = true) {id : Option Nat}
    (h : s.Marked id) : (s.rebased c now).bases id = ⟨(s.bases id).playbackTime c now, now⟩ := by
  obtain ⟨hcontext, -, hmaster'⟩ := s.rebaseMaster_contexts c now
  cases id with
  | none =>
    have htranslated : c.translateSystemTimeToPlayback s none now
        = some ((s.bases none).playbackTime c now) :=
      translateSystemTimeToPlayback_of_mapping (mapping_none.mpr ⟨hmaster, rfl⟩) now
    show Mapping.mk (s.rebaseMaster c now).masterBaseNormalizedPlaybackTime
      (s.rebaseMaster c now).masterBaseSystemTime = _
    unfold rebaseMaster
    rw [if_pos hmaster, htranslated]
    rfl
  | some k =>
    have htranslated : c.translateSystemTimeToPlayback (s.rebaseMaster c now) (some k) now
        = some ((s.bases (some k)).playbackTime c now) := by
      refine translateSystemTimeToPlayback_of_mapping (mapping_some.mpr ⟨hmaster'.trans hmaster, ?_, ?_⟩)
        now
      · rw [hcontext]
        exact h.2
      · rw [hcontext]
        rfl
    show Mapping.mk ((s.rebased c now).context k).baseNormalizedPlaybackTime
      ((s.rebased c now).context k).baseSystemTime = _
    have hstream : k ∈ s.coordinatedContexts ∧ (s.context k).timeMappingEstablished = true := h
    rw [rebased_context, if_pos hstream, htranslated]
    rfl

theorem rebased_without_master (hmaster : s.masterTimeMappingEstablished = false) {k : Nat}
    (h : s.Marked (some k)) :
    (s.rebased c now).bases (some k) = ⟨(s.bases (some k)).basePlaybackTime, now⟩ := by
  obtain ⟨-, -, hmaster'⟩ := s.rebaseMaster_contexts c now
  have hrefused : c.translateSystemTimeToPlayback (s.rebaseMaster c now) (some k) now = none :=
    if_pos (by rw [hmaster', hmaster]; rfl)
  show Mapping.mk ((s.rebased c now).context k).baseNormalizedPlaybackTime
    ((s.rebased c now).context k).baseSystemTime = _
  have hstream : k ∈ s.coordinatedContexts ∧ (s.context k).timeMappingEstablished = true := h
  rw [rebased_context, if_pos hstream, hrefused]
  rfl

end Base

theorem Mapping.playbackTime_base {c : Clock} (hspeed : c.speed.Safe) (m : Mapping) :
    m.playbackTime c m.baseSystemTime = m.basePlaybackTime := by
  have helapsed : m.baseSystemTime - m.baseSystemTime = 0 := BitVec.sub_self _
  unfold playbackTime
  rw [helapsed, c.elapsedPlaybackTime_zero hspeed]
  exact BitVec.add_zero _

namespace Coordinator

variable {s : Coordinator} {speed : Rational} {direction : PlayDirection} {now : BitVec 64}

theorem step_setPlaybackSpeed (hbefore : s.clock.speed.eqInt 0 = false)
    (hafter : speed.eqInt 0 = false) : s.step (.setPlaybackSpeed none speed direction now)
      = ⟨s.base.rebased s.clock now, { s.clock with speed := speed.assign, direction := direction }⟩ := by
  show s.setPlaybackSpeed none speed direction now = _
  unfold setPlaybackSpeed
  rw [if_neg (fun h => h rfl), hafter, hbefore]
  rfl

theorem continuous_iff (hsafe : speed.Safe) :
    Continuous s ⟨s.base.rebased s.clock now,
      { s.clock with speed := speed.assign, direction := direction }⟩ now ↔
      s.base.masterTimeMappingEstablished = true ∨ ∀ id ∈ s.base.coordinatedContexts,
        (s.base.context id).timeMappingEstablished = true →
          s.clock.elapsedPlaybackTime (now - (s.base.context id).baseSystemTime) = 0 := by
  have hassign := (Rational.assign_safe hsafe).1
  have hthrough : ∀ m : Mapping, m.baseSystemTime = now →
      m.playbackTime { s.clock with speed := speed.assign, direction := direction } now
        = m.basePlaybackTime := by
    rintro m rfl
    exact m.playbackTime_base hassign
  cases hmaster : s.base.masterTimeMappingEstablished with
  | true =>
    refine iff_of_true ⟨fun id hid => ⟨(s.base.rebased_marked _ _ id).mpr hid, ?_⟩, fun id hmoved => ?_⟩
      (.inl rfl)
    · dsimp only
      rw [Base.rebased_with_master hmaster hid]
      exact hthrough _ rfl
    · dsimp only at hmoved ⊢
      by_cases hid : s.base.Marked id
      · rw [Base.rebased_with_master hmaster hid]
      · rw [Base.rebased_unmarked hid] at hmoved
        exact absurd rfl hmoved
  | false =>
    constructor
    · intro h
      refine .inr fun id hid hmarked => ?_
      have hline := (h.line (some id) ⟨hid, hmarked⟩).2
      dsimp only at hline
      rw [Base.rebased_without_master hmaster ⟨hid, hmarked⟩, hthrough _ rfl] at hline
      -- the base has stayed, so nothing was to be added to it
      exact left_eq_add.mp hline
    · intro h
      have hnothing := h.resolve_left Bool.false_ne_true
      have hstream : ∀ {id : Option Nat}, s.base.Marked id →
          (s.base.rebased s.clock now).bases id = ⟨(s.base.bases id).basePlaybackTime, now⟩ ∧
            (s.base.bases id).playbackTime s.clock now = (s.base.bases id).basePlaybackTime := by
        intro id hid
        cases id with
        | none => exact absurd (hid.symm.trans hmaster) (by simp)
        | some k =>
          refine ⟨Base.rebased_without_master hmaster hid, ?_⟩
          show _ + s.clock.elapsedPlaybackTime (now - (s.base.context k).baseSystemTime) = _
          rw [hnothing k hid.1 hid.2]
          exact BitVec.add_zero _
      refine ⟨fun id hid => ⟨(s.base.rebased_marked _ _ id).mpr hid, ?_⟩, fun id hmoved => ?_⟩
      · dsimp only
        rw [(hstream hid).1, (hstream hid).2]
        exact hthrough _ rfl
      · dsimp only at hmoved ⊢
        by_cases hid : s.base.Marked id
        · rw [(hstream hid).1]
          exact (hstream hid).2.symm
        · rw [Base.rebased_unmarked hid] at hmoved
          exact absurd rfl hmoved

theorem keepsLines_iff (event : Event) (hsafe : event.SafeSpeed) :
    s.KeepsLines event ↔ s.Covered event := by
  cases event with
  | setPlaybackSpeed id speed direction now =>
    cases id with
    | some _ => exact Iff.rfl
    | none =>
      refine forall_congr' fun hbefore => forall_congr' fun hafter => ?_
      rw [step_setPlaybackSpeed hbefore hafter]
      exact continuous_iff hsafe
  | _ => exact Iff.rfl

/-- In a run every change from one speed to another is continuous just where each finds the
master mapping, or no stream by whose mapping something has elapsed. -/
theorem continuous_iff_along (events : List Event) (hsafe : ∀ event ∈ events, event.SafeSpeed) :
    Along step KeepsLines reset events ↔ Along step Covered reset events := by
  generalize reset = s
  induction events generalizing s with
  | nil => exact Iff.rfl
  | cons event events ih =>
    exact and_congr (keepsLines_iff event (hsafe event List.mem_cons_self))
      (ih (fun e he => hsafe e (List.mem_cons_of_mem _ he)) _)

/-- Double speed with a mapping. -/
theorem continuous_double :
    Along step KeepsLines reset [.register 1 true, .establish none 1000000 5000000 5000000,
      .setPlaybackSpeed none (.ofInt 2) .playForward 6000000] := by
  refine (continuous_iff_along _ ?_).mpr ⟨trivial, trivial, fun _ _ => .inl (by decide), trivial⟩
  intro event h
  simp only [List.mem_cons, List.not_mem_nil, or_false] at h
  rcases h with rfl | rfl | rfl
  · trivial
  · trivial
  · exact ⟨by decide, by decide, by decide⟩

/-- A stream enters `SynchronizeStreams` on the current mapping, and the speed changes while
it does. -/
theorem not_continuous_in_synchronize :
    ¬ Along step KeepsLines reset [.register 1 true, .establish none 1000000 5000000 5000000,
      .synchronizeEnter 1 2000000 6000000,
      .setPlaybackSpeed none (.ofInt 2) .playForward 6000000] := by
  intro h
  have hline := (h.2.2.2.1 (by decide) (by decide)).line (some 1) ⟨by decide, by decide⟩
  exact absurd hline.2 (by decide)

end Coordinator

end Duckbox.OutputCoordinator
