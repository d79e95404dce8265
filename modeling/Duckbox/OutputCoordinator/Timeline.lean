import Duckbox.ClassDefinitions.RationalOrder
import Duckbox.Lib.Loop
import Duckbox.OutputCoordinator.Base

/-!
# One timeline for the streams that caught up

Playback time less system time is a mapping's line. Beside the jumps followed
since the mapping was made it is the mapping's origin (`Context.origin`,
`Base.origin`), and a jump changes the line and the jumps by the same amount.
`OnTimeline` says that every stream on the current mapping has the master's
origin. Where a stream joins a mapping, where a mapping is rebased and where it
is adjusted the two can part, and `Keeps` says when they do not.
-/

namespace Duckbox.OutputCoordinator

open ClassDefinitions Lib

/-! ## Elapsed time -/

/-- A time that an `int` holds. -/
def FitsInt (elapsed : BitVec 64) : Prop := (elapsed.setWidth 32).signExtend 64 = elapsed

instance (elapsed : BitVec 64) : Decidable (FitsInt elapsed) := inferInstanceAs (Decidable (_ = _))

theorem adjustedElapsed_eq (elapsed : BitVec 64) :
    Base.adjustedElapsed elapsed = (elapsed.setWidth 32).signExtend 64 := by
  unfold Base.adjustedElapsed Rational.intDiv Rational.div
  generalize elapsed.setWidth 32 = v
  have hone : Rational.ofInt 1 = ⟨false, 1, 1⟩ := by decide
  have hv : Rational.ofInt v = ⟨(extend v).slt 0, ClassDefinitions.abs (extend v), 1⟩ := rfl
  rw [hone, hv]
  dsimp only
  generalize hn : ClassDefinitions.abs (extend v) = n
  have hfactor : (if n = 1 then n else if (1 : BitVec 64) = 1 then 1 else 10) = 1 := by
    split
    · assumption
    · rfl
  have hmake : ∀ b, Rational.make (n * 1) (1 * 1) 1 b = ⟨b, n, 1⟩ := by
    intro b
    unfold Rational.make
    simp
  rw [hfactor, hmake]
  unfold Rational.roundedLongLongIntegerPart
  dsimp only
  rw [← hn]
  unfold ClassDefinitions.abs
  cases (extend v).slt 0 <;> simp [extend]

theorem adjustedElapsed_of_fits {elapsed : BitVec 64} (h : FitsInt elapsed) :
    Base.adjustedElapsed elapsed = elapsed := (adjustedElapsed_eq elapsed).trans h

/-! ## Lines and origins -/

/-- Playback time less system time. -/
def Context.line (c : Context) : BitVec 64 := c.baseNormalizedPlaybackTime - c.baseSystemTime

/-- The line beside the jumps that the stream has followed. -/
def Context.origin (c : Context) : BitVec 64 := c.line + c.accumulatedPlaybackTimeJumps

namespace Base

def line (s : Base) : BitVec 64 := s.masterBaseNormalizedPlaybackTime - s.masterBaseSystemTime

def origin (s : Base) : BitVec 64 := s.line + s.accumulatedPlaybackTimeJumps

/-- A stream has a mapping, and it is based on the current master mapping. -/
def Current (s : Base) (id : Nat) : Prop :=
  id ∈ s.coordinatedContexts ∧ (s.context id).timeMappingEstablished = true ∧
    (s.context id).basedOnMasterMappingVersion = s.masterTimeMappingVersion

instance (s : Base) (id : Nat) : Decidable (s.Current id) := inferInstanceAs (Decidable (_ ∧ _))

/-- Every stream on the current mapping has the master's origin. -/
def OnTimeline (s : Base) : Prop := ∀ id, s.Current id → (s.context id).origin = s.origin

/-- Some stream is on the current mapping. -/
def Followed (s : Base) : Prop := ∃ id ∈ s.coordinatedContexts, s.Current id

instance (s : Base) : Decidable s.Followed := inferInstanceAs (Decidable (∃ id ∈ _, _))

/-! ## What keeps the timeline -/

/-- What a mapping comes to is the same. -/
structure SameMapping (c d : Context) : Prop where
  established : c.timeMappingEstablished = d.timeMappingEstablished
  based : c.basedOnMasterMappingVersion = d.basedOnMasterMappingVersion
  origin : c.origin = d.origin

theorem SameMapping.refl (c : Context) : SameMapping c c := ⟨rfl, rfl, rfl⟩

variable {s : Base}

theorem OnTimeline.of_kept {t : Base} (h : s.OnTimeline) (horigin : t.origin = s.origin)
    (hversion : t.masterTimeMappingVersion = s.masterTimeMappingVersion)
    (hkept : ∀ id, t.Current id → (t.context id).origin = t.origin ∨
      id ∈ s.coordinatedContexts ∧ SameMapping (t.context id) (s.context id)) :
    t.OnTimeline := by
  intro id hid
  rcases hkept id hid with hline | ⟨hmem, hsame⟩
  · exact hline
  · rw [hsame.origin, horigin]
    exact h id ⟨hmem, hsame.established ▸ hid.2.1, hsame.based ▸ hversion ▸ hid.2.2⟩

theorem OnTimeline.of_not_followed (h : ¬ s.Followed) : s.OnTimeline :=
  fun id hid => absurd ⟨id, hid.1, hid⟩ h

section Steps

variable {s : Base} (h : s.OnTimeline)

include h

theorem OnTimeline.of_write {t : Base} {id : Nat} {c : Context} (horigin : t.origin = s.origin)
    (hversion : t.masterTimeMappingVersion = s.masterTimeMappingVersion)
    (hids : t.coordinatedContexts = s.coordinatedContexts)
    (hcontext : t.context = Function.update s.context id c)
    (hc : t.Current id → c.origin = t.origin ∨ SameMapping c (s.context id)) : t.OnTimeline := by
  refine h.of_kept horigin hversion fun i hi => ?_
  by_cases he : i = id
  · subst he
    have hone : t.context i = c := by rw [hcontext, Function.update_self]
    rw [hone]
    exact (hc hi).imp_right fun hsame => ⟨hids ▸ hi.1, hsame⟩
  · rw [hcontext, Function.update_of_ne he]
    exact .inr ⟨hids ▸ hi.1, .refl _⟩

theorem onTimeline_registerStream (id : Nat) (video : Bool) : (s.registerStream id video).OnTimeline := by
  unfold registerStream
  split
  · exact h
  · next hnew =>
    refine h.of_kept rfl rfl fun i hi => ?_
    by_cases he : i = id
    · subst he
      -- a new context has no mapping
      have hone := hi.2.1
      simp only [Base.write, Function.update_self] at hone
      exact absurd hone Bool.false_ne_true
    · refine .inr ⟨?_, ?_⟩
      · exact (List.mem_cons.mp hi.1).resolve_left he
      · simp only [Base.write, Function.update_of_ne he]
        exact .refl _

theorem onTimeline_deRegisterStream (id : Nat) : (s.deRegisterStream id).OnTimeline := by
  unfold deRegisterStream
  split
  · dsimp only
    split
    · split
      · refine h.of_kept rfl rfl fun i hi => ?_
        refine .inr ⟨List.mem_of_mem_erase hi.1, ?_⟩
        simp only [Base.write, Function.update_apply]
        split
        · next he => exact he ▸ ⟨rfl, rfl, rfl⟩
        · exact .refl _
      · exact h.of_kept rfl rfl fun i hi => .inr ⟨List.mem_of_mem_erase hi.1, .refl _⟩
    · exact h.of_kept rfl rfl fun i hi => .inr ⟨List.mem_of_mem_erase hi.1, .refl _⟩
  · exact h

theorem onTimeline_resetTimeMapping (id : Option Nat) : (s.resetTimeMapping id).OnTimeline := by
  cases id with
  | none =>
    -- no stream is left on a mapping
    intro i hi
    have hestablished := hi.2.1
    have hmem : i ∈ s.coordinatedContexts := hi.1
    simp only [resetTimeMapping, if_pos hmem] at hestablished
    exact absurd hestablished Bool.false_ne_true
  | some id =>
    refine h.of_write rfl rfl rfl rfl fun hi => ?_
    have hestablished := hi.2.1
    simp only [resetTimeMapping, Base.write, Function.update_self] at hestablished
    exact absurd hestablished Bool.false_ne_true

theorem onTimeline_cascadeJump (id : Nat) (d : Delta) : (s.cascadeJump id d).OnTimeline := by
  unfold cascadeJump
  dsimp only
  split
  · split
    · refine h.of_write rfl rfl rfl rfl fun _ => .inr ⟨rfl, rfl, ?_⟩
      simp only [Context.origin, Context.line]
      ring
    · refine h.of_write rfl rfl rfl rfl fun _ => .inr ⟨rfl, rfl, ?_⟩
      simp only [Context.origin, Context.line]
      ring
  · next hfollowed =>
    have hsame : s.accumulatedPlaybackTimeJumps = (s.context id).accumulatedPlaybackTimeJumps :=
      not_not.mp hfollowed
    refine h.of_write ?_ rfl rfl rfl fun _ => .inr ⟨rfl, rfl, ?_⟩
    · simp only [origin, line, Base.write]
      ring
    · simp only [Context.origin, Context.line, hsame]
      ring

theorem onTimeline_handlePlaybackTimeDeltas (id : Nat) (d : Delta) :
    (s.handlePlaybackTimeDeltas id d).OnTimeline := by
  have hfollowed : ∀ {t : Base}, t.OnTimeline → (t.checkFollowed id d).OnTimeline := by
    intro t ht
    unfold checkFollowed
    split
    · exact onTimeline_resetTimeMapping ht none
    · exact ht
  have hmatches : ∀ {t : Base}, t.OnTimeline → (t.checkMatches id d).OnTimeline := by
    intro t ht
    unfold checkMatches
    split
    · exact onTimeline_resetTimeMapping ht none
    · exact ht
  unfold handlePlaybackTimeDeltas
  dsimp only
  split
  · exact h
  · apply hmatches
    apply hfollowed
    split
    · exact onTimeline_cascadeJump h id d
    · exact h

end Steps

/-! ## Rebasing -/

/-- A rebase of the master mapping by a stream, or for none, keeps the timeline: what has
elapsed fits an `int`, and a stream that takes the master along is on its line. -/
def RebaseKeeps (s : Base) (playbackTime : BitVec 64) : Option Nat → Prop
  | none =>
    adjustedElapsed (playbackTime - s.masterBaseNormalizedPlaybackTime) > rebaseTimeTriggerValue →
      s.Followed → FitsInt (playbackTime - s.masterBaseNormalizedPlaybackTime)
  | some id =>
    (s.context id).timeMappingEstablished = true →
      adjustedElapsed (playbackTime - (s.context id).baseNormalizedPlaybackTime) >
        rebaseTimeTriggerValue → s.Followed →
      (s.Current id ∨ s.masterBaseSystemTime = (s.context id).baseSystemTime →
        FitsInt (playbackTime - (s.context id).baseNormalizedPlaybackTime)) ∧
      (s.masterBaseSystemTime = (s.context id).baseSystemTime → (s.context id).line = s.line)

instance (s : Base) (playbackTime : BitVec 64) : ∀ id, Decidable (s.RebaseKeeps playbackTime id)
  | none => inferInstanceAs (Decidable (_ → _ → _))
  | some _ => inferInstanceAs (Decidable (_ → _ → _ → _ ∧ _))

variable {id : Nat}

theorem current_of_write {t : Base} {i : Nat} {c : Context} (hi : t.Current i)
    (hversion : t.masterTimeMappingVersion = s.masterTimeMappingVersion)
    (hids : t.coordinatedContexts = s.coordinatedContexts)
    (hcontext : t.context = Function.update s.context id c)
    (hestablished : c.timeMappingEstablished = (s.context id).timeMappingEstablished)
    (hbased : c.basedOnMasterMappingVersion = (s.context id).basedOnMasterMappingVersion) :
    s.Current i := by
  obtain ⟨hmem, hest, hcurrent⟩ := hi
  rw [hcontext] at hest hcurrent
  refine ⟨hids ▸ hmem, ?_⟩
  by_cases he : i = id
  · subst he
    rw [Function.update_self] at hest hcurrent
    exact ⟨hestablished ▸ hest, hbased ▸ hversion ▸ hcurrent⟩
  · rw [Function.update_of_ne he] at hest hcurrent
    exact ⟨hest, hversion ▸ hcurrent⟩

theorem line_followed {base time : BitVec 64} (start : BitVec 64) (hfits : FitsInt (time - base)) :
    time - (start + adjustedElapsed (time - base)) = base - start := by
  rw [adjustedElapsed_of_fits hfits]
  ring

variable {playbackTime : BitVec 64}

theorem onTimeline_translate (h : s.OnTimeline) {id : Option Nat}
    (hkeeps : s.RebaseKeeps playbackTime id) :
    (s.translatePlaybackTimeToSystem id playbackTime).1.OnTimeline := by
  unfold translatePlaybackTimeToSystem
  split
  · exact h
  cases id with
  | none =>
    dsimp only
    split
    · next hrebase =>
      by_cases hfollowed : s.Followed
      · have hline := line_followed s.masterBaseSystemTime (hkeeps hrebase hfollowed)
        refine h.of_kept ?_ rfl fun i hi => .inr ⟨hi.1, .refl _⟩
        simp only [origin, line]
        rw [hline]
      · exact .of_not_followed hfollowed
    · exact h
  | some id =>
    dsimp only
    split
    · exact h
    next hestablished =>
    split
    · next hrebase =>
      generalize htime : (s.context id).baseSystemTime + _ = systemTime
      by_cases hfollowed : s.Followed
      · obtain ⟨hfits, hline⟩ := hkeeps (by simpa using hestablished) hrebase hfollowed
        have hfollows : s.Current id ∨ s.masterBaseSystemTime = (s.context id).baseSystemTime →
            playbackTime - systemTime = (s.context id).line := fun hcase =>
          htime ▸ line_followed _ (hfits hcase)
        by_cases hmaster : s.masterBaseSystemTime = (s.context id).baseSystemTime
        · rw [if_pos hmaster]
          have hmoved := hfollows (.inr hmaster)
          refine h.of_write ?_ rfl rfl rfl fun _ => .inr ⟨rfl, rfl, ?_⟩
          · simp only [origin, line, Base.write]
            rw [hmoved, hline hmaster]
            rfl
          · simp only [Context.origin]
            rw [← hmoved]
            rfl
        · rw [if_neg hmaster]
          refine h.of_write rfl rfl rfl rfl fun hi => .inr ⟨rfl, rfl, ?_⟩
          have hcurrent : s.Current id := current_of_write hi rfl rfl rfl rfl rfl
          simp only [Context.origin]
          rw [← hfollows (.inl hcurrent)]
          rfl
      · intro i hi
        refine absurd ?_ hfollowed
        split at hi
        · have hcurrent : s.Current i := current_of_write hi rfl rfl rfl rfl rfl
          exact ⟨i, hcurrent.1, hcurrent⟩
        · have hcurrent : s.Current i := current_of_write hi rfl rfl rfl rfl rfl
          exact ⟨i, hcurrent.1, hcurrent⟩
    · exact h

/-! ## Joining a mapping -/

theorem inrange_iff {x lower upper : BitVec 64} :
    inrange x lower upper = true ↔ lower.toInt ≤ x.toInt ∧ x.toInt ≤ upper.toInt := by
  unfold inrange
  rw [Bool.and_eq_true, BitVec.sle_iff_toInt_le, BitVec.sle_iff_toInt_le]

theorem window_toInt : maxSynchronizationWindow.toInt = 10000000 ∧
    (-maxSynchronizationWindow).toInt = -10000000 := by decide

theorem fits_of_window {x : BitVec 64}
    (h : inrange x (-maxSynchronizationWindow) maxSynchronizationWindow = true) : FitsInt x := by
  rw [inrange_iff, window_toInt.1, window_toInt.2] at h
  apply BitVec.eq_of_toInt_eq
  rw [BitVec.toInt_signExtend_of_le (by decide), BitVec.toInt_setWidth]
  rw [BitVec.toInt_eq_toNat_bmod] at h ⊢
  rw [Int.bmod_def] at h ⊢
  rw [Int.bmod_def]
  omega

theorem window_of_ahead {x : BitVec 64} (h : inrange x 0 maxSynchronizationWindow = true) :
    inrange x (-maxSynchronizationWindow) maxSynchronizationWindow = true := by
  have hzero : (0 : BitVec 64).toInt = 0 := rfl
  rw [inrange_iff, hzero, window_toInt.1] at h
  rw [inrange_iff, window_toInt.1, window_toInt.2]
  omega

theorem not_rebased_of_ahead {x : BitVec 64} (h : inrange x 0 maxSynchronizationWindow = true) :
    ¬ adjustedElapsed x > rebaseTimeTriggerValue := by
  have hzero : (0 : BitVec 64).toInt = 0 := rfl
  have htrigger : rebaseTimeTriggerValue.toNat = 268435456 := rfl
  rw [adjustedElapsed_of_fits (fits_of_window (window_of_ahead h)), gt_iff_lt, BitVec.lt_def, htrigger]
  rw [inrange_iff, hzero, window_toInt.1, BitVec.toInt_eq_toNat_cond] at h
  have hlt := x.isLt
  split at h <;> omega

theorem not_rebased_zero : ¬ adjustedElapsed 0 > rebaseTimeTriggerValue := by decide

/-- A stream joins with no jump outstanding, or within the window ahead of the mapping. -/
def JoinKeeps (s : Base) (playbackTime : BitVec 64) : Prop :=
  s.accumulatedPlaybackTimeJumps = 0 ∨
    inrange (s.offsetOf playbackTime) 0 maxSynchronizationWindow = true

instance (s : Base) (playbackTime : BitVec 64) : Decidable (s.JoinKeeps playbackTime) :=
  inferInstanceAs (Decidable (_ ∨ _))

section Join

variable {s : Base} (h : s.OnTimeline) {id : Nat} {playbackTime : BitVec 64}
  (hjoin : s.JoinKeeps playbackTime)

include hjoin

include h in
theorem onTimeline_takeMapping : (s.takeMapping id playbackTime).OnTimeline := by
  unfold takeMapping
  dsimp only
  split
  · refine h.of_write rfl rfl rfl rfl fun _ => .inl ?_
    simp only [Context.origin, Context.line, origin, line, Base.write]
    ring
  · split
    · refine h.of_write rfl rfl rfl rfl fun _ => .inl ?_
      simp only [Context.origin, Context.line, origin, line, Base.write]
      ring
    · next hfar =>
      have hnone : s.accumulatedPlaybackTimeJumps = 0 :=
        hjoin.resolve_right fun hahead => hfar (window_of_ahead hahead)
      refine h.of_write ?_ rfl rfl rfl fun _ => .inl ?_
      · simp only [origin, line, Base.write]
        ring
      · simp only [Context.origin, Context.line, origin, line, Base.write, hnone]
        ring

theorem rebaseKeeps_takeMapping : (s.takeMapping id playbackTime).RebaseKeeps playbackTime (some id) := by
  unfold takeMapping
  dsimp only
  split
  · next hzero =>
    intro _ hrebase
    simp only [Base.write, Function.update_self] at hrebase
    have helapsed : playbackTime - (s.masterBaseNormalizedPlaybackTime + s.accumulatedPlaybackTimeJumps)
        = 0 := by
      rw [← hzero]
      unfold offsetOf
      ring
    rw [helapsed] at hrebase
    exact absurd hrebase not_rebased_zero
  · split
    · next hnear =>
      intro _ hrebase _
      simp only [Base.write, Function.update_self] at hrebase ⊢
      have helapsed : playbackTime - (s.masterBaseNormalizedPlaybackTime + s.accumulatedPlaybackTimeJumps)
          = s.offsetOf playbackTime := by
        unfold offsetOf
        ring
      rw [helapsed] at hrebase ⊢
      refine ⟨fun _ => fits_of_window hnear, fun _ => ?_⟩
      have hnone : s.accumulatedPlaybackTimeJumps = 0 :=
        hjoin.resolve_right fun hahead => not_rebased_of_ahead hahead hrebase
      simp only [Context.line, line, hnone]
      ring
    · intro _ hrebase
      simp only [Base.write, Function.update_self] at hrebase
      -- too far off, the mapping is moved to where the stream is
      have helapsed : playbackTime - (s.masterBaseNormalizedPlaybackTime +
          s.accumulatedPlaybackTimeJumps - -s.offsetOf playbackTime) = 0 := by
        unfold offsetOf
        ring
      rw [helapsed] at hrebase
      exact absurd hrebase not_rebased_zero

end Join

theorem lowerMinimum_keeps (h : s.OnTimeline) (id : Nat) :
    (s.lowerMinimum id).OnTimeline ∧
      ∀ {playbackTime : BitVec 64} {i : Option Nat},
        s.RebaseKeeps playbackTime i → (s.lowerMinimum id).RebaseKeeps playbackTime i := by
  unfold lowerMinimum
  split
  · refine ⟨h, fun {_ i} hkeeps => ?_⟩
    cases i <;> exact hkeeps
  · exact ⟨h, fun hkeeps => hkeeps⟩

theorem onTimeline_synchronizeJoin (h : s.OnTimeline)
    (hjoin : s.JoinKeeps (s.context id).synchronizingAtPlaybackTime) :
    (s.synchronizeJoin id).OnTimeline := by
  have htakes : (s.takeMapping id (s.context id).synchronizingAtPlaybackTime).OnTimeline :=
    onTimeline_takeMapping h hjoin
  obtain ⟨htaken, hkeeps⟩ := lowerMinimum_keeps htakes id
  have htranslated := onTimeline_translate htaken (hkeeps (rebaseKeeps_takeMapping hjoin))
  exact htranslated.of_write rfl rfl rfl rfl fun _ => .inr ⟨rfl, rfl, rfl⟩

/-! ## The steps -/

theorem onTimeline_adjustMappingBase (h : s.OnTimeline) {caller : Option Nat}
    {adjustment : BitVec 64}
    (hkeeps : s.mayAdjust caller = true →
      s.masterTimeMappingEstablished = true ∨ adjustment = 0 ∨ ¬ s.Followed) :
    (s.adjustMappingBase caller adjustment).OnTimeline := by
  unfold adjustMappingBase
  split
  · exact h
  · next hmay =>
    intro id hid
    have hmem : id ∈ s.coordinatedContexts := hid.1
    have hest : (s.context id).timeMappingEstablished = true := by
      have hest := hid.2.1
      dsimp only at hest
      split at hest <;> exact hest
    have hbased : (s.context id).basedOnMasterMappingVersion = s.masterTimeMappingVersion := by
      have hbased := hid.2.2
      dsimp only at hbased
      split at hbased <;> exact hbased
    have hcurrent : s.Current id := ⟨hmem, hest, hbased⟩
    have horigin := h id hcurrent
    simp only [Context.origin, Context.line, origin, line] at horigin ⊢
    simp only [hmem, hest, and_self, if_true]
    -- the system times of the stream and of the master move together
    have hmoves : (if s.masterTimeMappingEstablished then s.masterBaseSystemTime + adjustment
        else s.masterBaseSystemTime) = s.masterBaseSystemTime + adjustment := by
      rcases hkeeps (by simpa using hmay) with hmaster | hzero | hnone
      · rw [if_pos hmaster]
      · rw [hzero]
        split <;> simp
      · exact absurd ⟨id, hmem, hcurrent⟩ hnone
    rw [hmoves]
    calc (s.context id).baseNormalizedPlaybackTime - ((s.context id).baseSystemTime + adjustment) +
          (s.context id).accumulatedPlaybackTimeJumps
        = (s.context id).baseNormalizedPlaybackTime - (s.context id).baseSystemTime +
            (s.context id).accumulatedPlaybackTimeJumps - adjustment := by ring
      _ = s.masterBaseNormalizedPlaybackTime - s.masterBaseSystemTime +
            s.accumulatedPlaybackTimeJumps - adjustment := by rw [horigin]
      _ = _ := by ring

/-- How far a frame is ahead of now on the master mapping. -/
def aheadOf (s : Base) (playbackTime now : BitVec 64) : BitVec 64 :=
  s.masterBaseSystemTime + adjustedElapsed (playbackTime - s.masterBaseNormalizedPlaybackTime) - now

/-- A step that keeps the timeline. -/
def Keeps (s : Base) : Event → Prop
  | .synchronizeEnter id playbackTime now =>
    s.masterTimeMappingEstablished = true →
      (s.context id).basedOnMasterMappingVersion ≠ s.masterTimeMappingVersion →
      s.RebaseKeeps playbackTime none ∧
        (mappingIsReasonable (s.aheadOf playbackTime now) = true → s.accumulatedPlaybackTimeJumps = 0)
  | .synchronizePass id pass =>
    (s.masterTimeMappingEstablished = true →
        s.JoinKeeps (s.context id).synchronizingAtPlaybackTime) ∧
      (s.masterTimeMappingEstablished = false →
        s.streamsInSynchronize = s.streamCount ∨ pass.waitedOut = true →
        ∀ other ∈ s.coordinatedContexts, (s.context other).timeMappingEstablished = true →
          (s.context other).basedOnMasterMappingVersion ≠ s.masterTimeMappingVersion + 1)
  | .translate id playbackTime =>
    s.masterTimeMappingEstablished = true → s.RebaseKeeps playbackTime id
  | .adjust caller adjustment =>
    s.mayAdjust caller = true →
      s.masterTimeMappingEstablished = true ∨ adjustment = 0 ∨ ¬ s.Followed
  | _ => True

theorem translate_master (hmaster : s.masterTimeMappingEstablished = true)
    (playbackTime : BitVec 64) : let r := s.translatePlaybackTimeToSystem none playbackTime
    r.2 = some (s.masterBaseSystemTime +
        adjustedElapsed (playbackTime - s.masterBaseNormalizedPlaybackTime)) ∧
      r.1.accumulatedPlaybackTimeJumps = s.accumulatedPlaybackTimeJumps ∧
      ¬ adjustedElapsed (playbackTime - r.1.masterBaseNormalizedPlaybackTime) >
        rebaseTimeTriggerValue := by
  unfold translatePlaybackTimeToSystem
  rw [hmaster, if_neg (by simp)]
  dsimp only
  split
  · refine ⟨rfl, rfl, ?_⟩
    rw [BitVec.sub_self]
    exact not_rebased_zero
  · next hnear => exact ⟨rfl, rfl, hnear⟩

instance (s : Base) : ∀ event, Decidable (s.Keeps event)
  | .synchronizeEnter _ _ _ => inferInstanceAs (Decidable (_ → _ → _ ∧ (_ → _)))
  | .synchronizePass _ _ => inferInstanceAs (Decidable ((_ → _) ∧ (_ → _ → _)))
  | .translate _ _ => inferInstanceAs (Decidable (_ → _))
  | .adjust _ _ => inferInstanceAs (Decidable (_ → _ ∨ _))
  | .register _ _ | .deRegister _ | .synchronizeStart _ _ | .handleDeltas _ _ | .reset _ =>
    inferInstanceAs (Decidable True)

section Step

variable {s : Base} (h : s.OnTimeline)

include h

theorem onTimeline_synchronizePass {pass : Pass} (hkeeps : s.Keeps (.synchronizePass id pass)) :
    (s.synchronizePass id pass).OnTimeline := by
  obtain ⟨hjoins, hestablishes⟩ := hkeeps
  unfold synchronizePass
  split
  · next hmaster => exact onTimeline_synchronizeJoin h (hjoins hmaster)
  · next hmaster =>
    split
    · next hready =>
      have hnew := hestablishes (by simpa using hmaster) (by simpa using hready)
      apply onTimeline_synchronizeJoin
      · intro i hi
        exact absurd hi.2.2 (hnew i hi.1 hi.2.1)
      · exact .inl rfl
    · exact h

theorem onTimeline_switchMapping {ahead : BitVec 64} (hjumps : s.accumulatedPlaybackTimeJumps = 0)
    (hnear : ¬ adjustedElapsed (playbackTime - s.masterBaseNormalizedPlaybackTime) >
      rebaseTimeTriggerValue) :
    (s.switchMapping id playbackTime ahead).OnTimeline := by
  unfold switchMapping
  dsimp only
  generalize hc : Context.mk _ _ _ _ _ _ _ _ _ _ _ _ = c
  have hwritten : (s.write id c).OnTimeline := by
    refine h.of_write rfl rfl rfl rfl fun _ => .inl ?_
    rw [← hc]
    simp only [Context.origin, Context.line, origin, line, Base.write, hjumps]
  have hrebase : (s.write id c).RebaseKeeps playbackTime (some id) := by
    intro _ hrebase
    simp only [Base.write, Function.update_self, ← hc] at hrebase
    exact absurd hrebase hnear
  obtain ⟨hlowered, hkeeps⟩ := lowerMinimum_keeps hwritten id
  have htranslated := onTimeline_translate hlowered (hkeeps hrebase)
  exact htranslated.of_write rfl rfl rfl rfl fun _ => .inr ⟨rfl, rfl, rfl⟩

theorem onTimeline_switchOrDrop {now : BitVec 64}
    (hkeeps : s.Keeps (.synchronizeEnter id playbackTime now)) :
    (s.switchOrDrop id playbackTime now).OnTimeline := by
  have hdrop : ∀ {t : Base}, t.OnTimeline → t.dropMapping.OnTimeline := fun ht => ht
  unfold Keeps at hkeeps
  dsimp only at hkeeps
  unfold switchOrDrop
  dsimp only
  split
  · next hexists =>
    rw [Bool.and_eq_true, bne_iff_ne] at hexists
    obtain ⟨hmaster, hother⟩ := hexists
    obtain ⟨hrebase, hreasonable⟩ := hkeeps hmaster hother
    have htranslated := onTimeline_translate h hrebase
    split
    · next hahead =>
      obtain ⟨htime, hjumps, hnear⟩ := translate_master hmaster playbackTime
      rw [htime] at hahead
      exact onTimeline_switchMapping htranslated (hjumps.trans (hreasonable hahead)) hnear
    · exact hdrop htranslated
  · exact hdrop h

theorem onTimeline_synchronizeEnter {now : BitVec 64}
    (hkeeps : s.Keeps (.synchronizeEnter id playbackTime now)) :
    (s.synchronizeEnter id playbackTime now).OnTimeline := by
  have hwaits : (s.write id { s.context id with inStartupDelay := true }).OnTimeline :=
    h.of_write rfl rfl rfl rfl fun _ => .inr ⟨rfl, rfl, rfl⟩
  unfold synchronizeEnter
  apply onTimeline_switchOrDrop hwaits
  -- the startup delay is no part of what the step is asked for
  intro hmaster hother
  have hother' : (s.context id).basedOnMasterMappingVersion ≠ s.masterTimeMappingVersion := by
    simpa only [Base.write, Function.update_self] using hother
  obtain ⟨hrebase, hreasonable⟩ := hkeeps hmaster hother'
  refine ⟨fun hfar hfollowed => hrebase hfar ?_, hreasonable⟩
  obtain ⟨i, hmem, hi⟩ := hfollowed
  exact ⟨i, hmem, current_of_write hi rfl rfl rfl rfl rfl⟩

theorem onTimeline_step (event : Event) (hkeeps : s.enabled event = true → s.Keeps event) :
    (s.step event).OnTimeline := by
  unfold step
  split
  · next henabled =>
    have hkeeps := hkeeps henabled
    cases event with
    | register id video => exact onTimeline_registerStream h id video
    | deRegister id => exact onTimeline_deRegisterStream h id
    | synchronizeEnter id playbackTime now => exact onTimeline_synchronizeEnter h hkeeps
    | synchronizeStart id playbackTime =>
      exact h.of_write rfl rfl rfl rfl fun _ => .inr ⟨rfl, rfl, rfl⟩
    | synchronizePass id pass => exact onTimeline_synchronizePass h hkeeps
    | handleDeltas id delta => exact onTimeline_handlePlaybackTimeDeltas h id delta
    | translate id playbackTime =>
      by_cases hmaster : s.masterTimeMappingEstablished = true
      · exact onTimeline_translate h (hkeeps hmaster)
      · have hsame : (s.translatePlaybackTimeToSystem id playbackTime).1 = s := by
          unfold translatePlaybackTimeToSystem
          rw [if_pos (by simpa using hmaster)]
        show (s.translatePlaybackTimeToSystem id playbackTime).1.OnTimeline
        rw [hsame]
        exact h
    | adjust caller adjustment => exact onTimeline_adjustMappingBase h hkeeps
    | reset id => exact onTimeline_resetTimeMapping h id
  · exact h

end Step

/-! ## Runs -/

/-- The streams of a coordinator share their timelines with the master. -/
structure Shared (s : Base) : Prop where
  line : ∀ id, s.Current id →
    (s.context id).baseNormalizedPlaybackTime - (s.context id).baseSystemTime =
      (s.masterBaseNormalizedPlaybackTime - s.masterBaseSystemTime) +
        s.accumulatedPlaybackTimeJumps - (s.context id).accumulatedPlaybackTimeJumps
  /-- Streams that followed the same jumps have one timeline. -/
  caughtUp : ∀ id other, s.Current id → s.Current other →
    (s.context id).accumulatedPlaybackTimeJumps = (s.context other).accumulatedPlaybackTimeJumps →
    (s.context id).baseNormalizedPlaybackTime - (s.context id).baseSystemTime =
      (s.context other).baseNormalizedPlaybackTime - (s.context other).baseSystemTime

theorem OnTimeline.shared (h : s.OnTimeline) : s.Shared := by
  have hline : ∀ id, s.Current id →
      (s.context id).line = s.origin - (s.context id).accumulatedPlaybackTimeJumps := by
    intro id hid
    rw [← h id hid]
    unfold Context.origin
    ring
  refine ⟨hline, fun id other hid hother hsame => ?_⟩
  have hone := hline id hid
  rw [hsame, ← hline other hother] at hone
  exact hone

/-- The events of a run that a coordinator keeps its timelines over. -/
def KeepsAlong (events : List Event) : Prop :=
  Along step (fun s event => s.enabled event = true → s.Keeps event) reset events

instance (events : List Event) : Decidable (KeepsAlong events) := Along.decidable _ _

/-- **The bookkeeping of jumps**: in every run of steps that keep the timeline, the
streams on the current mapping are on the master's line, less the jumps they have
yet to follow. -/
theorem timelines_shared (events : List Event) (h : KeepsAlong events) :
    (events.foldl step reset).Shared := by
  have hnone : reset.OnTimeline := fun id hid => absurd hid.1 List.not_mem_nil
  exact (foldl_inv (P := OnTimeline) (fun hok hs => onTimeline_step hs _ hok) events h hnone).shared

/-- A video stream and an audio stream synchronize. -/
def synchronized : List Event :=
  [.register 0 true, .register 1 false, .synchronizeEnter 0 1000000000 0,
    .synchronizeStart 0 1000000000, .synchronizeEnter 1 1000000000 0, .synchronizeStart 1 1000000000,
    .synchronizePass 0 ⟨false, 5000000, 40000, false⟩, .synchronizePass 1 ⟨false, 5000000, 40000, false⟩]

/-- A stream jumps by a second. -/
def jump (id : Nat) : Event := .handleDeltas id ⟨true, 1000000, 2000000, 0, false⟩

theorem timelines_shared_jump :
    ((synchronized ++ [jump 0, .adjust none 20, jump 1, .translate (some 1) 1400000000]).foldl
      step reset).Shared :=
  timelines_shared _ (by decide +kernel)

/-- Where they part: a stream switches to the mapping after a jump; one joins a mapping
after a jump from too far off; a stream that has not followed a jump takes the master
along; more has elapsed than an `int` holds; and the streams are adjusted when there is
no master mapping. -/
theorem timelines_part :
    ¬ ((synchronized ++ [jump 0, .register 2 false, .synchronizeEnter 2 1001000000 5000000]).foldl
        step reset).Shared ∧
      ¬ (([.register 2 false, .synchronizeEnter 2 1200000000 0, .synchronizeStart 2 1200000000,
          .register 0 true, .synchronizeEnter 0 1000000000 0, .synchronizeStart 0 1000000000,
          .synchronizePass 0 ⟨true, 5000000, 40000, false⟩, jump 0,
          .synchronizePass 2 ⟨false, 5000000, 40000, false⟩] : List Event).foldl step reset).Shared ∧
      ¬ ((synchronized ++ [jump 0, Event.translate (some 1) 1400000000]).foldl step reset).Shared ∧
      ¬ ((synchronized ++ [Event.translate none 4000000000]).foldl step reset).Shared ∧
      ¬ ((synchronized ++ [Event.synchronizeEnter 0 1000000000 0, Event.adjust none 20]).foldl
        step reset).Shared := by
  refine ⟨fun h => ?_, fun h => ?_, fun h => ?_, fun h => ?_, fun h => ?_⟩
  · exact absurd (h.line 2 (by decide +kernel)) (by decide +kernel)
  · exact absurd (h.line 2 (by decide +kernel)) (by decide +kernel)
  · exact absurd (h.line 0 (by decide +kernel)) (by decide +kernel)
  · exact absurd (h.line 0 (by decide +kernel)) (by decide +kernel)
  · exact absurd (h.line 1 (by decide +kernel)) (by decide +kernel)

end Base

end Duckbox.OutputCoordinator
