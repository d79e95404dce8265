import Duckbox.OutputCoordinator.Timeline

/-!
# The base of a mapping

When the streams synchronize, `RestartTime` finds the latest time any manifestor could
take a frame at, rounded up to a frame point of the video, and if the first stream is not
the earliest video stream the start is put off by what brings that stream's first frame
to a frame point again.

> `establish_base`: the mapping's base is no earlier than any manifestor's time, less
> than two frame durations after the latest, and at the phase of the video.

Not modelled: `ManifestorLatency`, which `RestartTime` notes beside.
-/

namespace Duckbox.OutputCoordinator

open ClassDefinitions Lib

/-! ## `RestartTime` -/

/-- What `RestartTime` is told by a stream's manifestor. -/
structure Surface where
  frameRate : Rational
  progressive : Bool
  nextQueuedManifestationTime : BitVec 64

/-- The duration of a frame. -/
def Surface.frameDuration (m : Surface) : BitVec 64 :=
  let duration := (Rational.intDiv 1000000 m.frameRate).roundedLongLongIntegerPart
  if m.progressive then duration else 2 * duration

/-- What the loop of `RestartTime` keeps. -/
structure Restart where
  videoFrameDuration : BitVec 64
  latestVideoManifestTime : BitVec 64
  latestManifestTime : BitVec 64

/-- `max` of two times. -/
def latest (a b : BitVec 64) : BitVec 64 := if a > b then a else b

namespace Restart

/-- One stream. -/
def pass (r : Restart) (video : Bool) (m : Surface) : Restart where
  videoFrameDuration :=
    if video && r.videoFrameDuration == 1 then m.frameDuration else r.videoFrameDuration
  latestVideoManifestTime :=
    if video then latest m.nextQueuedManifestationTime r.latestVideoManifestTime
    else r.latestVideoManifestTime
  latestManifestTime := latest m.nextQueuedManifestationTime r.latestManifestTime

/-- "Round up the latest time to the nearest video frame point". -/
def time (r : Restart) : BitVec 64 :=
  if r.latestManifestTime ≠ r.latestVideoManifestTime then
    r.latestVideoManifestTime +
      ((r.latestManifestTime - r.latestVideoManifestTime + r.videoFrameDuration - 1) /
        r.videoFrameDuration) * r.videoFrameDuration
  else r.latestManifestTime

end Restart

namespace Base

/-- The loop of `RestartTime`. -/
def restart (s : Base) (surface : Nat → Surface) (now : BitVec 64) : Restart :=
  s.coordinatedContexts.foldl (fun r id => r.pass (s.context id).video (surface id)) ⟨1, now, now⟩

/-! ## The streams that wait -/

/-- A stream is in the loop. -/
def Synchronizing (s : Base) (id : Nat) : Prop :=
  id ∈ s.coordinatedContexts ∧ (s.context id).inSynchronizeFn = true

instance (s : Base) (id : Nat) : Decidable (s.Synchronizing id) :=
  inferInstanceAs (Decidable (_ ∧ _))

/-- The playback time that a stream waits with. -/
abbrev waitingAt (s : Base) (id : Nat) : BitVec 64 := (s.context id).synchronizingAtPlaybackTime

/-- The earliest video stream that waits. -/
def earliestVideo (s : Base) : Option Nat :=
  s.earliest (s.coordinatedContexts.filter fun id => (s.context id).video)

/-- A pass of a stream establishes the mapping, with what `RestartTime` finds. -/
structure Establishes (s : Base) (surface : Nat → Surface) (now : BitVec 64) (id : Nat)
    (pass : Pass) : Prop where
  synchronizing : s.Synchronizing id
  none : s.masterTimeMappingEstablished = false
  may : (s.streamsInSynchronize == s.streamCount || pass.waitedOut) = true
  restartTime : pass.restartTime = (s.restart surface now).time
  videoFrameDuration : pass.videoFrameDuration = (s.restart surface now).videoFrameDuration

end Base

/-! ## The latest times -/

theorem toNat_latest (a b : BitVec 64) : (latest a b).toNat = max a.toNat b.toNat := by
  unfold latest
  split
  next h =>
    have : b.toNat < a.toNat := h
    omega
  next h =>
    have : ¬ b.toNat < a.toNat := h
    omega

theorem pass_foldl (video : Nat → Bool) (surface : Nat → Surface) (ids : List Nat) :
    ∀ {r r' : Restart}, ids.foldl (fun r id => r.pass (video id) (surface id)) r = r' →
      r.latestVideoManifestTime.toNat ≤ r.latestManifestTime.toNat →
      r'.latestVideoManifestTime.toNat ≤ r'.latestManifestTime.toNat ∧
        r.latestManifestTime.toNat ≤ r'.latestManifestTime.toNat ∧
        ∀ id ∈ ids, (surface id).nextQueuedManifestationTime.toNat ≤
          r'.latestManifestTime.toNat := by
  induction ids with
  | nil =>
    rintro r r' rfl hr
    exact ⟨hr, Nat.le_refl _, fun id hid => absurd hid List.not_mem_nil⟩
  | cons first ids ih =>
    intro r r' h hr
    have hlatest := toNat_latest (surface first).nextQueuedManifestationTime r.latestManifestTime
    have hnext : (r.pass (video first) (surface first)).latestVideoManifestTime.toNat ≤
        (r.pass (video first) (surface first)).latestManifestTime.toNat := by
      unfold Restart.pass
      dsimp only
      rw [hlatest]
      split
      next =>
        rw [toNat_latest]
        omega
      next => omega
    obtain ⟨hordered, hgrown, hall⟩ := ih (r := r.pass (video first) (surface first)) h hnext
    have hstep : (r.pass (video first) (surface first)).latestManifestTime.toNat =
      max (surface first).nextQueuedManifestationTime.toNat r.latestManifestTime.toNat := hlatest
    refine ⟨hordered, by omega, fun id hid => ?_⟩
    rcases List.mem_cons.mp hid with rfl | hid
    · omega
    · exact hall id hid

theorem restart_latest (s : Base) (surface : Nat → Surface) (now : BitVec 64) :
    (s.restart surface now).latestVideoManifestTime.toNat ≤
        (s.restart surface now).latestManifestTime.toNat ∧
      ∀ id ∈ s.coordinatedContexts, (surface id).nextQueuedManifestationTime.toNat ≤
        (s.restart surface now).latestManifestTime.toNat := by
  obtain ⟨hordered, -, hall⟩ := pass_foldl (fun id => (s.context id).video) surface
    s.coordinatedContexts (r := ⟨1, now, now⟩) rfl (Nat.le_refl _)
  exact ⟨hordered, hall⟩

theorem Restart.time_spec {r : Restart} (hduration : 1 ≤ r.videoFrameDuration.toNat)
    (hordered : r.latestVideoManifestTime.toNat ≤ r.latestManifestTime.toNat)
    (hfits : r.latestManifestTime.toNat + r.videoFrameDuration.toNat ≤ 2 ^ 64) :
    r.latestManifestTime.toNat ≤ r.time.toNat ∧
      r.time.toNat < r.latestManifestTime.toNat + r.videoFrameDuration.toNat ∧
      ∃ k, r.time.toNat = r.latestVideoManifestTime.toNat + k * r.videoFrameDuration.toNat := by
  unfold Restart.time
  split
  next hne =>
    have hvideo := r.latestVideoManifestTime.isLt
    have hsum : (r.latestManifestTime - r.latestVideoManifestTime + r.videoFrameDuration -
        1).toNat = r.latestManifestTime.toNat - r.latestVideoManifestTime.toNat +
          r.videoFrameDuration.toNat - 1 := by
      bv_omega
    generalize hx : r.latestManifestTime - r.latestVideoManifestTime + r.videoFrameDuration - 1 = x
      at hsum
    generalize hd : r.videoFrameDuration.toNat = d at *
    have hdiv := Nat.div_add_mod x.toNat d
    have hmod : x.toNat % d < d := Nat.mod_lt _ hduration
    have hproduct : (x / r.videoFrameDuration * r.videoFrameDuration).toNat = x.toNat / d * d := by
      rw [BitVec.toNat_mul, BitVec.toNat_udiv, hd]
      refine Nat.mod_eq_of_lt ?_
      have := x.isLt
      have := Nat.div_mul_le_self x.toNat d
      omega
    rw [Nat.mul_comm] at hdiv
    have htotal : (r.latestVideoManifestTime +
        x / r.videoFrameDuration * r.videoFrameDuration).toNat =
        r.latestVideoManifestTime.toNat + x.toNat / d * d := by
      rw [BitVec.toNat_add, hproduct]
      refine Nat.mod_eq_of_lt ?_
      omega
    exact ⟨by omega, by omega, x.toNat / d, htotal⟩
  next heq =>
    have heq : r.latestManifestTime = r.latestVideoManifestTime := by simpa using heq
    refine ⟨Nat.le_refl _, by omega, 0, ?_⟩
    rw [heq]
    omega

namespace Base

variable {s t : Base} {surface : Nat → Surface} {now : BitVec 64} {id : Nat} {pass : Pass}

/-! ## The earliest streams -/

/-- One stream of the scan for the earliest. -/
def earlier (s : Base) (found : Option Nat) (id : Nat) : Option Nat :=
  if (s.context id).inSynchronizeFn then
    match found with
    | none => some id
    | some e => if s.waitingAt e > s.waitingAt id then some id else some e
  else found

theorem earliest_eq (s : Base) (ids : List Nat) : s.earliest ids = ids.foldl s.earlier none := rfl

theorem earlier_spec (found : Option Nat) (id : Nat) :
    (∀ e, s.earlier found id = some e →
      found = some e ∨ e = id ∧ (s.context id).inSynchronizeFn = true) ∧
    ∀ j, found = some j ∨ j = id ∧ (s.context id).inSynchronizeFn = true →
      ∃ e, s.earlier found id = some e ∧ (s.waitingAt e).toNat ≤ (s.waitingAt j).toNat := by
  unfold earlier
  split
  next hsync =>
    cases found with
    | none =>
      refine ⟨fun e he => Or.inr ⟨(Option.some.inj he).symm, hsync⟩, ?_⟩
      rintro j (hj | ⟨rfl, -⟩)
      · cases hj
      · exact ⟨_, rfl, Nat.le_refl _⟩
    | some e₀ =>
      dsimp only
      split
      next hgt =>
        have hgt : (s.waitingAt id).toNat < (s.waitingAt e₀).toNat := hgt
        refine ⟨fun e he => Or.inr ⟨(Option.some.inj he).symm, hsync⟩, ?_⟩
        rintro j (hj | ⟨rfl, -⟩)
        · obtain rfl := Option.some.inj hj
          exact ⟨_, rfl, Nat.le_of_lt hgt⟩
        · exact ⟨_, rfl, Nat.le_refl _⟩
      next hle =>
        have hle : ¬ (s.waitingAt id).toNat < (s.waitingAt e₀).toNat := hle
        refine ⟨fun e he => Or.inl he, ?_⟩
        rintro j (hj | ⟨rfl, -⟩)
        · obtain rfl := Option.some.inj hj
          exact ⟨_, rfl, Nat.le_refl _⟩
        · exact ⟨_, rfl, Nat.le_of_not_lt hle⟩
  next hnot =>
    refine ⟨fun e he => Or.inl he, ?_⟩
    rintro j (hj | ⟨-, hsync⟩)
    · exact ⟨j, hj, Nat.le_refl _⟩
    · exact absurd hsync hnot

theorem earliest_foldl (ids : List Nat) : ∀ (found : Option Nat),
    (∀ e, ids.foldl s.earlier found = some e →
      found = some e ∨ e ∈ ids ∧ (s.context e).inSynchronizeFn = true) ∧
    ∀ j, found = some j ∨ j ∈ ids ∧ (s.context j).inSynchronizeFn = true →
      ∃ e, ids.foldl s.earlier found = some e ∧
        (s.waitingAt e).toNat ≤ (s.waitingAt j).toNat := by
  induction ids with
  | nil =>
    refine fun found => ⟨fun e he => Or.inl he, ?_⟩
    rintro j (hj | ⟨hj, -⟩)
    · exact ⟨j, hj, Nat.le_refl _⟩
    · cases hj
  | cons id ids ih =>
    intro found
    obtain ⟨hfrom, hbelow⟩ := earlier_spec (s := s) found id
    obtain ⟨hfrom', hbelow'⟩ := ih (s.earlier found id)
    constructor
    · intro e he
      rcases hfrom' e he with hfound | ⟨hmem, hsync⟩
      · rcases hfrom e hfound with hfound | ⟨rfl, hsync⟩
        · exact Or.inl hfound
        · exact Or.inr ⟨List.mem_cons_self, hsync⟩
      · exact Or.inr ⟨List.mem_cons_of_mem _ hmem, hsync⟩
    · intro j hj
      have hhere : (found = some j ∨ j = id ∧ (s.context id).inSynchronizeFn = true) ∨
          j ∈ ids ∧ (s.context j).inSynchronizeFn = true := by
        rcases hj with hj | ⟨hmem, hsync⟩
        · exact Or.inl (Or.inl hj)
        · rcases List.mem_cons.mp hmem with rfl | hmem
          · exact Or.inl (Or.inr ⟨rfl, hsync⟩)
          · exact Or.inr ⟨hmem, hsync⟩
      rcases hhere with hnow | hlater
      · obtain ⟨e, he, hle⟩ := hbelow j hnow
        obtain ⟨e', he', hle'⟩ := hbelow' e (Or.inl he)
        exact ⟨e', he', Nat.le_trans hle' hle⟩
      · exact hbelow' j (Or.inr hlater)

theorem earliest_spec {ids : List Nat} {e : Nat} (h : s.earliest ids = some e) :
    e ∈ ids ∧ (s.context e).inSynchronizeFn = true ∧
      ∀ j ∈ ids, (s.context j).inSynchronizeFn = true →
        (s.waitingAt e).toNat ≤ (s.waitingAt j).toNat := by
  rw [earliest_eq] at h
  obtain ⟨hfrom, hbelow⟩ := earliest_foldl (s := s) ids none
  have hmem := (hfrom e h).resolve_left fun hnone => by cases hnone
  refine ⟨hmem.1, hmem.2, fun j hj hsync => ?_⟩
  obtain ⟨e', he', hle⟩ := hbelow j (Or.inr ⟨hj, hsync⟩)
  obtain rfl := Option.some.inj (h.symm.trans he')
  exact hle

theorem earliest_isSome {ids : List Nat} (hid : id ∈ ids)
    (hsync : (s.context id).inSynchronizeFn = true) : ∃ e, s.earliest ids = some e := by
  rw [earliest_eq]
  obtain ⟨e, he, -⟩ := (earliest_foldl (s := s) ids none).2 id (Or.inr ⟨hid, hsync⟩)
  exact ⟨e, he⟩

/-! ## The base of the mapping -/

theorem synchronizing_of_earliestVideo {v : Nat} (h : s.earliestVideo = some v) :
    s.Synchronizing v := by
  obtain ⟨hmem, hsync, -⟩ := earliest_spec h
  exact ⟨(List.mem_filter.mp hmem).1, hsync⟩

/-- How far the start is put off. -/
def jitter (duration ahead : BitVec 64) : BitVec 64 :=
  duration - (ahead - duration * (ahead / duration))

theorem toNat_jitter {duration : BitVec 64} (hduration : 1 ≤ duration.toNat) (ahead : BitVec 64) :
    (jitter duration ahead).toNat = duration.toNat - ahead.toNat % duration.toNat := by
  have hmod := Nat.mod_lt ahead.toNat hduration
  have hdiv := Nat.div_add_mod ahead.toNat duration.toNat
  have hahead := ahead.isLt
  have hproduct : (duration * (ahead / duration)).toNat =
      duration.toNat * (ahead.toNat / duration.toNat) := by
    rw [BitVec.toNat_mul, BitVec.toNat_udiv]
    exact Nat.mod_eq_of_lt (by omega)
  unfold jitter
  generalize hp : duration * (ahead / duration) = p at *
  bv_omega

/-- How far the start is put off where the mapping is based on `first`. -/
def putOff (s : Base) (duration : BitVec 64) (first : Nat) : Option Nat → BitVec 64
  | none => 0
  | some v => if v = first then 0 else jitter duration (s.waitingAt v - s.waitingAt first)

theorem putOff_of_ne {v first : Nat} (h : v ≠ first) (duration : BitVec 64) :
    s.putOff duration first (some v) = jitter duration (s.waitingAt v - s.waitingAt first) :=
  if_neg h

theorem putOff_self (v : Nat) (duration : BitVec 64) : s.putOff duration v (some v) = 0 := if_pos rfl

theorem toNat_putOff_le {duration : BitVec 64} (hduration : 1 ≤ duration.toNat) (first : Nat) :
    ∀ video, (s.putOff duration first video).toNat ≤ duration.toNat
  | none => Nat.zero_le _
  | some v => by
    by_cases hsame : v = first
    · rw [hsame, putOff_self]
      exact Nat.zero_le _
    · rw [putOff_of_ne hsame, toNat_jitter hduration]
      exact Nat.sub_le _ _

/-- `EarliestContext`, of which a pass of the loop bases the mapping. -/
def earliestContext (s : Base) (id : Nat) (immediate : Bool) : Nat :=
  let any := (s.earliest s.coordinatedContexts).getD id
  if immediate then s.earliestVideo.getD any else any

theorem establish_first (s : Base) (id : Nat) (pass : Pass) :
    (s.establish id pass).masterBaseNormalizedPlaybackTime =
        s.waitingAt (s.earliestContext id pass.videoStartImmediate) ∧
      (s.establish id pass).masterBaseSystemTime = pass.restartTime +
        s.putOff pass.videoFrameDuration (s.earliestContext id pass.videoStartImmediate)
          s.earliestVideo := ⟨rfl, rfl⟩

theorem earliestContext_spec (hid : s.Synchronizing id) (immediate : Bool) :
    s.Synchronizing (s.earliestContext id immediate) ∧
      ∀ v, s.earliestVideo = some v →
        (s.waitingAt (s.earliestContext id immediate)).toNat ≤ (s.waitingAt v).toNat := by
  obtain ⟨e, he⟩ := earliest_isSome hid.1 hid.2
  obtain ⟨hmem, hsync, hleast⟩ := earliest_spec he
  have hany : s.Synchronizing e ∧
      ∀ v, s.earliestVideo = some v → (s.waitingAt e).toNat ≤ (s.waitingAt v).toNat :=
    ⟨⟨hmem, hsync⟩, fun v hv => hleast v (synchronizing_of_earliestVideo hv).1
      (synchronizing_of_earliestVideo hv).2⟩
  unfold earliestContext
  rw [he]
  dsimp only [Option.getD_some]
  split
  next =>
    cases hvideo : s.earliestVideo with
    | none =>
      rw [hvideo] at hany
      exact hany
    | some v =>
      refine ⟨synchronizing_of_earliestVideo hvideo, fun v' hv' => ?_⟩
      obtain rfl := Option.some.inj hv'
      exact Nat.le_refl _
  next => exact hany

theorem establish_base (h : s.Establishes surface now id pass)
    (hduration : 1 ≤ (s.restart surface now).videoFrameDuration.toNat)
    (hfits : (s.restart surface now).latestManifestTime.toNat +
      2 * (s.restart surface now).videoFrameDuration.toNat ≤ 2 ^ 64) :
    (s.restart surface now).latestManifestTime.toNat ≤
        (s.establish id pass).masterBaseSystemTime.toNat ∧
      (s.establish id pass).masterBaseSystemTime.toNat <
        (s.restart surface now).latestManifestTime.toNat +
          2 * (s.restart surface now).videoFrameDuration.toNat ∧
      ∀ v, s.earliestVideo = some v →
        (s.establish id pass).masterBaseNormalizedPlaybackTime.toNat ≤ (s.waitingAt v).toNat ∧
        ∃ k, (s.establish id pass).masterBaseSystemTime.toNat + ((s.waitingAt v).toNat -
            (s.establish id pass).masterBaseNormalizedPlaybackTime.toNat) =
          (s.restart surface now).latestVideoManifestTime.toNat +
            k * (s.restart surface now).videoFrameDuration.toNat := by
  obtain ⟨hplayback, hsystem⟩ := establish_first s id pass
  obtain ⟨-, hfront⟩ := earliestContext_spec h.synchronizing pass.videoStartImmediate
  rw [h.restartTime, h.videoFrameDuration] at hsystem
  rw [hplayback, hsystem]
  generalize s.earliestContext id pass.videoStartImmediate = first at *
  generalize hr : s.restart surface now = r at *
  have hordered : r.latestVideoManifestTime.toNat ≤ r.latestManifestTime.toNat := by
    rw [← hr]
    exact (restart_latest s surface now).1
  obtain ⟨hlate, hearly, k, hk⟩ := r.time_spec hduration hordered (by omega)
  have hoff := toNat_putOff_le (s := s) hduration first s.earliestVideo
  have hsum : (r.time + s.putOff r.videoFrameDuration first s.earliestVideo).toNat =
      r.time.toNat + (s.putOff r.videoFrameDuration first s.earliestVideo).toNat := by
    rw [BitVec.toNat_add]
    exact Nat.mod_eq_of_lt (by omega)
  rw [hsum]
  refine ⟨by omega, by omega, fun v hv => ⟨hfront v hv, ?_⟩⟩
  have hbehind := hfront v hv
  rw [hv]
  by_cases hsame : v = first
  · subst hsame
    refine ⟨k, ?_⟩
    rw [putOff_self, Nat.sub_self, ← hk]
    rfl
  · have hahead : (s.waitingAt v - s.waitingAt first).toNat =
        (s.waitingAt v).toNat - (s.waitingAt first).toNat := BitVec.toNat_sub_of_le hbehind
    rw [putOff_of_ne hsame, toNat_jitter hduration, hahead, hk]
    generalize (s.waitingAt v).toNat - (s.waitingAt first).toNat = ahead
    generalize r.videoFrameDuration.toNat = d at *
    have hmod := Nat.mod_lt ahead hduration
    have hdiv : ahead / d * d + ahead % d = ahead := by
      rw [Nat.mul_comm]
      exact Nat.div_add_mod ahead d
    refine ⟨k + 1 + ahead / d, ?_⟩
    rw [Nat.add_mul, Nat.add_mul, Nat.one_mul]
    omega

end Base

end Duckbox.OutputCoordinator
