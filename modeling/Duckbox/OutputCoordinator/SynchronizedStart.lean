import Duckbox.OutputCoordinator.RestartTime

/-!
# Where the streams start

The streams that synchronize pass the loop in any order, and those before change the
master mapping. A stream in front of its base takes the base along, and one that is more
than `MAX_SYNCHRONIZATION_WINDOW` off is given up ("Impossible to synchronize") and starts
at the base.

> `synchronized_start`: the mapping's base is no earlier than any manifestor's time and
> less than two frame durations after the latest, no stream that is not in front of the
> base starts before any manifestor's time, and the first frame of the earliest video
> stream is a whole number of frame durations after the latest video time.

The video stream is to be within the window of the base, no stream farther than it from
one in front of the base, and times are to stay clear of the end of their 64 bits; without
that, `synchronized_start_apart`.
-/

namespace Duckbox.OutputCoordinator

open ClassDefinitions Lib

namespace Base

variable {s t : Base} {surface : Nat → Surface} {now : BitVec 64} {id : Nat} {pass : Pass}

/-! ## What `SynchronizeStreams` returns -/

/-- The system time a stream leaves the loop with. -/
def joinTime (s : Base) (id : Nat) : Option (BitVec 64) :=
  let playbackTime := (s.context id).synchronizingAtPlaybackTime
  (((s.takeMapping id playbackTime).lowerMinimum id).translatePlaybackTimeToSystem (some id)
    playbackTime).2

/-- The system time that a pass of the loop leaves with. -/
def passTime (s : Base) (id : Nat) (pass : Pass) : Option (BitVec 64) :=
  if s.masterTimeMappingEstablished then s.joinTime id
  else if s.streamsInSynchronize == s.streamCount || pass.waitedOut then
    (s.establish id pass).joinTime id
  else none

/-- Streams pass the loop. -/
def afterPasses (s : Base) (passes : List (Nat × Pass)) : Base :=
  passes.foldl (fun s p => s.step (.synchronizePass p.1 p.2)) s

/-! ## A stream joins -/

/-- What no join changes. -/
structure SameBeside (s t : Base) (id : Nat) : Prop where
  established : t.masterTimeMappingEstablished = s.masterTimeMappingEstablished
  streams : t.coordinatedContexts = s.coordinatedContexts
  others : ∀ i, i ≠ id → t.context i = s.context i

theorem SameBeside.trans {u : Base} (h : SameBeside s t id) (h' : SameBeside t u id) :
    SameBeside s u id :=
  ⟨h'.established.trans h.established, h'.streams.trans h.streams,
    fun i hi => (h'.others i hi).trans (h.others i hi)⟩

theorem sameBeside_write (c : Context) : SameBeside s (s.write id c) id :=
  ⟨rfl, rfl, fun _ hi => Function.update_of_ne hi _ _⟩

theorem lowerMinimum_eq (s : Base) (id : Nat) :
    ∃ m, s.lowerMinimum id = { s with minimumStreamOffset := m } := by
  unfold lowerMinimum
  split
  next => exact ⟨_, rfl⟩
  next => exact ⟨s.minimumStreamOffset, rfl⟩

theorem translate_stream (hmaster : s.masterTimeMappingEstablished = true)
    (hstream : (s.context id).timeMappingEstablished = true) (playbackTime : BitVec 64) :
    ∃ t elapsed, elapsed = adjustedElapsed (playbackTime - (s.context id).baseNormalizedPlaybackTime) ∧
      s.translatePlaybackTimeToSystem (some id) playbackTime =
        (t, some ((s.context id).baseSystemTime + elapsed)) ∧
      SameBeside s t id ∧ t.accumulatedPlaybackTimeJumps = s.accumulatedPlaybackTimeJumps ∧
      (elapsed > rebaseTimeTriggerValue → s.masterBaseSystemTime = (s.context id).baseSystemTime →
        t.masterBaseNormalizedPlaybackTime = playbackTime ∧
          t.masterBaseSystemTime = (s.context id).baseSystemTime + elapsed) ∧
      (¬ elapsed > rebaseTimeTriggerValue →
        t.masterBaseNormalizedPlaybackTime = s.masterBaseNormalizedPlaybackTime ∧
          t.masterBaseSystemTime = s.masterBaseSystemTime) := by
  unfold translatePlaybackTimeToSystem
  rw [if_neg (by rw [hmaster]; exact Bool.false_ne_true)]
  dsimp only
  rw [if_neg (by rw [hstream]; exact Bool.false_ne_true)]
  refine ⟨_, _, rfl, rfl, ?_, ?_, ?_, ?_⟩
  · split
    next =>
      split
      next => exact ⟨rfl, rfl, fun _ hi => Function.update_of_ne hi _ _⟩
      next => exact sameBeside_write _
    next => exact ⟨rfl, rfl, fun _ _ => rfl⟩
  · split
    next =>
      split
      next => rfl
      next => rfl
    next => rfl
  · intro hrebase hsame
    rw [if_pos hrebase, if_pos hsame]
    exact ⟨rfl, rfl⟩
  · intro hnot
    rw [if_neg hnot]
    exact ⟨rfl, rfl⟩

variable {playbackTime : BitVec 64}

theorem takeMapping_near (id : Nat)
    (h : inrange (s.offsetOf playbackTime) (-maxSynchronizationWindow) maxSynchronizationWindow =
      true) :
    ∃ c : Context, s.takeMapping id playbackTime = s.write id c ∧
      c.timeMappingEstablished = true ∧ c.baseSystemTime = s.masterBaseSystemTime ∧
      c.baseNormalizedPlaybackTime =
        s.masterBaseNormalizedPlaybackTime + s.accumulatedPlaybackTimeJumps := by
  unfold takeMapping
  dsimp only
  split
  next => exact ⟨_, rfl, rfl, rfl, rfl⟩
  next => exact ⟨_, rfl, rfl, rfl, rfl⟩

theorem takeMapping_far (id : Nat)
    (h : inrange (s.offsetOf playbackTime) (-maxSynchronizationWindow) maxSynchronizationWindow ≠
      true) :
    ∃ (c : Context) (seen : BitVec 64), s.takeMapping id playbackTime = { s.write id c with
          accumulatedPlaybackTimeJumps := s.accumulatedPlaybackTimeJumps - s.offsetOf playbackTime
          masterBaseNormalizedPlaybackTime :=
            s.masterBaseNormalizedPlaybackTime + s.offsetOf playbackTime
          jumpSeenAtPlaybackTime := seen } ∧
      c.timeMappingEstablished = true ∧ c.baseSystemTime = s.masterBaseSystemTime ∧
      c.baseNormalizedPlaybackTime = playbackTime := by
  have hnot : s.offsetOf playbackTime ≠ 0 := by
    intro hzero
    rw [hzero] at h
    exact h (by decide)
  have hjump : s.accumulatedPlaybackTimeJumps + -s.offsetOf playbackTime =
      s.accumulatedPlaybackTimeJumps - s.offsetOf playbackTime := by ring
  have hmoved : s.masterBaseNormalizedPlaybackTime - -s.offsetOf playbackTime =
      s.masterBaseNormalizedPlaybackTime + s.offsetOf playbackTime := by ring
  unfold takeMapping
  dsimp only
  rw [if_neg hnot, if_neg h, hjump, hmoved]
  refine ⟨_, _, rfl, rfl, rfl, ?_⟩
  show s.masterBaseNormalizedPlaybackTime + s.accumulatedPlaybackTimeJumps -
    -s.offsetOf playbackTime = playbackTime
  unfold offsetOf
  ring

/-- The pass of a stream that finds a mapping. -/
structure Joins (s t : Base) (id : Nat) (systemTime : BitVec 64) : Prop where
  beside : SameBeside s t id
  /-- In the window behind the base, or at it. -/
  behind : 0 ≤ (s.offsetOf (s.waitingAt id)).toInt →
    (s.offsetOf (s.waitingAt id)).toInt ≤ 10000000 →
    systemTime = s.masterBaseSystemTime + s.offsetOf (s.waitingAt id) ∧
      t.masterBaseSystemTime = s.masterBaseSystemTime ∧
      t.masterBaseNormalizedPlaybackTime = s.masterBaseNormalizedPlaybackTime ∧
      t.accumulatedPlaybackTimeJumps = s.accumulatedPlaybackTimeJumps
  /-- In the window in front of the base, which goes along. -/
  front : (s.offsetOf (s.waitingAt id)).toInt < 0 →
    -10000000 ≤ (s.offsetOf (s.waitingAt id)).toInt →
    systemTime = s.masterBaseSystemTime + s.offsetOf (s.waitingAt id) ∧
      t.masterBaseSystemTime = s.masterBaseSystemTime + s.offsetOf (s.waitingAt id) ∧
      t.masterBaseNormalizedPlaybackTime = s.waitingAt id ∧
      t.accumulatedPlaybackTimeJumps = s.accumulatedPlaybackTimeJumps
  /-- Beyond it. -/
  far : 10000000 < (s.offsetOf (s.waitingAt id)).toInt ∨
      (s.offsetOf (s.waitingAt id)).toInt < -10000000 →
    systemTime = s.masterBaseSystemTime ∧ t.masterBaseSystemTime = s.masterBaseSystemTime ∧
      t.masterBaseNormalizedPlaybackTime =
        s.masterBaseNormalizedPlaybackTime + s.offsetOf (s.waitingAt id) ∧
      t.accumulatedPlaybackTimeJumps =
        s.accumulatedPlaybackTimeJumps - s.offsetOf (s.waitingAt id)

theorem inrange_window_iff {x : BitVec 64} :
    inrange x (-maxSynchronizationWindow) maxSynchronizationWindow = true ↔
      -10000000 ≤ x.toInt ∧ x.toInt ≤ 10000000 := by
  rw [inrange_iff, window_toInt.1, window_toInt.2]

theorem rebased_of_front {x : BitVec 64} (hneg : x.toInt < 0) :
    x > rebaseTimeTriggerValue := by
  have htrigger : rebaseTimeTriggerValue.toNat = 268435456 := rfl
  rw [gt_iff_lt, BitVec.lt_def, htrigger]
  rw [BitVec.toInt_eq_toNat_cond] at hneg
  have hlt := x.isLt
  split at hneg <;> omega

theorem joins_of_taken {w : Base} {elapsed : BitVec 64}
    (hmaster : w.masterTimeMappingEstablished = true)
    (hstream : (w.context id).timeMappingEstablished = true)
    (hsystem : (w.context id).baseSystemTime = w.masterBaseSystemTime)
    (helapsed : playbackTime - (w.context id).baseNormalizedPlaybackTime = elapsed)
    (hfits : FitsInt elapsed) :
    ∃ t, (w.lowerMinimum id).translatePlaybackTimeToSystem (some id) playbackTime =
        (t, some (w.masterBaseSystemTime + elapsed)) ∧
      SameBeside w t id ∧ t.accumulatedPlaybackTimeJumps = w.accumulatedPlaybackTimeJumps ∧
      (elapsed > rebaseTimeTriggerValue → t.masterBaseNormalizedPlaybackTime = playbackTime ∧
        t.masterBaseSystemTime = w.masterBaseSystemTime + elapsed) ∧
      (¬ elapsed > rebaseTimeTriggerValue →
        t.masterBaseNormalizedPlaybackTime = w.masterBaseNormalizedPlaybackTime ∧
          t.masterBaseSystemTime = w.masterBaseSystemTime) := by
  obtain ⟨m, hm⟩ := lowerMinimum_eq w id
  rw [hm]
  obtain ⟨t, e, he, htranslate, hbeside, hjumps, hrebased, hkept⟩ :=
    translate_stream (s := { w with minimumStreamOffset := m }) hmaster hstream playbackTime
  obtain rfl : e = elapsed := by rw [he, ← adjustedElapsed_of_fits hfits, ← helapsed]
  dsimp only at htranslate hrebased hkept
  rw [hsystem] at htranslate hrebased
  exact ⟨t, htranslate, ⟨hbeside.established, hbeside.streams, hbeside.others⟩, hjumps,
    fun h => hrebased h rfl, hkept⟩

theorem synchronizeJoin_of_taken {w u : Base} {systemTime : BitVec 64}
    (htake : s.takeMapping id (s.waitingAt id) = w)
    (htranslate : (w.lowerMinimum id).translatePlaybackTimeToSystem (some id) (s.waitingAt id) =
      (u, some systemTime)) :
    s.joinTime id = some systemTime ∧ SameBeside u (s.synchronizeJoin id) id ∧
      (s.synchronizeJoin id).masterBaseSystemTime = u.masterBaseSystemTime ∧
      (s.synchronizeJoin id).masterBaseNormalizedPlaybackTime =
        u.masterBaseNormalizedPlaybackTime ∧
      (s.synchronizeJoin id).accumulatedPlaybackTimeJumps = u.accumulatedPlaybackTimeJumps := by
  unfold joinTime synchronizeJoin
  dsimp only
  rw [htake, htranslate]
  exact ⟨rfl, ⟨rfl, rfl, fun _ hi => Function.update_of_ne hi _ _⟩, rfl, rfl, rfl⟩

theorem joins_synchronizeJoin (hmaster : s.masterTimeMappingEstablished = true) (id : Nat) :
    ∃ systemTime, s.joinTime id = some systemTime ∧
      Joins s (s.synchronizeJoin id) id systemTime := by
  generalize hx : s.offsetOf (s.waitingAt id) = x
  by_cases hnear : inrange x (-maxSynchronizationWindow) maxSynchronizationWindow = true
  · obtain ⟨c, htake, hstream, hsystem, hbase⟩ := takeMapping_near id (hx ▸ hnear)
    have hc : (s.write id c).context id = c := Function.update_self _ _ _
    have helapsed : s.waitingAt id - ((s.write id c).context id).baseNormalizedPlaybackTime = x := by
      rw [hc, hbase, ← hx]
      unfold offsetOf
      ring
    obtain ⟨u, htranslate, hbeside, hjumps, hrebased, hkept⟩ :=
      joins_of_taken (w := s.write id c) hmaster (hc.symm ▸ hstream) (hc.symm ▸ hsystem) helapsed
        (fits_of_window hnear)
    obtain ⟨htime, hbeside', hsystem', hplayback', hjumps'⟩ :=
      synchronizeJoin_of_taken htake htranslate
    rw [inrange_window_iff] at hnear
    refine ⟨_, htime, ((sameBeside_write c).trans hbeside).trans hbeside', ?_, ?_, ?_⟩
    · rw [hx, hsystem', hplayback', hjumps', hjumps]
      intro hbehind hwindow
      have hahead : inrange x 0 maxSynchronizationWindow = true := by
        rw [inrange_iff, window_toInt.1]
        exact ⟨hbehind, hwindow⟩
      have hnot : ¬ x > rebaseTimeTriggerValue := by
        have := not_rebased_of_ahead hahead
        rwa [adjustedElapsed_of_fits (fits_of_window (window_of_ahead hahead))] at this
      exact ⟨rfl, (hkept hnot).2, (hkept hnot).1, rfl⟩
    · rw [hx, hsystem', hplayback', hjumps', hjumps]
      intro hfront _
      have hrebase := hrebased (rebased_of_front hfront)
      exact ⟨rfl, hrebase.2, hrebase.1, rfl⟩
    · rw [hx]
      omega
  · obtain ⟨c, seen, htake, hstream, hsystem, hbase⟩ := takeMapping_far id (hx ▸ hnear)
    generalize hw : ({ s.write id c with
      accumulatedPlaybackTimeJumps := s.accumulatedPlaybackTimeJumps - s.offsetOf (s.waitingAt id)
      masterBaseNormalizedPlaybackTime :=
        s.masterBaseNormalizedPlaybackTime + s.offsetOf (s.waitingAt id)
      jumpSeenAtPlaybackTime := seen } : Base) = w at htake
    have hc : w.context id = c := by
      rw [← hw]
      exact Function.update_self _ _ _
    have hw' : w.masterBaseSystemTime = s.masterBaseSystemTime := by rw [← hw]; rfl
    have helapsed : s.waitingAt id - (w.context id).baseNormalizedPlaybackTime = 0 := by
      rw [hc, hbase]
      exact BitVec.sub_self _
    obtain ⟨u, htranslate, hbeside, hjumps, -, hkept⟩ :=
      joins_of_taken (w := w) (by rw [← hw]; exact hmaster) (hc.symm ▸ hstream)
        (by rw [hc, hw']; exact hsystem) helapsed (by decide)
    obtain ⟨htime, hbeside', hsystem', hplayback', hjumps'⟩ :=
      synchronizeJoin_of_taken htake htranslate
    have hsame : SameBeside s w id := by
      rw [← hw]
      exact ⟨rfl, rfl, fun _ hi => Function.update_of_ne hi _ _⟩
    have hzero : w.masterBaseSystemTime + 0 = s.masterBaseSystemTime := by
      rw [hw']
      exact BitVec.add_zero _
    obtain ⟨hplayback, hsystemTime⟩ := hkept (by decide)
    rw [inrange_window_iff] at hnear
    refine ⟨_, htime, (hsame.trans hbeside).trans hbeside', ?_, ?_, ?_⟩
    · rw [hx]
      omega
    · rw [hx]
      omega
    · intro _
      rw [hsystem', hplayback', hjumps', hjumps, hplayback, hsystemTime, hzero, hw']
      rw [← hw]
      exact ⟨rfl, rfl, rfl, rfl⟩

/-! ## The streams in any order -/

/-- No stream waits in front of the base. -/
def NoneInFront (s : Base) (base : BitVec 64) : Prop :=
  ∀ i, s.Synchronizing i → base.toNat ≤ (s.waitingAt i).toNat

/-- All streams are within the window of each other. -/
def Close (s : Base) : Prop :=
  ∀ i j, s.Synchronizing i → s.Synchronizing j →
    (s.waitingAt j).toNat ≤ (s.waitingAt i).toNat + 10000000

/-- No stream is farther than the window from one in front of the base. -/
def FrontInWindow (s : Base) (base : BitVec 64) : Prop :=
  ∀ i ∈ s.coordinatedContexts, (s.context i).inSynchronizeFn = true →
    (s.waitingAt i).toNat < base.toNat →
    ∀ j ∈ s.coordinatedContexts, (s.context j).inSynchronizeFn = true →
      (s.waitingAt j).toNat ≤ (s.waitingAt i).toNat + 10000000 ∧
        (s.waitingAt i).toNat ≤ (s.waitingAt j).toNat + 10000000

instance (s : Base) (base : BitVec 64) : Decidable (s.FrontInWindow base) :=
  inferInstanceAs (Decidable (∀ i ∈ _, _ → _ → ∀ j ∈ _, _ → _ ∧ _))

theorem FrontInWindow.cases {base : BitVec 64} (h : s.FrontInWindow base) :
    s.NoneInFront base ∨ s.Close := by
  by_cases hnone : s.NoneInFront base
  · exact Or.inl hnone
  · have hsome : ∃ i, s.Synchronizing i ∧ (s.waitingAt i).toNat < base.toNat := by
      by_contra hno
      exact hnone fun i hi => Nat.le_of_not_lt fun hlt => hno ⟨i, hi, hlt⟩
    obtain ⟨i, hi, hfront⟩ := hsome
    refine Or.inr fun j k hj hk => ?_
    have hij := h i hi.1 hi.2 hfront j hj.1 hj.2
    have hik := h i hi.1 hi.2 hfront k hk.1 hk.2
    rcases Nat.lt_or_ge (s.waitingAt j).toNat base.toNat with hj' | hj'
    · exact (h j hj.1 hj.2 hj' k hk.1 hk.2).1
    · omega

/-- Where the master mapping is while the streams pass: a line that none of them is in
front of, the jumps counted; or, with the streams close, the line from one of them. -/
def OnLine (s : Base) (first base : BitVec 64) (u : Base) : Prop :=
  s.NoneInFront first ∧ u.masterBaseSystemTime = base ∧
      u.masterBaseNormalizedPlaybackTime + u.accumulatedPlaybackTimeJumps = first ∨
    s.Close ∧ u.accumulatedPlaybackTimeJumps = 0 ∧
      u.masterBaseNormalizedPlaybackTime - u.masterBaseSystemTime = first - base ∧
      (∃ i, s.Synchronizing i ∧ first = s.waitingAt i) ∧
      ∃ i, s.Synchronizing i ∧ u.masterBaseNormalizedPlaybackTime = s.waitingAt i

/-- The state of the streams while they pass. -/
structure Passing (s : Base) (first base : BitVec 64) (passed : List Nat) (u : Base) : Prop where
  established : u.masterTimeMappingEstablished = true
  streams : u.coordinatedContexts = s.coordinatedContexts
  waiting : ∀ i, i ∉ passed → u.context i = s.context i
  left : ∀ i, u.context i = s.context i ∨ (u.context i).inSynchronizeFn = false
  line : s.OnLine first base u

theorem toInt_sub_of_le {a b : BitVec 64} (hle : b.toNat ≤ a.toNat)
    (hwindow : a.toNat ≤ b.toNat + 10000000) :
    (a - b).toInt = a.toNat - b.toNat := by
  have hsub := BitVec.toNat_sub_of_le hle
  rw [BitVec.toInt_eq_toNat_cond, hsub]
  split <;> omega

theorem toInt_sub_of_lt {a b : BitVec 64} (hlt : a.toNat < b.toNat)
    (hwindow : b.toNat ≤ a.toNat + 10000000) :
    (a - b).toInt = a.toNat - b.toNat := by
  have ha := a.isLt
  have hsub : (a - b).toNat = 2 ^ 64 - b.toNat + a.toNat := by
    rw [BitVec.toNat_sub]
    exact Nat.mod_eq_of_lt (by omega)
  rw [BitVec.toInt_eq_toNat_cond, hsub]
  split <;> omega

/-- The system time of a stream: on the line, or, if it is far behind the base, the
base's. -/
def OwnTime (s : Base) (first base : BitVec 64) (i : Nat) (systemTime : BitVec 64) : Prop :=
  systemTime = base + (s.waitingAt i - first) ∧
      (s.waitingAt i).toNat ≤ first.toNat + 10000000 ∨
    systemTime = base ∧ first.toNat + 10000000 < (s.waitingAt i).toNat

theorem OwnTime.toNat_eq {first base systemTime : BitVec 64} {i : Nat}
    (h : s.OwnTime first base i systemTime) (hbehind : first.toNat ≤ (s.waitingAt i).toNat)
    (hwindow : (s.waitingAt i).toNat ≤ first.toNat + 10000000)
    (hfits : base.toNat + 10000000 < 2 ^ 64) :
    systemTime.toNat = base.toNat + ((s.waitingAt i).toNat - first.toNat) := by
  rcases h with ⟨rfl, -⟩ | ⟨-, hfar⟩
  · rw [BitVec.toNat_add, BitVec.toNat_sub_of_le hbehind]
    exact Nat.mod_eq_of_lt (by omega)
  · omega

theorem OwnTime.le {first base systemTime : BitVec 64} {i : Nat}
    (h : s.OwnTime first base i systemTime) (hbehind : first.toNat ≤ (s.waitingAt i).toNat)
    (hfits : base.toNat + 10000000 < 2 ^ 64) : base.toNat ≤ systemTime.toNat := by
  rcases Nat.lt_or_ge (first.toNat + 10000000) (s.waitingAt i).toNat with hfar | hwindow
  · rcases h with ⟨-, hwindow⟩ | ⟨rfl, -⟩
    · omega
    · exact Nat.le_refl _
  · rw [h.toNat_eq hbehind hwindow hfits]
    exact Nat.le_add_right _ _

theorem OnLine.join {first base systemTime : BitVec 64} {u u' : Base} {i : Nat}
    (hplay : (s.waitingAt i).toNat + 10000000 < 2 ^ 64) (hi : s.Synchronizing i)
    (h : s.OnLine first base u) (hsame : u.context i = s.context i)
    (hjoins : Joins u u' i systemTime) :
    s.OnLine first base u' ∧ s.OwnTime first base i systemTime := by
  have hwaits : u.waitingAt i = s.waitingAt i := by rw [waitingAt, hsame]
  obtain ⟨-, hbehind, hfront, hfar⟩ := hjoins
  rw [hwaits] at hbehind hfront hfar
  rcases h with ⟨hnone, hsystem, hplayback⟩ |
      ⟨hclose, hjumps, hline, ⟨k, hk, rfl⟩, j, hj, hplayback⟩
  · have hoffset : u.offsetOf (s.waitingAt i) = s.waitingAt i - first := by
      rw [← hplayback]
      unfold offsetOf
      ring
    rw [hoffset, hsystem] at hbehind hfar
    have hle := hnone i hi
    rcases Nat.lt_or_ge (first.toNat + 10000000) (s.waitingAt i).toNat with hlong | hwindow
    · have hsub := BitVec.toNat_sub_of_le hle
      obtain ⟨htime, hsystem', hplayback', hjumps'⟩ := hfar (by
        rw [BitVec.toInt_eq_toNat_cond, hsub]
        split <;> omega)
      refine ⟨Or.inl ⟨hnone, hsystem', ?_⟩, Or.inr ⟨htime, hlong⟩⟩
      rw [hplayback', hjumps', ← hplayback]
      ring
    · have hint := toInt_sub_of_le hle hwindow
      obtain ⟨htime, hsystem', hplayback', hjumps'⟩ := hbehind (by omega) (by omega)
      refine ⟨Or.inl ⟨hnone, hsystem', ?_⟩, Or.inl ⟨htime, hwindow⟩⟩
      rw [hplayback', hjumps', hplayback]
  · have hoffset : u.offsetOf (s.waitingAt i) = s.waitingAt i - s.waitingAt j := by
      unfold offsetOf
      rw [hjumps, hplayback]
      exact BitVec.sub_zero _
    have hon : u.masterBaseSystemTime + (s.waitingAt i - s.waitingAt j) =
        base + (s.waitingAt i - s.waitingAt k) := by
      have : u.masterBaseSystemTime = s.waitingAt j - (s.waitingAt k - base) := by
        rw [← hline, hplayback]
        ring
      rw [this]
      ring
    rw [hoffset] at hbehind hfront
    rcases Nat.lt_or_ge (s.waitingAt i).toNat (s.waitingAt j).toNat with hlt | hge
    · have hint := toInt_sub_of_lt hlt (hclose i j hi hj)
      obtain ⟨htime, hsystem', hplayback', hjumps'⟩ := hfront (by omega) (by
        have := hclose i j hi hj
        omega)
      refine ⟨Or.inr ⟨hclose, hjumps'.trans hjumps, ?_, ⟨k, hk, rfl⟩, i, hi, hplayback'⟩,
        Or.inl ⟨htime.trans hon, hclose k i hk hi⟩⟩
      rw [hplayback', hsystem', hon]
      ring
    · have hint := toInt_sub_of_le hge (hclose j i hj hi)
      obtain ⟨htime, hsystem', hplayback', hjumps'⟩ := hbehind (by omega) (by
        have := hclose j i hj hi
        omega)
      refine ⟨Or.inr ⟨hclose, hjumps'.trans hjumps, ?_, ⟨k, hk, rfl⟩, j, hj,
        hplayback'.trans hplayback⟩, Or.inl ⟨htime.trans hon, hclose k i hk hi⟩⟩
      rw [hplayback', hsystem', hline]

variable {first base : BitVec 64} {passed : List Nat} {u : Base}

theorem step_synchronizePass (hmaster : u.masterTimeMappingEstablished = true) (i : Nat) (p : Pass) :
    u.Synchronizing i ∧ u.step (.synchronizePass i p) = u.synchronizeJoin i ∨
      ¬ u.Synchronizing i ∧ u.step (.synchronizePass i p) = u := by
  unfold step
  split
  next henabled =>
    refine Or.inl ⟨by simpa [enabled, Synchronizing] using henabled, ?_⟩
    show u.synchronizePass i p = _
    unfold synchronizePass
    rw [if_pos hmaster]
  next hnot =>
    exact Or.inr ⟨fun h => hnot (by simpa [enabled, Synchronizing] using h), rfl⟩

theorem Passing.synchronizing {i : Nat} (h : Passing s first base passed u)
    (hi : u.Synchronizing i) : s.Synchronizing i ∧ u.context i = s.context i := by
  obtain ⟨hmem, hsync⟩ := hi
  rcases h.left i with hsame | hleft
  · rw [hsame] at hsync
    exact ⟨⟨h.streams ▸ hmem, hsync⟩, hsame⟩
  · rw [hleft] at hsync
    cases hsync

theorem left_synchronizeJoin (u : Base) (i : Nat) :
    ((u.synchronizeJoin i).context i).inSynchronizeFn = false := by
  unfold synchronizeJoin
  dsimp only [write]
  rw [Function.update_self]

theorem Passing.step (hplay : ∀ i, s.Synchronizing i → (s.waitingAt i).toNat + 10000000 < 2 ^ 64)
    (h : Passing s first base passed u) (i : Nat) (p : Pass) :
    Passing s first base (passed ++ [i]) (u.step (.synchronizePass i p)) := by
  rcases step_synchronizePass h.established i p with ⟨hi, hstep⟩ | ⟨-, hstep⟩
  · obtain ⟨hwaits, hsame⟩ := h.synchronizing hi
    obtain ⟨systemTime, -, hjoins⟩ := joins_synchronizeJoin h.established i
    rw [hstep]
    refine ⟨hjoins.beside.established.trans h.established,
      hjoins.beside.streams.trans h.streams, fun j hj => ?_, fun j => ?_,
      (h.line.join (hplay i hwaits) hwaits hsame hjoins).1⟩
    · rw [List.mem_append, List.mem_singleton, not_or] at hj
      rw [hjoins.beside.others j hj.2]
      exact h.waiting j hj.1
    · by_cases hji : j = i
      · subst hji
        exact Or.inr (left_synchronizeJoin u j)
      · rw [hjoins.beside.others j hji]
        exact h.left j
  · rw [hstep]
    exact ⟨h.established, h.streams,
      fun j hj => h.waiting j (fun hmem => hj (List.mem_append_left _ hmem)), h.left, h.line⟩

theorem Passing.afterPasses
    (hplay : ∀ i, s.Synchronizing i → (s.waitingAt i).toNat + 10000000 < 2 ^ 64)
    (passes : List (Nat × Pass)) : ∀ {passed : List Nat} {u : Base},
      Passing s first base passed u →
        Passing s first base (passed ++ passes.map Prod.fst) (u.afterPasses passes) := by
  induction passes with
  | nil =>
    intro passed u h
    rw [List.map_nil, List.append_nil]
    exact h
  | cons q passes ih =>
    intro passed u h
    have := ih (h.step hplay q.1 q.2)
    rwa [List.append_assoc, List.singleton_append] at this

theorem Passing.passTime
    (hplay : ∀ i, s.Synchronizing i → (s.waitingAt i).toNat + 10000000 < 2 ^ 64)
    (h : Passing s first base passed u) {v : Nat} (hv : s.Synchronizing v) (hwaits : v ∉ passed)
    (p : Pass) : ∃ systemTime, u.passTime v p = some systemTime ∧
      s.OwnTime first base v systemTime := by
  obtain ⟨systemTime, htime, hjoins⟩ := joins_synchronizeJoin h.established v
  refine ⟨systemTime, ?_, (h.line.join (hplay v hv) hv (h.waiting v hwaits) hjoins).2⟩
  unfold Base.passTime
  rw [if_pos h.established]
  exact htime

/-! ## The mapping that is established -/

theorem passing_establish (hid : s.Synchronizing id)
    (hfront : s.FrontInWindow (s.establish id pass).masterBaseNormalizedPlaybackTime) :
    Passing s (s.establish id pass).masterBaseNormalizedPlaybackTime
      (s.establish id pass).masterBaseSystemTime [] (s.establish id pass) := by
  refine ⟨rfl, rfl, fun _ _ => rfl, fun _ => Or.inl rfl, ?_⟩
  rcases hfront.cases with hnone | hclose
  · exact Or.inl ⟨hnone, rfl, BitVec.add_zero _⟩
  · have hbased : ∃ i, s.Synchronizing i ∧
        (s.establish id pass).masterBaseNormalizedPlaybackTime = s.waitingAt i :=
      ⟨s.earliestContext id pass.videoStartImmediate, (earliestContext_spec hid _).1,
        (establish_first s id pass).1⟩
    exact Or.inr ⟨hclose, rfl, rfl, hbased, hbased⟩

theorem passTime_of_establishes (h : s.Establishes surface now id pass) :
    s.passTime id pass = (s.establish id pass).passTime id pass := by
  have hmaster : (s.establish id pass).masterTimeMappingEstablished = true := rfl
  unfold passTime
  rw [if_neg (by rw [h.none]; exact Bool.false_ne_true), if_pos h.may, if_pos hmaster]

theorem step_of_establishes (h : s.Establishes surface now id pass) :
    s.step (.synchronizePass id pass) = (s.establish id pass).step (.synchronizePass id pass) := by
  have henabled : s.enabled (.synchronizePass id pass) = true := by
    simpa [enabled, Synchronizing] using h.synchronizing
  have henabled' : (s.establish id pass).enabled (.synchronizePass id pass) = true := henabled
  have hmaster : (s.establish id pass).masterTimeMappingEstablished = true := rfl
  unfold step
  rw [if_pos henabled, if_pos henabled']
  show s.synchronizePass id pass = (s.establish id pass).synchronizePass id pass
  unfold synchronizePass
  rw [if_neg (by rw [h.none]; exact Bool.false_ne_true), if_pos h.may, if_pos hmaster]

theorem passTime_afterPasses (h : s.Establishes surface now id pass) {before : List (Nat × Pass)}
    {v : Nat} {p : Pass} (hfirst : (before ++ [(v, p)]).head? = some (id, pass)) :
    (s.afterPasses before).passTime v p = ((s.establish id pass).afterPasses before).passTime v p := by
  cases before with
  | nil =>
    obtain ⟨rfl, rfl⟩ := Prod.mk.inj (Option.some.inj hfirst)
    exact passTime_of_establishes h
  | cons q rest =>
    obtain rfl : q = (id, pass) := Option.some.inj hfirst
    unfold afterPasses
    rw [List.foldl_cons, List.foldl_cons, step_of_establishes h]

/-- Whatever streams pass before it, the stream `v` is given a system time with `P`, in a
run that begins with the pass that establishes the mapping. -/
def Given (s : Base) (id : Nat) (pass : Pass) (v : Nat) (P : BitVec 64 → Prop) : Prop :=
  ∀ (before : List (Nat × Pass)) (p : Pass), (before ++ [(v, p)]).head? = some (id, pass) →
    v ∉ before.map Prod.fst →
    ∃ systemTime, (s.afterPasses before).passTime v p = some systemTime ∧ P systemTime

/-- **The synchronized start.** The base of the mapping is no earlier than any manifest
time and less than two frames after the latest; a stream that is not in front of the base
starts no earlier than any manifest time, and the earliest video stream on a frame point
of the video. -/
theorem synchronized_start (h : s.Establishes surface now id pass)
    (hduration : 1 ≤ (s.restart surface now).videoFrameDuration.toNat)
    (hfits : (s.restart surface now).latestManifestTime.toNat +
      2 * (s.restart surface now).videoFrameDuration.toNat + 10000000 ≤ 2 ^ 64)
    (hplay : ∀ i ∈ s.coordinatedContexts, (s.context i).inSynchronizeFn = true →
      (s.waitingAt i).toNat + 10000000 < 2 ^ 64)
    (hfront : s.FrontInWindow (s.establish id pass).masterBaseNormalizedPlaybackTime) :
    ((s.restart surface now).latestManifestTime.toNat ≤
        (s.establish id pass).masterBaseSystemTime.toNat ∧
      (s.establish id pass).masterBaseSystemTime.toNat <
        (s.restart surface now).latestManifestTime.toNat +
          2 * (s.restart surface now).videoFrameDuration.toNat) ∧
    (∀ v, s.Synchronizing v →
      (s.establish id pass).masterBaseNormalizedPlaybackTime.toNat ≤ (s.waitingAt v).toNat →
      s.Given id pass v fun systemTime =>
        ∀ i ∈ s.coordinatedContexts,
          (surface i).nextQueuedManifestationTime.toNat ≤ systemTime.toNat) ∧
    ∀ v, s.earliestVideo = some v →
      (s.waitingAt v).toNat ≤
        (s.establish id pass).masterBaseNormalizedPlaybackTime.toNat + 10000000 →
      s.Given id pass v fun systemTime =>
        ((s.restart surface now).videoFrameDuration.toNat : Int) ∣
          systemTime.toNat - (s.restart surface now).latestVideoManifestTime.toNat := by
  obtain ⟨hlate, hearly, hvideo⟩ := establish_base h hduration (by omega)
  have hown : ∀ v, s.Synchronizing v → s.Given id pass v (s.OwnTime
      (s.establish id pass).masterBaseNormalizedPlaybackTime
      (s.establish id pass).masterBaseSystemTime v) := by
    intro v hv before p hfirst hwaits
    have hplay' : ∀ i, s.Synchronizing i → (s.waitingAt i).toNat + 10000000 < 2 ^ 64 :=
      fun i hi => hplay i hi.1 hi.2
    have hpassing := (passing_establish h.synchronizing hfront).afterPasses hplay' before
    obtain ⟨systemTime, htime, hown⟩ := hpassing.passTime hplay' hv hwaits p
    exact ⟨systemTime, (passTime_afterPasses h hfirst).trans htime, hown⟩
  refine ⟨⟨hlate, hearly⟩, fun v hv hbehind before p hfirst hwaits => ?_,
    fun v hv hwindow before p hfirst hwaits => ?_⟩
  · obtain ⟨systemTime, htime, hown⟩ := hown v hv before p hfirst hwaits
    refine ⟨systemTime, htime, fun i hi => ?_⟩
    have hmanifest := (restart_latest s surface now).2 i hi
    have hbase := hown.le hbehind (by omega)
    omega
  · obtain ⟨hbehind, k, hk⟩ := hvideo v hv
    obtain ⟨systemTime, htime, hown⟩ :=
      hown v (synchronizing_of_earliestVideo hv) before p hfirst hwaits
    have hon := hown.toNat_eq hbehind hwindow (by omega)
    refine ⟨systemTime, htime, k, ?_⟩
    rw [hon, hk]
    push_cast
    ring

/-! ## Streams that wait -/

/-- Streams that have been registered and wait with their playback times. -/
def waiting (streams : List (Nat × Bool × BitVec 64)) : Base :=
  (streams.flatMap fun (id, video, playbackTime) =>
    [Event.register id video, .synchronizeEnter id playbackTime 0,
      .synchronizeStart id playbackTime]).foldl step reset

/-- Manifestors for 25 frames in a second. -/
def manifesting (times : List (BitVec 64)) (id : Nat) : Surface :=
  ⟨.ofInt 25, true, times.getD id 0⟩

/-- A pass with what `RestartTime` finds. -/
def passOf (s : Base) (times : List (BitVec 64)) (immediate : Bool) : Pass :=
  ⟨false, (s.restart (manifesting times) 0).time,
    (s.restart (manifesting times) 0).videoFrameDuration, immediate⟩

/-- An audio stream and a video stream 50 ms behind it. -/
def audioLed : Base := waiting [(0, false, 1000000), (1, true, 1050000)]

theorem audioLed_establishes : audioLed.Establishes (manifesting [5070000, 5000000]) 0 0
    (audioLed.passOf [5070000, 5000000] false) :=
  ⟨by decide +kernel, by decide +kernel, by decide +kernel, rfl, rfl⟩

theorem synchronized_start_audioLed :
    audioLed.Given 0 (audioLed.passOf [5070000, 5000000] false) 1 fun systemTime =>
      ((audioLed.restart (manifesting [5070000, 5000000]) 0).videoFrameDuration.toNat : Int) ∣
        systemTime.toNat -
          (audioLed.restart (manifesting [5070000, 5000000]) 0).latestVideoManifestTime.toNat :=
  (synchronized_start audioLed_establishes (by decide +kernel) (by decide +kernel)
    (by decide +kernel) (by decide +kernel)).2.2 1 (by decide +kernel) (by decide +kernel)

/-! ### Streams that are apart, and times that wrap -/

theorem not_given {v : Nat} {P : BitVec 64 → Prop} {t : BitVec 64}
    (before : List (Nat × Pass)) (p : Pass)
    (hfirst : (before ++ [(v, p)]).head? = some (id, pass)) (hwaits : v ∉ before.map Prod.fst)
    (htime : (s.afterPasses before).passTime v p = some t) (hP : ¬ P t) :
    ¬ s.Given id pass v P := by
  intro h
  obtain ⟨systemTime', htime', hP'⟩ := h before p hfirst hwaits
  rw [htime] at htime'
  obtain rfl := Option.some.inj htime'
  exact hP hP'

/-- A video stream a little more than the window behind. -/
def videoFar : Base := waiting [(0, false, 0), (1, true, 10000001)]

/-- Two streams in front of the video that the mapping is based on, each in the window of
the next. -/
def chained : Base := waiting [(0, true, 20000000), (1, false, 11000000), (2, false, 2000000)]

/-- Playback times as far apart as can be. -/
def timesWrap : Base := waiting [(0, false, 0), (1, false, -1)]

/-- A video stream and an audio stream that begin at once. -/
def together : Base := waiting [(0, true, 0), (1, false, 0)]

/-- What the hypotheses are for: a video stream that is given up starts at a base that is
not on a frame point; a base that was taken along twice is out of reach for the stream it
was; a playback time at the end of its 64 bits is in front of the base; and the system time
of a base wraps. -/
theorem synchronized_start_apart :
    (videoFar.Establishes (manifesting [1000000, 1000000]) 0 0
          (videoFar.passOf [1000000, 1000000] false) ∧ videoFar.earliestVideo = some 1 ∧
        ¬ videoFar.Given 0 (videoFar.passOf [1000000, 1000000] false) 1 fun systemTime =>
          ((videoFar.restart (manifesting [1000000, 1000000]) 0).videoFrameDuration.toNat : Int) ∣
            systemTime.toNat -
              (videoFar.restart (manifesting [1000000, 1000000]) 0).latestVideoManifestTime.toNat) ∧
      (chained.Establishes (manifesting [100000000, 100000000, 100000000]) 0 1
          (chained.passOf [100000000, 100000000, 100000000] true) ∧
        (chained.establish 1 (chained.passOf [100000000, 100000000, 100000000]
          true)).masterBaseNormalizedPlaybackTime = chained.waitingAt 0 ∧
        ¬ chained.Given 1 (chained.passOf [100000000, 100000000, 100000000] true) 0
          fun systemTime => ∀ i ∈ chained.coordinatedContexts,
            (manifesting [100000000, 100000000, 100000000] i).nextQueuedManifestationTime.toNat ≤
              systemTime.toNat) ∧
      (timesWrap.Establishes (manifesting [1000000, 1000000]) 0 0
          (timesWrap.passOf [1000000, 1000000] false) ∧
        ¬ timesWrap.Given 0 (timesWrap.passOf [1000000, 1000000] false) 1 fun systemTime =>
          ∀ i ∈ timesWrap.coordinatedContexts,
            (manifesting [1000000, 1000000] i).nextQueuedManifestationTime.toNat ≤
              systemTime.toNat) ∧
      together.Establishes (manifesting [-1, -1]) 0 0 (together.passOf [-1, -1] false) ∧
        ¬ (together.restart (manifesting [-1, -1]) 0).latestManifestTime.toNat ≤
          (together.establish 0 (together.passOf [-1, -1] false)).masterBaseSystemTime.toNat := by
  refine ⟨⟨⟨by decide +kernel, by decide +kernel, by decide +kernel, rfl, rfl⟩, by decide +kernel,
      ?_⟩,
    ⟨⟨by decide +kernel, by decide +kernel, by decide +kernel, rfl, rfl⟩, by decide +kernel, ?_⟩,
    ⟨⟨by decide +kernel, by decide +kernel, by decide +kernel, rfl, rfl⟩, ?_⟩,
    ⟨by decide +kernel, by decide +kernel, by decide +kernel, rfl, rfl⟩, by decide +kernel⟩
  · exact not_given (t := 1039999) [(0, videoFar.passOf [1000000, 1000000] false)]
      (videoFar.passOf [1000000, 1000000] false) rfl (by decide) (by decide +kernel)
      (by decide +kernel)
  · exact not_given (t := 82000000)
      [(1, chained.passOf [100000000, 100000000, 100000000] true),
        (2, chained.passOf [100000000, 100000000, 100000000] true)]
      (chained.passOf [100000000, 100000000, 100000000] true) rfl (by decide) (by decide +kernel)
      (by decide +kernel)
  · exact not_given (t := 999999) [(0, timesWrap.passOf [1000000, 1000000] false)]
      (timesWrap.passOf [1000000, 1000000] false) rfl (by decide) (by decide +kernel)
      (by decide +kernel)

end Base

end Duckbox.OutputCoordinator
