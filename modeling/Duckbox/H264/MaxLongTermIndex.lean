import Duckbox.H264.ReferenceEdits

/-!
# The limit of the long-term indexes

`H264_MMC_SPECIFY_MAX_LONG_TERM_INDEX` goes through the list once and releases the
long-term codes of the entries whose index is above `max_long_term_frame_idx_plus1 - 1`.
With 0, which stands for no long-term references at all, that is the highest number
there is, and no entry is above it.

> `applyControl_limited_iff`: the command does what it is for exactly where it finds all
> it has to release in the list, and is given more than 0 if there is any.
-/

namespace Duckbox.H264

open Duckbox.Lib

/-- The entry is used for long-term reference with an index from `m` on. -/
def ReferenceFrame.Beyond (m : Word) (f : ReferenceFrame) : Prop :=
  f.usage.has anyUsedForLongTermReference = true ∧ m ≤ f.longTermFrameIdx

instance (m : Word) (f : ReferenceFrame) : Decidable (f.Beyond m) :=
  inferInstanceAs (Decidable (_ ∧ _))

namespace References

variable {s t : References} {m : Word} {actually : Bool}

/-- The entries that only long-term references with an index from `m` on hold. -/
def onlyBeyond (s : References) (m : Word) (n : Nat) : List Nat :=
  (List.range n).filter fun i =>
    (s.entry i).Beyond m ∧ (s.entry i).usage &&& ~~~anyUsedForLongTermReference = notUsedForReference

/-- What the command is for: no long-term reference with an index from `m` on is left, all
else is as it was, and what is left without any use has been released once. -/
structure Limited (m : Word) (actually : Bool) (s t : References) : Prop where
  none_beyond : ∀ i < maxEntries, ¬ (t.entry i).Beyond m
  unchanged : ∀ i < maxEntries, ¬ (s.entry i).Beyond m → t.entry i = s.entry i
  short : ∀ i < maxEntries, (t.entry i).usage &&& anyUsedForShortTermReference =
    (s.entry i).usage &&& anyUsedForShortTermReference
  released : t.released = s.released ++
    if actually then (s.onlyBeyond m maxEntries).map fun i => (s.entry i).decodeFrameIndex else []

/-! ## The loop -/

/-- The entries whose index the loop finds too high. -/
def tooHigh (m : Word) (f : ReferenceFrame) : Bool :=
  f.usage.has anyUsedForLongTermReference && decide (m - 1 < f.longTermFrameIdx)

theorem tooHigh_iff {f : ReferenceFrame} : tooHigh m f = true ↔ f.Beyond m ∧ m ≠ 0 := by
  have hbelow : m - 1 < f.longTermFrameIdx ↔ m ≤ f.longTermFrameIdx ∧ m ≠ 0 := by bv_omega
  unfold tooHigh ReferenceFrame.Beyond
  rw [Bool.and_eq_true, decide_eq_true_iff, hbelow, and_assoc]

/-- Of the first `k`, those that the loop leaves without any use. -/
def freed (s : References) (m : Word) (k : Nat) : List Nat :=
  (List.range k).filter fun i =>
    tooHigh m (s.entry i) ∧ (s.entry i).usage &&& ~~~anyUsedForLongTermReference = notUsedForReference

/-- The loop has been through the first `k` entries. -/
structure Scanned (m : Word) (actually : Bool) (s : References) (k : Nat) (t : References) :
    Prop where
  limit : t.numReferenceFrames = s.numReferenceFrames
  entry : ∀ i, t.entry i =
    if i < k ∧ tooHigh m (s.entry i) then releasedEntry (s.entry i) anyUsedForLongTermReference
    else s.entry i
  released : t.released = s.released ++
    if actually then (s.freed m k).map fun i => (s.entry i).decodeFrameIndex else []

theorem scanned_start (m : Word) (actually : Bool) (s : References) : Scanned m actually s 0 s := by
  refine ⟨rfl, fun i => (if_neg fun h => Nat.not_lt_zero i h.1).symm, ?_⟩
  cases actually <;> exact (List.append_nil _).symm

theorem Scanned.step {k : Nat} (h : Scanned m actually s k t) (hk : k < maxEntries) :
    Scanned m actually s (k + 1) (maxIndexStep actually m t k) := by
  have hentry : t.entry k = s.entry k := by
    rw [h.entry k]
    exact if_neg fun hlt => Nat.lt_irrefl k hlt.1
  have hfreed : s.freed m (k + 1) = s.freed m k ++
      if tooHigh m (s.entry k) ∧
          (s.entry k).usage &&& ~~~anyUsedForLongTermReference = notUsedForReference then [k] else [] := by
    unfold freed
    rw [List.range_succ, List.filter_append, List.filter_singleton, Bool.cond_decide]
  have hother : ∀ i, i ≠ k → (i < k + 1 ∧ tooHigh m (s.entry i) = true ↔
      i < k ∧ tooHigh m (s.entry i) = true) := by
    intro i hi
    exact and_congr_left fun _ => by omega
  have hstep : maxIndexStep actually m t k =
      if tooHigh m (t.entry k) then t.releaseReference actually k anyUsedForLongTermReference else t := rfl
  rw [hstep, hentry]
  cases hhigh : tooHigh m (s.entry k) with
  | true =>
    have hedit := t.releaseReference_edits actually anyUsedForLongTermReference hk
    refine ⟨hedit.limit.trans h.limit, fun i => ?_, ?_⟩
    · by_cases hi : i = k
      · subst hi
        rw [if_pos rfl, hedit.same, hentry, if_pos ⟨Nat.lt_succ_self i, hhigh⟩]
      · rw [if_pos rfl, hedit.other i hi, h.entry i]
        simp only [hother i hi]
    · rw [if_pos rfl, t.releaseReference_released actually anyUsedForLongTermReference hk, hentry,
        h.released, hfreed, hhigh]
      cases actually with
      | false => rfl
      | true =>
        by_cases hfree : (s.entry k).usage &&& ~~~anyUsedForLongTermReference = notUsedForReference
        · simp [hfree]
        · simp [hfree]
  | false =>
    refine ⟨h.limit, fun i => ?_, ?_⟩
    · by_cases hi : i = k
      · subst hi
        rw [if_neg Bool.false_ne_true, hentry, if_neg fun hboth => ?_]
        exact absurd (hhigh.symm.trans hboth.2) Bool.false_ne_true
      · rw [if_neg Bool.false_ne_true, h.entry i]
        simp only [hother i hi]
    · rw [if_neg Bool.false_ne_true, h.released, hfreed, hhigh]
      simp

theorem specifyMaxLongTermIndex_scanned (m : Word) (actually : Bool)
    (hlimit : s.numReferenceFrames < maxEntries) :
    Scanned m actually s (s.numReferenceFrames + 1) (s.specifyMaxLongTermIndex actually m) := by
  have hloop : Scanned m actually s (s.numReferenceFrames + 1)
      (forUpTo (maxIndexStep actually m) s (s.numReferenceFrames + 1)) :=
    forUpTo_inv (P := fun k t => Scanned m actually s k t) (scanned_start m actually s)
      fun k t hk ht => ht.step (Nat.lt_of_lt_of_le hk hlimit)
  exact ⟨hloop.limit, hloop.entry, hloop.released⟩

/-! ## What the command is for -/

theorem releasedEntry_short (f : ReferenceFrame) :
    (releasedEntry f anyUsedForLongTermReference).usage &&& anyUsedForShortTermReference =
      f.usage &&& anyUsedForShortTermReference := by
  show f.usage &&& ~~~anyUsedForLongTermReference &&& anyUsedForShortTermReference = _
  generalize f.usage = u
  revert u
  decide

theorem releasedEntry_not_beyond (f : ReferenceFrame) :
    ¬ (releasedEntry f anyUsedForLongTermReference).Beyond m := by
  rintro ⟨hhas, -⟩
  change (f.usage &&& ~~~anyUsedForLongTermReference).has anyUsedForLongTermReference = true at hhas
  generalize f.usage = u at hhas
  revert u
  decide

theorem onlyBeyond_eq {n : Nat} (hn : n ≤ maxEntries)
    (h : ∀ i < maxEntries, (s.entry i).Beyond m → i < n) :
    s.onlyBeyond m maxEntries = s.onlyBeyond m n := by
  obtain ⟨d, hd⟩ := Nat.exists_eq_add_of_le hn
  have hnone : ((List.range d).map (n + ·)).filter (fun i =>
      (s.entry i).Beyond m ∧
        (s.entry i).usage &&& ~~~anyUsedForLongTermReference = notUsedForReference) = [] := by
    refine List.filter_eq_nil_iff.mpr fun i hi => ?_
    obtain ⟨j, hj, rfl⟩ := List.mem_map.mp hi
    have hlt := List.mem_range.mp hj
    intro hboth
    have hbeyond := (of_decide_eq_true hboth).1
    have := h (n + j) (by omega) hbeyond
    omega
  unfold onlyBeyond
  rw [hd, List.range_add, List.filter_append, hnone, List.append_nil]

/-- The command does what it is for exactly where all long-term references it has to release
are in the list, and it is given more than 0 if there are any. -/
theorem applyControl_limited_iff (actually : Bool) (p : MarkedPicture) (currentEntry : Nat)
    (m : Word) (s : References) (hlimit : s.numReferenceFrames < maxEntries) :
    Limited m actually s (applyControl actually p currentEntry s (.specifyMaxLongTermIndex m)) ↔
      ∀ i < maxEntries, (s.entry i).Beyond m → i < s.numReferenceFrames + 1 ∧ m ≠ 0 := by
  have hscanned := specifyMaxLongTermIndex_scanned m actually hlimit
  change Limited m actually s (s.specifyMaxLongTermIndex actually m) ↔ _
  generalize s.specifyMaxLongTermIndex actually m = t at hscanned
  constructor
  · intro h i hi hbeyond
    -- an entry that the loop leaves alone would be beyond the limit still
    by_contra hnot
    refine h.none_beyond i hi ?_
    rw [hscanned.entry i, if_neg fun hboth => hnot ⟨hboth.1, (tooHigh_iff.mp hboth.2).2⟩]
    exact hbeyond
  · intro h
    have hhigh : ∀ i < maxEntries, (tooHigh m (s.entry i) = true ↔ (s.entry i).Beyond m) :=
      fun i hi => tooHigh_iff.trans (and_iff_left_of_imp fun hbeyond => (h i hi hbeyond).2)
    have hreleased : ∀ i < maxEntries, (s.entry i).Beyond m →
        t.entry i = releasedEntry (s.entry i) anyUsedForLongTermReference := by
      intro i hi hbeyond
      rw [hscanned.entry i, if_pos ⟨(h i hi hbeyond).1, (hhigh i hi).mpr hbeyond⟩]
    have hkept : ∀ i < maxEntries, ¬ (s.entry i).Beyond m → t.entry i = s.entry i := by
      intro i hi hnot
      rw [hscanned.entry i, if_neg fun hboth => hnot ((hhigh i hi).mp hboth.2)]
    refine ⟨fun i hi => ?_, hkept, fun i hi => ?_, ?_⟩
    · by_cases hbeyond : (s.entry i).Beyond m
      · rw [hreleased i hi hbeyond]
        exact releasedEntry_not_beyond _
      · rw [hkept i hi hbeyond]
        exact hbeyond
    · by_cases hbeyond : (s.entry i).Beyond m
      · rw [hreleased i hi hbeyond]
        exact releasedEntry_short _
      · rw [hkept i hi hbeyond]
    · have hfreed : s.freed m (s.numReferenceFrames + 1) =
          s.onlyBeyond m (s.numReferenceFrames + 1) := by
        refine List.filter_congr fun i hi => ?_
        have hlt := List.mem_range.mp hi
        simp only [hhigh i (by omega)]
      rw [hscanned.released, hfreed, onlyBeyond_eq hlimit fun i hi hbeyond => (h i hi hbeyond).1]

/-- Two frames, one of them with long-term index 1. -/
def longTermTable : References :=
  (({ References.reset with numReferenceFrames := 1, numLongTerm := 1, numShortTerm := 1 }
      |>.setEntry 0
        { ReferenceFrame.zero with decodeFrameIndex := 5, usage := anyUsedForShortTermReference })
      |>.setEntry 1
        { ReferenceFrame.zero with
          decodeFrameIndex := 7
          usage := anyUsedForLongTermReference
          longTermFrameIdx := 1 })

theorem applyControl_limited_one :
    Limited 1 true longTermTable
      (applyControl true (shortPicture false 1 [] 1) 0 longTermTable (.specifyMaxLongTermIndex 1)) :=
  (applyControl_limited_iff true (shortPicture false 1 [] 1) 0 1 longTermTable (by decide)).mpr
    (by decide)

/-- No long-term references at all leaves the one there is. -/
theorem limit_zero_releases_nothing :
    ¬ ∀ (actually : Bool) (p : MarkedPicture) (currentEntry : Nat) (m : Word) (s : References),
      s.numReferenceFrames < maxEntries →
        Limited m actually s (applyControl actually p currentEntry s (.specifyMaxLongTermIndex m)) := by
  intro h
  have hlimited := h true (shortPicture false 1 [] 1) 0 0 longTermTable (by decide)
  exact hlimited.none_beyond 1 (by decide) (by decide)

end References

end Duckbox.H264
