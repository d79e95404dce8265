import Duckbox.H264.ReferenceEdits

/-!
# The reference counters

`NumShortTerm` and `NumLongTerm` are kept by hand beside the usage codes they
count. An edit of one entry should move each counter by what the entry
contributes before and after (`adjust`); whether an operation does is a question
about the usage code of the one entry it edits (`EditsEntry.counted_iff`).

> `Counted s`: each counter is the number of list entries with a code of its kind.

Releases, insertions, second fields, the IDR and the sliding window always do.
Of the memory-management commands, the assignments and the clear count as if
the entry had the codes the standard's streams would give it: `KeepsCounts` is
exactly when they are right (`applyControl_counted_iff`).
-/

namespace Duckbox.H264

open Duckbox.Lib

/-! ## Counting one entry -/

/-- A counter after an entry that was counted (or not) is counted (or not). -/
def adjust (c : Word) (before after : Bool) : Word :=
  if before && !after then c - 1 else if !before && after then c + 1 else c

theorem adjust_counter {m n : Nat} {before after : Bool}
    (h : n + before.toNat = m + after.toNat) :
    BitVec.ofNat 32 n = adjust (BitVec.ofNat 32 m) before after := by
  unfold adjust
  cases before with
  | false =>
    cases after with
    | false =>
      obtain rfl : n = m := h
      rfl
    | true =>
      obtain rfl : n = m + 1 := h
      exact BitVec.ofNat_add m 1
  | true =>
    cases after with
    | false =>
      obtain rfl : n + 1 = m := h
      show BitVec.ofNat 32 n = BitVec.ofNat 32 (n + 1) - 1
      rw [BitVec.ofNat_add]
      exact (BitVec.add_sub_cancel _ _).symm
    | true =>
      obtain rfl : n = m := Nat.add_right_cancel h
      rfl

private theorem self_ne_sub (c : Word) : c ≠ c - 1#32 := by bv_omega

private theorem self_ne_add (c : Word) : c ≠ c + 1#32 := by bv_omega

private theorem sub_ne_add (c : Word) : c - 1#32 ≠ c + 1#32 := by bv_omega

variable {c : Word}

theorem self_eq_adjust {before after : Bool} : c = adjust c before after ↔ before = after := by
  unfold adjust
  cases before <;> cases after <;> simp [self_ne_sub]

theorem sub_eq_adjust {before after : Bool} :
    c - 1 = adjust c before after ↔ before = true ∧ after = false := by
  unfold adjust
  cases before <;> cases after <;> simp [(self_ne_sub c).symm, sub_ne_add]

theorem add_eq_adjust {before after : Bool} :
    c + 1 = adjust c before after ↔ before = false ∧ after = true := by
  unfold adjust
  cases before <;> cases after <;> simp [(self_ne_add c).symm, (sub_ne_add c).symm]

theorem ite_sub_eq_adjust {b before after : Bool} :
    (if b then c else c - 1) = adjust c before after ↔
      (if b then before == after else before && !after) = true := by
  cases b with
  | true => exact self_eq_adjust.trans beq_iff_eq.symm
  | false =>
    refine sub_eq_adjust.trans ?_
    cases before <;> cases after <;> decide

theorem ite_add_eq_adjust {b before after : Bool} :
    (if b then c + 1 else c) = adjust c before after ↔
      (if b then !before && after else before == after) = true := by
  cases b with
  | true =>
    refine add_eq_adjust.trans ?_
    cases before <;> cases after <;> decide
  | false => exact self_eq_adjust.trans beq_iff_eq.symm

theorem adjust_inj {d : Word} {before after : Bool}
    (h : adjust c before after = adjust d before after) : c = d := by
  unfold adjust at h
  cases before with
  | false =>
    cases after with
    | false => exact h
    | true => exact (BitVec.add_left_inj 1).mp h
  | true =>
    cases after with
    | false => exact (BitVec.sub_left_inj 1).mp h
    | true => exact h

namespace References

variable {s t : References} {j : Nat} {f : ReferenceFrame} {actually : Bool} {p : MarkedPicture}

/-- The entries of the list with any of the codes. -/
def holding (s : References) (mask : Usage) : Nat :=
  s.tally (·.usage.has mask) (s.numReferenceFrames + 1)

/-- The counters count the list. -/
structure Counted (s : References) : Prop where
  limit : s.numReferenceFrames < maxEntries
  short : s.numShortTerm = BitVec.ofNat 32 (s.holding anyUsedForShortTermReference)
  long : s.numLongTerm = BitVec.ofNat 32 (s.holding anyUsedForLongTermReference)

theorem Counted.toNat (hs : Counted s) :
    s.numShortTerm.toNat = s.holding anyUsedForShortTermReference ∧
      s.numLongTerm.toNat = s.holding anyUsedForLongTermReference := by
  have hbound : ∀ mask, s.holding mask < 2 ^ 32 := by
    intro mask
    have hle : s.holding mask ≤ s.numReferenceFrames + 1 := Lib.tally_le _ _
    have hlimit : s.numReferenceFrames < 17 := hs.limit
    omega
  rw [hs.short, hs.long, BitVec.toNat_ofNat, BitVec.toNat_ofNat,
    Nat.mod_eq_of_lt (hbound _), Nat.mod_eq_of_lt (hbound _)]
  exact ⟨rfl, rfl⟩

theorem holding_congr {mask : Usage} (hlimit : t.numReferenceFrames = s.numReferenceFrames)
    (h : ∀ i, (t.entry i).usage = (s.entry i).usage) : t.holding mask = s.holding mask := by
  unfold holding
  rw [hlimit]
  exact tally_congr fun i _ => by rw [h i]

theorem EditsEntry.holding (h : EditsEntry s t j f) (hj : j < s.numReferenceFrames + 1)
    (mask : Usage) :
    BitVec.ofNat 32 (t.holding mask) = adjust (BitVec.ofNat 32 (s.holding mask))
      ((s.entry j).usage.has mask) (f.usage.has mask) := by
  apply adjust_counter
  unfold References.holding
  rw [h.limit]
  exact h.tally (·.usage.has mask) hj

theorem EditsEntry.counted_iff (h : EditsEntry s t j f) (hj : j < s.numReferenceFrames + 1)
    (hs : Counted s) :
    Counted t ↔
      t.numShortTerm = adjust s.numShortTerm
        ((s.entry j).usage.has anyUsedForShortTermReference)
        (f.usage.has anyUsedForShortTermReference) ∧
      t.numLongTerm = adjust s.numLongTerm
        ((s.entry j).usage.has anyUsedForLongTermReference)
        (f.usage.has anyUsedForLongTermReference) := by
  rw [hs.short, hs.long, ← h.holding hj, ← h.holding hj]
  constructor
  · intro ht
    exact ⟨ht.short, ht.long⟩
  · rintro ⟨hshort, hlong⟩
    exact ⟨h.limit ▸ hs.limit, hshort, hlong⟩

/-! ## Releases and insertions -/

/-- The two kinds of codes that are counted. -/
def CountedKind (mask : Usage) : Prop :=
  mask = anyUsedForShortTermReference ∨ mask = anyUsedForLongTermReference

theorem has_of_has_clear {mask : Usage} (hmask : CountedKind mask) {u m : Usage}
    (h : (u &&& ~~~m).has mask = true) : u.has mask = true := by
  unfold Usage.has at h ⊢
  rcases hmask with rfl | rfl
  · revert u m
    decide
  · revert u m
    decide

private theorem released_eq_adjust {mask : Usage} (hmask : CountedKind mask) {u m : Usage} :
    (if u.has mask && !(u &&& ~~~m).has mask then c - 1 else c)
      = adjust c (u.has mask) ((u &&& ~~~m).has mask) := by
  unfold adjust
  cases hu : u.has mask with
  | true => rfl
  | false =>
    cases hnew : (u &&& ~~~m).has mask with
    | true => exact absurd (has_of_has_clear hmask hnew) (by rw [hu]; exact Bool.false_ne_true)
    | false => rfl

theorem counted_releaseReference_iff (hlimit : s.numReferenceFrames < maxEntries)
    (actually : Bool) (releaseUsage : Usage) (hj : j < s.numReferenceFrames + 1) :
    Counted (s.releaseReference actually j releaseUsage) ↔ Counted s := by
  have hedit := s.releaseReference_edits actually releaseUsage (Nat.lt_of_lt_of_le hj hlimit)
  obtain ⟨hshort, hlong⟩ := s.releaseReference_counters actually j releaseUsage
  have hshort := hshort.trans (released_eq_adjust (.inl rfl))
  have hlong := hlong.trans (released_eq_adjust (.inr rfl))
  constructor
  · intro ht
    refine ⟨hlimit, ?_, ?_⟩
    · exact adjust_inj (hshort.symm.trans (ht.short.trans (hedit.holding hj _)))
    · exact adjust_inj (hlong.symm.trans (ht.long.trans (hedit.holding hj _)))
  · intro hs
    exact (hedit.counted_iff hj hs).mpr ⟨hshort, hlong⟩

theorem counted_releasesOne_iff (hlimit : s.numReferenceFrames < maxEntries)
    (h : ReleasesOne actually s t) : Counted t ↔ Counted s := by
  rcases h with rfl | ⟨j, releaseUsage, hj, _, rfl⟩
  · exact Iff.rfl
  · exact counted_releaseReference_iff hlimit actually releaseUsage hj

/-! ### Second fields -/

private theorem joined_short {m : Masks} (hm : m = Masks.bottom ∨ m = Masks.top) {u : Usage}
    (hown : u.has (m.short ||| m.long) = false) :
    (u ||| m.short).has m.otherShort = u.has anyUsedForShortTermReference ∧
      (u ||| m.short).has anyUsedForShortTermReference = true ∧
      (u ||| m.short).has anyUsedForLongTermReference = u.has anyUsedForLongTermReference := by
  unfold Usage.has at hown ⊢
  rcases hm with rfl | rfl
  · revert u
    decide
  · revert u
    decide

private theorem joined_long {m : Masks} (hm : m = Masks.bottom ∨ m = Masks.top) {u : Usage}
    (hown : u.has (m.short ||| m.long) = false) :
    (u ||| m.long).has m.otherLong = u.has anyUsedForLongTermReference ∧
      (u ||| m.long).has anyUsedForLongTermReference = true ∧
      (u ||| m.long).has anyUsedForShortTermReference = u.has anyUsedForShortTermReference := by
  unfold Usage.has at hown ⊢
  rcases hm with rfl | rfl
  · revert u
    decide
  · revert u
    decide

private theorem joined_eq_adjust {b : Bool} : (if !b then c + 1 else c) = adjust c b true := by
  cases b <;> rfl

theorem Counted.addSecondField (hs : Counted s) (actually : Bool) (hfield : p.header.fieldPicFlag)
    (hj : j < s.numReferenceFrames + 1)
    (hown : (s.entry j).usage.has (p.header.masks.short ||| p.header.masks.long) = false) :
    Counted (s.addSecondField actually p j) := by
  have hedit := s.addSecondField_edits actually p (Nat.lt_of_lt_of_le hj hs.limit)
  have hm := masks_field hfield
  obtain ⟨hos, hsame, hkeep⟩ := joined_short hm hown
  obtain ⟨hol, hsame', hkeep'⟩ := joined_long hm hown
  apply (hedit.counted_iff hj hs).mpr
  unfold References.addSecondField
  rw [codecRelease_numShortTerm, codecRelease_numLongTerm]
  cases hlong : p.header.decRefPicMarking.longTermReferenceFlag with
  | true =>
    have husage : (pairedEntry (s.entry j) p).usage = (s.entry j).usage ||| p.header.masks.long := by
      unfold pairedEntry
      simp only [hlong, if_true]
    simp only [husage, hol, hsame', hkeep', Bool.not_true, Bool.false_and, Bool.true_and,
      Bool.false_eq_true, if_false]
    exact ⟨self_eq_adjust.mpr rfl, joined_eq_adjust⟩
  | false =>
    have husage : (pairedEntry (s.entry j) p).usage
        = (s.entry j).usage ||| p.header.masks.short := by
      unfold pairedEntry
      simp only [hlong, Bool.false_eq_true, if_false]
    simp only [husage, hos, hsame, hkeep, Bool.not_false, Bool.false_and, Bool.true_and,
      Bool.false_eq_true, if_false]
    exact ⟨joined_eq_adjust, self_eq_adjust.mpr rfl⟩

theorem Counted.secondField (hs : Counted s) (actually : Bool) (p : MarkedPicture) :
    Counted (s.secondField actually p).refs ∧
      (s.secondField actually p).currentEntry
        < (s.secondField actually p).refs.numReferenceFrames + 1 := by
  obtain ⟨⟨hcounted, hcur⟩, hlimit⟩ := secondField_inv
    (P := fun u => Counted u.refs ∧ u.currentEntry < s.numReferenceFrames + 1) actually p hs.limit
    ⟨hs, Nat.succ_pos _⟩ (fun u hu => hu)
    (fun u k hu hsame hk hfield _ hown =>
      ⟨hu.1.addSecondField actually hfield (hsame.symm ▸ hk) hown, hk⟩)
  exact ⟨hcounted, hlimit.symm ▸ hcur⟩

/-! ### IDR and insertion -/

theorem Counted.releaseEveryone (hs : s.numReferenceFrames < maxEntries) (actually : Bool) :
    Counted (s.releaseEveryone actually) := by
  obtain ⟨hlimit, hentries⟩ := s.releaseEveryone_entries actually hs
  have hzero : ∀ mask, (s.releaseEveryone actually).holding mask = 0 := by
    intro mask
    apply Lib.tally_eq_zero
    intro i hi
    rw [hlimit] at hi
    show ((s.releaseEveryone actually).entry i).usage.has mask = false
    rw [(hentries i).1, if_pos hi, notUsed_has]
  refine ⟨hlimit ▸ hs, ?_, ?_⟩
  · rw [hzero]
    rfl
  · rw [hzero]
    rfl

private theorem new_codes (h : SliceHeader) :
    h.masks.short.has anyUsedForShortTermReference = true ∧
      h.masks.short.has anyUsedForLongTermReference = false ∧
      h.masks.long.has anyUsedForShortTermReference = false ∧
      h.masks.long.has anyUsedForLongTermReference = true := by
  cases hf : h.fieldPicFlag with
  | true =>
    rcases masks_field hf with hm | hm
    · rw [hm]
      decide
    · rw [hm]
      decide
  | false =>
    rw [masks_frame hf]
    decide

theorem Counted.insertAt (hs : Counted s) (p : MarkedPicture) (hj : j < s.numReferenceFrames + 1)
    (hfree : (s.entry j).usage = notUsedForReference) : Counted (s.insertAt p j) := by
  obtain ⟨hss, hsl, hls, hll⟩ := new_codes p.header
  apply ((s.insertAt_edits p (Nat.lt_of_lt_of_le hj hs.limit)).counted_iff hj hs).mpr
  rw [hfree]
  unfold References.insertAt newEntry
  cases p.header.decRefPicMarking.longTermReferenceFlag with
  | true =>
    simp only [if_true, hls, hll]
    exact ⟨self_eq_adjust.mpr rfl, add_eq_adjust.mpr ⟨rfl, rfl⟩⟩
  | false =>
    simp only [Bool.false_eq_true, if_false, hss, hsl]
    exact ⟨add_eq_adjust.mpr ⟨rfl, rfl⟩, self_eq_adjust.mpr rfl⟩

theorem Counted.insertCurrent (hs : Counted s) (p : MarkedPicture) :
    Counted (s.insertCurrent p).1 := by
  unfold References.insertCurrent
  split
  · exact hs
  · next i hfree =>
    obtain ⟨hi, hunused⟩ := firstEntry_some hfree
    exact hs.insertAt p hi (by simpa using hunused)

/-! ### Sliding window -/

theorem Counted.slidingWindow (hs : Counted s) (actually : Bool) (h : SliceHeader)
    (currentEntry : Nat) : Counted (s.slidingWindow actually h currentEntry) := by
  unfold References.slidingWindow
  split
  · exact (counted_releaseReference_iff hs.limit actually _ (s.slidingEntry_lt h currentEntry)).mpr hs
  · exact hs

/-! ## Commands -/

theorem Counted.calculatePicNums (hs : Counted s) (h : SliceHeader) :
    Counted (s.calculatePicNums h) := by
  have hsame := s.calculatePicNums_same h hs.limit
  refine ⟨hsame.limit ▸ hs.limit, ?_, ?_⟩
  · rw [hsame.numShortTerm, hs.short, holding_congr hsame.limit hsame.usage]
  · rw [hsame.numLongTerm, hs.long, holding_congr hsame.limit hsame.usage]

theorem Counted.specifyMaxLongTermIndex (hs : Counted s) (actually : Bool) (maxPlus1 : Word) :
    Counted (s.specifyMaxLongTermIndex actually maxPlus1) := by
  have hloop : Counted (forUpTo (maxIndexStep actually maxPlus1) s (s.numReferenceFrames + 1)) := by
    refine (forUpTo_inv (P := fun _ (t : References) =>
      Counted t ∧ t.numReferenceFrames = s.numReferenceFrames) ⟨hs, rfl⟩ ?_).1
    intro k t hk ⟨ht, hsame⟩
    have hone := maxIndexStep_releasesOne actually maxPlus1 (hsame.symm ▸ hk : k < t.numReferenceFrames + 1)
    exact ⟨(counted_releasesOne_iff ht.limit hone).mpr ht, (hone.limit ht.limit).trans hsame⟩
  exact ⟨hloop.limit, hloop.short, hloop.long⟩

variable {h : SliceHeader}

theorem counted_assignFrame_iff (hs : Counted s) (hf : h.fieldPicFlag = false)
    (longTermFrameIdx : Word) (hj : j < s.numReferenceFrames + 1) :
    Counted (s.assignFrame longTermFrameIdx h j) ↔
      (s.entry j).usage = anyUsedForShortTermReference := by
  have hedit := s.assignFrame_edits longTermFrameIdx h (Nat.lt_of_lt_of_le hj hs.limit)
  rw [hedit.counted_iff hj hs]
  unfold assignedFrame
  rw [masks_frame hf]
  refine (and_congr sub_eq_adjust add_eq_adjust).trans ?_
  simp only
  generalize (s.entry j).usage = u
  unfold Usage.has
  revert u
  decide

theorem fieldCodes_cases (hf : h.fieldPicFlag = true) (x : Word) (f : ReferenceFrame) :
    fieldCodes h x f = (usedForTopShortTermReference, usedForTopLongTermReference) ∨
      fieldCodes h x f = (usedForBotShortTermReference, usedForBotLongTermReference) := by
  unfold fieldCodes
  rcases masks_field hf with hm | hm
  · rw [hm]
    split
    · exact .inl rfl
    · exact .inr rfl
  · rw [hm]
    split
    · exact .inr rfl
    · exact .inl rfl

theorem counted_assignField_iff (hs : Counted s) (hf : h.fieldPicFlag = true)
    (longTermFrameIdx x : Word) (hj : j < s.numReferenceFrames + 1)
    (hshort : (s.entry j).usage.has anyUsedForShortTermReference = true) :
    Counted (s.assignField longTermFrameIdx x h j) ↔
      (s.entry j).usage &&& anyUsedForLongTermReference ≠ (fieldCodes h x (s.entry j)).2 := by
  have hedit := s.assignField_edits longTermFrameIdx x h (Nat.lt_of_lt_of_le hj hs.limit)
  rw [hedit.counted_iff hj hs]
  refine (and_congr ite_sub_eq_adjust ite_add_eq_adjust).trans ?_
  unfold assignedField
  simp only
  have hc := fieldCodes_cases hf x (s.entry j)
  generalize fieldCodes h x (s.entry j) = codes at hc ⊢
  generalize (s.entry j).usage = u at hshort ⊢
  unfold Usage.has at hshort ⊢
  rcases hc with rfl | rfl
  · revert u
    decide
  · revert u
    decide

theorem counted_assignCurrent_iff (hs : Counted s) (hidr : h.idr = false) (longTermFrameIdx : Word)
    (hj : j < s.numReferenceFrames + 1) :
    Counted (s.assignCurrent h longTermFrameIdx j) ↔
      (s.entry j).usage.has anyUsedForShortTermReference = true ∧
        if h.fieldPicFlag then (s.entry j).usage &&& anyUsedForLongTermReference ≠ h.masks.long
        else (s.entry j).usage.has anyUsedForLongTermReference = false := by
  have hedit := s.assignCurrent_edits longTermFrameIdx h (Nat.lt_of_lt_of_le hj hs.limit)
  rw [hedit.counted_iff hj hs]
  unfold assignCurrent assignedCurrent
  rw [h.nonIdr_marking hidr]
  refine (and_congr ite_sub_eq_adjust ite_add_eq_adjust).trans ?_
  simp only
  generalize (s.entry j).usage = u
  unfold Usage.has
  cases hf : h.fieldPicFlag with
  | true =>
    rcases masks_field hf with hm | hm
    · rw [hm]
      revert u
      decide
    · rw [hm]
      revert u
      decide
  | false =>
    rw [masks_frame hf]
    revert u
    decide

theorem counted_clear_iff (hs : Counted s) (hidr : p.header.idr = false) (actually : Bool)
    (hj : j < s.numReferenceFrames + 1) :
    Counted (s.clear actually p j) ↔
      (s.entry j).usage.has anyUsedForShortTermReference = true ∧
        (s.entry j).usage.has anyUsedForLongTermReference = false := by
  obtain ⟨hsame, hentries⟩ := s.clearOthers_entries actually j hs.limit
  have hedit := s.clear_edits actually p (Nat.lt_of_lt_of_le hj hs.limit)
  have hholding : ∀ mask, (s.clear actually p j).holding mask
      = ((s.entry j).usage.has mask).toNat := by
    intro mask
    have hlist : (s.clear actually p j).numReferenceFrames = s.numReferenceFrames :=
      hedit.limit.trans hsame
    have husage : ((s.clear actually p j).entry j).usage = (s.entry j).usage := by
      rw [hedit.same]
      exact (hentries j).1.trans (if_neg fun h => h.2 rfl)
    have hothers : ∀ i, i < s.numReferenceFrames + 1 → i ≠ j →
        ((s.clear actually p j).entry i).usage.has mask = false := by
      intro i hi hij
      rw [hedit.other i hij, (hentries i).1, if_pos ⟨hi, hij⟩, notUsed_has]
    unfold References.holding References.tally
    rw [hlist, Lib.tally_single hj hothers]
    show (((s.clear actually p j).entry j).usage.has mask).toNat = _
    rw [husage]
  have hshort : (s.clear actually p j).numShortTerm = 1 := by
    unfold References.clear
    rw [p.header.nonIdr_marking hidr]
    rfl
  have hlong : (s.clear actually p j).numLongTerm = 0 := by
    unfold References.clear
    rw [p.header.nonIdr_marking hidr]
    rfl
  constructor
  · intro ht
    have hs' := ht.short
    have hl' := ht.long
    rw [hshort, hholding] at hs'
    rw [hlong, hholding] at hl'
    constructor
    · cases hb : (s.entry j).usage.has anyUsedForShortTermReference with
      | true => rfl
      | false => rw [hb] at hs'; exact absurd hs' (by decide)
    · cases hb : (s.entry j).usage.has anyUsedForLongTermReference with
      | true => rw [hb] at hl'; exact absurd hl' (by decide)
      | false => rfl
  · rintro ⟨hb, hb'⟩
    refine ⟨(hedit.limit.trans hsame) ▸ hs.limit, ?_, ?_⟩
    · rw [hshort, hholding, hb]
      rfl
    · rw [hlong, hholding, hb']
      rfl

/-- When a command moves the counters with the entry it assigns. -/
def KeepsCounts (actually : Bool) (p : MarkedPicture) (currentEntry : Nat) (s : References) :
    MemoryManagementControl → Prop
  | .assignLongTermIndexToShortTermPicture difference longTermFrameIdx =>
    let x := picNumX p.header difference
    if p.header.fieldPicFlag then
      -- the field that gets the index is not long term already
      ∀ j ∈ s.firstEntry (matchesShort p.header x),
        (s.entry j).usage &&& anyUsedForLongTermReference ≠ (fieldCodes p.header x (s.entry j)).2
    else
      -- both fields of the frame are short term, and only that
      let s := s.releaseIndex actually longTermFrameIdx none
      ∀ j ∈ s.firstEntry (matchesShort p.header x),
        (s.entry j).usage = anyUsedForShortTermReference
  | .clear =>
    -- the current frame is short term, and only that
    (s.entry currentEntry).usage.has anyUsedForShortTermReference = true ∧
      (s.entry currentEntry).usage.has anyUsedForLongTermReference = false
  | .assignLongTermIndexToCurrentDecodedPicture _ =>
    -- the current frame is short term, and its own codes are not the long-term ones
    (s.entry currentEntry).usage.has anyUsedForShortTermReference = true ∧
      if p.header.fieldPicFlag then
        (s.entry currentEntry).usage &&& anyUsedForLongTermReference ≠ p.header.masks.long
      else (s.entry currentEntry).usage.has anyUsedForLongTermReference = false
  | _ => True

instance (actually : Bool) (p : MarkedPicture) (currentEntry : Nat) (s : References) :
    ∀ c, Decidable (KeepsCounts actually p currentEntry s c)
  | .markShortTermUnusedForReference _ => inferInstanceAs (Decidable True)
  | .markLongTermUnusedForReference _ => inferInstanceAs (Decidable True)
  | .assignLongTermIndexToShortTermPicture _ _ => by
    dsimp only [KeepsCounts]
    infer_instance
  | .specifyMaxLongTermIndex _ => inferInstanceAs (Decidable True)
  | .clear => inferInstanceAs (Decidable (_ ∧ _))
  | .assignLongTermIndexToCurrentDecodedPicture _ => inferInstanceAs (Decidable (_ ∧ _))

/-- **A command keeps the counters right exactly when it counts what it assigns.** -/
theorem applyControl_counted_iff (hs : Counted s) (hidr : p.header.idr = false)
    (actually : Bool) {currentEntry : Nat} (hcur : currentEntry < s.numReferenceFrames + 1)
    (c : MemoryManagementControl) :
    Counted (applyControl actually p currentEntry s c) ↔ KeepsCounts actually p currentEntry s c := by
  cases c with
  | markShortTermUnusedForReference difference =>
    have hone := s.markShortTermUnused_releasesOne actually p.header difference
    exact iff_of_true ((counted_releasesOne_iff hs.limit hone).mpr hs) trivial
  | markLongTermUnusedForReference longTermPicNum =>
    have hone := s.markLongTermUnused_releasesOne actually p.header longTermPicNum
    exact iff_of_true ((counted_releasesOne_iff hs.limit hone).mpr hs) trivial
  | specifyMaxLongTermIndex maxPlus1 =>
    exact iff_of_true (hs.specifyMaxLongTermIndex actually maxPlus1) trivial
  | clear => exact counted_clear_iff hs hidr actually hcur
  | assignLongTermIndexToCurrentDecodedPicture longTermFrameIdx =>
    have hone := s.releaseIndex_releasesOne actually longTermFrameIdx (some currentEntry)
    have hreleased := (counted_releasesOne_iff hs.limit hone).mpr hs
    have hcur' := (hone.limit hs.limit).symm ▸ hcur
    have hiff := counted_assignCurrent_iff hreleased hidr longTermFrameIdx hcur'
    rw [s.releaseIndex_except actually longTermFrameIdx hs.limit] at hiff
    exact hiff
  | assignLongTermIndexToShortTermPicture difference longTermFrameIdx =>
    unfold applyControl assignLongTermIndex KeepsCounts
    cases hf : p.header.fieldPicFlag with
    | true =>
      simp only [if_true]
      cases hfound : s.firstEntry (matchesShort p.header (picNumX p.header difference)) with
      | none =>
        have hone := s.releaseIndex_releasesOne actually longTermFrameIdx none
        exact iff_of_true ((counted_releasesOne_iff hs.limit hone).mpr hs) (by simp)
      | some j =>
        obtain ⟨hj, hmatch⟩ := firstEntry_some hfound
        unfold matchesShort at hmatch
        rw [Bool.and_eq_true] at hmatch
        have hedit := s.assignField_edits longTermFrameIdx (picNumX p.header difference) p.header
          (Nat.lt_of_lt_of_le hj hs.limit)
        have hone := (s.assignField longTermFrameIdx (picNumX p.header difference) p.header
          j).releaseIndex_releasesOne actually longTermFrameIdx (some j)
        have hassign := counted_assignField_iff hs hf longTermFrameIdx
          (picNumX p.header difference) hj hmatch.1
        simp only [Option.mem_some_iff, forall_eq']
        exact (counted_releasesOne_iff (hedit.limit.symm ▸ hs.limit) hone).trans hassign
    | false =>
      simp only [Bool.false_eq_true, if_false]
      have hone := s.releaseIndex_releasesOne actually longTermFrameIdx none
      have hreleased := (counted_releasesOne_iff hs.limit hone).mpr hs
      generalize s.releaseIndex actually longTermFrameIdx none = t at hreleased ⊢
      cases hfound : t.firstEntry (matchesShort p.header (picNumX p.header difference)) with
      | none => exact iff_of_true hreleased (by simp)
      | some j =>
        simp only [Option.mem_some_iff, forall_eq']
        exact counted_assignFrame_iff hreleased hf longTermFrameIdx (firstEntry_some hfound).1

/-! ## Runs -/

theorem Counted.enter (hs : Counted s) (actually : Bool) (p : MarkedPicture) :
    Counted (s.enter actually p).1 ∧
      (s.enter actually p).2 < (s.enter actually p).1.numReferenceFrames + 1 := by
  obtain ⟨hsecond, hcur⟩ := hs.secondField actually p
  unfold References.enter
  simp only
  split
  · exact ⟨hsecond, hcur⟩
  · split
    · have hreleased := Counted.releaseEveryone hsecond.limit actually
      obtain ⟨hlimit, hlt⟩ := insertCurrent_limit _ p hreleased.limit
      exact ⟨hreleased.insertCurrent p, hlimit.symm ▸ hlt⟩
    · obtain ⟨hlimit, hlt⟩ := insertCurrent_limit _ p hsecond.limit
      exact ⟨hsecond.insertCurrent p, hlimit.symm ▸ hlt⟩

/-- Every command of a picture that has any counts what it assigns, in the table
it finds. -/
def CommandsKeepCounts (actually : Bool) (s : References) (p : MarkedPicture) : Prop :=
  let r := s.enter actually p
  p.header.decRefPicMarking.adaptiveRefPicMarkingModeFlag = true →
    (s.secondField actually p).syntaxError = false →
      Along (applyControl actually p r.2) (KeepsCounts actually p r.2)
        (r.1.calculatePicNums p.header)
        p.header.decRefPicMarking.memoryManagementControlOperation

instance (actually : Bool) (s : References) (p : MarkedPicture) :
    Decidable (CommandsKeepCounts actually s p) :=
  inferInstanceAs (Decidable (_ = true → _ = false → Along _ _ _ _))

theorem Counted.manage {currentEntry : Nat} (hs : Counted s)
    (hcur : currentEntry < s.numReferenceFrames + 1)
    (hcommands : p.header.decRefPicMarking.adaptiveRefPicMarkingModeFlag = true →
      Along (applyControl actually p currentEntry) (KeepsCounts actually p currentEntry)
        (s.calculatePicNums p.header)
        p.header.decRefPicMarking.memoryManagementControlOperation) :
    Counted (s.manage actually p currentEntry) := by
  unfold References.manage
  split
  · exact hs
  · next hidr =>
    split
    · exact hs.slidingWindow actually p.header currentEntry
    · next hadaptive =>
      have hidr : p.header.idr = false := by simpa using hidr
      have hadaptive : p.header.decRefPicMarking.adaptiveRefPicMarkingModeFlag = true := by
        simpa using hadaptive
      have hsame := s.calculatePicNums_same p.header hs.limit
      refine (foldl_inv (P := fun t : References =>
        Counted t ∧ t.numReferenceFrames = s.numReferenceFrames) ?_ _ (hcommands hadaptive)
        ⟨hs.calculatePicNums p.header, hsame.limit⟩).1
      intro t c hkeeps ⟨ht, hlimit⟩
      have hiff := applyControl_counted_iff ht hidr actually (hlimit.symm ▸ hcur) c
      exact ⟨hiff.mpr hkeeps, (applyControl_limit ht.limit actually p
        (hlimit.symm ▸ hcur) c).trans hlimit⟩

theorem Counted.markReferencePictures (hs : Counted s)
    (hcommands : CommandsKeepCounts actually s p) :
    Counted (s.markReferencePictures actually p) := by
  unfold References.markReferencePictures
  simp only
  split
  · exact (hs.secondField actually p).1
  · next herror =>
    obtain ⟨henter, hcur⟩ := hs.enter actually p
    exact henter.manage hcur fun hadaptive => hcommands hadaptive (by simpa using herror)

theorem Counted.updateReferenceFrameList (hs : Counted s) (hlimit : LimitFixed s p)
    (hcommands : CommandsKeepCounts actually (s.withLimit p) p) :
    Counted (s.updateReferenceFrameList actually p) := by
  unfold References.updateReferenceFrameList
  rcases hlimit with heq | ⟨hidr, hopens⟩
  · have hsame : s.withLimit p = s := by
      unfold withLimit
      rw [heq]
    rw [hsame] at hcommands ⊢
    exact hs.markReferencePictures hcommands
  · -- the counters of another limit: an IDR starts them again
    have hbound : (s.withLimit p).numReferenceFrames < maxEntries :=
      Nat.lt_succ_of_le p.header.sps.numRefFrames_le
    unfold References.markReferencePictures References.enter References.manage
    rw [secondField_none (s.withLimit p) actually p hopens, if_pos hidr]
    simp only [Bool.false_eq_true, if_false]
    rw [if_pos hidr]
    exact (Counted.releaseEveryone hbound actually).insertCurrent p

theorem Counted.start (sps : SequenceParameterSet) : Counted (start sps) := by
  have hzero : ∀ mask, (References.start sps).holding mask = 0 := by
    intro mask
    apply Lib.tally_eq_zero
    intro i _
    show (Table.read ReferenceFrame.zero (Vector.replicate maxEntries _) i).usage.has mask = false
    rw [Table.read_replicate]
    exact notUsed_has mask
  refine ⟨Nat.lt_succ_of_le sps.numRefFrames_le, ?_, ?_⟩
  · rw [hzero]
    rfl
  · rw [hzero]
    rfl

/-- **The reference counters match the reference list**, without wrapping, after
every run of pictures whose commands count what they assign. -/
theorem referenceCounters_match (actually : Bool) (sps : SequenceParameterSet)
    {ps : List MarkedPicture}
    (hlimit : Along (updateReferenceFrameList · actually ·) LimitFixed (start sps) ps)
    (hcommands : Along (updateReferenceFrameList · actually ·)
      (fun s p => CommandsKeepCounts actually (s.withLimit p) p) (start sps) ps) :
    let s := ps.foldl (updateReferenceFrameList · actually ·) (start sps)
    s.numShortTerm.toNat = s.holding anyUsedForShortTermReference ∧
      s.numLongTerm.toNat = s.holding anyUsedForLongTermReference := by
  have hcounted := foldl_inv (P := Counted)
    (fun {s p} (hok : LimitFixed s p ∧ CommandsKeepCounts actually (s.withLimit p) p) hs =>
      hs.updateReferenceFrameList hok.1 hok.2) ps (hlimit.and hcommands) (Counted.start sps)
  exact hcounted.toNat

/-- Long-term indices for a short-term frame and for the current one, a clear, and
an IDR. -/
theorem referenceCounters_match_assigned :
    let ps := [shortPicture true 0 [] 0, shortPicture false 1 [] 1,
      shortPicture false 2 [.assignLongTermIndexToShortTermPicture 0 1,
        .assignLongTermIndexToCurrentDecodedPicture 0] 2,
      shortPicture false 3 [.clear, .assignLongTermIndexToCurrentDecodedPicture 0] 3,
      shortPicture true 0 [] 4]
    let s := ps.foldl (updateReferenceFrameList · true ·) (start shortSps)
    s.numShortTerm.toNat = s.holding anyUsedForShortTermReference ∧
      s.numLongTerm.toNat = s.holding anyUsedForLongTermReference :=
  referenceCounters_match true shortSps (by decide +kernel) (by decide +kernel)

/-- After a clear, two assignments to the current frame: the second counts a
short-term frame less, where there is none, and a long-term frame more. -/
theorem referenceCounters_wrong_on_second_assignment :
    let ps := [shortPicture true 0 [] 0, shortPicture false 1 [.clear,
      .assignLongTermIndexToCurrentDecodedPicture 0,
      .assignLongTermIndexToCurrentDecodedPicture 0] 1]
    let s := ps.foldl (updateReferenceFrameList · true ·) (start shortSps)
    Along (updateReferenceFrameList · true ·) LimitFixed (start shortSps) ps ∧
      s.numShortTerm = 0xffffffff ∧ s.holding anyUsedForShortTermReference = 0 ∧
      s.numLongTerm = 2 ∧ s.holding anyUsedForLongTermReference = 1 := by
  decide +kernel

end References

end Duckbox.H264
