import Duckbox.H264.References

/-!
# What an operation does to the reference table

Every operation on the table is a sequence of edits of one entry each: a release
clears codes of an entry, a command moves codes of an entry, an insertion fills
an entry. `EditsEntry s t j f` is such an edit; what it does to a count over the
table is `EditsEntry.tally`, the one fact both the counters and the releases
are proved from.
-/

namespace Duckbox.H264

open Duckbox.Lib

/-! ## Codes -/

@[simp] theorem notUsed_has (mask : Usage) : notUsedForReference.has mask = false := by
  simp [Usage.has, notUsedForReference]

theorem clear_any (u : Usage) : u &&& ~~~anyUsedForReference = notUsedForReference := by
  revert u
  decide

theorem masks_field {h : SliceHeader} (hf : h.fieldPicFlag = true) :
    h.masks = Masks.bottom ∨ h.masks = Masks.top := by
  unfold SliceHeader.masks
  rw [if_pos hf]
  cases h.bottomFieldFlag with
  | true => exact .inl rfl
  | false => exact .inr rfl

theorem masks_frame {h : SliceHeader} (hf : h.fieldPicFlag = false) : h.masks = Masks.frame := by
  unfold SliceHeader.masks
  rw [hf]
  rfl

namespace References

variable {s t : References} {i j k : Nat} {f : ReferenceFrame}

/-! ## Reading the table -/

theorem entry_setEntry_eq (h : i < maxEntries) : (s.setEntry i f).entry i = f :=
  Table.read_write_eq h

theorem entry_setEntry_ne (h : i ≠ j) : (s.setEntry i f).entry j = s.entry j :=
  Table.read_write_ne h

@[simp] theorem codecRelease_frames (s : References) (actually : Bool) (d : Nat) :
    (s.codecRelease actually d).frames = s.frames := by
  unfold codecRelease
  split <;> rfl

@[simp] theorem codecRelease_numReferenceFrames (s : References) (actually : Bool) (d : Nat) :
    (s.codecRelease actually d).numReferenceFrames = s.numReferenceFrames := by
  unfold codecRelease
  split <;> rfl

@[simp] theorem codecRelease_numShortTerm (s : References) (actually : Bool) (d : Nat) :
    (s.codecRelease actually d).numShortTerm = s.numShortTerm := by
  unfold codecRelease
  split <;> rfl

@[simp] theorem codecRelease_numLongTerm (s : References) (actually : Bool) (d : Nat) :
    (s.codecRelease actually d).numLongTerm = s.numLongTerm := by
  unfold codecRelease
  split <;> rfl

@[simp] theorem codecRelease_entry (s : References) (actually : Bool) (d i : Nat) :
    (s.codecRelease actually d).entry i = s.entry i := by
  unfold entry
  rw [codecRelease_frames]

theorem find_entry {q : Nat → Bool}
    (h : (List.range (s.numReferenceFrames + 1)).find? q = some j) :
    j < s.numReferenceFrames + 1 ∧ q j = true :=
  ⟨List.mem_range.mp (List.mem_of_find?_eq_some h), List.find?_some h⟩

variable {q : ReferenceFrame → Bool}

theorem firstEntry_some (h : s.firstEntry q = some j) :
    j < s.numReferenceFrames + 1 ∧ q (s.entry j) = true :=
  find_entry h

theorem firstEntry_none (h : s.firstEntry q = none) (hi : i < s.numReferenceFrames + 1) :
    q (s.entry i) = false := by
  have hnot := List.find?_eq_none.mp h i (List.mem_range.mpr hi)
  simpa using hnot

/-! ## Edits of one entry -/

/-- `t` has `f` where `s` has entry `j`, and the same list otherwise. -/
structure EditsEntry (s t : References) (j : Nat) (f : ReferenceFrame) : Prop where
  limit : t.numReferenceFrames = s.numReferenceFrames
  same : t.entry j = f
  other : ∀ i, i ≠ j → t.entry i = s.entry i

theorem editsEntry_of_frames (hj : j < maxEntries) (hframes : t.frames = (s.setEntry j f).frames)
    (hlimit : t.numReferenceFrames = s.numReferenceFrames) : EditsEntry s t j f := by
  have hentry : ∀ i, t.entry i = (s.setEntry j f).entry i := by
    intro i
    unfold entry
    rw [hframes]
  refine ⟨hlimit, ?_, ?_⟩
  · rw [hentry, entry_setEntry_eq hj]
  · intro i hi
    rw [hentry, entry_setEntry_ne hi.symm]

/-- How many of the first `k` entries satisfy `q`. -/
def tally (s : References) (q : ReferenceFrame → Bool) (k : Nat) : Nat :=
  Lib.tally (fun i => q (s.entry i)) k

theorem tally_congr (h : ∀ i, i < k → q (t.entry i) = q (s.entry i)) : t.tally q k = s.tally q k :=
  Lib.tally_congr h

theorem EditsEntry.tally (h : EditsEntry s t j f) (q : ReferenceFrame → Bool) (hj : j < k) :
    t.tally q k + (q (s.entry j)).toNat = s.tally q k + (q f).toNat := by
  have hchange := Lib.tally_change (q := fun i => q (s.entry i)) (r := fun i => q (t.entry i))
    (fun i hi => congrArg q (h.other i hi)) hj
  simp only [h.same] at hchange
  exact hchange

/-! ## The edits -/

/-- What `ReleaseReference` leaves of an entry. -/
def releasedEntry (f : ReferenceFrame) (releaseUsage : Usage) : ReferenceFrame :=
  { f with usage := f.usage &&& ~~~releaseUsage }

theorem releaseReference_edits (s : References) (actually : Bool) (releaseUsage : Usage)
    (hj : j < maxEntries) :
    EditsEntry s (s.releaseReference actually j releaseUsage) j
      (releasedEntry (s.entry j) releaseUsage) := by
  refine editsEntry_of_frames hj ?_ ?_
  · show (References.codecRelease _ _ _).frames = _
    rw [codecRelease_frames]
    rfl
  · show (References.codecRelease _ _ _).numReferenceFrames = _
    rw [codecRelease_numReferenceFrames]
    rfl

theorem releaseReference_released (s : References) (actually : Bool) (releaseUsage : Usage)
    (hj : j < maxEntries) :
    (s.releaseReference actually j releaseUsage).released =
      if actually && (s.entry j).usage &&& ~~~releaseUsage == notUsedForReference
      then s.released ++ [(s.entry j).decodeFrameIndex] else s.released := by
  have hdecode : ((s.setUsage j ((s.entry j).usage &&& ~~~releaseUsage)).entry j).decodeFrameIndex
      = (s.entry j).decodeFrameIndex := by
    unfold setUsage
    rw [entry_setEntry_eq hj]
  unfold releaseReference
  simp only [hdecode]
  unfold codecRelease
  split <;> rfl

theorem releaseReference_counters (s : References) (actually : Bool) (j : Nat)
    (releaseUsage : Usage) :
    let u := (s.entry j).usage
    (s.releaseReference actually j releaseUsage).numShortTerm =
        (if u.has anyUsedForShortTermReference
            && !(u &&& ~~~releaseUsage).has anyUsedForShortTermReference
          then s.numShortTerm - 1 else s.numShortTerm) ∧
      (s.releaseReference actually j releaseUsage).numLongTerm =
        (if u.has anyUsedForLongTermReference
            && !(u &&& ~~~releaseUsage).has anyUsedForLongTermReference
          then s.numLongTerm - 1 else s.numLongTerm) := by
  unfold releaseReference
  simp only [codecRelease_numShortTerm, codecRelease_numLongTerm]
  exact ⟨rfl, rfl⟩

theorem addSecondField_edits (s : References) (actually : Bool) (p : MarkedPicture)
    (hj : j < maxEntries) :
    EditsEntry s (s.addSecondField actually p j) j (pairedEntry (s.entry j) p) := by
  refine editsEntry_of_frames hj ?_ ?_
  · unfold addSecondField
    rw [codecRelease_frames]
  · unfold addSecondField
    rw [codecRelease_numReferenceFrames]
    rfl

theorem secondField_inv {P : SecondField → Prop} (actually : Bool) (p : MarkedPicture)
    (hlimit : s.numReferenceFrames < maxEntries) (h0 : P ⟨s, 0, false, false⟩)
    (herror : ∀ u, P u → P { u with syntaxError := true })
    (hadd : ∀ (u : SecondField) (k : Nat), P u →
      u.refs.numReferenceFrames = s.numReferenceFrames → k < s.numReferenceFrames + 1 →
      p.header.fieldPicFlag = true → p.isFirstField (u.refs.entry k) = true →
      (u.refs.entry k).usage.has (p.header.masks.short ||| p.header.masks.long) = false →
      P { u with
        refs := u.refs.addSecondField actually p k
        currentEntry := k
        secondFieldEntry := true }) :
    P (s.secondField actually p) ∧
      (s.secondField actually p).refs.numReferenceFrames = s.numReferenceFrames := by
  unfold secondField
  split
  · next hfield =>
    refine forUpTo_inv
      (P := fun _ (u : SecondField) => P u ∧ u.refs.numReferenceFrames = s.numReferenceFrames)
      ⟨h0, rfl⟩ ?_
    intro k u hk ⟨hu, hsame⟩
    unfold SecondField.step
    simp only
    split
    · next hfirst =>
      rw [Bool.and_eq_true] at hfirst
      split
      · exact ⟨herror u hu, hsame⟩
      · next hcodes =>
        have hown : (u.refs.entry k).usage.has (p.header.masks.short ||| p.header.masks.long)
            = false := by
          rw [Bool.or_eq_true, not_or] at hcodes
          simpa using hcodes.1
        have hedit := u.refs.addSecondField_edits actually p (Nat.lt_of_lt_of_le hk hlimit)
        exact ⟨hadd u k hu hsame hk hfield hfirst.2 hown, hedit.limit.trans hsame⟩
    · exact ⟨hu, hsame⟩
  · exact ⟨h0, rfl⟩

theorem secondField_none (s : References) (actually : Bool) (p : MarkedPicture)
    (h : p.header.fieldPicFlag = true →
      ∀ i, i < s.numReferenceFrames + 1 → p.isFirstField (s.entry i) = false) :
    s.secondField actually p = ⟨s, 0, false, false⟩ := by
  unfold secondField
  split
  · next hfield =>
    refine forUpTo_inv (P := fun _ u => u = (⟨s, 0, false, false⟩ : SecondField)) rfl ?_
    rintro k _ hk rfl
    unfold SecondField.step
    simp only [h hfield k hk, Bool.and_false, Bool.false_eq_true, if_false]
  · rfl

theorem releaseEntry_edits (s : References) (actually : Bool) (hj : j < maxEntries)
    (huse : (s.entry j).usage ≠ notUsedForReference) :
    EditsEntry s (releaseEntry actually s j) j
      { s.entry j with usage := notUsedForReference } := by
  have hif : releaseEntry actually s j
      = (s.codecRelease actually (s.entry j).decodeFrameIndex).setUsage j notUsedForReference := by
    unfold releaseEntry
    rw [if_pos (bne_iff_ne.mpr huse)]
  rw [hif]
  refine editsEntry_of_frames hj ?_ ?_
  · unfold setUsage setEntry
    rw [codecRelease_frames, codecRelease_entry]
  · exact codecRelease_numReferenceFrames s actually _

theorem releaseEntry_idle (s : References) (actually : Bool)
    (huse : (s.entry j).usage = notUsedForReference) : releaseEntry actually s j = s := by
  unfold releaseEntry
  rw [if_neg (by rw [huse]; decide)]

theorem releaseEveryone_entries (s : References) (actually : Bool)
    (hlimit : s.numReferenceFrames < maxEntries) :
    (s.releaseEveryone actually).numReferenceFrames = s.numReferenceFrames ∧
      ∀ i, ((s.releaseEveryone actually).entry i).usage =
          (if i < s.numReferenceFrames + 1 then notUsedForReference else (s.entry i).usage) ∧
        ((s.releaseEveryone actually).entry i).decodeFrameIndex
          = (s.entry i).decodeFrameIndex := by
  refine forUpTo_inv
    (P := fun k (t : References) => t.numReferenceFrames = s.numReferenceFrames ∧
      ∀ i, (t.entry i).usage = (if i < k then notUsedForReference else (s.entry i).usage) ∧
        (t.entry i).decodeFrameIndex = (s.entry i).decodeFrameIndex)
    ⟨rfl, fun i => ⟨(if_neg (Nat.not_lt_zero i)).symm, rfl⟩⟩ ?_
  intro k t hk ⟨hsame, hentries⟩
  by_cases huse : (t.entry k).usage = notUsedForReference
  · rw [releaseEntry_idle t actually huse]
    refine ⟨hsame, fun i => ⟨?_, (hentries i).2⟩⟩
    by_cases hi : i = k
    · subst hi
      rw [if_pos (Nat.lt_succ_self i)]
      exact huse
    · have hiff : i < k + 1 ↔ i < k := by omega
      simp only [hiff]
      exact (hentries i).1
  · have hedit := t.releaseEntry_edits actually (Nat.lt_of_lt_of_le hk hlimit) huse
    refine ⟨hedit.limit.trans hsame, fun i => ?_⟩
    by_cases hi : i = k
    · subst hi
      rw [hedit.same, if_pos (Nat.lt_succ_self i)]
      exact ⟨rfl, (hentries i).2⟩
    · have hiff : i < k + 1 ↔ i < k := by omega
      rw [hedit.other i hi]
      simp only [hiff]
      exact hentries i

theorem insertAt_edits (s : References) (p : MarkedPicture) (hj : j < maxEntries) :
    EditsEntry s (s.insertAt p j) j (newEntry (s.entry j) p) := by
  refine editsEntry_of_frames hj ?_ ?_
  · unfold insertAt
    split <;> rfl
  · unfold insertAt
    split <;> rfl

theorem insertAt_released (s : References) (p : MarkedPicture) (j : Nat) :
    (s.insertAt p j).released = s.released := by
  unfold insertAt
  split <;> rfl

theorem insertCurrent_limit (s : References) (p : MarkedPicture)
    (hlimit : s.numReferenceFrames < maxEntries) :
    (s.insertCurrent p).1.numReferenceFrames = s.numReferenceFrames ∧
      (s.insertCurrent p).2 < s.numReferenceFrames + 1 := by
  unfold insertCurrent
  split
  · exact ⟨rfl, Nat.succ_pos _⟩
  · next i hfree =>
    obtain ⟨hi, _⟩ := firstEntry_some hfree
    exact ⟨(s.insertAt_edits p (Nat.lt_of_lt_of_le hi hlimit)).limit, hi⟩

/-- Entries keep all but their picture numbers. -/
structure SameButNumbers (s t : References) : Prop where
  limit : t.numReferenceFrames = s.numReferenceFrames
  numLongTerm : t.numLongTerm = s.numLongTerm
  numShortTerm : t.numShortTerm = s.numShortTerm
  released : t.released = s.released
  usage : ∀ i, (t.entry i).usage = (s.entry i).usage
  decodeFrameIndex : ∀ i, (t.entry i).decodeFrameIndex = (s.entry i).decodeFrameIndex

theorem calculatePicNums_same (s : References) (h : SliceHeader)
    (hlimit : s.numReferenceFrames < maxEntries) : SameButNumbers s (s.calculatePicNums h) := by
  refine forUpTo_inv (P := fun _ t => SameButNumbers s t) ?_ ?_
  · exact ⟨rfl, rfl, rfl, rfl, fun _ => rfl, fun _ => rfl⟩
  · intro k t hk ht
    have hkt : k < maxEntries := by omega
    unfold picNumStep
    simp only
    split
    · refine ⟨ht.limit, ht.numLongTerm, ht.numShortTerm, ht.released, ?_, ?_⟩
      · intro i
        by_cases hi : k = i
        · subst hi
          rw [entry_setEntry_eq hkt]
          exact ht.usage k
        · rw [entry_setEntry_ne hi]
          exact ht.usage i
      · intro i
        by_cases hi : k = i
        · subst hi
          rw [entry_setEntry_eq hkt]
          exact ht.decodeFrameIndex k
        · rw [entry_setEntry_ne hi]
          exact ht.decodeFrameIndex i
    · exact ht

theorem slidingEntry_lt (s : References) (h : SliceHeader) (currentEntry : Nat) :
    s.slidingEntry h currentEntry < s.numReferenceFrames + 1 := by
  refine forUpTo_inv (P := fun _ (t : Int × Nat) => t.2 < s.numReferenceFrames + 1)
    (Nat.succ_pos _) ?_
  intro k t hk ht
  unfold lowestStep
  split
  · split
    · exact hk
    · exact ht
  · exact ht

/-! ## Commands that release -/

/-- `t` is `s`, or `s` with codes of an entry in use released. -/
def ReleasesOne (actually : Bool) (s t : References) : Prop :=
  t = s ∨ ∃ j releaseUsage, j < s.numReferenceFrames + 1 ∧
    (s.entry j).usage ≠ notUsedForReference ∧ t = s.releaseReference actually j releaseUsage

theorem in_use_of_has {u mask : Usage} (h : u.has mask = true) : u ≠ notUsedForReference := by
  intro hu
  rw [hu, notUsed_has] at h
  exact absurd h Bool.false_ne_true

theorem ReleasesOne.limit {actually : Bool} (h : ReleasesOne actually s t)
    (hlimit : s.numReferenceFrames < maxEntries) : t.numReferenceFrames = s.numReferenceFrames := by
  rcases h with rfl | ⟨j, releaseUsage, hj, _, rfl⟩
  · rfl
  · exact (s.releaseReference_edits actually releaseUsage (Nat.lt_of_lt_of_le hj hlimit)).limit

variable {actually : Bool}

theorem markShortTermUnused_releasesOne (s : References) (actually : Bool) (h : SliceHeader)
    (difference : Word) : ReleasesOne actually s (s.markShortTermUnused actually h difference) := by
  unfold markShortTermUnused
  simp only
  split
  · exact .inl rfl
  · next j hfound =>
    obtain ⟨hj, hmatch⟩ := firstEntry_some hfound
    unfold matchesShort at hmatch
    rw [Bool.and_eq_true] at hmatch
    exact .inr ⟨j, _, hj, in_use_of_has hmatch.1, rfl⟩

theorem markLongTermUnused_releasesOne (s : References) (actually : Bool) (h : SliceHeader)
    (longTermPicNum : Word) :
    ReleasesOne actually s (s.markLongTermUnused actually h longTermPicNum) := by
  unfold markLongTermUnused
  split
  · exact .inl rfl
  · next j hfound =>
    obtain ⟨hj, hmatch⟩ := firstEntry_some hfound
    unfold matchesLong at hmatch
    rw [Bool.and_eq_true] at hmatch
    exact .inr ⟨j, _, hj, in_use_of_has hmatch.1, rfl⟩

theorem releaseIndex_cases (s : References) (actually : Bool) (idx : Word) (except : Option Nat) :
    s.releaseIndex actually idx except = s ∨
      ∃ j, j < s.numReferenceFrames + 1 ∧ (s.entry j).usage ≠ notUsedForReference ∧
        except ≠ some j ∧
        s.releaseIndex actually idx except
          = s.releaseReference actually j anyUsedForLongTermReference := by
  unfold releaseIndex
  split
  · exact .inl rfl
  · next j hfound =>
    obtain ⟨hj, hmatch⟩ := find_entry hfound
    rw [Bool.and_eq_true] at hmatch
    obtain ⟨hidx, hexcept⟩ := hmatch
    unfold matchesIndex at hidx
    rw [Bool.and_eq_true] at hidx
    exact .inr ⟨j, hj, in_use_of_has hidx.1, bne_iff_ne.mp hexcept, rfl⟩

theorem releaseIndex_releasesOne (s : References) (actually : Bool) (idx : Word)
    (except : Option Nat) : ReleasesOne actually s (s.releaseIndex actually idx except) := by
  rcases s.releaseIndex_cases actually idx except with hid | ⟨j, hj, huse, _, heq⟩
  · exact .inl hid
  · exact .inr ⟨j, _, hj, huse, heq⟩

theorem releaseIndex_except (s : References) (actually : Bool) (idx : Word)
    (hlimit : s.numReferenceFrames < maxEntries) :
    (s.releaseIndex actually idx (some i)).entry i = s.entry i := by
  rcases s.releaseIndex_cases actually idx (some i) with hid | ⟨j, hj, _, hne, heq⟩
  · rw [hid]
  · have hedit := s.releaseReference_edits actually anyUsedForLongTermReference
      (Nat.lt_of_lt_of_le hj hlimit)
    rw [heq]
    exact hedit.other i fun hij => hne (congrArg some hij)

theorem maxIndexStep_releasesOne (actually : Bool) (maxPlus1 : Word)
    (hj : j < s.numReferenceFrames + 1) :
    ReleasesOne actually s (maxIndexStep actually maxPlus1 s j) := by
  unfold maxIndexStep
  simp only
  split
  · next hcond =>
    rw [Bool.and_eq_true] at hcond
    exact .inr ⟨j, _, hj, in_use_of_has hcond.1, rfl⟩
  · exact .inl rfl

theorem clearOthers_entries (s : References) (actually : Bool) (currentEntry : Nat)
    (hlimit : s.numReferenceFrames < maxEntries) :
    (s.clearOthers actually currentEntry).numReferenceFrames = s.numReferenceFrames ∧
      ∀ i, ((s.clearOthers actually currentEntry).entry i).usage =
          (if i < s.numReferenceFrames + 1 ∧ i ≠ currentEntry then notUsedForReference
            else (s.entry i).usage) ∧
        ((s.clearOthers actually currentEntry).entry i).decodeFrameIndex
          = (s.entry i).decodeFrameIndex := by
  refine forUpTo_inv
    (P := fun k (t : References) => t.numReferenceFrames = s.numReferenceFrames ∧
      ∀ i, (t.entry i).usage = (if i < k ∧ i ≠ currentEntry then notUsedForReference
          else (s.entry i).usage) ∧
        (t.entry i).decodeFrameIndex = (s.entry i).decodeFrameIndex) ?_ ?_
  · exact ⟨rfl, fun i => ⟨(if_neg fun h => Nat.not_lt_zero i h.1).symm, rfl⟩⟩
  · intro k t hk ⟨hsame, hentries⟩
    unfold clearStep
    by_cases hkc : k = currentEntry
    · rw [if_neg (by simp [hkc])]
      refine ⟨hsame, fun i => ?_⟩
      have hiff : i < k + 1 ∧ i ≠ currentEntry ↔ i < k ∧ i ≠ currentEntry := by omega
      simp only [hiff]
      exact hentries i
    · have hedit := t.releaseReference_edits actually anyUsedForReference
        (Nat.lt_of_lt_of_le hk hlimit)
      rw [if_pos (bne_iff_ne.mpr hkc)]
      refine ⟨hedit.limit.trans hsame, fun i => ?_⟩
      by_cases hi : i = k
      · subst hi
        rw [hedit.same, if_pos ⟨Nat.lt_succ_self i, hkc⟩]
        exact ⟨clear_any (t.entry i).usage, (hentries i).2⟩
      · have hiff : i < k + 1 ∧ i ≠ currentEntry ↔ i < k ∧ i ≠ currentEntry := by omega
        rw [hedit.other i hi]
        simp only [hiff]
        exact hentries i

theorem clear_edits (s : References) (actually : Bool) (p : MarkedPicture) {currentEntry : Nat}
    (hcur : currentEntry < maxEntries) :
    EditsEntry (s.clearOthers actually currentEntry) (s.clear actually p currentEntry) currentEntry
      (restartedEntry ((s.clearOthers actually currentEntry).entry currentEntry) p) :=
  editsEntry_of_frames hcur rfl rfl

/-! ## Commands that assign -/

/-- What assigning a long-term index leaves of a short-term frame. -/
def assignedFrame (f : ReferenceFrame) (longTermFrameIdx : Word) (h : SliceHeader) :
    ReferenceFrame :=
  { f with
    longTermFrameIdx := longTermFrameIdx
    usage := (f.usage ^^^ h.masks.short) ||| h.masks.long }

theorem assignFrame_edits (s : References) (longTermFrameIdx : Word) (h : SliceHeader)
    (hj : j < maxEntries) :
    EditsEntry s (s.assignFrame longTermFrameIdx h j) j
      (assignedFrame (s.entry j) longTermFrameIdx h) :=
  editsEntry_of_frames hj rfl rfl

/-- What assigning a long-term index leaves of a short-term field's entry. -/
def assignedField (f : ReferenceFrame) (longTermFrameIdx x : Word) (h : SliceHeader) :
    ReferenceFrame :=
  { f with
    longTermFrameIdx := longTermFrameIdx
    usage := (f.usage ^^^ (fieldCodes h x f).1) ||| (fieldCodes h x f).2 }

theorem assignField_edits (s : References) (longTermFrameIdx x : Word) (h : SliceHeader)
    (hj : j < maxEntries) :
    EditsEntry s (s.assignField longTermFrameIdx x h j) j
      (assignedField (s.entry j) longTermFrameIdx x h) :=
  editsEntry_of_frames hj rfl rfl

/-- What assigning a long-term index leaves of the current picture's entry. -/
def assignedCurrent (f : ReferenceFrame) (longTermFrameIdx : Word) (h : SliceHeader) :
    ReferenceFrame :=
  { f with
    longTermFrameIdx := longTermFrameIdx
    usage := (f.usage &&& ~~~h.masks.short) ||| h.masks.long }

theorem assignCurrent_edits (s : References) (longTermFrameIdx : Word) (h : SliceHeader)
    (hj : j < maxEntries) :
    EditsEntry s (s.assignCurrent h longTermFrameIdx j) j
      (assignedCurrent (s.entry j) longTermFrameIdx h) := by
  refine editsEntry_of_frames hj ?_ ?_
  · unfold assignCurrent
    split <;> rfl
  · unfold assignCurrent
    split <;> rfl

theorem applyControl_limit (hlimit : s.numReferenceFrames < maxEntries) (actually : Bool)
    (p : MarkedPicture) {currentEntry : Nat} (hcur : currentEntry < s.numReferenceFrames + 1)
    (c : MemoryManagementControl) :
    (applyControl actually p currentEntry s c).numReferenceFrames = s.numReferenceFrames := by
  cases c with
  | markShortTermUnusedForReference difference =>
    exact (s.markShortTermUnused_releasesOne actually p.header difference).limit hlimit
  | markLongTermUnusedForReference longTermPicNum =>
    exact (s.markLongTermUnused_releasesOne actually p.header longTermPicNum).limit hlimit
  | specifyMaxLongTermIndex maxPlus1 =>
    refine forUpTo_inv (P := fun _ (t : References) =>
      t.numReferenceFrames = s.numReferenceFrames) rfl ?_
    intro k t hk ht
    have hone := maxIndexStep_releasesOne (s := t) actually maxPlus1 (ht.symm ▸ hk)
    exact (hone.limit (ht.symm ▸ hlimit)).trans ht
  | clear =>
    have hedit := s.clear_edits actually p (Nat.lt_of_lt_of_le hcur hlimit)
    exact hedit.limit.trans (s.clearOthers_entries actually currentEntry hlimit).1
  | assignLongTermIndexToCurrentDecodedPicture longTermFrameIdx =>
    have hone := s.releaseIndex_releasesOne actually longTermFrameIdx (some currentEntry)
    exact (assignCurrent_edits _ longTermFrameIdx p.header
      (Nat.lt_of_lt_of_le hcur hlimit)).limit.trans (hone.limit hlimit)
  | assignLongTermIndexToShortTermPicture difference longTermFrameIdx =>
    unfold applyControl assignLongTermIndex
    simp only
    split
    · split
      · exact (s.releaseIndex_releasesOne actually longTermFrameIdx none).limit hlimit
      · next j hfound =>
        have hedit := s.assignField_edits longTermFrameIdx (picNumX p.header difference) p.header
          (Nat.lt_of_lt_of_le (firstEntry_some hfound).1 hlimit)
        have hone := (s.assignField longTermFrameIdx (picNumX p.header difference) p.header
          j).releaseIndex_releasesOne actually longTermFrameIdx (some j)
        exact (hone.limit (hedit.limit.symm ▸ hlimit)).trans hedit.limit
    · have hsame := (s.releaseIndex_releasesOne actually longTermFrameIdx none).limit hlimit
      split
      · exact hsame
      · next j hfound =>
        have hj := (firstEntry_some hfound).1
        have hbound : j < maxEntries := Nat.lt_of_lt_of_le (hsame ▸ hj) hlimit
        exact (assignFrame_edits _ longTermFrameIdx p.header hbound).limit.trans hsame

end References

end Duckbox.H264
