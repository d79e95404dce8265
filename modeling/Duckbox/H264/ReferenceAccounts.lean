import Duckbox.H264.ReferenceEdits

/-!
# Accounts of decode frame indices

A frame or first field that is marked takes one entry of the table, and its
decode frame index is passed to `CodecFnReleaseReferenceFrame` when the entry
goes out of use. The account of an index is the entries in use that hold it plus
the times it was released; releasing an entry in use leaves every account as it
was, releasing one that is not in use puts its index out by one
(`account_releaseReference`).

> `Settles marked d s t`: from `s` to `t` the accounts of the marked indices stay.

Most commands search the list for entries in use. Those that do not are the
clear, which releases every other entry; the window, which releases entry 0 when
no entry is used for short-term reference; and the assignment to the current
entry, which puts it in use again when an earlier command released it.
`ReleasesHeld` and `ManagementReleasesHeld` ask of these what the others check.
-/

namespace Duckbox.H264

open Duckbox.Lib

namespace References

variable {s t u : References} {i j : Nat} {f : ReferenceFrame} {p : MarkedPicture}
  {marked : List Nat} {d : Nat}

/-! ## Accounts -/

/-- The entry is in use for decode frame index `x`. -/
def holds (x : Nat) (f : ReferenceFrame) : Bool :=
  f.usage != notUsedForReference && f.decodeFrameIndex == x

/-- The entries of the whole table in use for an index. -/
def held (s : References) (x : Nat) : Nat := s.tally (holds x) maxEntries

/-- The entries that hold an index and the times it was released. -/
def account (s : References) (x : Nat) : Nat := s.held x + s.released.count x

theorem holds_of_unused {x : Nat} (h : f.usage = notUsedForReference) : holds x f = false := by
  unfold holds
  rw [h]
  rfl

theorem holds_of_used {x : Nat} (h : f.usage ≠ notUsedForReference) :
    holds x f = (f.decodeFrameIndex == x) := by
  unfold holds
  rw [bne_iff_ne.mpr h, Bool.true_and]

private theorem count_append_one (l : List Nat) (d x : Nat) :
    (l ++ [d]).count x = l.count x + (d == x).toNat := by
  rw [List.count_append, List.count_singleton]
  by_cases h : d = x
  · simp [h]
  · simp [h]

theorem account_releaseReference (s : References) (hj : j < maxEntries) (releaseUsage : Usage)
    (x : Nat) :
    (s.releaseReference true j releaseUsage).account x = s.account x +
      if (s.entry j).usage = notUsedForReference ∧ (s.entry j).decodeFrameIndex = x then 1
      else 0 := by
  have hedit := s.releaseReference_edits true releaseUsage hj
  have htally := hedit.tally (holds x) hj
  unfold account held
  rw [s.releaseReference_released true releaseUsage hj]
  by_cases hnew : (s.entry j).usage &&& ~~~releaseUsage = notUsedForReference
  · have hafter : holds x (releasedEntry (s.entry j) releaseUsage) = false := holds_of_unused hnew
    rw [hafter] at htally
    simp only [hnew, Bool.true_and, beq_self_eq_true, if_true]
    rw [count_append_one]
    by_cases huse : (s.entry j).usage = notUsedForReference
    · rw [holds_of_unused huse] at htally
      by_cases hx : (s.entry j).decodeFrameIndex = x
      · rw [if_pos ⟨huse, hx⟩, beq_iff_eq.mpr hx]
        simp only [Bool.toNat_false, Bool.toNat_true] at htally ⊢
        omega
      · rw [if_neg (fun h => hx h.2), beq_eq_false_iff_ne.mpr hx]
        simp only [Bool.toNat_false] at htally ⊢
        omega
    · rw [holds_of_used huse] at htally
      rw [if_neg (fun h => huse h.1)]
      simp only [Bool.toNat_false] at htally
      omega
  · have huse : (s.entry j).usage ≠ notUsedForReference := by
      intro h
      rw [h] at hnew
      exact hnew (BitVec.zero_and)
    have hafter : holds x (releasedEntry (s.entry j) releaseUsage) = holds x (s.entry j) := by
      rw [holds_of_used huse]
      exact holds_of_used hnew
    have hcond : (true && (s.entry j).usage &&& ~~~releaseUsage == notUsedForReference)
        = false := by
      rw [Bool.true_and]
      exact beq_eq_false_iff_ne.mpr hnew
    rw [hafter] at htally
    rw [hcond, if_neg Bool.false_ne_true, if_neg (fun h => huse h.1)]
    omega

theorem EditsEntry.account (h : EditsEntry s t j f) (hj : j < maxEntries) {x : Nat}
    (hholds : holds x f = holds x (s.entry j)) (hreleased : t.released.count x = s.released.count x) :
    t.account x = s.account x := by
  have htally := h.tally (holds x) hj
  rw [hholds] at htally
  unfold References.account held
  omega

/-! ## Commands -/

/-- From `s` to `t` no entry comes into use or changes its index, and the
accounts of the marked indices stay; what is released is an entry's index or `d`. -/
structure Settles (marked : List Nat) (d : Nat) (s t : References) : Prop where
  limit : t.numReferenceFrames = s.numReferenceFrames
  index : ∀ i, (t.entry i).decodeFrameIndex = (s.entry i).decodeFrameIndex
  used : ∀ i, (t.entry i).usage ≠ notUsedForReference → (s.entry i).usage ≠ notUsedForReference
  account : ∀ x ∈ marked, t.account x = s.account x
  released : ∀ x ∈ t.released,
    x ∈ s.released ∨ x = d ∨ ∃ i, (s.entry i).decodeFrameIndex = x

theorem Settles.refl (s : References) : Settles marked d s s :=
  ⟨rfl, fun _ => rfl, fun _ h => h, fun _ _ => rfl, fun _ h => .inl h⟩

theorem Settles.trans (h : Settles marked d s t) (h' : Settles marked d t u) : Settles marked d s u := by
  refine ⟨h'.limit.trans h.limit, ?_, ?_, ?_, ?_⟩
  · intro i
    exact (h'.index i).trans (h.index i)
  · intro i hi
    exact h.used i (h'.used i hi)
  · intro x hx
    exact (h'.account x hx).trans (h.account x hx)
  · intro x hx
    rcases h'.released x hx with hold | hd | ⟨i, hi⟩
    · exact h.released x hold
    · exact .inr (.inl hd)
    · exact .inr (.inr ⟨i, (h.index i).symm.trans hi⟩)

theorem EditsEntry.settles (h : EditsEntry s t j f) (hj : j < maxEntries)
    (hindex : f.decodeFrameIndex = (s.entry j).decodeFrameIndex)
    (hused : f.usage ≠ notUsedForReference ↔ (s.entry j).usage ≠ notUsedForReference)
    (hreleased : t.released = s.released) (marked : List Nat) : Settles marked d s t := by
  have hholds : ∀ x, holds x f = holds x (s.entry j) := by
    intro x
    by_cases huse : (s.entry j).usage = notUsedForReference
    · rw [holds_of_unused huse]
      exact holds_of_unused (Decidable.not_not.mp fun hf => hused.mp hf huse)
    · rw [holds_of_used huse, holds_of_used (hused.mpr huse), hindex]
  refine ⟨h.limit, ?_, ?_, ?_, ?_⟩
  · intro i
    by_cases hi : i = j
    · rw [hi, h.same, hindex]
    · rw [h.other i hi]
  · intro i hi
    by_cases hij : i = j
    · rw [hij, h.same] at hi
      exact hij ▸ hused.mp hi
    · rwa [h.other i hij] at hi
  · intro x _
    exact h.account hj (hholds x) (congrArg (List.count x) hreleased)
  · intro x hx
    exact .inl (hreleased ▸ hx)

theorem settles_releaseReference (s : References) (hj : j < maxEntries) (releaseUsage : Usage)
    (hheld : (s.entry j).usage ≠ notUsedForReference ∨ (s.entry j).decodeFrameIndex ∉ marked) :
    Settles marked d s (s.releaseReference true j releaseUsage) := by
  have hedit := s.releaseReference_edits true releaseUsage hj
  refine ⟨hedit.limit, ?_, ?_, ?_, ?_⟩
  · intro i
    by_cases hi : i = j
    · rw [hi, hedit.same]
      rfl
    · rw [hedit.other i hi]
  · intro i hi
    by_cases hij : i = j
    · intro huse
      rw [hij] at huse
      rw [hij, hedit.same] at hi
      apply hi
      show (s.entry j).usage &&& _ = _
      rw [huse]
      exact BitVec.zero_and
    · rwa [hedit.other i hij] at hi
  · intro x hx
    rw [s.account_releaseReference hj, if_neg, Nat.add_zero]
    rintro ⟨huse, rfl⟩
    rcases hheld with h | h
    · exact h huse
    · exact h hx
  · intro x hx
    rw [s.releaseReference_released true releaseUsage hj] at hx
    split at hx
    · rcases List.mem_append.mp hx with hold | hnew
      · exact .inl hold
      · exact .inr (.inr ⟨j, (List.mem_singleton.mp hnew).symm⟩)
    · exact .inl hx

theorem ReleasesOne.settles (h : ReleasesOne true s t) (hlimit : s.numReferenceFrames < maxEntries)
    (marked : List Nat) : Settles marked d s t := by
  rcases h with rfl | ⟨j, releaseUsage, hj, huse, rfl⟩
  · exact Settles.refl t
  · exact s.settles_releaseReference (Nat.lt_of_lt_of_le hj hlimit) releaseUsage (.inl huse)

theorem SameButNumbers.settles (h : SameButNumbers s t) (marked : List Nat) :
    Settles marked d s t := by
  refine ⟨h.limit, h.decodeFrameIndex, ?_, ?_, ?_⟩
  · intro i hi
    rwa [h.usage i] at hi
  · intro x _
    unfold account held
    rw [h.released]
    refine congrArg (· + _) (tally_congr fun i _ => ?_)
    unfold holds
    rw [h.usage i, h.decodeFrameIndex i]
  · intro x hx
    exact .inl (h.released ▸ hx)

theorem settles_specifyMaxLongTermIndex (hlimit : s.numReferenceFrames < maxEntries)
    (maxPlus1 : Word) (marked : List Nat) :
    Settles marked d s (s.specifyMaxLongTermIndex true maxPlus1) := by
  have hloop : Settles marked d s
      (forUpTo (maxIndexStep true maxPlus1) s (s.numReferenceFrames + 1)) := by
    refine forUpTo_inv (P := fun _ (t : References) => Settles marked d s t)
      (Settles.refl s) ?_
    intro k t hk ht
    have hone := maxIndexStep_releasesOne (s := t) true maxPlus1 (ht.limit.symm ▸ hk)
    exact ht.trans (hone.settles (ht.limit.symm ▸ hlimit) marked)
  exact ⟨hloop.limit, hloop.index, hloop.used, hloop.account, hloop.released⟩

/-- When a command releases what is held, and only that. -/
def ReleasesHeld (marked : List Nat) (currentEntry : Nat) (s : References) :
    MemoryManagementControl → Prop
  | .clear =>
    -- every other entry of the list is in use, or was so for no marked picture
    ∀ j, j < s.numReferenceFrames + 1 → j ≠ currentEntry →
      (s.entry j).usage ≠ notUsedForReference ∨ (s.entry j).decodeFrameIndex ∉ marked
  | .assignLongTermIndexToCurrentDecodedPicture _ =>
    -- no command before has released the current picture
    (s.entry currentEntry).usage ≠ notUsedForReference
  | _ => True

instance (marked : List Nat) (currentEntry : Nat) (s : References) :
    ∀ c, Decidable (ReleasesHeld marked currentEntry s c)
  | .markShortTermUnusedForReference _ => inferInstanceAs (Decidable True)
  | .markLongTermUnusedForReference _ => inferInstanceAs (Decidable True)
  | .assignLongTermIndexToShortTermPicture _ _ => inferInstanceAs (Decidable True)
  | .specifyMaxLongTermIndex _ => inferInstanceAs (Decidable True)
  | .clear => inferInstanceAs (Decidable (∀ _, _ < _ → _ → _))
  | .assignLongTermIndexToCurrentDecodedPicture _ => inferInstanceAs (Decidable (_ ≠ _))

theorem settles_clear (hlimit : s.numReferenceFrames < maxEntries) (p : MarkedPicture)
    {currentEntry : Nat} (hcur : currentEntry < s.numReferenceFrames + 1)
    (hheld : ReleasesHeld marked currentEntry s .clear) :
    Settles marked d s (s.clear true p currentEntry) := by
  have hloop : Settles marked d s (s.clearOthers true currentEntry) := by
    refine (forUpTo_inv (P := fun k (t : References) =>
      Settles marked d s t ∧ ∀ i, k ≤ i → t.entry i = s.entry i)
      ⟨Settles.refl s, fun _ _ => rfl⟩ ?_).1
    intro k t hk ⟨ht, hrest⟩
    unfold clearStep
    by_cases hkc : k = currentEntry
    · rw [if_neg (by simp [hkc])]
      exact ⟨ht, fun i hi => hrest i (Nat.le_of_succ_le hi)⟩
    · rw [if_pos (bne_iff_ne.mpr hkc)]
      have hbound := Nat.lt_of_lt_of_le hk hlimit
      have hk' := hheld k hk hkc
      rw [← hrest k (Nat.le_refl k)] at hk'
      refine ⟨ht.trans (t.settles_releaseReference hbound anyUsedForReference hk'), ?_⟩
      intro i hi
      rw [(t.releaseReference_edits true anyUsedForReference hbound).other i (Nat.ne_of_gt hi)]
      exact hrest i (Nat.le_of_succ_le hi)
  have hbound := Nat.lt_of_lt_of_le hcur hlimit
  exact hloop.trans ((s.clear_edits true p hbound).settles hbound rfl Iff.rfl rfl marked)

theorem or_used {u m : Usage} (hm : m ≠ notUsedForReference) :
    u ||| m ≠ notUsedForReference := by
  revert u m
  decide

theorem masks_used (h : SliceHeader) :
    h.masks.long ≠ notUsedForReference ∧ h.masks.short ≠ notUsedForReference := by
  cases hf : h.fieldPicFlag with
  | true =>
    rcases masks_field hf with hm | hm
    · rw [hm]
      decide
    · rw [hm]
      decide
  | false =>
    rw [masks_frame hf]
    decide

private theorem fieldCodes_used {h : SliceHeader} (hf : h.fieldPicFlag = true) (x : Word)
    (f : ReferenceFrame) : (fieldCodes h x f).2 ≠ notUsedForReference := by
  unfold fieldCodes
  rcases masks_field hf with hm | hm
  · rw [hm]
    split
    · decide
    · decide
  · rw [hm]
    split
    · decide
    · decide

theorem settles_assignFrame (h : SliceHeader) (longTermFrameIdx : Word) (hj : j < maxEntries)
    (huse : (s.entry j).usage ≠ notUsedForReference) (marked : List Nat) :
    Settles marked d s (s.assignFrame longTermFrameIdx h j) :=
  (s.assignFrame_edits longTermFrameIdx h hj).settles hj rfl
    (iff_of_true (or_used (masks_used h).1) huse) rfl marked

theorem settles_assignField {h : SliceHeader} (hf : h.fieldPicFlag = true)
    (longTermFrameIdx x : Word) (hj : j < maxEntries)
    (huse : (s.entry j).usage ≠ notUsedForReference) (marked : List Nat) :
    Settles marked d s (s.assignField longTermFrameIdx x h j) :=
  (s.assignField_edits longTermFrameIdx x h hj).settles hj rfl
    (iff_of_true (or_used (fieldCodes_used hf x _)) huse) rfl marked

theorem settles_assignCurrent (h : SliceHeader) (longTermFrameIdx : Word) (hj : j < maxEntries)
    (huse : (s.entry j).usage ≠ notUsedForReference) (marked : List Nat) :
    Settles marked d s (s.assignCurrent h longTermFrameIdx j) := by
  have hreleased : (s.assignCurrent h longTermFrameIdx j).released = s.released := by
    unfold assignCurrent
    split <;> rfl
  exact (s.assignCurrent_edits longTermFrameIdx h hj).settles hj rfl
    (iff_of_true (or_used (masks_used h).1) huse) hreleased marked

theorem settles_applyControl (hlimit : s.numReferenceFrames < maxEntries) (p : MarkedPicture)
    {currentEntry : Nat} (hcur : currentEntry < s.numReferenceFrames + 1)
    {c : MemoryManagementControl} (hheld : ReleasesHeld marked currentEntry s c) :
    Settles marked d s (applyControl true p currentEntry s c) := by
  cases c with
  | markShortTermUnusedForReference difference =>
    exact (s.markShortTermUnused_releasesOne true p.header difference).settles hlimit marked
  | markLongTermUnusedForReference longTermPicNum =>
    exact (s.markLongTermUnused_releasesOne true p.header longTermPicNum).settles hlimit marked
  | specifyMaxLongTermIndex maxPlus1 => exact settles_specifyMaxLongTermIndex hlimit maxPlus1 marked
  | clear => exact settles_clear hlimit p hcur hheld
  | assignLongTermIndexToCurrentDecodedPicture longTermFrameIdx =>
    have hone := s.releaseIndex_releasesOne true longTermFrameIdx (some currentEntry)
    have huse : ((s.releaseIndex true longTermFrameIdx (some currentEntry)).entry
        currentEntry).usage ≠ notUsedForReference := by
      rw [s.releaseIndex_except true longTermFrameIdx hlimit]
      exact hheld
    exact (hone.settles hlimit marked).trans
      (settles_assignCurrent p.header longTermFrameIdx (Nat.lt_of_lt_of_le hcur hlimit) huse marked)
  | assignLongTermIndexToShortTermPicture difference longTermFrameIdx =>
    unfold applyControl assignLongTermIndex
    simp only
    split
    · next hf =>
      split
      · exact (s.releaseIndex_releasesOne true longTermFrameIdx none).settles hlimit marked
      · next j hfound =>
        obtain ⟨hj, hmatch⟩ := firstEntry_some hfound
        unfold matchesShort at hmatch
        rw [Bool.and_eq_true] at hmatch
        have hassign : Settles marked d s _ := settles_assignField hf longTermFrameIdx
          (picNumX p.header difference) (Nat.lt_of_lt_of_le hj hlimit) (in_use_of_has hmatch.1) marked
        have hone := (s.assignField longTermFrameIdx (picNumX p.header difference) p.header
          j).releaseIndex_releasesOne true longTermFrameIdx (some j)
        exact hassign.trans (hone.settles (hassign.limit.symm ▸ hlimit) marked)
    · have hone : Settles marked d s _ :=
        (s.releaseIndex_releasesOne true longTermFrameIdx none).settles hlimit marked
      split
      · exact hone
      · next j hfound =>
        obtain ⟨hj, hmatch⟩ := firstEntry_some hfound
        unfold matchesShort at hmatch
        rw [Bool.and_eq_true] at hmatch
        exact hone.trans (settles_assignFrame p.header longTermFrameIdx
          (Nat.lt_of_lt_of_le (hone.limit ▸ hj) hlimit) (in_use_of_has hmatch.1) marked)

/-! ## One picture -/

/-- The list management of a picture releases what is held, in the table it finds. -/
def ManagementReleasesHeld (marked : List Nat) (s : References) (p : MarkedPicture)
    (currentEntry : Nat) : Prop :=
  if p.header.decRefPicMarking.adaptiveRefPicMarkingModeFlag then
    Along (applyControl true p currentEntry) (ReleasesHeld marked currentEntry)
      (s.calculatePicNums p.header) p.header.decRefPicMarking.memoryManagementControlOperation
  else
    -- a full window has a short-term frame to drop, or an entry 0 in use
    s.windowFull = true →
      (s.entry (s.slidingEntry p.header currentEntry)).usage ≠ notUsedForReference ∨
        (s.entry (s.slidingEntry p.header currentEntry)).decodeFrameIndex ∉ marked

theorem settles_manage (hlimit : s.numReferenceFrames < maxEntries) {currentEntry : Nat}
    (hcur : currentEntry < s.numReferenceFrames + 1)
    (hheld : p.header.idr = false → ManagementReleasesHeld marked s p currentEntry) :
    Settles marked d s (s.manage true p currentEntry) := by
  unfold References.manage
  split
  · exact Settles.refl s
  · next hidr =>
    have hheld := hheld (by simpa using hidr)
    unfold ManagementReleasesHeld at hheld
    split
    · next hadaptive =>
      rw [if_neg (by simpa using hadaptive)] at hheld
      unfold slidingWindow
      split
      · next hfull =>
        exact s.settles_releaseReference
          (Nat.lt_of_lt_of_le (s.slidingEntry_lt p.header currentEntry) hlimit) _ (hheld hfull)
      · exact Settles.refl s
    · next hadaptive =>
      rw [if_pos (by simpa using hadaptive)] at hheld
      refine foldl_inv (P := Settles marked d s) ?_ _ hheld
        ((s.calculatePicNums_same p.header hlimit).settles marked)
      intro t c hc ht
      exact ht.trans (settles_applyControl (ht.limit.symm ▸ hlimit) p (ht.limit.symm ▸ hcur) hc)

theorem settles_addSecondField (p : MarkedPicture) (hj : j < maxEntries)
    (huse : (s.entry j).usage ≠ notUsedForReference) (hnew : p.decodeFrameIndex ∉ marked) :
    Settles marked p.decodeFrameIndex s (s.addSecondField true p j) := by
  have hedit := s.addSecondField_edits true p hj
  have hindex : (pairedEntry (s.entry j) p).decodeFrameIndex = (s.entry j).decodeFrameIndex := by
    unfold pairedEntry
    simp only
    split <;> rfl
  have husage : (pairedEntry (s.entry j) p).usage ≠ notUsedForReference := by
    unfold pairedEntry
    simp only
    split
    · exact or_used (masks_used p.header).1
    · exact or_used (masks_used p.header).2
  have hreleased : (s.addSecondField true p j).released = s.released ++ [p.decodeFrameIndex] := rfl
  refine ⟨hedit.limit, ?_, ?_, ?_, ?_⟩
  · intro i
    by_cases hi : i = j
    · rw [hi, hedit.same, hindex]
    · rw [hedit.other i hi]
  · intro i hi
    by_cases hij : i = j
    · exact hij ▸ huse
    · rwa [hedit.other i hij] at hi
  · intro x hx
    refine hedit.account hj ?_ ?_
    · rw [holds_of_used huse, holds_of_used husage, hindex]
    · have hnone : [p.decodeFrameIndex].count x = 0 := by
        apply List.count_eq_zero.mpr
        intro hmem
        exact hnew (List.mem_singleton.mp hmem ▸ hx)
      rw [hreleased, List.count_append, hnone, Nat.add_zero]
  · intro x hx
    rw [hreleased] at hx
    rcases List.mem_append.mp hx with hold | hlast
    · exact .inl hold
    · exact .inr (.inl (List.mem_singleton.mp hlast))

theorem settles_secondField (hlimit : s.numReferenceFrames < maxEntries) (p : MarkedPicture)
    (hnew : p.decodeFrameIndex ∉ marked) :
    Settles marked p.decodeFrameIndex s (s.secondField true p).refs ∧
      (s.secondField true p).currentEntry < s.numReferenceFrames + 1 ∧
      ((s.secondField true p).secondFieldEntry = false → (s.secondField true p).refs = s) := by
  refine (secondField_inv (P := fun u => Settles marked p.decodeFrameIndex s u.refs ∧
      u.currentEntry < s.numReferenceFrames + 1 ∧ (u.secondFieldEntry = false → u.refs = s))
    true p hlimit ⟨Settles.refl s, Nat.succ_pos _, fun _ => rfl⟩ (fun u hu => hu) ?_).1
  intro u k ⟨hu, _, _⟩ _ hk _ hfirst _
  unfold MarkedPicture.isFirstField at hfirst
  rw [Bool.and_eq_true, Bool.and_eq_true, Bool.and_eq_true] at hfirst
  have huse := bne_iff_ne.mp hfirst.1.1.1
  exact ⟨hu.trans (settles_addSecondField p (Nat.lt_of_lt_of_le hk hlimit) huse hnew), hk,
    fun h => absurd h (by simp)⟩

theorem settles_releaseEveryone (hlimit : s.numReferenceFrames < maxEntries) (marked : List Nat) :
    Settles marked d s (s.releaseEveryone true) := by
  have hloop : Settles marked d s
      (forUpTo (releaseEntry true) s (s.numReferenceFrames + 1)) := by
    refine forUpTo_inv (P := fun _ (t : References) => Settles marked d s t)
      (Settles.refl s) ?_
    intro k t hk ht
    refine ht.trans ?_
    have hbound := Nat.lt_of_lt_of_le hk hlimit
    by_cases huse : (t.entry k).usage = notUsedForReference
    · rw [releaseEntry_idle t true huse]
      exact Settles.refl t
    · have hedit := t.releaseEntry_edits true hbound huse
      have hreleased : (releaseEntry true t k).released
          = t.released ++ [(t.entry k).decodeFrameIndex] := by
        unfold releaseEntry
        rw [if_pos (bne_iff_ne.mpr huse)]
        rfl
      refine ⟨hedit.limit, ?_, ?_, ?_, ?_⟩
      · intro i
        by_cases hi : i = k
        · rw [hi, hedit.same]
        · rw [hedit.other i hi]
      · intro i hi
        by_cases hik : i = k
        · exact hik ▸ huse
        · rwa [hedit.other i hik] at hi
      · intro x _
        have htally := hedit.tally (holds x) hbound
        rw [holds_of_used huse, holds_of_unused
          (f := { t.entry k with usage := notUsedForReference }) rfl] at htally
        unfold account held
        rw [hreleased, count_append_one]
        simp only [Bool.toNat_false] at htally
        omega
      · intro x hx
        rw [hreleased] at hx
        rcases List.mem_append.mp hx with hold | hlast
        · exact .inl hold
        · exact .inr (.inr ⟨k, (List.mem_singleton.mp hlast).symm⟩)
  exact ⟨hloop.limit, hloop.index, hloop.used, hloop.account, hloop.released⟩

end References

end Duckbox.H264
