import Duckbox.Codec.BufferAccounts
import Duckbox.Codec.ReferenceMembers

/-!
# The slots of reference frames

`ReferenceFrameSlotAllocate` gives a slot to a buffer that becomes a reference
frame, at once or when one is released, and `H264ReleaseReferenceFrame` frees the
slot before the last reference is taken off. In between the buffer is left out of
the account (`Slots`): it is a reference frame without a slot of its own, or it
has a slot that is free for others.

Whether a slot is asked for is decided by the macroblock structure, and that is
not taken from the record when the reference is released. A second field after
the release of the first is then in a slot that is not used
(`slots_not_exclusive`).
-/

namespace Duckbox.Codec.MmeVideo

open Duckbox.Lib

variable {c : Configuration} {s t u : MmeVideo} {i j : Nat} {named running : List Nat}
  {f : ParsedFrame} {e : Environment} {but : Option Nat} {slot : Fin 16}

/-! ## Who holds a slot -/

/-- The buffer is a reference frame in the slot, and not the one left out. -/
def Holds (s : MmeVideo) (but : Option Nat) (i : Nat) (slot : Fin 16) : Prop :=
  but ≠ some i ∧ (s.bufferState i).referenceFrameCount ≠ 0 ∧
    (s.bufferState i).referenceFrameSlot = some slot

/-- Every slot is held by one buffer if it is used, and by none if it is not. -/
structure Exclusive (s : MmeVideo) (but : Option Nat) : Prop where
  distinct : ∀ i j slot, s.Holds but i slot → s.Holds but j slot → i = j
  used : ∀ slot, s.referenceFrameSlotUsed slot = true ↔ ∃ i, s.Holds but i slot

/-- A request is outstanding while all slots are used, and its buffer is without. -/
def Waiting (s : MmeVideo) (but : Option Nat) : Prop :=
  ∀ o, s.outstandingSlotAllocationRequest = some o →
    (∀ slot, s.referenceFrameSlotUsed slot = true) ∧ ∀ slot, ¬ s.Holds but o slot

structure Slots (s : MmeVideo) (but : Option Nat) : Prop where
  exclusive : s.Exclusive but
  waiting : s.Waiting but

/-- The reference frames are the same, and in the same slots. -/
structure SameSlots (s t : MmeVideo) : Prop where
  count : ∀ i, (t.bufferState i).referenceFrameCount = (s.bufferState i).referenceFrameCount
  slot : ∀ i, (s.bufferState i).referenceFrameCount ≠ 0 →
    (t.bufferState i).referenceFrameSlot = (s.bufferState i).referenceFrameSlot
  used : t.referenceFrameSlotUsed = s.referenceFrameSlotUsed
  outstanding : t.outstandingSlotAllocationRequest = s.outstandingSlotAllocationRequest

theorem Trimmed.sameSlots (h : Trimmed s t) : SameSlots s t where
  count i := (h.state i).count
  slot i hne := by
    rcases h.state i with ⟨-, -, hslot⟩ | ⟨hzero, -⟩
    · exact hslot
    · exact absurd hzero hne
  used := h.used
  outstanding := h.outstanding

theorem SameSlots.trans (h : SameSlots s t) (h' : SameSlots t u) : SameSlots s u where
  count i := (h'.count i).trans (h.count i)
  slot i hne := (h'.slot i (by rw [h.count i]; exact hne)).trans (h.slot i hne)
  used := h'.used.trans h.used
  outstanding := h'.outstanding.trans h.outstanding

theorem sameSlots_of_eq (hstate : t.bufferState = s.bufferState)
    (hused : t.referenceFrameSlotUsed = s.referenceFrameSlotUsed)
    (houtstanding : t.outstandingSlotAllocationRequest = s.outstandingSlotAllocationRequest) :
    SameSlots s t := by
  refine ⟨fun i => ?_, fun i _ => ?_, hused, houtstanding⟩
  · rw [hstate]
  · rw [hstate]

theorem SameSlots.holds (h : SameSlots s t) : t.Holds but i slot ↔ s.Holds but i slot := by
  unfold Holds
  rw [h.count i]
  constructor
  · intro ⟨hbut, hne, hslot⟩
    exact ⟨hbut, hne, (h.slot i hne).symm.trans hslot⟩
  · intro ⟨hbut, hne, hslot⟩
    exact ⟨hbut, hne, (h.slot i hne).trans hslot⟩

variable {but' : Option Nat}

theorem holds_congr (hbut : but' ≠ some i ↔ but ≠ some i)
    (hstate : t.bufferState i = s.bufferState i) : t.Holds but' i slot ↔ s.Holds but i slot := by
  unfold Holds
  rw [hbut, hstate]

theorem Exclusive.congr (hs : s.Exclusive but)
    (hholds : ∀ i slot, t.Holds but' i slot ↔ s.Holds but i slot)
    (hused : t.referenceFrameSlotUsed = s.referenceFrameSlotUsed) : t.Exclusive but' where
  distinct i j slot hi hj := hs.distinct i j slot ((hholds i slot).mp hi) ((hholds j slot).mp hj)
  used slot := by
    rw [hused, hs.used slot]
    exact exists_congr fun i => (hholds i slot).symm

theorem Slots.congr (hs : s.Slots but) (hholds : ∀ i slot, t.Holds but' i slot ↔ s.Holds but i slot)
    (hused : t.referenceFrameSlotUsed = s.referenceFrameSlotUsed)
    (houtstanding : t.outstandingSlotAllocationRequest = s.outstandingSlotAllocationRequest) :
    t.Slots but' where
  exclusive := hs.exclusive.congr hholds hused
  waiting o ho := by
    obtain ⟨hall, hnot⟩ := hs.waiting o (houtstanding ▸ ho)
    rw [hused]
    exact ⟨hall, fun slot h => hnot slot ((hholds o slot).mp h)⟩

theorem Slots.same (hs : s.Slots but) (h : SameSlots s t) : t.Slots but :=
  hs.congr (fun _ _ => h.holds) h.used h.outstanding

/-! ## Taking a slot -/

theorem freeSlot_eq_none : s.freeSlot = none ↔ ∀ slot, s.referenceFrameSlotUsed slot = true := by
  unfold freeSlot
  rw [List.find?_eq_none]
  constructor
  · intro h slot
    simpa using h slot (List.mem_finRange slot)
  · intro h slot _
    simpa using h slot

theorem not_used_of_freeSlot (h : s.freeSlot = some slot) :
    s.referenceFrameSlotUsed slot = false := by
  unfold freeSlot at h
  simpa using List.find?_some h

theorem Exclusive.takeSlot (hs : s.Exclusive but) (hfree : s.referenceFrameSlotUsed slot = false)
    (hne : (s.bufferState i).referenceFrameCount ≠ 0) (hbut : but' ≠ some i)
    (hother : ∀ j, j ≠ i → (but' ≠ some j ↔ but ≠ some j)) (hnone : ∀ slot, ¬ s.Holds but i slot) :
    (s.takeSlot i slot).Exclusive but' := by
  have hself : (s.takeSlot i slot).bufferState i
      = { s.bufferState i with referenceFrameSlot := some slot } := Function.update_self ..
  have hnew : ∀ b, (s.takeSlot i slot).Holds but' i b ↔ b = slot := by
    intro b
    unfold Holds
    rw [hself]
    constructor
    · intro ⟨_, _, hslot⟩
      exact (Option.some.inj hslot).symm
    · intro hb
      exact ⟨hbut, hne, congrArg some hb.symm⟩
  have hold : ∀ j b, j ≠ i → ((s.takeSlot i slot).Holds but' j b ↔ s.Holds but j b) := by
    intro j b hj
    exact holds_congr (hother j hj) (Function.update_of_ne hj ..)
  -- nobody holds the slot yet
  have hunheld : ∀ j, ¬ s.Holds but j slot := fun j h =>
    absurd ((hs.used slot).mpr ⟨j, h⟩) (Bool.eq_false_iff.mp hfree)
  constructor
  · intro j k b hj hk
    by_cases hji : j = i
    · by_cases hki : k = i
      · exact hji.trans hki.symm
      · subst hji
        obtain rfl := (hnew b).mp hj
        exact absurd ((hold k b hki).mp hk) (hunheld k)
    · by_cases hki : k = i
      · subst hki
        obtain rfl := (hnew b).mp hk
        exact absurd ((hold j b hji).mp hj) (hunheld j)
      · exact hs.distinct j k b ((hold j b hji).mp hj) ((hold k b hki).mp hk)
  · intro b
    show Function.update s.referenceFrameSlotUsed slot true b = true ↔ _
    by_cases hb : b = slot
    · subst hb
      rw [Function.update_self]
      exact ⟨fun _ => ⟨i, (hnew b).mpr rfl⟩, fun _ => rfl⟩
    · rw [Function.update_of_ne hb, hs.used b]
      constructor
      · intro ⟨j, hj⟩
        have hji : j ≠ i := fun h => hnone b (h ▸ hj)
        exact ⟨j, (hold j b hji).mpr hj⟩
      · intro ⟨j, hj⟩
        have hji : j ≠ i := fun h => hb ((hnew b).mp (h ▸ hj))
        exact ⟨j, (hold j b hji).mp hj⟩

theorem enactOutstandingRequest_cases (hs : s.Waiting but) :
    s.enactOutstandingRequest = s ∨
      s.enactOutstandingRequest = { s with outstandingSlotAllocationRequest := none } := by
  unfold enactOutstandingRequest
  cases houtstanding : s.outstandingSlotAllocationRequest with
  | none => exact .inl rfl
  | some o =>
    dsimp only
    split
    · exact .inr rfl
    · rw [freeSlot_eq_none.mpr (hs o houtstanding).1]
      exact .inl rfl

theorem Slots.enact (hs : s.Slots but) : s.enactOutstandingRequest.Slots but := by
  rcases enactOutstandingRequest_cases hs.waiting with h | h
  · rw [h]
    exact hs
  · rw [h]
    exact ⟨hs.exclusive.congr (fun _ _ => Iff.rfl) rfl, fun o ho => nomatch ho⟩

theorem Slots.allocate (hs : s.Slots (some i)) (hne : (s.bufferState i).referenceFrameCount ≠ 0)
    (houtstanding : ∀ o, s.outstandingSlotAllocationRequest = some o →
      (s.bufferState o).referenceFrameCount = 0) :
    (s.referenceFrameSlotAllocate (some i)).1 = true ∧
      (s.referenceFrameSlotAllocate (some i)).2.Slots none := by
  have henact : s.enactOutstandingRequest = { s with outstandingSlotAllocationRequest := none } := by
    unfold enactOutstandingRequest
    cases ho : s.outstandingSlotAllocationRequest with
    | none => exact (by rw [← ho] : s = { s with outstandingSlotAllocationRequest := none })
    | some o =>
      dsimp only
      rw [if_pos (houtstanding o ho)]
  have hexclusive : Exclusive { s with outstandingSlotAllocationRequest := none } (some i) :=
    hs.exclusive.congr (fun _ _ => Iff.rfl) rfl
  have hleft : ∀ slot, ¬ Holds { s with outstandingSlotAllocationRequest := none } (some i) i slot :=
    fun _ h => h.1 rfl
  have hother : ∀ j, j ≠ i → ((none : Option Nat) ≠ some j ↔ some i ≠ some j) := fun j hj =>
    ⟨fun _ h => hj (Option.some.inj h).symm, fun _ h => nomatch h⟩
  unfold referenceFrameSlotAllocate
  rw [henact]
  dsimp only
  rw [if_neg (by decide)]
  split
  · next slot hfree =>
    refine ⟨rfl, ?_, fun o ho => nomatch ho⟩
    exact hexclusive.takeSlot (not_used_of_freeSlot hfree) hne (fun h => nomatch h) hother hleft
  · next hfree =>
    have hall := freeSlot_eq_none.mp hfree
    have hself : (({ s with outstandingSlotAllocationRequest := none }).setState i
        { s.bufferState i with referenceFrameSlot := none }).bufferState i =
        { s.bufferState i with referenceFrameSlot := none } := Function.update_self ..
    have hnot : ∀ slot, ¬ Holds
        { ({ s with outstandingSlotAllocationRequest := none }).setState i
            { s.bufferState i with referenceFrameSlot := none } with
          outstandingSlotAllocationRequest := some i } none i slot := by
      intro slot ⟨_, _, hslot⟩
      exact nomatch (congrArg BufferState.referenceFrameSlot hself).symm.trans hslot
    refine ⟨rfl, hexclusive.congr (fun j slot => ?_) rfl, fun o ho => ?_⟩
    · by_cases hj : j = i
      · subst hj
        exact iff_of_false (hnot slot) (hleft slot)
      · exact holds_congr (hother j hj) (Function.update_of_ne hj ..)
    · obtain rfl := Option.some.inj ho
      exact ⟨hall, hnot⟩

theorem allocate_refused (hs : s.Waiting but) {o : Nat}
    (ho : s.outstandingSlotAllocationRequest = some o)
    (hne : (s.bufferState o).referenceFrameCount ≠ 0) :
    s.referenceFrameSlotAllocate (some i) = (false, s) := by
  have henact : s.enactOutstandingRequest = s := by
    unfold enactOutstandingRequest
    rw [ho]
    dsimp only
    rw [if_neg hne, freeSlot_eq_none.mpr (hs o ho).1]
  unfold referenceFrameSlotAllocate
  rw [henact]
  dsimp only
  rw [ho]
  rfl

/-! ## Reference frames that are released -/

/-- There are no more references than there were, and the slots are used as they were. -/
structure Dropped (s t : MmeVideo) : Prop where
  count : ∀ i, (t.bufferState i).referenceFrameCount ≤ (s.bufferState i).referenceFrameCount
  used : t.referenceFrameSlotUsed = s.referenceFrameSlotUsed
  outstanding : t.outstandingSlotAllocationRequest = s.outstandingSlotAllocationRequest

theorem Dropped.refl (s : MmeVideo) : Dropped s s := ⟨fun _ => Nat.le_refl _, rfl, rfl⟩

theorem Dropped.trans (h : Dropped s t) (h' : Dropped t u) : Dropped s u where
  count i := (h'.count i).trans (h.count i)
  used := h'.used.trans h.used
  outstanding := h'.outstanding.trans h.outstanding

theorem dropped_setState {state : BufferState}
    (h : state.referenceFrameCount ≤ (s.bufferState i).referenceFrameCount) :
    Dropped s (s.setState i state) := by
  refine ⟨fun j => ?_, rfl, rfl⟩
  rw [setState_bufferState]
  by_cases hj : j = i
  · subst hj
    rw [Function.update_self]
    exact h
  · rw [Function.update_of_ne hj]

theorem dropped_decrementReferenceCount (s : MmeVideo) (i : Nat) :
    Dropped s (s.decrementReferenceCount i).2 := by
  unfold decrementReferenceCount
  split
  · dsimp only
    split
    · have hcleared : Dropped (s.unMapBufferIndex i)
          ((s.unMapBufferIndex i).setState i .cleared) := dropped_setState (Nat.zero_le _)
      exact ⟨hcleared.count, hcleared.used, hcleared.outstanding⟩
    · exact ⟨fun _ => Nat.le_refl _, rfl, rfl⟩
  · exact Dropped.refl s

theorem bufferState_releaseMacroblockStructure (s : MmeVideo) (i : Nat) :
    (s.releaseMacroblockStructure i).bufferState = s.bufferState := by
  unfold MmeVideo.releaseMacroblockStructure
  split <;> rfl

theorem sameSlots_releaseMacroblockStructure (s : MmeVideo) (i : Nat) :
    SameSlots s (s.releaseMacroblockStructure i) := by
  unfold MmeVideo.releaseMacroblockStructure
  split <;> exact sameSlots_of_eq rfl rfl rfl

theorem SameSlots.dropped (h : SameSlots s t) : Dropped s t :=
  ⟨fun i => (h.count i).le, h.used, h.outstanding⟩

theorem dropped_dropReferences (i passes : Nat) :
    ∀ s : MmeVideo, Dropped s (s.dropReferences i passes) := by
  induction passes with
  | zero => exact Dropped.refl
  | succ passes ih =>
    intro s
    unfold MmeVideo.dropReferences
    split
    · exact Dropped.refl s
    · have hset : Dropped s (s.decrementReferenceFrameCount i) :=
        dropped_setState (Nat.sub_le _ _)
      exact (hset.trans (dropped_decrementReferenceCount ..)).trans (ih _)

theorem dropReferences_count (i passes : Nat) :
    ∀ s : MmeVideo, (s.bufferState i).referenceFrameCount ≤ passes →
      ((s.dropReferences i passes).bufferState i).referenceFrameCount = 0 := by
  induction passes with
  | zero => exact fun s h => Nat.le_zero.mp h
  | succ passes ih =>
    intro s h
    unfold MmeVideo.dropReferences
    split
    · assumption
    · refine ih _ ?_
      have hset : ((s.decrementReferenceFrameCount i).bufferState i).referenceFrameCount
          = (s.bufferState i).referenceFrameCount - 1 := by
        unfold MmeVideo.decrementReferenceFrameCount
        rw [setState_bufferState, Function.update_self]
      have hle := (dropped_decrementReferenceCount (s.decrementReferenceFrameCount i) i).count i
      omega

theorem dropped_releaseAllReferences (s : MmeVideo) (i : Nat) :
    Dropped s (s.releaseAllReferences i) := by
  unfold MmeVideo.releaseAllReferences
  split
  · exact Dropped.refl s
  · exact (sameSlots_releaseMacroblockStructure s i).dropped.trans (dropped_dropReferences ..)

theorem releaseAllReferences_count (s : MmeVideo) (i : Nat) :
    ((s.releaseAllReferences i).bufferState i).referenceFrameCount = 0 := by
  unfold MmeVideo.releaseAllReferences
  split
  · assumption
  · refine dropReferences_count i _ _ ?_
    rw [bufferState_releaseMacroblockStructure]

theorem releaseAll_count (list : List Nat) :
    ∀ s : MmeVideo, Dropped s (list.foldl releaseAllReferences s) ∧
      ∀ i ∈ list,
        ((list.foldl releaseAllReferences s).bufferState i).referenceFrameCount = 0 := by
  induction list with
  | nil => exact fun s => ⟨Dropped.refl s, fun i hi => nomatch hi⟩
  | cons j list ih =>
    intro s
    obtain ⟨hdropped, hzero⟩ := ih (s.releaseAllReferences j)
    refine ⟨(dropped_releaseAllReferences s j).trans hdropped, fun i hi => ?_⟩
    cases hi with
    | head =>
      have hle := hdropped.count j
      rw [releaseAllReferences_count] at hle
      exact Nat.le_zero.mp hle
    | tail _ hi => exact hzero i hi

theorem count_releaseReferenceFrame_le (c : Configuration) (s : MmeVideo) (decodeIndex j : Nat) :
    ((s.releaseReferenceFrame c (some decodeIndex)).bufferState j).referenceFrameCount
      ≤ (s.bufferState j).referenceFrameCount := by
  unfold MmeVideo.releaseReferenceFrame
  dsimp only
  split
  · exact Nat.le_refl _
  · next i _ =>
    split
    · exact Nat.le_refl _
    · have hset : Dropped s (s.decrementReferenceFrameCount i) :=
        dropped_setState (Nat.sub_le _ _)
      split
      · exact (hset.trans (sameSlots_releaseMacroblockStructure _ i).dropped |>.trans
          (dropped_decrementReferenceCount _ i)).count j
      · exact (hset.trans (dropped_decrementReferenceCount _ i)).count j

/-- The reference frames are in buffers that the release of all is for. -/
def Within (c : Configuration) (s : MmeVideo) : Prop :=
  ∀ i, (s.bufferState i).referenceFrameCount ≠ 0 → i < c.decodeBufferCount

theorem Within.of_le (hw : s.Within c)
    (h : ∀ i, (t.bufferState i).referenceFrameCount ≤ (s.bufferState i).referenceFrameCount) :
    t.Within c := by
  intro i hi
  have hle := h i
  exact hw i (by omega)

theorem releaseAll_eq (c : Configuration) (s : MmeVideo) :
    s.h264ReleaseReferenceFrame c none =
      (List.range c.decodeBufferCount).foldl releaseAllReferences (s.releaseSlot none) := rfl

theorem Within.releaseAll (hw : s.Within c) :
    (s.h264ReleaseReferenceFrame c none).Slots none ∧
      ∀ i, ((s.h264ReleaseReferenceFrame c none).bufferState i).referenceFrameCount = 0 := by
  rw [releaseAll_eq]
  obtain ⟨hdropped, hzero⟩ := releaseAll_count (List.range c.decodeBufferCount) (s.releaseSlot none)
  have hcount : ∀ i, (((List.range c.decodeBufferCount).foldl releaseAllReferences
      (s.releaseSlot none)).bufferState i).referenceFrameCount = 0 := by
    intro i
    by_cases hi : i < c.decodeBufferCount
    · exact hzero i (List.mem_range.mpr hi)
    · have hbefore : ((s.releaseSlot none).bufferState i).referenceFrameCount = 0 := by
        by_contra hne
        exact hi (hw i hne)
      exact Nat.le_zero.mp (hbefore ▸ hdropped.count i)
  refine ⟨⟨⟨fun i j slot hi _ => absurd (hcount i) hi.2.1, fun slot => ?_⟩, fun o ho => ?_⟩,
    hcount⟩
  · rw [hdropped.used]
    exact iff_of_false Bool.false_ne_true fun ⟨i, hi⟩ => absurd (hcount i) hi.2.1
  · rw [hdropped.outstanding] at ho
    exact nomatch ho

theorem Slots.releaseReferenceFrame (hs : s.Slots but) (hk : s.Kept named running)
    {decodeIndex : Nat} (h : s.translateDecodeIndex decodeIndex = some i)
    (hbut : but = if (s.bufferState i).referenceFrameCount = 1 then some i else none) :
    (s.releaseReferenceFrame c (some decodeIndex)).Slots none := by
  unfold MmeVideo.releaseReferenceFrame
  dsimp only
  rw [h]
  dsimp only
  split
  · next hzero =>
    rw [hzero, if_neg (by decide)] at hbut
    exact hbut ▸ hs
  · next hne =>
    have hself := decrementReferenceFrameCount_state s i
    have hholds : ∀ j slot,
        (s.decrementReferenceFrameCount i).Holds none j slot ↔ s.Holds but j slot := by
      intro j slot
      by_cases hj : j = i
      · subst hj
        unfold Holds
        rw [hself]
        dsimp only
        by_cases hone : (s.bufferState j).referenceFrameCount = 1
        · rw [if_pos hone] at hbut
          refine iff_of_false (fun hheld => hheld.2.1 ?_) fun hheld => hheld.1 hbut
          rw [hone]
        · rw [if_neg hone] at hbut
          subst hbut
          have hiff : (s.bufferState j).referenceFrameCount - 1 ≠ 0 ↔
              (s.bufferState j).referenceFrameCount ≠ 0 := by omega
          rw [hiff]
      · refine holds_congr (iff_of_true (fun hnone => nomatch hnone) ?_)
          (Function.update_of_ne hj ..)
        rw [hbut]
        split
        · exact fun hi => hj (Option.some.inj hi).symm
        · exact fun hnone => nomatch hnone
    have hfallen : (s.decrementReferenceFrameCount i).Slots none := hs.congr hholds rfl rfl
    have hk' := hk.decrementReferenceFrameCount hne
    split
    · have hreleased := hfallen.same
        (sameSlots_releaseMacroblockStructure (s.decrementReferenceFrameCount i) i)
      exact hreleased.same (hk'.releaseMacroblockStructure i).trimmed_decrement.sameSlots
    · exact hfallen.same hk'.trimmed_decrement.sameSlots

/-- Its slot is free for others while it is left out. -/
theorem Exclusive.freeSlot (hs : s.Exclusive none) (h : s.Holds none i slot) :
    Exclusive { s with referenceFrameSlotUsed := Function.update s.referenceFrameSlotUsed slot false }
      (some i) := by
  have hleft : ∀ j b, s.Holds (some i) j b ↔ s.Holds none j b ∧ j ≠ i := by
    intro j b
    unfold Holds
    constructor
    · intro ⟨hj, hheld⟩
      exact ⟨⟨(fun hnone => nomatch hnone), hheld⟩, fun hji => hj (congrArg some hji.symm)⟩
    · intro ⟨⟨_, hheld⟩, hj⟩
      exact ⟨fun hji => hj (Option.some.inj hji).symm, hheld⟩
  constructor
  · intro j k b hj hk
    exact hs.distinct j k b ((hleft j b).mp hj).1 ((hleft k b).mp hk).1
  · intro b
    show Function.update s.referenceFrameSlotUsed slot false b = true ↔ ∃ j, s.Holds (some i) j b
    by_cases hb : b = slot
    · subst hb
      rw [Function.update_self]
      refine iff_of_false Bool.false_ne_true fun ⟨j, hj⟩ => ?_
      obtain ⟨hheld, hji⟩ := (hleft j b).mp hj
      exact hji (hs.distinct j i b hheld h)
    · rw [Function.update_of_ne hb, hs.used b]
      constructor
      · intro ⟨j, hj⟩
        refine ⟨j, (hleft j b).mpr ⟨hj, fun hji => ?_⟩⟩
        subst hji
        exact hb (Option.some.inj (hj.2.2.symm.trans h.2.2))
      · intro ⟨j, hj⟩
        exact ⟨j, ((hleft j b).mp hj).1⟩

theorem Exclusive.enact (hs : s.Exclusive but)
    (hwaiting : ∀ o, s.outstandingSlotAllocationRequest = some o →
      (but ≠ some o) ∧ ∀ slot, ¬ s.Holds but o slot) :
    s.enactOutstandingRequest.Slots but := by
  unfold enactOutstandingRequest
  cases houtstanding : s.outstandingSlotAllocationRequest with
  | none => exact ⟨hs, fun o ho => nomatch houtstanding.symm.trans ho⟩
  | some o =>
    obtain ⟨hbut, hnot⟩ := hwaiting o houtstanding
    dsimp only
    split
    · exact ⟨hs.congr (fun _ _ => Iff.rfl) rfl, fun o ho => nomatch ho⟩
    · next hne =>
      split
      · next hfree =>
        refine ⟨hs, fun o' ho' => ?_⟩
        obtain rfl := Option.some.inj (houtstanding.symm.trans ho')
        exact ⟨freeSlot_eq_none.mp hfree, hnot⟩
      · next slot hfree =>
        have htaken := hs.takeSlot (not_used_of_freeSlot hfree) hne hbut (fun _ _ => Iff.rfl) hnot
        exact ⟨htaken.congr (fun _ _ => Iff.rfl) rfl, fun o ho => nomatch ho⟩

theorem Slots.releaseSlot (hs : s.Slots none) {decodeIndex : Nat}
    (h : s.translateDecodeIndex decodeIndex = some i) :
    (s.releaseSlot (some decodeIndex)).enactOutstandingRequest.Slots
      (if (s.bufferState i).referenceFrameCount = 1 then some i else none) := by
  unfold MmeVideo.releaseSlot
  dsimp only
  rw [h]
  dsimp only
  split
  · next hone =>
    split
    · next hslot =>
      -- the buffer holds no slot, and can be left out as it is
      have hleft : s.Slots (some i) := by
        refine hs.congr (fun j slot => ?_) rfl rfl
        by_cases hj : j = i
        · subst hj
          exact iff_of_false (fun hheld => hheld.1 rfl) fun hheld =>
            nomatch hslot.symm.trans hheld.2.2
        · exact holds_congr
            (iff_of_true (fun hji => hj (Option.some.inj hji).symm) (fun hnone => nomatch hnone)) rfl
      exact hleft.enact
    · next slot hslot =>
      have hheld : s.Holds none i slot := ⟨(fun hnone => nomatch hnone), by omega, hslot⟩
      refine (hs.exclusive.freeSlot hheld).enact fun o ho => ?_
      obtain ⟨-, hnot⟩ := hs.waiting o ho
      refine ⟨fun hio => hnot slot (Option.some.inj hio ▸ hheld), fun b hb => hnot b ?_⟩
      exact ⟨(fun hnone => nomatch hnone), hb.2⟩
  · exact hs.enact

theorem indexBufferMap_releaseSlot (s : MmeVideo) (decodeIndex : Nat) :
    (s.releaseSlot (some decodeIndex)).indexBufferMap = s.indexBufferMap := by
  unfold MmeVideo.releaseSlot
  dsimp only
  split
  · rfl
  · split
    · split <;> rfl
    · rfl

theorem bufferState_releaseSlot (s : MmeVideo) (decodeIndex : Option Nat) :
    (s.releaseSlot decodeIndex).bufferState = s.bufferState := by
  unfold MmeVideo.releaseSlot
  split
  · rfl
  · split
    · rfl
    · split
      · split <;> rfl
      · rfl

theorem indexBufferMap_enactOutstandingRequest (s : MmeVideo) :
    s.enactOutstandingRequest.indexBufferMap = s.indexBufferMap := by
  unfold MmeVideo.enactOutstandingRequest
  split
  · rfl
  · split
    · rfl
    · split <;> rfl

theorem count_takeSlot (s : MmeVideo) (i : Nat) (slot : Fin 16) (j : Nat) :
    ((s.takeSlot i slot).bufferState j).referenceFrameCount
      = (s.bufferState j).referenceFrameCount := by
  show (Function.update s.bufferState i _ j).referenceFrameCount = _
  by_cases hj : j = i
  · subst hj
    rw [Function.update_self]
  · rw [Function.update_of_ne hj]

theorem count_enactOutstandingRequest (s : MmeVideo) (j : Nat) :
    (s.enactOutstandingRequest.bufferState j).referenceFrameCount
      = (s.bufferState j).referenceFrameCount := by
  unfold MmeVideo.enactOutstandingRequest
  split
  · rfl
  · split
    · rfl
    · split
      · rfl
      · exact count_takeSlot ..

theorem Slots.h264ReleaseReferenceFrame (hs : s.Slots none) (hk : s.Kept named running)
    (decodeIndex : Nat) : (s.h264ReleaseReferenceFrame c (some decodeIndex)).Slots none := by
  have htranslate : (s.releaseSlot (some decodeIndex)).enactOutstandingRequest.translateDecodeIndex
      decodeIndex = s.translateDecodeIndex decodeIndex := by
    unfold translateDecodeIndex
    rw [indexBufferMap_enactOutstandingRequest, indexBufferMap_releaseSlot]
  show ((s.releaseSlot (some decodeIndex)).enactOutstandingRequest.releaseReferenceFrame c
    (some decodeIndex)).Slots none
  cases h : s.translateDecodeIndex decodeIndex with
  | none =>
    have hsame : s.releaseSlot (some decodeIndex) = s := by
      unfold MmeVideo.releaseSlot
      dsimp only
      rw [h]
    rw [hsame] at htranslate ⊢
    unfold MmeVideo.releaseReferenceFrame
    dsimp only
    rw [htranslate, h]
    exact hs.enact
  | some i =>
    have hk' : (s.releaseSlot (some decodeIndex)).enactOutstandingRequest.Kept named running :=
      (hk.releaseSlot (some decodeIndex)).enactOutstandingRequest
    refine (hs.releaseSlot h).releaseReferenceFrame hk' (htranslate.trans h) ?_
    rw [count_enactOutstandingRequest, bufferState_releaseSlot]

/-! ## Reference frames that are decoded -/

theorem members_takeReferences (list : List Nat) :
    ∀ s : MmeVideo, (list.foldl takeReference s).bufferState = s.bufferState ∧
      (list.foldl takeReference s).referenceFrameSlotUsed = s.referenceFrameSlotUsed ∧
      (list.foldl takeReference s).outstandingSlotAllocationRequest
        = s.outstandingSlotAllocationRequest := by
  induction list with
  | nil => exact fun s => ⟨rfl, rfl, rfl⟩
  | cons i list ih =>
    intro s
    obtain ⟨hstate, hused, houtstanding⟩ := ih (s.takeReference i)
    have htaken : (s.takeReference i).bufferState = s.bufferState ∧
        (s.takeReference i).referenceFrameSlotUsed = s.referenceFrameSlotUsed ∧
        (s.takeReference i).outstandingSlotAllocationRequest
          = s.outstandingSlotAllocationRequest := by
      unfold MmeVideo.takeReference
      dsimp only
      split <;> exact ⟨rfl, rfl, rfl⟩
    exact ⟨hstate.trans htaken.1, hused.trans htaken.2.1, houtstanding.trans htaken.2.2⟩

/-- The record of a buffer with the use count of a decode into it. -/
def BufferState.used (state : BufferState) (f : ParsedFrame) : BufferState :=
  if f.firstSlice && f.referenceFrame then
    { state with referenceFrameCount := state.referenceFrameCount + 1 }
  else state

theorem members_translated (s : MmeVideo) (i : Nat) (f : ParsedFrame) :
    (s.translated i f).2.bufferState
        = Function.update s.bufferState i (BufferState.used (s.bufferState i) f) ∧
      (s.translated i f).2.referenceFrameSlotUsed = s.referenceFrameSlotUsed ∧
      (s.translated i f).2.outstandingSlotAllocationRequest
        = s.outstandingSlotAllocationRequest := by
  obtain ⟨hstate, hused, houtstanding⟩ := members_takeReferences
    (({ s with decodeContext := none }.incrementUseCount i f).translatedList i f)
    ({ s with decodeContext := none }.incrementUseCount i f)
  unfold translated MmeVideo.translateReferenceFrameLists
  dsimp only
  rw [hstate, hused, houtstanding]
  unfold MmeVideo.incrementUseCount BufferState.used
  split
  · exact ⟨rfl, rfl, rfl⟩
  · exact ⟨(Function.update_eq_self i s.bufferState).symm, rfl, rfl⟩

theorem translated_self (s : MmeVideo) (i : Nat) (f : ParsedFrame) :
    (s.translated i f).2.bufferState i = BufferState.used (s.bufferState i) f := by
  rw [(members_translated s i f).1, Function.update_self]

theorem translated_other (hj : j ≠ i) :
    (s.translated i f).2.bufferState j = s.bufferState j := by
  rw [(members_translated s i f).1, Function.update_of_ne hj]

theorem used_attached (state : BufferState) (f : ParsedFrame) :
    (BufferState.used state f).macroblockStructure = state.macroblockStructure := by
  unfold BufferState.used
  split <;> rfl

theorem Slots.translated_first (hs : s.Slots none)
    (hzero : (s.bufferState i).referenceFrameCount = 0) :
    (s.translated i f).2.Slots (some i) := by
  obtain ⟨-, hused, houtstanding⟩ := members_translated s i f
  refine hs.congr (fun j slot => ?_) hused houtstanding
  by_cases hj : j = i
  · subst hj
    exact iff_of_false (fun h => h.1 rfl) fun h => h.2.1 hzero
  · exact holds_congr
      (iff_of_true (fun hji => hj (Option.some.inj hji).symm) (fun hnone => nomatch hnone))
      (translated_other hj)

theorem Slots.translated_again (hs : s.Slots none)
    (h : f.firstSlice = true → f.referenceFrame = true →
      (s.bufferState i).referenceFrameCount ≠ 0) : (s.translated i f).2.Slots none := by
  obtain ⟨-, hused, houtstanding⟩ := members_translated s i f
  refine hs.congr (fun j slot => ?_) hused houtstanding
  by_cases hj : j = i
  · subst hj
    unfold Holds
    rw [translated_self]
    unfold BufferState.used
    split
    · next hfirst =>
      rw [Bool.and_eq_true] at hfirst
      have hne := h hfirst.1 hfirst.2
      have hiff : (s.bufferState j).referenceFrameCount + 1 ≠ 0 ↔
          (s.bufferState j).referenceFrameCount ≠ 0 := iff_of_true (Nat.succ_ne_zero _) hne
      dsimp only
      rw [hiff]
    · exact Iff.rfl
  · exact holds_congr Iff.rfl (translated_other hj)

/-- What the slot of a reference frame needs. A buffer that has no macroblock
structure is to become a reference frame, and one that has a structure is one
already. If a slot is asked for, no other request is outstanding; where there is
`__TDT__` all reference frames are released instead. -/
def SlotDue (c : Configuration) (s : MmeVideo) (i : Nat) (f : ParsedFrame) : Prop :=
  if (s.bufferState i).macroblockStructure = none then
    f.firstSlice = true ∧ (s.bufferState i).referenceFrameCount = 0 ∧
      (c.tdt = true ∨ ∀ o ∈ s.outstandingSlotAllocationRequest,
        o ≠ i ∧ (s.bufferState o).referenceFrameCount = 0)
  else f.firstSlice = true → (s.bufferState i).referenceFrameCount ≠ 0

theorem SlotDue.congr (h : s.SlotDue c i f) (hsame : SameMembers s t) : t.SlotDue c i f := by
  unfold SlotDue at h ⊢
  rw [hsame.attached, hsame.count, hsame.outstanding]
  split
  · next hnone =>
    rw [if_pos hnone] at h
    obtain ⟨hslice, hzero, hrequest⟩ := h
    refine ⟨hslice, hzero, hrequest.imp_right fun hother o ho => ?_⟩
    rw [hsame.count]
    exact hother o ho
  · next hsome =>
    rw [if_neg hsome] at h
    exact h

theorem Slots.attachMacroblockStructure (hs : s.Slots but) (m selfReferences : Nat) :
    (s.attachMacroblockStructure i m selfReferences).Slots but := by
  have hset : SameSlots s (s.setState i { s.bufferState i with macroblockStructure := some m }) := by
    refine ⟨fun j => ?_, fun j _ => ?_, rfl, rfl⟩
    all_goals
      rw [setState_bufferState]
      by_cases hj : j = i
      · subst hj
        rw [Function.update_self]
      · rw [Function.update_of_ne hj]
  exact (hs.same hset).congr (fun _ _ => Iff.rfl) rfl rfl

theorem Slots.filledOut (hc : c.h264 = true) (hs : s.Slots none)
    (hw : (s.translated i f).2.Within c)
    (hdue : f.referenceFrame = true → s.SlotDue c i f) :
    (s.filledOut c i f e).2.Slots none := by
  have hattached : ((s.translated i f).2.bufferState i).macroblockStructure
      = (s.bufferState i).macroblockStructure := by
    rw [translated_self, used_attached]
  unfold MmeVideo.filledOut MmeVideo.fillOutDecodeCommand
  rw [hc, hattached]
  cases hreference : f.referenceFrame with
  | false => exact hs.translated_again fun _ h => nomatch hreference.symm.trans h
  | true =>
    have hdue := hdue hreference
    unfold SlotDue at hdue
    cases hstructure : (s.bufferState i).macroblockStructure with
    | some m =>
      rw [hstructure, if_neg (fun h => nomatch h)] at hdue
      exact hs.translated_again fun h _ => hdue h
    | none =>
      rw [hstructure, if_pos rfl] at hdue
      obtain ⟨hslice, hzero, hrequest⟩ := hdue
      have hfirst : (s.translated i f).2.Slots (some i) := hs.translated_first hzero
      have hone : ((s.translated i f).2.bufferState i).referenceFrameCount ≠ 0 := by
        rw [translated_self]
        unfold BufferState.used
        rw [hslice, hreference]
        exact Nat.succ_ne_zero _
      rw [if_pos (show (true && true && (none : Option Nat).isNone) = true from rfl)]
      by_cases hrefused : ∃ o, (s.translated i f).2.outstandingSlotAllocationRequest = some o ∧
          ((s.translated i f).2.bufferState o).referenceFrameCount ≠ 0
      · obtain ⟨o, ho, hne⟩ := hrefused
        rw [allocate_refused hfirst.waiting ho hne]
        have htdt : c.tdt = true := by
          refine hrequest.resolve_right fun hother => ?_
          rw [(members_translated s i f).2.2] at ho
          obtain ⟨hoi, hzero⟩ := hother o ho
          rw [translated_other hoi] at hne
          exact hne hzero
        show MmeVideo.Slots (if c.tdt = true then _ else _) none
        rw [if_pos htdt]
        exact hw.releaseAll.1
      · have hstale : ∀ o, (s.translated i f).2.outstandingSlotAllocationRequest = some o →
            ((s.translated i f).2.bufferState o).referenceFrameCount = 0 := by
          intro o ho
          by_contra hne
          exact hrefused ⟨o, ho, hne⟩
        obtain ⟨hallocated, hslots⟩ := hfirst.allocate hone hstale
        dsimp only
        rw [hallocated]
        split
        · exact nomatch ‹(!true) = true›
        · split
          · exact hslots
          · split
            · exact hslots
            · exact hslots.attachMacroblockStructure ..

theorem count_attachMacroblockStructure (s : MmeVideo) (i m selfReferences j : Nat) :
    ((s.attachMacroblockStructure i m selfReferences).bufferState j).referenceFrameCount
      = (s.bufferState j).referenceFrameCount := by
  show (Function.update s.bufferState i _ j).referenceFrameCount = _
  by_cases hj : j = i
  · subst hj
    rw [Function.update_self]
  · rw [Function.update_of_ne hj]

theorem count_referenceFrameSlotAllocate (s : MmeVideo) (request : Option Nat) (j : Nat) :
    ((s.referenceFrameSlotAllocate request).2.bufferState j).referenceFrameCount
      = (s.bufferState j).referenceFrameCount := by
  rw [← count_enactOutstandingRequest s j]
  unfold MmeVideo.referenceFrameSlotAllocate
  cases request with
  | none => rfl
  | some i =>
    dsimp only
    split
    · rfl
    · split
      · exact count_takeSlot ..
      · show (Function.update s.enactOutstandingRequest.bufferState i _ j).referenceFrameCount = _
        by_cases hj : j = i
        · subst hj
          rw [Function.update_self]
        · rw [Function.update_of_ne hj]

theorem Within.fillOutDecodeCommand (hw : s.Within c) (i : Nat) (list : List Nat)
    (f : ParsedFrame) (e : Environment) : (s.fillOutDecodeCommand c i list f e).2.Within c := by
  have hallocated : (s.referenceFrameSlotAllocate (some i)).2.Within c :=
    hw.of_le fun j => (count_referenceFrameSlotAllocate s (some i) j).le
  unfold MmeVideo.fillOutDecodeCommand
  split
  · dsimp only
    split
    · show MmeVideo.Within c (if c.tdt = true then _ else _)
      split
      · exact fun j hj => absurd (hallocated.releaseAll.2 j) hj
      · exact hallocated
    · split
      · exact hallocated
      · split
        · exact hallocated
        · exact hallocated.of_le fun j => (count_attachMacroblockStructure ..).le
  · exact hw

theorem Within.translated (hw : s.Within c) (hi : i < c.decodeBufferCount) :
    (s.translated i f).2.Within c := by
  intro j hj
  by_cases hji : j = i
  · exact hji ▸ hi
  · rw [translated_other hji] at hj
    exact hw j hj

/-! ## Contexts that are released -/

theorem Kept.sameSlots_releaseReferences (list : List Nat) :
    ∀ {s : MmeVideo}, s.Kept (list ++ named) running →
      SameSlots s (list.foldl MmeVideo.releaseReference s) := by
  induction list with
  | nil => exact fun _ => sameSlots_of_eq rfl rfl rfl
  | cons i list ih =>
    intro s hk
    have hstructure := sameSlots_releaseMacroblockStructure s i
    have hdecremented := (hk.releaseMacroblockStructure i).trimmed_decrement.sameSlots
    exact (hstructure.trans hdecremented).trans (ih hk.releaseReference)

theorem Kept.sameSlots_releaseDecodeContext (hk : s.Kept named running) (context : DecodeContext)
    {named' running' : List Nat} (hnamed : named = context.referenceFrameList ++ named')
    (hrunning : running = context.running?.toList ++ running') (discard : Bool) :
    SameSlots s (s.releaseDecodeContext context discard) := by
  subst hnamed hrunning
  rw [releaseDecodeContext_eq]
  cases hprogress : context.running? with
  | none =>
    rw [hprogress] at hk
    exact hk.sameSlots_releaseReferences _
  | some i =>
    rw [hprogress] at hk
    exact (hk.trimmed_finishDecode discard).sameSlots.trans
      ((hk.finishDecode discard).sameSlots_releaseReferences _)

theorem current_releaseDecodeContext (context : DecodeContext) (discard : Bool)
    (h : (s.releaseDecodeContext context discard).currentDecodeBufferIndex = some i) :
    s.currentDecodeBufferIndex = some i := by
  rw [releaseDecodeContext_eq,
    (steady_foldl steady_releaseReference _ _).currentDecodeBufferIndex] at h
  revert h
  split
  · exact id
  · next j _ =>
    unfold MmeVideo.finishDecode
    dsimp only
    split
    · intro h
      rw [Option.filter_eq_some_iff] at h
      obtain ⟨h, -⟩ := h
      revert h
      split
      · rw [(steady_passOn (s.endDecode j) j discard).1]
        exact id
      · exact id
    · exact id

/-! ## Runs -/

/-- The slots of a codec between events, with the bounds of the buffers that the
release of all goes through. -/
structure Slotted (c : Configuration) (s : MmeVideo) : Prop where
  slots : s.Slots none
  within : s.Within c
  current : ∀ i, s.currentDecodeBufferIndex = some i → i < c.decodeBufferCount

theorem Slotted.same (hs : s.Slotted c) (h : SameSlots s t)
    (hcurrent : ∀ i, t.currentDecodeBufferIndex = some i → i < c.decodeBufferCount) :
    t.Slotted c where
  slots := hs.slots.same h
  within := hs.within.of_le fun i => (h.count i).le
  current := hcurrent

theorem SameMembers.sameSlots (h : SameMembers s t) : SameSlots s t := h.trimmed.sameSlots

theorem current_afterDecode {last : Bool}
    (h : (s.afterDecode f last).currentDecodeBufferIndex = some i) :
    s.currentDecodeBufferIndex = some i := by
  unfold MmeVideo.afterDecode at h
  split at h
  · exact nomatch h
  · exact h

theorem Slotted.decode (hc : c.h264 = true) (hs : s.Slotted c) (hk : s.Kept named running)
    (hhold : s.hold i = .codec) (hi : i < c.decodeBufferCount)
    (hdue : f.referenceFrame = true → s.SlotDue c i f) : (s.decode c i f e).2.Slotted c := by
  have hfilled : (s.filledOut c i f e).2.Slotted c := by
    have hw := hs.within.translated (f := f) hi
    refine ⟨hs.slots.filledOut hc hw hdue, hw.fillOutDecodeCommand i _ f e, fun j hj => ?_⟩
    exact hs.current j ((steady_filledOut c s i f e).currentDecodeBufferIndex.symm.trans hj)
  have hstarted : (s.started c i f e).2.Slotted c :=
    hfilled.same (sameMembers_startDecode ..).sameSlots hfilled.current
  have hcase := decode_case c s i f e
  generalize s.decode c i f e = result at hcase ⊢
  cases hcase with
  | notFilled hno =>
    have hkept := hk.filledOut (c := c) (f := f) (e := e) hhold
    exact hfilled.same (hkept.sameSlots_releaseDecodeContext (s.contextOf i f false) rfl rfl _)
      fun j hj => hfilled.current j (current_releaseDecodeContext _ _ hj)
  | refused hyes hsent =>
    have hkept := hk.started (c := c) (f := f) (e := e) hhold
    exact hstarted.same (hkept.sameSlots_releaseDecodeContext (s.contextOf i f true) rfl rfl _)
      fun j hj => hstarted.current j (current_releaseDecodeContext _ _ hj)
  | halted hyes hsent =>
    have hsuppressed : ((s.started c i f e).2.suppress (s.contextOf i f true)).Slotted c :=
      hstarted.same (sameSlots_of_eq rfl rfl rfl) hstarted.current
    exact hsuppressed.same (sameMembers_afterDecode ..).sameSlots
      fun j hj => hsuppressed.current j (current_afterDecode hj)
  | accepted hyes hsent =>
    have hlaunched : ((s.started c i f e).2.launch (s.contextOf i f true)).Slotted c :=
      hstarted.same (sameSlots_of_eq rfl rfl rfl) hstarted.current
    exact hlaunched.same (sameMembers_afterDecode ..).sameSlots
      fun j hj => hlaunched.current j (current_afterDecode hj)

/-- What a reference frame needs for its slot is there when it is decoded. -/
def SlotsDue (c : Configuration) (s : MmeVideo) : VideoEvent → Prop
  | .input f e => f.referenceFrame = true → ∀ i, s.DecodesInto c f e i → s.SlotDue c i f
  | _ => True

theorem Slotted.input (hc : c.h264 = true) (hs : s.Slotted c) (hsound : s.Sound)
    (hserved : s.Served c (.input f e)) (hdue : s.SlotsDue c (.input f e)) :
    (s.input c f e).2.Slotted c := by
  have hopened : s.openDecodeContext.Slotted c := ⟨hs.slots.same (sameSlots_of_eq rfl rfl rfl),
    hs.within, hs.current⟩
  have hprepared := (sameMembers_prepared c s f).sameSlots
  have hcase := input_case c s f e
  generalize s.input c f e = result at hcase ⊢
  cases hcase with
  | refused hrefuses => exact hs
  | noFrame hrefuses hframe sent => exact hs
  | parameters hrefuses hframe hstream hrefused => exact hopened
  | noBuffer hrefuses hframe hreused hbuffer =>
    exact hs.same (hprepared.trans (sameSlots_of_eq rfl rfl rfl)) fun j hj =>
      nomatch (current_prepared_of_none hreused).symm.trans hj
  | notMapped hrefuses hframe hreused i hbuffer hmap =>
    refine hs.same (hprepared.trans (sameSlots_of_eq rfl rfl rfl)) fun j hj => ?_
    obtain rfl := Option.some.inj hj
    exact (hserved hrefuses hframe hreused i hbuffer).2.1
  | notAttached hrefuses hframe hreused i hbuffer map hmap hattached hsent =>
    have hsame := hsound.sameMembers_withBuffer hserved hrefuses hframe hreused hbuffer map
    have hi := (hserved hrefuses hframe hreused i hbuffer).2.1
    refine hs.same (hsame.sameSlots.trans (sameSlots_of_eq rfl rfl rfl)) fun j hj => ?_
    obtain rfl := Option.some.inj hj
    exact hi
  | obtained hrefuses hframe hreused i hbuffer map hmap hinto =>
    have hsame := hsound.sameMembers_withBuffer hserved hrefuses hframe hreused hbuffer map
    have hi := (hserved hrefuses hframe hreused i hbuffer).2.1
    obtain ⟨-, hk, -, -⟩ := hsound.withBuffer hserved hrefuses hframe hreused hbuffer hmap
    have hslotted : ((s.prepared c f).withBuffer i map f).Slotted c := by
      refine hs.same hsame.sameSlots fun j hj => ?_
      obtain rfl := Option.some.inj hj
      exact hi
    exact hslotted.decode hc hk (Function.update_self ..) hi fun h => (hdue h i hinto).congr hsame
  | notAdded hrefuses hframe i hreused hslice hadded =>
    have hsame := (sameMembers_addField s.openDecodeContext i f).trans
      (sameMembers_outputPartialDecodeBuffers _)
    exact hopened.same hsame.sameSlots fun j hj =>
      nomatch (current_outputPartialDecodeBuffers _).symm.trans hj
  | added hrefuses hframe i hreused hslice hadded hinto =>
    have hcurrent := (prepared_of_reused hreused).2
    obtain ⟨hk, -, hhold, -⟩ := hsound.fieldAdded (f := f) hrefuses hcurrent
    have hsteady := steady_addField s.openDecodeContext i f
    have hsame := sameMembers_addField s.openDecodeContext i f
    have hslotted : (s.openDecodeContext.addField i f).2.Slotted c :=
      hopened.same hsame.sameSlots fun j hj =>
        hs.current j (hsteady.currentDecodeBufferIndex.symm.trans hj)
    have hself : SameMembers s s.openDecodeContext := sameMembers_of_eq rfl rfl rfl rfl
    exact hslotted.decode hc hk hhold (hs.current i hcurrent) fun h =>
      (hdue h i hinto).congr (hself.trans hsame)
  | slice hrefuses hframe i hreused hslice hinto =>
    have hcurrent := (prepared_of_reused hreused).2
    exact hopened.decode hc (hsound.opened hrefuses) (hsound.current i hcurrent)
      (hs.current i hcurrent) fun h => (hdue h i hinto).congr (sameMembers_of_eq rfl rfl rfl rfl)

theorem Slotted.step (hc : c.h264 = true) (hs : s.Slotted c) (hsound : s.Sound)
    {event : VideoEvent} (hserved : s.Served c event) (hdue : s.SlotsDue c event) :
    (s.step c event).Slotted c := by
  unfold MmeVideo.step
  cases event with
  | input f e => exact hs.input hc hsound hserved hdue
  | callback k discard =>
    dsimp only
    unfold MmeVideo.callbackFromMME
    split
    · exact hs
    · next context hcontext =>
      have hk := hsound.kept_erased hcontext
      have herased : MmeVideo.Slotted c { s with inFlight := s.inFlight.eraseIdx k } :=
        hs.same (sameSlots_of_eq rfl rfl rfl) hs.current
      exact herased.same (hk.sameSlots_releaseDecodeContext context rfl rfl discard) fun j hj =>
        herased.current j (current_releaseDecodeContext _ _ hj)
  | releaseReferenceFrame decodeIndex =>
    dsimp only
    rw [if_pos hc]
    have hsteady := steady_h264ReleaseReferenceFrame c s decodeIndex
    have hcurrent : ∀ i, (s.h264ReleaseReferenceFrame c decodeIndex).currentDecodeBufferIndex
        = some i → i < c.decodeBufferCount := fun i hi =>
      hs.current i (hsteady.currentDecodeBufferIndex.symm.trans hi)
    cases decodeIndex with
    | none =>
      obtain ⟨hslots, hzero⟩ := hs.within.releaseAll
      exact ⟨hslots, fun i hi => absurd (hzero i) hi, hcurrent⟩
    | some decodeIndex =>
      refine ⟨hs.slots.h264ReleaseReferenceFrame hsound.kept decodeIndex, ?_, hcurrent⟩
      refine hs.within.of_le fun i => (count_releaseReferenceFrame_le c _ decodeIndex i).trans ?_
      rw [count_referenceFrameSlotAllocate, bufferState_releaseSlot]
  | releaseDecodeBuffer i =>
    have hhold : s.hold i = .output := hserved
    have hne : s.hold i ≠ .none := fun h => nomatch hhold.symm.trans h
    have hrunning : i ∉ runningIn s.liveContexts := fun hi =>
      nomatch hhold.symm.trans ((hsound.kept i).codec fun h => List.count_eq_zero.mp h hi)
    exact hs.same (hsound.kept.trimmed_releaseDecodeBuffer hne hrunning).sameSlots fun j hj =>
      hs.current j ((steady_releaseDecodeBuffer s i).currentDecodeBufferIndex.symm.trans hj)
  | outputPartialDecodeBuffers =>
    exact hs.same (sameMembers_outputPartialDecodeBuffers s).sameSlots fun j hj =>
      nomatch (current_outputPartialDecodeBuffers s).symm.trans hj
  | halt => exact hs.same (sameSlots_of_eq rfl rfl rfl) hs.current

theorem slotted_registered (c : Configuration) (size : Nat) : (registered size).Slotted c where
  slots := ⟨⟨fun _ _ _ hi _ => absurd rfl hi.2.1, fun _ =>
    iff_of_false Bool.false_ne_true fun ⟨_, hi⟩ => absurd rfl hi.2.1⟩, fun _ ho => nomatch ho⟩
  within := fun _ hi => absurd rfl hi
  current := fun _ hi => nomatch hi

/-- No two reference frames are in one slot, and a slot is used while there is one in
it. -/
def SlotsExclusive (s : MmeVideo) : Prop :=
  (∀ i j slot, (s.bufferState i).referenceFrameCount ≠ 0 →
      (s.bufferState j).referenceFrameCount ≠ 0 →
      (s.bufferState i).referenceFrameSlot = some slot →
      (s.bufferState j).referenceFrameSlot = some slot → i = j) ∧
    ∀ slot, s.referenceFrameSlotUsed slot = true ↔
      ∃ i, (s.bufferState i).referenceFrameCount ≠ 0 ∧
        (s.bufferState i).referenceFrameSlot = some slot

theorem Exclusive.slotsExclusive (hs : s.Exclusive none) : s.SlotsExclusive := by
  have hholds : ∀ i slot, s.Holds none i slot ↔ (s.bufferState i).referenceFrameCount ≠ 0 ∧
      (s.bufferState i).referenceFrameSlot = some slot := fun i slot =>
    ⟨fun h => h.2, fun h => ⟨(fun hnone => nomatch hnone), h⟩⟩
  refine ⟨fun i j slot hi hj hsloti hslotj => ?_, fun slot => ?_⟩
  · exact hs.distinct i j slot ((hholds i slot).mpr ⟨hi, hsloti⟩) ((hholds j slot).mpr ⟨hj, hslotj⟩)
  · rw [hs.used slot]
    exact exists_congr fun i => hholds i slot

theorem run_slotted (hc : c.h264 = true) (events : List VideoEvent) :
    ∀ {s : MmeVideo}, s.Slotted c → s.Sound →
      Along (step c) (fun s event => s.Served c event ∧ s.SlotsDue c event) s events →
      Along (step c) (fun s event => (s.step c event).SlotsExclusive) s events := by
  induction events with
  | nil => intro s _ _ _; trivial
  | cons event events ih =>
    intro s hs hsound hok
    obtain ⟨⟨hserved, hdue⟩, hrest⟩ := hok
    have hs' := hs.step hc hsound hserved hdue
    exact ⟨hs'.slots.exclusive.slotsExclusive, ih hs' (hsound.step hserved) hrest⟩

/-- **The slots of reference frames are exclusive**, in every run in which the codec is
served and what is decoded into a buffer that is no reference frame finds it without a
macroblock structure, with no request for a slot outstanding. -/
theorem slots_exclusive (hc : c.h264 = true) {size : Nat} {events : List VideoEvent}
    (hok : Along (step c) (fun s event => s.Served c event ∧ s.SlotsDue c event)
      (registered size) events) :
    Along (step c) (fun s event => (s.step c event).SlotsExclusive) (registered size) events :=
  run_slotted hc events (slotted_registered c size) (sound_registered size) hok

/-! ## A reference that is released between fields -/

/-- The first field of a reference frame. -/
def firstField (decodeFrameIndex : Nat) : ParsedFrame :=
  { frameOf decodeFrameIndex false true [] with pictureStructure := ⟨true, false⟩ }

/-- And its second field. -/
def secondField (decodeFrameIndex : Nat) (references : List Nat) : ParsedFrame :=
  { frameOf decodeFrameIndex false true references with
    firstParsedParametersForOutputFrame := false
    pictureStructure := ⟨false, true⟩ }

def releasedBetweenFields : List VideoEvent :=
  [.input (firstField 0) (withoutFailure 0 0), .releaseReferenceFrame (some 0),
    .input (secondField 1 []) (withoutFailure 1 1)]

theorem served_input_obtained {k : Nat} (hbuffer : e.buffer = some k)
    (hpool : s.ownerCount k = 0) (hk : k < c.decodeBufferCount) (hroom : none ∈ s.indexBufferMap) :
    s.Served c (.input f e) := by
  intro _ _ _ i hi
  obtain rfl := Option.some.inj (hbuffer.symm.trans hi)
  exact ⟨hpool, hk, hroom⟩

/-- The slot of the first field is free for others when the second is decoded. -/
theorem slots_not_exclusive :
    Along (step h264Configuration) (Served h264Configuration) (registered 16)
        releasedBetweenFields ∧
      ¬ Along (step h264Configuration)
        (fun s event => (s.step h264Configuration event).SlotsExclusive) (registered 16)
        releasedBetweenFields := by
  refine ⟨⟨?_, trivial, ?_, trivial⟩, fun h => ?_⟩
  · exact served_input_obtained rfl rfl (by decide) (by decide)
  · exact served_input_obtained rfl rfl (by decide) (by decide +kernel)
  · have hused := (h.2.2.1.2 0).mpr ⟨0, by decide +kernel, by decide +kernel⟩
    revert hused
    decide +kernel

theorem DecodesInto.eq (h : s.DecodesInto c f e i) {k : Nat}
    (hk : (s.reusedBuffer c f).or e.buffer = some k) : i = k := by
  have hbuffer := h.buffer
  revert hbuffer hk
  split
  · next hreused =>
    rw [hreused]
    intro hk ⟨hbuffer, _⟩
    exact Option.some.inj (hbuffer.symm.trans hk)
  · next hreused =>
    rw [hreused]
    intro hk ⟨hj, _⟩
    exact hj.symm.trans (Option.some.inj hk)

theorem slotsDue_first {k : Nat} (hk : (s.reusedBuffer c f).or e.buffer = some k)
    (hstructure : (s.bufferState k).macroblockStructure = none) (hslice : f.firstSlice = true)
    (hzero : (s.bufferState k).referenceFrameCount = 0)
    (hrequest : s.outstandingSlotAllocationRequest = none) : s.SlotsDue c (.input f e) := by
  intro _ i hinto
  obtain rfl := hinto.eq hk
  unfold SlotDue
  rw [if_pos hstructure]
  exact ⟨hslice, hzero, .inr fun o ho => nomatch hrequest.symm.trans ho⟩

theorem slotsDue_again {k : Nat} (hk : (s.reusedBuffer c f).or e.buffer = some k)
    (hstructure : (s.bufferState k).macroblockStructure ≠ none)
    (hne : (s.bufferState k).referenceFrameCount ≠ 0) : s.SlotsDue c (.input f e) := by
  intro _ i hinto
  obtain rfl := hinto.eq hk
  unfold SlotDue
  rw [if_neg hstructure]
  exact fun _ => hne

/-- Both fields are decoded before either is released, and the buffer is used again. -/
theorem slots_exclusive_fields :
    Along (step h264Configuration)
      (fun s event => (s.step h264Configuration event).SlotsExclusive) (registered 16)
      [.input (firstField 0) (withoutFailure 0 0), .input (secondField 1 []) (withoutFailure 1 1),
        .callback 0 false, .callback 0 false, .releaseDecodeBuffer 0,
        .releaseReferenceFrame (some 0), .releaseReferenceFrame (some 1),
        .input (frameOf 2 false true []) (withoutFailure 0 0)] := by
  refine slots_exclusive rfl ⟨⟨?_, ?_⟩, ⟨?_, ?_⟩, ⟨trivial, trivial⟩, ⟨trivial, trivial⟩,
    ⟨?_, trivial⟩, ⟨trivial, trivial⟩, ⟨trivial, trivial⟩, ⟨?_, ?_⟩, trivial⟩
  · exact served_input_obtained rfl rfl (by decide) (by decide)
  · exact slotsDue_first (k := 0) rfl rfl rfl rfl rfl
  · exact served_input_obtained rfl rfl (by decide) (by decide +kernel)
  · exact slotsDue_again (k := 0) (by decide +kernel) (by decide +kernel) (by decide +kernel)
  · show MmeVideo.hold _ 0 = .output
    decide +kernel
  · exact served_input_obtained rfl (by decide +kernel) (by decide) (by decide +kernel)
  · exact slotsDue_first (k := 0) (by decide +kernel) (by decide +kernel) rfl (by decide +kernel)
      (by decide +kernel)

end Duckbox.Codec.MmeVideo
