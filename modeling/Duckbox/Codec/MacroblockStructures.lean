import Duckbox.Codec.ReferenceSlots

/-!
# The shares in macroblock structures

A macroblock structure is attached to a buffer that becomes a reference frame, and
is counted like the buffer is: for the reference frame once, however many fields
it has, and for every entry of the reference lists that name the buffer
(`Attached`). An entry takes its share when the lists are translated, or when the
structure is attached to the buffer of the decode itself, and gives it back when
the context is released.

`MacroblockStructurePresent` stays in the record when the last share is given
back. What refers to the buffer after that, or makes it a reference frame again,
counts shares in a structure that is free (`structures_not_owned`).
-/

namespace Duckbox.Codec.MmeVideo

open Duckbox.Lib

variable {c : Configuration} {s t u : MmeVideo} {i j m : Nat} {named named' running : List Nat}
  {f : ParsedFrame} {e : Environment}

/-! ## Shares -/

/-- The share of the reference frame itself. -/
def referenceShare (s : MmeVideo) (i : Nat) : Nat :=
  if (s.bufferState i).referenceFrameCount = 0 then 0 else 1

/-- The structure of a buffer has a share for the reference frame and one for every
entry that names the buffer, and is the structure of no other. -/
structure Attached (s : MmeVideo) (named : List Nat) : Prop where
  count : ∀ i m, (s.bufferState i).macroblockStructure = some m →
    s.structureCount m = s.referenceShare i + named.count i
  distinct : ∀ i j m, (s.bufferState i).macroblockStructure = some m →
    (s.bufferState j).macroblockStructure = some m → i = j

theorem Attached.perm (ha : s.Attached named) (h : named.Perm named') : s.Attached named' where
  count i m hm := by
    rw [← h.count_eq]
    exact ha.count i m hm
  distinct := ha.distinct

/-- The counts are the same, and so is every record that still has its structure. -/
structure Pruned (s t : MmeVideo) : Prop where
  state : ∀ i, (t.bufferState i).macroblockStructure = none ∨
    ((t.bufferState i).macroblockStructure = (s.bufferState i).macroblockStructure ∧
      (t.bufferState i).referenceFrameCount = (s.bufferState i).referenceFrameCount)
  structureCount : t.structureCount = s.structureCount

theorem Trimmed.pruned (h : Trimmed s t) : Pruned s t where
  state i := by
    rcases h.state i with ⟨hcount, hstructure, -⟩ | ⟨-, -, hnone⟩
    · exact .inr ⟨hstructure, hcount⟩
    · exact .inl hnone
  structureCount := h.structureCount

theorem Attached.pruned (ha : s.Attached named) (h : Pruned s t) : t.Attached named := by
  have hsame : ∀ i m, (t.bufferState i).macroblockStructure = some m →
      (s.bufferState i).macroblockStructure = some m ∧
        (t.bufferState i).referenceFrameCount = (s.bufferState i).referenceFrameCount := by
    intro i m hm
    rcases h.state i with hnone | ⟨hstructure, hcount⟩
    · exact nomatch hnone.symm.trans hm
    · exact ⟨hstructure.symm.trans hm, hcount⟩
  refine ⟨fun i m hm => ?_, fun i j m hi hj => ha.distinct i j m (hsame i m hi).1 (hsame j m hj).1⟩
  obtain ⟨hstructure, hcount⟩ := hsame i m hm
  rw [h.structureCount]
  unfold referenceShare
  rw [hcount]
  exact ha.count i m hstructure

theorem pruned_decrementReferenceCount (s : MmeVideo) (i : Nat) :
    Pruned s (s.decrementReferenceCount i).2 := by
  unfold decrementReferenceCount
  split
  · dsimp only
    split
    · refine ⟨fun j => ?_, rfl⟩
      show (Function.update s.bufferState i .cleared j).macroblockStructure = none ∨ _
      by_cases hj : j = i
      · subst hj
        rw [Function.update_self]
        exact .inl rfl
      · show _ ∨ (Function.update s.bufferState i .cleared j).macroblockStructure = _ ∧
          (Function.update s.bufferState i .cleared j).referenceFrameCount = _
        rw [Function.update_of_ne hj]
        exact .inr ⟨rfl, rfl⟩
    · exact ⟨fun _ => .inr ⟨rfl, rfl⟩, rfl⟩
  · exact ⟨fun _ => .inr ⟨rfl, rfl⟩, rfl⟩

theorem structureCount_releaseMacroblockStructure (s : MmeVideo) (i m : Nat) :
    (s.releaseMacroblockStructure i).structureCount m =
      if (s.bufferState i).macroblockStructure = some m then s.structureCount m - 1
      else s.structureCount m := by
  unfold releaseMacroblockStructure
  split
  · next hnone => rw [hnone, if_neg (fun h => nomatch h)]
  · next m' hm' =>
    show Function.update s.structureCount m' (s.structureCount m' - 1) m = _
    by_cases hm : m = m'
    · subst hm
      rw [Function.update_self, if_pos hm']
    · rw [Function.update_of_ne hm, hm', if_neg (fun h => hm (Option.some.inj h).symm)]

theorem bufferState_takeReference (s : MmeVideo) (i : Nat) :
    (s.takeReference i).bufferState = s.bufferState := by
  unfold takeReference
  dsimp only
  split <;> rfl

theorem structureCount_takeReference (s : MmeVideo) (i m : Nat) :
    (s.takeReference i).structureCount m =
      if (s.bufferState i).macroblockStructure = some m then s.structureCount m + 1
      else s.structureCount m := by
  have hstate : (s.setOwnerCount i (s.ownerCount i + 1)).bufferState = s.bufferState := rfl
  unfold takeReference
  dsimp only
  rw [hstate]
  split
  · next hnone =>
    rw [hnone, if_neg (fun h => nomatch h)]
    rfl
  · next m' hm' =>
    show Function.update s.structureCount m' (s.structureCount m' + 1) m = _
    by_cases hm : m = m'
    · subst hm
      rw [Function.update_self, if_pos hm']
    · rw [Function.update_of_ne hm, hm', if_neg (fun h => hm (Option.some.inj h).symm)]

theorem Attached.give (ha : s.Attached (i :: named)) :
    (s.releaseMacroblockStructure i).Attached named := by
  have hstate := bufferState_releaseMacroblockStructure s i
  refine ⟨fun j m hm => ?_, fun j k m hj hk => ?_⟩
  · rw [hstate] at hm
    have hcount := ha.count j m hm
    rw [structureCount_releaseMacroblockStructure]
    unfold referenceShare
    rw [hstate]
    by_cases hj : j = i
    · subst hj
      rw [List.count_cons_self] at hcount
      rw [if_pos hm, hcount]
      rfl
    · rw [List.count_cons_of_ne (fun h => hj h.symm)] at hcount
      rw [if_neg (fun h => hj (ha.distinct j i m hm h))]
      exact hcount
  · rw [hstate] at hj hk
    exact ha.distinct j k m hj hk

theorem Attached.take (ha : s.Attached named) (i : Nat) :
    (s.takeReference i).Attached (i :: named) := by
  have hstate := bufferState_takeReference s i
  refine ⟨fun j m hm => ?_, fun j k m hj hk => ?_⟩
  · rw [hstate] at hm
    have hcount := ha.count j m hm
    rw [structureCount_takeReference]
    unfold referenceShare
    rw [hstate]
    by_cases hj : j = i
    · subst hj
      rw [if_pos hm, hcount, List.count_cons_self]
      rfl
    · rw [if_neg (fun h => hj (ha.distinct j i m hm h)),
        List.count_cons_of_ne (fun h => hj h.symm)]
      exact hcount
  · rw [hstate] at hj hk
    exact ha.distinct j k m hj hk

theorem Attached.releaseReference (ha : s.Attached (i :: named)) :
    (s.releaseReference i).Attached named :=
  ha.give.pruned (pruned_decrementReferenceCount ..)

theorem Attached.releaseReferences (list : List Nat) :
    ∀ {s : MmeVideo}, s.Attached (list ++ named) →
      (list.foldl MmeVideo.releaseReference s).Attached named := by
  induction list with
  | nil => exact fun ha => ha
  | cons i list ih => exact fun ha => ih (releaseReference ha)

/-! ## References that are released -/

theorem Attached.decrement (ha : s.Attached named) :
    (s.decrementReferenceFrameCount i).Attached
      (if (s.bufferState i).referenceFrameCount = 1 then i :: named else named) := by
  have hself := decrementReferenceFrameCount_state s i
  have hother : ∀ j, j ≠ i →
      (s.decrementReferenceFrameCount i).bufferState j = s.bufferState j := fun j hj =>
    Function.update_of_ne hj ..
  have hstructure : ∀ j, ((s.decrementReferenceFrameCount i).bufferState j).macroblockStructure
      = (s.bufferState j).macroblockStructure := by
    intro j
    by_cases hj : j = i
    · subst hj
      rw [hself]
    · rw [hother j hj]
  refine ⟨fun j m hm => ?_, fun j k m hj hk => ?_⟩
  · have hcount := ha.count j m ((hstructure j).symm.trans hm)
    show s.structureCount m = _
    rw [hcount]
    unfold referenceShare
    by_cases hj : j = i
    · subst hj
      rw [hself]
      dsimp only
      by_cases hone : (s.bufferState j).referenceFrameCount = 1
      · rw [if_pos hone, hone, List.count_cons_self]
        show 1 + named.count j = 0 + (named.count j + 1)
        omega
      · rw [if_neg hone]
        have hiff : (s.bufferState j).referenceFrameCount - 1 = 0 ↔
            (s.bufferState j).referenceFrameCount = 0 := by omega
        simp only [hiff]
    · have hnamed : (i :: named).count j = named.count j :=
        List.count_cons_of_ne (fun h => hj h.symm)
      rw [hother j hj, apply_ite (List.count j), hnamed, ite_self]
  · exact ha.distinct j k m ((hstructure j).symm.trans hj) ((hstructure k).symm.trans hk)

theorem Attached.releaseReferenceFrame (ha : s.Attached named) (decodeIndex : Nat) :
    (s.releaseReferenceFrame c (some decodeIndex)).Attached named := by
  unfold MmeVideo.releaseReferenceFrame
  dsimp only
  split
  · exact ha
  · next i _ =>
    split
    · exact ha
    · next hne =>
      have hdecremented := ha.decrement (i := i)
      have hself : ((s.decrementReferenceFrameCount i).bufferState i).referenceFrameCount
          = (s.bufferState i).referenceFrameCount - 1 :=
        congrArg BufferState.referenceFrameCount (Function.update_self i _ s.bufferState)
      rw [hself]
      split at hdecremented
      · next hone =>
        rw [if_pos (by rw [hone])]
        exact hdecremented.give.pruned (pruned_decrementReferenceCount ..)
      · next hmore =>
        rw [if_neg (by omega)]
        exact hdecremented.pruned (pruned_decrementReferenceCount ..)

theorem dropReferences_structure (i passes : Nat) :
    ∀ s : MmeVideo, (s.dropReferences i passes).structureCount = s.structureCount ∧
      (∀ j, j ≠ i → (s.dropReferences i passes).bufferState j = s.bufferState j) ∧
      (((s.dropReferences i passes).bufferState i).macroblockStructure = none ∨
        ((s.dropReferences i passes).bufferState i).macroblockStructure
          = (s.bufferState i).macroblockStructure) := by
  induction passes with
  | zero => exact fun s => ⟨rfl, fun j _ => rfl, .inr rfl⟩
  | succ passes ih =>
    intro s
    unfold MmeVideo.dropReferences
    split
    · exact ⟨rfl, fun j _ => rfl, .inr rfl⟩
    · obtain ⟨hcount, hother, hstructure⟩ :=
        ih ((s.decrementReferenceFrameCount i).decrementReferenceCount i).2
      have hpruned := pruned_decrementReferenceCount (s.decrementReferenceFrameCount i) i
      have hself : ((s.decrementReferenceFrameCount i).bufferState i).macroblockStructure
          = (s.bufferState i).macroblockStructure := by
        show (Function.update s.bufferState i _ i).macroblockStructure = _
        rw [Function.update_self]
      refine ⟨hcount.trans hpruned.structureCount, fun j hj => ?_, ?_⟩
      · rw [hother j hj, decrementReferenceCount_other hj]
        exact Function.update_of_ne hj ..
      · rcases hstructure with hnone | hsame
        · exact .inl hnone
        · rw [hsame]
          rcases hpruned.state i with hnone | ⟨hsame', -⟩
          · exact .inl hnone
          · exact .inr (hsame'.trans hself)

theorem Attached.releaseAllReferences (ha : s.Attached named) (i : Nat) :
    (s.releaseAllReferences i).Attached named := by
  unfold MmeVideo.releaseAllReferences
  split
  · exact ha
  · next hne =>
    have hstate := bufferState_releaseMacroblockStructure s i
    have hzero := dropReferences_count i (s.bufferState i).referenceFrameCount
      (s.releaseMacroblockStructure i) (by rw [hstate])
    obtain ⟨hcount, hother, hstructure⟩ := dropReferences_structure i
      (s.bufferState i).referenceFrameCount (s.releaseMacroblockStructure i)
    generalize (s.releaseMacroblockStructure i).dropReferences i
      (s.bufferState i).referenceFrameCount = t at hzero hcount hother hstructure ⊢
    rw [hstate] at hother hstructure
    -- a structure that is left is the one there was
    have hleft : ∀ j m, (t.bufferState j).macroblockStructure = some m →
        (s.bufferState j).macroblockStructure = some m := by
      intro j m hm
      by_cases hj : j = i
      · subst hj
        rcases hstructure with hnone | hsame
        · exact nomatch hnone.symm.trans hm
        · exact hsame.symm.trans hm
      · exact hother j hj ▸ hm
    refine ⟨fun j m hm => ?_, fun j k m hj hk =>
      ha.distinct j k m (hleft j m hj) (hleft k m hk)⟩
    have hbefore := ha.count j m (hleft j m hm)
    unfold referenceShare at hbefore ⊢
    rw [hcount, structureCount_releaseMacroblockStructure]
    by_cases hj : j = i
    · subst hj
      rw [if_pos (hleft j m hm), if_pos hzero, hbefore, if_neg hne]
      omega
    · rw [if_neg (fun h => hj (ha.distinct j i m (hleft j m hm) h)), hother j hj]
      exact hbefore

theorem Attached.releaseAll (list : List Nat) :
    ∀ {s : MmeVideo}, s.Attached named →
      (list.foldl MmeVideo.releaseAllReferences s).Attached named := by
  induction list with
  | nil => exact fun ha => ha
  | cons i list ih => exact fun ha => ih (releaseAllReferences ha i)

theorem pruned_of_slots (hstate : ∀ i, ∃ slot, t.bufferState i =
      { s.bufferState i with referenceFrameSlot := slot })
    (hcount : t.structureCount = s.structureCount) : Pruned s t where
  state i := by
    obtain ⟨slot, hslot⟩ := hstate i
    rw [hslot]
    exact .inr ⟨rfl, rfl⟩
  structureCount := hcount

theorem update_slot (s : MmeVideo) (i : Nat) (slot : Option (Fin 16)) (j : Nat) :
    ∃ slot', Function.update s.bufferState i
        { s.bufferState i with referenceFrameSlot := slot } j
      = { s.bufferState j with referenceFrameSlot := slot' } := by
  by_cases hj : j = i
  · subst hj
    exact ⟨slot, Function.update_self ..⟩
  · exact ⟨(s.bufferState j).referenceFrameSlot, Function.update_of_ne hj ..⟩

theorem pruned_of_eq (hstate : t.bufferState = s.bufferState)
    (hcount : t.structureCount = s.structureCount) : Pruned s t where
  state i := by
    rw [hstate]
    exact .inr ⟨rfl, rfl⟩
  structureCount := hcount

theorem pruned_enactOutstandingRequest (s : MmeVideo) : Pruned s s.enactOutstandingRequest := by
  unfold MmeVideo.enactOutstandingRequest
  split
  · exact pruned_of_eq rfl rfl
  · split
    · exact pruned_of_eq rfl rfl
    · split
      · exact pruned_of_eq rfl rfl
      · exact pruned_of_slots (update_slot s _ _) rfl

theorem Pruned.trans (h : Pruned s t) (h' : Pruned t u) : Pruned s u where
  state i := by
    rcases h'.state i with hnone | ⟨hstructure, hcount⟩
    · exact .inl hnone
    · rcases h.state i with hnone' | ⟨hstructure', hcount'⟩
      · exact .inl (hstructure.trans hnone')
      · exact .inr ⟨hstructure.trans hstructure', hcount.trans hcount'⟩
  structureCount := h'.structureCount.trans h.structureCount

theorem pruned_referenceFrameSlotAllocate (s : MmeVideo) (request : Option Nat) :
    Pruned s (s.referenceFrameSlotAllocate request).2 := by
  have henact := pruned_enactOutstandingRequest s
  unfold MmeVideo.referenceFrameSlotAllocate
  dsimp only
  split
  · exact henact
  · split
    · exact henact
    · split
      · exact henact.trans (pruned_of_slots (update_slot _ _ _) rfl)
      · exact henact.trans (pruned_of_slots (update_slot _ _ _) rfl)

theorem pruned_releaseSlot (s : MmeVideo) (decodeIndex : Option Nat) :
    Pruned s (s.releaseSlot decodeIndex) := by
  refine pruned_of_eq (bufferState_releaseSlot s decodeIndex) ?_
  unfold MmeVideo.releaseSlot
  split
  · rfl
  · split
    · rfl
    · split
      · split <;> rfl
      · rfl

theorem Attached.h264ReleaseReferenceFrame (ha : s.Attached named) (decodeIndex : Option Nat) :
    (s.h264ReleaseReferenceFrame c decodeIndex).Attached named := by
  have hbefore := (ha.pruned (pruned_releaseSlot s decodeIndex)).pruned
    (pruned_referenceFrameSlotAllocate _ none)
  cases decodeIndex with
  | none => exact hbefore.releaseAll _
  | some decodeIndex => exact hbefore.releaseReferenceFrame decodeIndex

/-! ## Structures that are free -/

/-- A structure without a share is given none. -/
def Quiet (s t : MmeVideo) : Prop := ∀ m, s.structureCount m = 0 → t.structureCount m = 0

theorem Quiet.trans (h : Quiet s t) (h' : Quiet t u) : Quiet s u := fun m hm => h' m (h m hm)

theorem Pruned.quiet (h : Pruned s t) : Quiet s t := fun m hm => by
  rw [h.structureCount]
  exact hm

theorem quiet_foldl {α : Type} {step : MmeVideo → α → MmeVideo}
    (hstep : ∀ s a, Quiet s (step s a)) (list : List α) :
    ∀ s : MmeVideo, Quiet s (list.foldl step s) := by
  induction list with
  | nil => exact fun _ _ hm => hm
  | cons a list ih => exact fun s => (hstep s a).trans (ih _)

theorem quiet_releaseMacroblockStructure (s : MmeVideo) (i : Nat) :
    Quiet s (s.releaseMacroblockStructure i) := by
  intro m hm
  rw [structureCount_releaseMacroblockStructure, hm, ite_self]

theorem quiet_releaseReference (s : MmeVideo) (i : Nat) : Quiet s (s.releaseReference i) :=
  (quiet_releaseMacroblockStructure s i).trans (pruned_decrementReferenceCount ..).quiet

theorem quiet_releaseAllReferences (s : MmeVideo) (i : Nat) :
    Quiet s (s.releaseAllReferences i) := by
  unfold MmeVideo.releaseAllReferences
  split
  · exact fun _ hm => hm
  · refine (quiet_releaseMacroblockStructure s i).trans fun m hm => ?_
    rw [(dropReferences_structure ..).1]
    exact hm

theorem quiet_releaseReferenceFrame (c : Configuration) (s : MmeVideo)
    (decodeIndex : Option Nat) : Quiet s (s.releaseReferenceFrame c decodeIndex) := by
  unfold MmeVideo.releaseReferenceFrame
  split
  · exact quiet_foldl quiet_releaseAllReferences _ s
  · split
    · exact fun _ hm => hm
    · next i _ =>
      split
      · exact fun _ hm => hm
      · have hdecremented : Quiet s (s.decrementReferenceFrameCount i) := fun _ hm => hm
        dsimp only
        split
        · exact (hdecremented.trans (quiet_releaseMacroblockStructure _ i)).trans
            (pruned_decrementReferenceCount ..).quiet
        · exact hdecremented.trans (pruned_decrementReferenceCount ..).quiet

theorem quiet_h264ReleaseReferenceFrame (c : Configuration) (s : MmeVideo)
    (decodeIndex : Option Nat) : Quiet s (s.h264ReleaseReferenceFrame c decodeIndex) :=
  ((pruned_releaseSlot s decodeIndex).trans (pruned_referenceFrameSlotAllocate _ none)).quiet.trans
    (quiet_releaseReferenceFrame c _ decodeIndex)

/-- A structure without a share is given none, but for one that the pool gives. -/
def Obtains (given : Option Nat) (s t : MmeVideo) : Prop :=
  ∀ m, s.structureCount m = 0 → t.structureCount m ≠ 0 → given = some m

theorem Quiet.obtains (h : Quiet s t) (given : Option Nat) : Obtains given s t :=
  fun m hm hne => absurd (h m hm) hne

theorem Obtains.trans {given : Option Nat} (h : Obtains given s t) (h' : Obtains given t u) :
    Obtains given s u := by
  intro m hm hne
  by_cases hzero : t.structureCount m = 0
  · exact h' m hzero hne
  · exact h m hm hzero

/-! ## References that are taken -/

/-- A buffer has no structure, or one that has a share. -/
def Live (s : MmeVideo) (named : List Nat) (i : Nat) : Prop :=
  (s.bufferState i).macroblockStructure = none ∨
    (s.bufferState i).referenceFrameCount ≠ 0 ∨ i ∈ named

theorem Attached.count_ne_zero (ha : s.Attached named) (hlive : s.Live named i)
    (hm : (s.bufferState i).macroblockStructure = some m) : s.structureCount m ≠ 0 := by
  rw [ha.count i m hm]
  rcases hlive with hnone | hne | hmem
  · exact nomatch hnone.symm.trans hm
  · unfold referenceShare
    rw [if_neg hne]
    omega
  · have hpos := List.count_pos_iff.mpr hmem
    omega

theorem Live.take (hlive : s.Live named i) (j : Nat) :
    (s.takeReference j).Live (j :: named) i := by
  unfold Live
  rw [bufferState_takeReference]
  exact hlive.imp_right fun h => h.imp_right fun hmem => .tail _ hmem

theorem Attached.takeReferences (list : List Nat) :
    ∀ {s : MmeVideo} {named : List Nat}, s.Attached named → (∀ i ∈ list, s.Live named i) →
      (list.foldl MmeVideo.takeReference s).Attached (list ++ named) ∧
        Quiet s (list.foldl MmeVideo.takeReference s) := by
  induction list with
  | nil => exact fun ha _ => ⟨ha, fun _ hm => hm⟩
  | cons i list ih =>
    intro s named ha hlive
    obtain ⟨hattached, hquiet⟩ := ih (ha.take i) fun j hj => (hlive j (.tail _ hj)).take i
    have hperm : (list ++ i :: named).Perm ((i :: list) ++ named) := List.perm_middle
    refine ⟨hattached.perm hperm, Quiet.trans (fun m hm => ?_) hquiet⟩
    rw [structureCount_takeReference, if_neg (fun hsome => ?_)]
    · exact hm
    · exact ha.count_ne_zero (hlive i (.head _)) hsome hm

theorem Attached.incrementUseCount (ha : s.Attached named)
    (h : f.firstSlice = true → f.referenceFrame = true →
      (s.bufferState i).macroblockStructure ≠ none →
      (s.bufferState i).referenceFrameCount ≠ 0) : (s.incrementUseCount i f).Attached named := by
  unfold MmeVideo.incrementUseCount
  split
  · next hfirst =>
    rw [Bool.and_eq_true] at hfirst
    have hstructure : ∀ j, (Function.update s.bufferState i
          { s.bufferState i with
            referenceFrameCount := (s.bufferState i).referenceFrameCount + 1 }
          j).macroblockStructure = (s.bufferState j).macroblockStructure := by
      intro j
      by_cases hj : j = i
      · subst hj
        rw [Function.update_self]
      · rw [Function.update_of_ne hj]
    refine ⟨fun j m hm => ?_, fun j k m hj hk =>
      ha.distinct j k m ((hstructure j).symm.trans hj) ((hstructure k).symm.trans hk)⟩
    have hm' := (hstructure j).symm.trans hm
    refine (ha.count j m hm').trans ?_
    unfold referenceShare
    show _ = (if (Function.update s.bufferState i _ j).referenceFrameCount = 0 then 0 else 1) + _
    by_cases hj : j = i
    · subst hj
      have hne := h hfirst.1 hfirst.2 (fun hnone => nomatch hnone.symm.trans hm')
      rw [Function.update_self, if_neg hne, if_neg (Nat.succ_ne_zero _)]
    · rw [Function.update_of_ne hj]
  · exact ha

theorem Live.incrementUseCount (hlive : s.Live named i) (j : Nat) (f : ParsedFrame) :
    (s.incrementUseCount j f).Live named i := by
  unfold MmeVideo.incrementUseCount
  split
  · unfold Live
    show (Function.update s.bufferState j _ i).macroblockStructure = none ∨
      (Function.update s.bufferState j _ i).referenceFrameCount ≠ 0 ∨ _
    by_cases hi : i = j
    · subst hi
      rw [Function.update_self]
      exact .inr (.inl (Nat.succ_ne_zero _))
    · rw [Function.update_of_ne hi]
      exact hlive
  · exact hlive

theorem Attached.attachMacroblockStructure {list : List Nat} (ha : s.Attached (list ++ named))
    (hne : (s.bufferState i).referenceFrameCount ≠ 0) (hnamed : i ∉ named)
    (hfresh : ∀ j, (s.bufferState j).macroblockStructure ≠ some m) :
    (s.attachMacroblockStructure i m (list.count i)).Attached (list ++ named) := by
  have hself : (s.attachMacroblockStructure i m (list.count i)).bufferState i =
      { s.bufferState i with macroblockStructure := some m } := Function.update_self ..
  have hother : ∀ j, j ≠ i →
      (s.attachMacroblockStructure i m (list.count i)).bufferState j = s.bufferState j :=
    fun j hj => Function.update_of_ne hj ..
  refine ⟨fun j m' hm' => ?_, fun j k m' hj hk => ?_⟩
  · show Function.update s.structureCount m (1 + list.count i) m' = _
    unfold referenceShare
    by_cases hj : j = i
    · subst hj
      rw [hself] at hm' ⊢
      obtain rfl := Option.some.inj hm'
      rw [Function.update_self, if_neg hne, List.count_append, List.count_eq_zero.mpr hnamed]
      rfl
    · rw [hother j hj] at hm' ⊢
      rw [Function.update_of_ne (fun h => hfresh j (hm'.trans (congrArg some h)))]
      exact ha.count j m' hm'
  · by_cases hji : j = i
    · by_cases hki : k = i
      · exact hji.trans hki.symm
      · subst hji
        rw [hself] at hj
        rw [hother k hki] at hk
        exact absurd (Option.some.inj hj ▸ hk) (hfresh k)
    · by_cases hki : k = i
      · subst hki
        rw [hself] at hk
        rw [hother j hji] at hj
        exact absurd (Option.some.inj hk ▸ hj) (hfresh j)
      · rw [hother j hji] at hj
        rw [hother k hki] at hk
        exact ha.distinct j k m' hj hk

/-! ## Decodes -/

theorem translated_list (s : MmeVideo) (i : Nat) (f : ParsedFrame) :
    (s.translated i f).1 = s.translatedList i f := by
  unfold translated MmeVideo.translateReferenceFrameLists MmeVideo.translatedList
  dsimp only
  unfold MmeVideo.incrementUseCount
  split <;> rfl

/-- What the structure of a reference frame needs. A buffer that has no structure is
named by no other decode and becomes a reference frame, and what the pool gives is in
no record; a buffer that has one is a reference frame already. -/
def StructureDue (s : MmeVideo) (named : List Nat) (i : Nat) (f : ParsedFrame)
    (e : Environment) : Prop :=
  if (s.bufferState i).macroblockStructure = none then
    e.enoughMemory = true → ∀ m, e.macroblockStructure = some m →
      (f.firstSlice = true ∨ (s.bufferState i).referenceFrameCount ≠ 0) ∧ i ∉ named ∧
        ∀ j, (s.bufferState j).macroblockStructure ≠ some m
  else f.firstSlice = true → (s.bufferState i).referenceFrameCount ≠ 0

theorem StructureDue.congr (h : s.StructureDue named i f e) (hsame : SameMembers s t) :
    t.StructureDue named i f e := by
  unfold StructureDue at h ⊢
  rw [hsame.attached, hsame.count]
  split
  · next hnone =>
    rw [if_pos hnone] at h
    intro hmemory m hm
    obtain ⟨hslice, hnamed, hfresh⟩ := h hmemory m hm
    refine ⟨hslice, hnamed, fun j => ?_⟩
    rw [hsame.attached]
    exact hfresh j
  · next hsome =>
    rw [if_neg hsome] at h
    exact h

theorem Live.congr (h : s.Live named i) (hsame : SameMembers s t) : t.Live named i := by
  unfold Live
  rw [hsame.attached, hsame.count]
  exact h

theorem Attached.translated (ha : s.Attached named)
    (hdue : f.referenceFrame = true → s.StructureDue named i f e)
    (hlive : ∀ j ∈ s.translatedList i f, s.Live named j) :
    (s.translated i f).2.Attached ((s.translated i f).1 ++ named) ∧
      Quiet s (s.translated i f).2 := by
  have hnone : MmeVideo.Attached { s with decodeContext := none } named :=
    ha.pruned (pruned_of_eq rfl rfl)
  have hcounted := hnone.incrementUseCount (i := i) (f := f) fun hslice hreference hsome => by
    have h := hdue hreference
    unfold StructureDue at h
    rw [if_neg hsome] at h
    exact h hslice
  have hquiet : Quiet s ({ s with decodeContext := none }.incrementUseCount i f) := by
    unfold MmeVideo.incrementUseCount
    split <;> exact fun _ hm => hm
  have hlist := translated_list s i f
  obtain ⟨hattached, htaken⟩ := hcounted.takeReferences (s.translated i f).1 fun j hj =>
    Live.incrementUseCount (s := { s with decodeContext := none }) (hlive j (hlist ▸ hj)) i f
  exact ⟨hattached, hquiet.trans htaken⟩

theorem Attached.filledOut (ha : s.Attached named)
    (hdue : f.referenceFrame = true → s.StructureDue named i f e)
    (hlive : ∀ j ∈ s.translatedList i f, s.Live named j) :
    (s.filledOut c i f e).2.Attached ((s.translated i f).1 ++ named) ∧
      Obtains e.macroblockStructure s (s.filledOut c i f e).2 := by
  obtain ⟨hattached, hquiet⟩ := ha.translated hdue hlive
  have hbefore := hquiet.obtains e.macroblockStructure
  have hallocate := pruned_referenceFrameSlotAllocate (s.translated i f).2 (some i)
  have hallocated := hattached.pruned hallocate
  have hgiven := hbefore.trans (hallocate.quiet.obtains e.macroblockStructure)
  unfold MmeVideo.filledOut MmeVideo.fillOutDecodeCommand
  split
  · next hasks =>
    rw [Bool.and_eq_true, Bool.and_eq_true, translated_self, used_attached] at hasks
    obtain ⟨⟨-, hreference⟩, hstructure⟩ := hasks
    dsimp only
    split
    · show MmeVideo.Attached (if c.tdt = true then _ else _) _ ∧
        Obtains _ _ (if c.tdt = true then _ else _)
      split
      · exact ⟨hallocated.h264ReleaseReferenceFrame none,
          hgiven.trans ((quiet_h264ReleaseReferenceFrame c _ none).obtains _)⟩
      · exact ⟨hallocated, hgiven⟩
    · split
      · exact ⟨hallocated, hgiven⟩
      · next hmemory =>
        split
        · exact ⟨hallocated, hgiven⟩
        · next m hm =>
          have hnone : (s.bufferState i).macroblockStructure = none :=
            Option.isNone_iff_eq_none.mp hstructure
          have h := hdue hreference
          unfold StructureDue at h
          rw [if_pos hnone] at h
          obtain ⟨hslice, hnamed, hfresh⟩ := h (by simpa using hmemory) m hm
          have hne : (((s.translated i f).2.referenceFrameSlotAllocate (some i)).2.bufferState
              i).referenceFrameCount ≠ 0 := by
            rw [count_referenceFrameSlotAllocate, translated_self]
            unfold BufferState.used
            rcases hslice with hslice | hcount
            · rw [hslice, hreference]
              exact Nat.succ_ne_zero _
            · split
              · exact Nat.succ_ne_zero _
              · exact hcount
          have hfresh' : ∀ j, (((s.translated i f).2.referenceFrameSlotAllocate
              (some i)).2.bufferState j).macroblockStructure ≠ some m := by
            intro j hj
            rcases hallocate.state j with hnone | ⟨hsame, -⟩
            · exact nomatch hnone.symm.trans hj
            · have hj' := hsame.symm.trans hj
              rw [(members_translated s i f).1] at hj'
              by_cases hji : j = i
              · subst hji
                rw [Function.update_self, used_attached] at hj'
                exact hfresh j hj'
              · rw [Function.update_of_ne hji] at hj'
                exact hfresh j hj'
          refine ⟨hallocated.attachMacroblockStructure hne hnamed hfresh', ?_⟩
          refine hgiven.trans fun m' hzero hne' => ?_
          by_contra hother
          have hm' : m' ≠ m := fun h => hother (h ▸ hm)
          apply hne'
          show Function.update _ m _ m' = 0
          rw [Function.update_of_ne hm']
          exact hzero
  · exact ⟨hattached, hbefore⟩

theorem Attached.endContext (ha : s.Attached (named ++ named')) (context : DecodeContext)
    (hnamed : named = context.referenceFrameList)
    (hk : s.Kept (named ++ named') (context.running?.toList ++ running)) (discard : Bool) :
    (s.releaseDecodeContext context discard).Attached named' ∧
      Quiet s (s.releaseDecodeContext context discard) := by
  subst hnamed
  rw [releaseDecodeContext_eq]
  cases hprogress : context.running? with
  | none => exact ⟨ha.releaseReferences _, quiet_foldl quiet_releaseReference _ _⟩
  | some i =>
    rw [hprogress] at hk
    have hpruned := (hk.trimmed_finishDecode discard).pruned
    exact ⟨(ha.pruned hpruned).releaseReferences _,
      hpruned.quiet.trans (quiet_foldl quiet_releaseReference _ _)⟩

/-- The structures of a codec between events. -/
def Owned (s : MmeVideo) : Prop := s.Attached (namedBy s.liveContexts)

theorem owned_of_flight (ha : s.Attached (namedBy s.inFlight))
    (hidle : namedBy s.decodeContext.toList = []) : s.Owned := by
  unfold Owned liveContexts namedBy
  rw [List.flatMap_append]
  show s.Attached (namedBy s.decodeContext.toList ++ namedBy s.inFlight)
  rw [hidle]
  exact ha

theorem Owned.flight (ho : s.Owned) (hidle : namedBy s.decodeContext.toList = []) :
    s.Attached (namedBy s.inFlight) := by
  unfold Owned liveContexts namedBy at ho
  rw [List.flatMap_append] at ho
  change s.Attached (namedBy s.decodeContext.toList ++ namedBy s.inFlight) at ho
  rw [hidle] at ho
  exact ho

theorem owned_decode (ha : s.Attached (namedBy s.inFlight))
    (hk : s.Kept (namedBy s.inFlight) running) (hhold : s.hold i = .codec)
    (hdue : f.referenceFrame = true → s.StructureDue (namedBy s.inFlight) i f e)
    (hlive : ∀ j ∈ s.translatedList i f, s.Live (namedBy s.inFlight) j) :
    (s.decode c i f e).2.Owned ∧ Obtains e.macroblockStructure s (s.decode c i f e).2 := by
  obtain ⟨hfilled, hgiven⟩ := ha.filledOut (c := c) hdue hlive
  have hstart : Pruned (s.filledOut c i f e).2 (s.started c i f e).2 :=
    (sameMembers_startDecode ..).trimmed.pruned
  have hstarted := hfilled.pruned hstart
  have hgiven' := hgiven.trans (hstart.quiet.obtains e.macroblockStructure)
  have hsteady := steady_filledOut c s i f e
  have hsteady' := steady_started c s i f e
  have hnone := context_decode c s i f e
  have hcase := decode_case c s i f e
  generalize s.decode c i f e = result at hcase hnone ⊢
  cases hcase with
  | notFilled hno =>
    have hkept := hk.filledOut (c := c) (f := f) (e := e) hhold
    obtain ⟨hended, hquiet⟩ := hfilled.endContext (s.contextOf i f false) rfl hkept e.discard
    obtain ⟨-, hflight, -⟩ :=
      releaseDecodeContext_course (s.filledOut c i f e).2 (s.contextOf i f false) e.discard
    refine ⟨owned_of_flight ?_ ?_, hgiven.trans (hquiet.obtains _)⟩
    · rw [hflight, hsteady.inFlight]
      exact hended
    · rw [hnone (.inl rfl)]
      rfl
  | refused hyes hsent =>
    have hkept := hk.started (c := c) (f := f) (e := e) hhold
    obtain ⟨hended, hquiet⟩ := hstarted.endContext (s.contextOf i f true) rfl hkept e.discard
    obtain ⟨-, hflight, -⟩ :=
      releaseDecodeContext_course (s.started c i f e).2 (s.contextOf i f true) e.discard
    refine ⟨owned_of_flight ?_ ?_, hgiven'.trans (hquiet.obtains _)⟩
    · rw [hflight, hsteady'.inFlight]
      exact hended
    · rw [hnone (.inl rfl)]
      rfl
  | halted hyes hsent =>
    have hafter := (sameMembers_afterDecode ((s.started c i f e).2.suppress (s.contextOf i f true)) f
      (s.started c i f e).1).trimmed.pruned
    obtain ⟨hcontext, hflight, -⟩ := afterDecode_course
      ((s.started c i f e).2.suppress (s.contextOf i f true)) f (s.started c i f e).1
    have hpruned : Pruned (s.started c i f e).2
        ((s.started c i f e).2.suppress (s.contextOf i f true)) := pruned_of_eq rfl rfl
    refine ⟨?_, hgiven'.trans ((hpruned.trans hafter).quiet.obtains _)⟩
    unfold Owned liveContexts
    rw [hcontext, hflight]
    show MmeVideo.Attached _ (namedBy (_ :: (s.started c i f e).2.inFlight))
    rw [hsteady'.inFlight]
    exact (hstarted.pruned hpruned).pruned hafter
  | accepted hyes hsent =>
    have hafter := (sameMembers_afterDecode ((s.started c i f e).2.launch (s.contextOf i f true)) f
      (s.started c i f e).1).trimmed.pruned
    obtain ⟨hcontext, hflight, -⟩ := afterDecode_course
      ((s.started c i f e).2.launch (s.contextOf i f true)) f (s.started c i f e).1
    have hpruned : Pruned (s.started c i f e).2
        ((s.started c i f e).2.launch (s.contextOf i f true)) := pruned_of_eq rfl rfl
    refine ⟨owned_of_flight ?_ ?_, hgiven'.trans ((hpruned.trans hafter).quiet.obtains _)⟩
    · rw [hflight]
      show MmeVideo.Attached _ (namedBy ((s.started c i f e).2.inFlight ++ _))
      rw [hsteady'.inFlight]
      have hadded : (s.contextOf i f true :: s.inFlight).Perm
          (s.inFlight ++ [s.contextOf i f true]) := (List.perm_append_singleton _ _).symm
      exact ((hstarted.pruned hpruned).pruned hafter).perm (namedBy_perm hadded)
    · rw [hcontext]
      show namedBy (s.started c i f e).2.decodeContext.toList = []
      rw [hsteady'.decodeContext]
      rfl

/-! ## Inputs -/

/-- What a map translates a decode index to. -/
def lookUp (map : List (Option (Nat × Nat))) (decodeIndex : Nat) : Option Nat :=
  map.findSome? fun entry => (entry.filter (·.1 == decodeIndex)).map Prod.snd

theorem lookUp_mapEntry {entry : Nat × Nat} {decodeIndex : Nat} :
    ∀ {map map' : List (Option (Nat × Nat))}, mapEntry entry map = some map' →
      lookUp map' decodeIndex = lookUp map decodeIndex ∨
        decodeIndex = entry.1 ∧ lookUp map' decodeIndex = some entry.2
  | none :: map, map', h => by
    obtain rfl := Option.some.inj h
    by_cases hentry : entry.1 = decodeIndex
    · subst hentry
      refine .inr ⟨rfl, ?_⟩
      simp [lookUp]
    · refine .inl ?_
      simp [lookUp, hentry]
  | some used :: map, map', h => by
    unfold mapEntry at h
    rw [Option.map_eq_some_iff] at h
    obtain ⟨map'', h, rfl⟩ := h
    by_cases hused : used.1 = decodeIndex
    · refine .inl ?_
      simp [lookUp, hused]
    · have hskip : ∀ rest, lookUp (some used :: rest) decodeIndex = lookUp rest decodeIndex := by
        intro rest
        simp [lookUp, hused]
      rw [hskip, hskip]
      exact lookUp_mapEntry h

/-- An entry of the reference lists comes to name a buffer: its index is mapped to it,
or the buffer is that of the decode, for an index that is missing or its own. -/
def Refers (s : MmeVideo) (i : Nat) (f : ParsedFrame) (decodeIndex j : Nat) : Prop :=
  s.translateDecodeIndex decodeIndex = some j ∨
    j = i ∧ (s.translateDecodeIndex decodeIndex = none ∨ decodeIndex = f.decodeFrameIndex)

theorem refers_of_mapped
    (hmap : t.indexBufferMap = s.indexBufferMap ∨
      mapEntry (f.decodeFrameIndex, i) s.indexBufferMap = some t.indexBufferMap)
    (hj : j ∈ t.translatedList i f) : ∃ d ∈ f.referenceFrameList, s.Refers i f d j := by
  unfold translatedList at hj
  obtain ⟨d, hd, rfl⟩ := List.mem_map.mp hj
  refine ⟨d, hd, ?_⟩
  have hlook : lookUp t.indexBufferMap d = lookUp s.indexBufferMap d ∨
      d = f.decodeFrameIndex ∧ lookUp t.indexBufferMap d = some i := by
    rcases hmap with hsame | hentry
    · rw [hsame]
      exact .inl rfl
    · exact lookUp_mapEntry hentry
  rcases hlook with hsame | ⟨hown, hself⟩
  · have htranslate : t.translateDecodeIndex d = s.translateDecodeIndex d := hsame
    rw [htranslate]
    cases h : s.translateDecodeIndex d with
    | none => exact .inr ⟨rfl, .inl h⟩
    | some j => exact .inl h
  · have htranslate : t.translateDecodeIndex d = some i := hself
    rw [htranslate]
    exact .inr ⟨rfl, .inr hown⟩

theorem map_addField (s : MmeVideo) (i : Nat) (f : ParsedFrame) :
    (s.addField i f).2.indexBufferMap = s.indexBufferMap ∨
      mapEntry (f.decodeFrameIndex, i) s.indexBufferMap
        = some (s.addField i f).2.indexBufferMap := by
  unfold addField mapBufferToDecodeIndex
  cases hmap : mapEntry (f.decodeFrameIndex, i) s.indexBufferMap with
  | none => exact .inl rfl
  | some map =>
    refine .inr ?_
    dsimp only [Option.map_some]
    split
    · rfl
    · split <;> rfl

/-- The structure that a reference frame is to have is no other's, and no reference is
to a structure that is free. -/
def StructuresDue (c : Configuration) (s : MmeVideo) : VideoEvent → Prop
  | .input f e => ∀ i, s.DecodesInto c f e i →
      (f.referenceFrame = true → s.StructureDue (namedBy s.inFlight) i f e) ∧
      ∀ d ∈ f.referenceFrameList, ∀ j, s.Refers i f d j → s.Live (namedBy s.inFlight) j
  | _ => True

theorem owned_decode_of_mapped (ha : t.Attached (namedBy t.inFlight))
    (hk : t.Kept (namedBy t.inFlight) running) (hhold : t.hold i = .codec)
    (hsame : SameMembers s t) (hflight : t.inFlight = s.inFlight)
    (hmap : t.indexBufferMap = s.indexBufferMap ∨
      mapEntry (f.decodeFrameIndex, i) s.indexBufferMap = some t.indexBufferMap)
    (hinto : s.DecodesInto c f e i) (hdue : s.StructuresDue c (.input f e)) :
    (t.decode c i f e).2.Owned ∧ Obtains e.macroblockStructure s (t.decode c i f e).2 := by
  obtain ⟨hstructure, hreferences⟩ := hdue i hinto
  have hquiet := hsame.trimmed.pruned.quiet
  obtain ⟨howned, hgiven⟩ := owned_decode (c := c) (f := f) (e := e) ha hk hhold
    (fun h => by rw [hflight]; exact (hstructure h).congr hsame) fun j hj => by
      obtain ⟨d, hd, hrefers⟩ := refers_of_mapped hmap hj
      rw [hflight]
      exact (hreferences d hd j hrefers).congr hsame
  exact ⟨howned, (hquiet.obtains _).trans hgiven⟩

theorem Owned.input (ho : s.Owned) (hsound : s.Sound) (hserved : s.Served c (.input f e))
    (hdue : s.StructuresDue c (.input f e)) :
    (s.input c f e).2.Owned ∧ Obtains e.macroblockStructure s (s.input c f e).2 := by
  have hidle : s.refuses c f e = false → namedBy s.decodeContext.toList = [] ∧
      s.Attached (namedBy s.inFlight) := fun h =>
    have hnothing := (hsound.idle (halted_of_refuses h)).1
    ⟨hnothing, ho.flight hnothing⟩
  have hprepared := (sameMembers_prepared c s f)
  have hrest := completePrevious_course c s.openDecodeContext f
  have hself : Quiet s s := fun _ hm => hm
  have hcase := input_case c s f e
  generalize s.input c f e = result at hcase ⊢
  cases hcase with
  | refused hrefuses => exact ⟨ho, hself.obtains _⟩
  | noFrame hrefuses hframe sent => exact ⟨ho, hself.obtains _⟩
  | parameters hrefuses hframe hstream hrefused =>
    obtain ⟨-, ha⟩ := hidle hrefuses
    have hopened : Pruned s s.openDecodeContext := pruned_of_eq rfl rfl
    exact ⟨owned_of_flight (ha.pruned hopened)
      (idle_openDecodeContext (hsound.idle (halted_of_refuses hrefuses))).1, hopened.quiet.obtains _⟩
  | noBuffer hrefuses hframe hreused hbuffer =>
    obtain ⟨-, ha⟩ := hidle hrefuses
    have hpruned := hprepared.trimmed.pruned.trans
      (pruned_of_eq (t := { s.prepared c f with decodeContext := none }) rfl rfl)
    refine ⟨owned_of_flight ?_ rfl, hpruned.quiet.obtains _⟩
    show MmeVideo.Attached _ (namedBy (s.prepared c f).inFlight)
    rw [show (s.prepared c f).inFlight = s.inFlight from hrest.inFlight]
    exact ha.pruned hpruned
  | notMapped hrefuses hframe hreused i hbuffer hmap =>
    obtain ⟨-, ha⟩ := hidle hrefuses
    have hpruned := hprepared.trimmed.pruned.trans (pruned_of_eq
      (t := { (s.prepared c f).obtainBuffer i with decodeContext := none }) rfl rfl)
    refine ⟨owned_of_flight ?_ rfl, hpruned.quiet.obtains _⟩
    show MmeVideo.Attached _ (namedBy (s.prepared c f).inFlight)
    rw [show (s.prepared c f).inFlight = s.inFlight from hrest.inFlight]
    exact ha.pruned hpruned
  | notAttached hrefuses hframe hreused i hbuffer map hmap hattached hsent =>
    obtain ⟨-, ha⟩ := hidle hrefuses
    have hsame := hsound.sameMembers_withBuffer hserved hrefuses hframe hreused hbuffer map
    obtain ⟨-, -, -, hflight⟩ := hsound.withBuffer hserved hrefuses hframe hreused hbuffer hmap
    have hpruned := hsame.trimmed.pruned.trans (pruned_of_eq
      (t := { (s.prepared c f).withBuffer i map f with decodeContext := none }) rfl rfl)
    refine ⟨owned_of_flight ?_ rfl, hpruned.quiet.obtains _⟩
    show MmeVideo.Attached _ (namedBy ((s.prepared c f).withBuffer i map f).inFlight)
    rw [hflight]
    exact ha.pruned hpruned
  | obtained hrefuses hframe hreused i hbuffer map hmap hinto =>
    obtain ⟨-, ha⟩ := hidle hrefuses
    have hsame := hsound.sameMembers_withBuffer hserved hrefuses hframe hreused hbuffer map
    obtain ⟨-, hk, -, hflight⟩ := hsound.withBuffer hserved hrefuses hframe hreused hbuffer hmap
    rw [← hflight] at hk
    refine owned_decode_of_mapped ?_ hk (Function.update_self ..) hsame hflight (.inr ?_) hinto hdue
    · rw [hflight]
      exact ha.pruned hsame.trimmed.pruned
    · exact hrest.indexBufferMap ▸ hmap
  | notAdded hrefuses hframe i hreused hslice hadded =>
    obtain ⟨-, ha⟩ := hidle hrefuses
    have hsame := (sameMembers_addField s.openDecodeContext i f).trans
      (sameMembers_outputPartialDecodeBuffers _)
    have hsteady := steady_addField s.openDecodeContext i f
    have hcourse := sameRest_outputPartialDecodeBuffers (s.openDecodeContext.addField i f).2
    have hopened : Pruned s s.openDecodeContext := pruned_of_eq rfl rfl
    have hpruned := hopened.trans hsame.trimmed.pruned
    refine ⟨owned_of_flight ?_ ?_, hpruned.quiet.obtains _⟩
    · rw [hcourse.inFlight.trans hsteady.inFlight]
      exact ha.pruned hpruned
    · rw [hcourse.decodeContext.trans hsteady.decodeContext]
      exact (idle_openDecodeContext (hsound.idle (halted_of_refuses hrefuses))).1
  | added hrefuses hframe i hreused hslice hadded hinto =>
    obtain ⟨-, ha⟩ := hidle hrefuses
    obtain ⟨hk, -, hhold, hflight⟩ := hsound.fieldAdded hrefuses (prepared_of_reused hreused).2
    have hopened : SameMembers s s.openDecodeContext := sameMembers_of_eq rfl rfl rfl rfl
    have hsame := hopened.trans (sameMembers_addField s.openDecodeContext i f)
    rw [← hflight] at hk
    refine owned_decode_of_mapped ?_ hk hhold hsame hflight
      (map_addField s.openDecodeContext i f) hinto hdue
    rw [hflight]
    exact ha.pruned hsame.trimmed.pruned
  | slice hrefuses hframe i hreused hslice hinto =>
    obtain ⟨-, ha⟩ := hidle hrefuses
    have hopened : SameMembers s s.openDecodeContext := sameMembers_of_eq rfl rfl rfl rfl
    exact owned_decode_of_mapped (ha.pruned hopened.trimmed.pruned) (hsound.opened hrefuses)
      (hsound.current i (prepared_of_reused hreused).2) hopened rfl (.inl rfl) hinto hdue

/-! ## Runs -/

/-- The structure that the pool gives in an event. -/
def givenIn : VideoEvent → Option Nat
  | .input _ e => e.macroblockStructure
  | _ => none

theorem Owned.step (ho : s.Owned) (hsound : s.Sound) {event : VideoEvent}
    (hserved : s.Served c event) (hdue : s.StructuresDue c event) :
    (s.step c event).Owned ∧ Obtains (givenIn event) s (s.step c event) := by
  unfold MmeVideo.step
  have hself : Quiet s s := fun _ hm => hm
  cases event with
  | input f e => exact ho.input hsound hserved hdue
  | callback k discard =>
    dsimp only
    unfold MmeVideo.callbackFromMME
    cases hcontext : s.inFlight[k]? with
    | none => exact ⟨ho, hself.obtains _⟩
    | some context =>
      have hk := hsound.kept_erased hcontext
      have herased : Pruned s { s with inFlight := s.inFlight.eraseIdx k } := pruned_of_eq rfl rfl
      have hbefore := (ho.perm (namedBy_perm (perm_erased hcontext))).pruned herased
      obtain ⟨hended, hquiet⟩ := hbefore.endContext context rfl hk discard
      obtain ⟨hcontext', hflight', -⟩ := releaseDecodeContext_course
        { s with inFlight := s.inFlight.eraseIdx k } context discard
      refine ⟨?_, (herased.quiet.trans hquiet).obtains _⟩
      unfold Owned liveContexts
      dsimp only
      rw [hcontext', hflight']
      exact hended
  | releaseReferenceFrame decodeIndex =>
    have hlive : ∀ t, Steady s t → t.liveContexts = s.liveContexts := by
      intro t hsteady
      unfold liveContexts
      rw [hsteady.decodeContext, hsteady.inFlight]
    dsimp only
    split
    · refine ⟨?_, (quiet_h264ReleaseReferenceFrame c s decodeIndex).obtains _⟩
      unfold Owned
      rw [hlive _ (steady_h264ReleaseReferenceFrame ..)]
      exact ho.h264ReleaseReferenceFrame decodeIndex
    · refine ⟨?_, (quiet_releaseReferenceFrame c s decodeIndex).obtains _⟩
      unfold Owned
      rw [hlive _ (steady_releaseReferenceFrame ..)]
      cases decodeIndex with
      | none => exact Attached.releaseAll _ ho
      | some decodeIndex => exact ho.releaseReferenceFrame decodeIndex
  | releaseDecodeBuffer i =>
    have hhold : s.hold i = .output := hserved
    have hne : s.hold i ≠ .none := fun h => nomatch hhold.symm.trans h
    have hrunning : i ∉ runningIn s.liveContexts := fun hi =>
      nomatch hhold.symm.trans ((hsound.kept i).codec fun h => List.count_eq_zero.mp h hi)
    have hpruned := (hsound.kept.trimmed_releaseDecodeBuffer hne hrunning).pruned
    have hsteady := steady_releaseDecodeBuffer s i
    refine ⟨?_, hpruned.quiet.obtains _⟩
    unfold Owned liveContexts
    dsimp only
    rw [hsteady.decodeContext, hsteady.inFlight]
    exact ho.pruned hpruned
  | outputPartialDecodeBuffers =>
    have hpruned := (sameMembers_outputPartialDecodeBuffers s).trimmed.pruned
    have hrest := sameRest_outputPartialDecodeBuffers s
    refine ⟨?_, hpruned.quiet.obtains _⟩
    unfold Owned liveContexts
    dsimp only
    rw [hrest.decodeContext, hrest.inFlight]
    exact ho.pruned hpruned
  | halt => exact ⟨ho.pruned (pruned_of_eq rfl rfl), hself.obtains _⟩

theorem owned_registered (size : Nat) : (registered size).Owned :=
  ⟨fun _ _ hm => (nomatch hm), fun _ _ _ hm => (nomatch hm)⟩

/-- The structure attached to a buffer has one share if the buffer is a reference
frame and one for every entry that names it, and a structure that has been freed is not
used until the pool gives it again. -/
def StructuresOwned (c : Configuration) (s : MmeVideo) (event : VideoEvent) : Prop :=
  (∀ i m, ((s.step c event).bufferState i).macroblockStructure = some m →
      (s.step c event).structureCount m =
        (if ((s.step c event).bufferState i).referenceFrameCount = 0 then 0 else 1)
          + (namedBy (s.step c event).liveContexts).count i) ∧
    ∀ m, s.structureCount m = 0 → (s.step c event).structureCount m ≠ 0 →
      givenIn event = some m

theorem run_owned (events : List VideoEvent) :
    ∀ {s : MmeVideo}, s.Owned → s.Sound →
      Along (step c) (fun s event => s.Served c event ∧ s.StructuresDue c event) s events →
      Along (step c) (StructuresOwned c) s events := by
  induction events with
  | nil => intro s _ _ _; trivial
  | cons event events ih =>
    intro s ho hsound hok
    obtain ⟨⟨hserved, hdue⟩, hrest⟩ := hok
    obtain ⟨ho', hgiven⟩ := ho.step hsound hserved hdue
    exact ⟨⟨ho'.count, hgiven⟩, ih ho' (hsound.step hserved) hrest⟩

/-- **The shares in a macroblock structure are those of the reference frame and of the
entries that name its buffer**, in every run in which the codec is served, a structure is
attached that no record has, and what has been freed is not referred to. -/
theorem structures_owned {size : Nat} {events : List VideoEvent}
    (hok : Along (step c) (fun s event => s.Served c event ∧ s.StructuresDue c event)
      (registered size) events) :
    Along (step c) (StructuresOwned c) (registered size) events :=
  run_owned events (owned_registered size) (sound_registered size) hok

/-! ## A structure that is freed between fields -/

/-- The second field is a reference frame, and its structure has been freed. -/
theorem structures_not_owned :
    Along (step h264Configuration) (Served h264Configuration) (registered 16)
        releasedBetweenFields ∧
      ¬ Along (step h264Configuration) (StructuresOwned h264Configuration) (registered 16)
        releasedBetweenFields := by
  refine ⟨⟨?_, trivial, ?_, trivial⟩, fun h => ?_⟩
  · exact served_input_obtained rfl rfl (by decide) (by decide)
  · exact served_input_obtained rfl rfl (by decide) (by decide +kernel)
  · have hcount := h.2.2.1.1 0 0 (by decide +kernel)
    revert hcount
    decide +kernel

/-- A frame that refers to the one before it, and to one that is missing. -/
theorem structures_owned_references :
    Along (step h264Configuration) (StructuresOwned h264Configuration) (registered 16)
      [.input (frameOf 0 false true []) (withoutFailure 0 0), .callback 0 false,
        .input (frameOf 1 false false [0, 7]) (withoutFailure 1 1), .releaseDecodeBuffer 0,
        .releaseReferenceFrame (some 0), .callback 0 false, .releaseReferenceFrame none] := by
  refine structures_owned ⟨⟨?_, ?_⟩, ⟨trivial, trivial⟩, ⟨?_, ?_⟩, ⟨?_, trivial⟩,
    ⟨trivial, trivial⟩, ⟨trivial, trivial⟩, ⟨trivial, trivial⟩, trivial⟩
  · exact served_input_obtained rfl rfl (by decide) (by decide)
  · intro i hinto
    obtain rfl := hinto.eq (k := 0) rfl
    refine ⟨fun _ => ?_, fun d hd => nomatch hd⟩
    have hnone : ((registered 16).bufferState 0).macroblockStructure = none := rfl
    unfold StructureDue
    rw [if_pos hnone]
    exact fun _ m _ => ⟨.inl rfl, List.not_mem_nil, fun j hj => nomatch hj⟩
  · exact served_input_obtained rfl rfl (by decide) (by decide +kernel)
  · intro i hinto
    obtain rfl := hinto.eq (k := 1) (by decide +kernel)
    refine ⟨(fun h => nomatch h), fun d hd j hrefers => ?_⟩
    rcases hrefers with htranslate | ⟨rfl, -⟩
    · cases hd with
      | head =>
        obtain rfl : 0 = j := Option.some.inj ((by decide +kernel : some 0 = _).trans htranslate)
        exact .inr (.inl (by decide +kernel))
      | tail _ hd =>
        obtain rfl := List.mem_singleton.mp hd
        exact nomatch (by decide +kernel : none = _).trans htranslate
    · exact .inl (by decide +kernel)
  · show MmeVideo.hold _ 0 = .output
    decide +kernel

end Duckbox.Codec.MmeVideo
