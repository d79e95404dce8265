import Duckbox.Codec.BufferShares

/-!
# The members of a buffer that belong to a reference frame

The reference frame count of a buffer, its macroblock structure and its slot are
changed where a reference frame is decoded and where it is released. All else that
happens to the codec leaves them alone (`SameMembers`), but that the last share in
a buffer clears its record, and then it was no reference frame (`Trimmed`).
-/

namespace Duckbox.Codec.MmeVideo

open Duckbox.Lib

variable {c : Configuration} {s t u : MmeVideo} {i j : Nat} {named running : List Nat}
  {f : ParsedFrame} {e : Environment}

/-! ## Members that are the same -/

/-- What belongs to reference frames has not changed. -/
structure SameMembers (s t : MmeVideo) : Prop where
  count : ∀ i, (t.bufferState i).referenceFrameCount = (s.bufferState i).referenceFrameCount
  attached : ∀ i, (t.bufferState i).macroblockStructure = (s.bufferState i).macroblockStructure
  slot : ∀ i, (t.bufferState i).referenceFrameSlot = (s.bufferState i).referenceFrameSlot
  structureCount : t.structureCount = s.structureCount
  used : t.referenceFrameSlotUsed = s.referenceFrameSlotUsed
  outstanding : t.outstandingSlotAllocationRequest = s.outstandingSlotAllocationRequest

theorem SameMembers.refl (s : MmeVideo) : SameMembers s s :=
  ⟨fun _ => rfl, fun _ => rfl, fun _ => rfl, rfl, rfl, rfl⟩

theorem SameMembers.trans (h : SameMembers s t) (h' : SameMembers t u) : SameMembers s u where
  count i := (h'.count i).trans (h.count i)
  attached i := (h'.attached i).trans (h.attached i)
  slot i := (h'.slot i).trans (h.slot i)
  structureCount := h'.structureCount.trans h.structureCount
  used := h'.used.trans h.used
  outstanding := h'.outstanding.trans h.outstanding

theorem sameMembers_of_eq (hstate : t.bufferState = s.bufferState)
    (hcount : t.structureCount = s.structureCount)
    (hused : t.referenceFrameSlotUsed = s.referenceFrameSlotUsed)
    (houtstanding : t.outstandingSlotAllocationRequest = s.outstandingSlotAllocationRequest) :
    SameMembers s t := by
  refine ⟨fun i => ?_, fun i => ?_, fun i => ?_, hcount, hused, houtstanding⟩
  · rw [hstate]
  · rw [hstate]
  · rw [hstate]

theorem sameMembers_setState {state : BufferState}
    (hcount : state.referenceFrameCount = (s.bufferState i).referenceFrameCount)
    (hstructure : state.macroblockStructure = (s.bufferState i).macroblockStructure)
    (hslot : state.referenceFrameSlot = (s.bufferState i).referenceFrameSlot) :
    SameMembers s (s.setState i state) := by
  have hself : (s.setState i state).bufferState i = state := by
    rw [setState_bufferState, Function.update_self]
  have hother : ∀ j, j ≠ i → (s.setState i state).bufferState j = s.bufferState j := by
    intro j hj
    rw [setState_bufferState, Function.update_of_ne hj]
  refine ⟨fun j => ?_, fun j => ?_, fun j => ?_, rfl, rfl, rfl⟩
  all_goals
    by_cases hj : j = i
    · subst hj
      rw [hself]
      assumption
    · rw [hother j hj]

theorem sameMembers_insertIntoOutputRing (s : MmeVideo) (i : Nat) :
    SameMembers s (s.insertIntoOutputRing i) := by
  unfold insertIntoOutputRing
  split <;> exact sameMembers_of_eq rfl rfl rfl rfl

theorem sameMembers_outputPartialDecodeBuffers (s : MmeVideo) :
    SameMembers s s.outputPartialDecodeBuffers := by
  unfold outputPartialDecodeBuffers
  split
  · exact SameMembers.refl s
  · next i _ =>
    have hset : SameMembers s
        (s.setState i { s.bufferState i with outputOnDecodesComplete := true }) :=
      sameMembers_setState rfl rfl rfl
    unfold setOutputOnDecodesComplete
    dsimp only
    split
    · exact (hset.trans (sameMembers_insertIntoOutputRing _ i)).trans
        (sameMembers_of_eq rfl rfl rfl rfl)
    · exact hset.trans (sameMembers_of_eq rfl rfl rfl rfl)

theorem sameMembers_prepared (c : Configuration) (s : MmeVideo) (f : ParsedFrame) :
    SameMembers s (s.prepared c f) := by
  have hopen : SameMembers s s.openDecodeContext := sameMembers_of_eq rfl rfl rfl rfl
  unfold prepared completePrevious
  split
  · exact hopen
  · split
    · exact hopen.trans (sameMembers_outputPartialDecodeBuffers _)
    · exact hopen

theorem sameMembers_addField (s : MmeVideo) (i : Nat) (f : ParsedFrame) :
    SameMembers s (s.addField i f).2 := by
  unfold addField mapBufferToDecodeIndex
  cases mapEntry (f.decodeFrameIndex, i) s.indexBufferMap with
  | none => exact SameMembers.refl s
  | some map =>
    have hmapped : SameMembers s { s with indexBufferMap := map } :=
      sameMembers_of_eq rfl rfl rfl rfl
    have hdisplay : SameMembers s ({ s with indexBufferMap := map }.setState i
        { s.bufferState i with displayCount := f.displayCount.1 }) :=
      hmapped.trans (sameMembers_setState rfl rfl rfl)
    dsimp only [Option.map_some]
    split
    · exact hmapped
    · split
      · exact hdisplay
      · exact hdisplay.trans (sameMembers_setState rfl rfl rfl)

theorem Kept.sameMembers_withBuffer (hk : s.Kept named running) (h : s.ownerCount i = 0)
    (map : List (Option (Nat × Nat))) (f : ParsedFrame) :
    SameMembers s (s.withBuffer i map f) := by
  obtain ⟨-, hstate, -, -⟩ := (hk i).unused h
  have hobtained : SameMembers s { s.obtainBuffer i with indexBufferMap := map } :=
    sameMembers_of_eq rfl rfl rfl rfl
  have hcleared : ({ s.obtainBuffer i with indexBufferMap := map }).bufferState i = .cleared :=
    hstate
  refine hobtained.trans (sameMembers_setState ?_ ?_ ?_)
  all_goals
    rw [hcleared]
    rfl

theorem Sound.sameMembers_withBuffer (hs : s.Sound) (hserved : s.Served c (.input f e))
    (hrefuses : s.refuses c f e = false) (hframe : f.newFrameParameters = true)
    (hreused : s.reusedBuffer c f = none) (hbuffer : e.buffer = some i)
    (map : List (Option (Nat × Nat))) :
    SameMembers s ((s.prepared c f).withBuffer i map f) := by
  have hpool : (s.prepared c f).ownerCount i = 0 :=
    (congrFun (completePrevious_course c s.openDecodeContext f).ownerCount i).trans
      (hserved hrefuses hframe hreused i hbuffer).1
  have hk := (hs.flight (halted_of_refuses hrefuses)).prepared (c := c) hs.current f
  exact (sameMembers_prepared c s f).trans (hk.sameMembers_withBuffer hpool map f)

theorem sameMembers_startDecode (s : MmeVideo) (i : Nat) (f : ParsedFrame) (last : Bool) :
    SameMembers s (s.startDecode i f last) :=
  sameMembers_setState rfl rfl rfl

theorem sameMembers_afterDecode (s : MmeVideo) (f : ParsedFrame) (last : Bool) :
    SameMembers s (s.afterDecode f last) := by
  unfold afterDecode
  split <;> exact sameMembers_of_eq rfl rfl rfl rfl

/-! ## Records that are cleared -/

/-- The members are as they were, or those of a buffer that is no reference frame
are cleared. -/
def SameReference (old new : BufferState) : Prop :=
  (new.referenceFrameCount = old.referenceFrameCount ∧
      new.macroblockStructure = old.macroblockStructure ∧
      new.referenceFrameSlot = old.referenceFrameSlot) ∨
    (old.referenceFrameCount = 0 ∧ new.referenceFrameCount = 0 ∧ new.macroblockStructure = none)

theorem SameReference.trans {p q r : BufferState} (h : SameReference p q)
    (h' : SameReference q r) : SameReference p r := by
  rcases h with ⟨hcount, hstructure, hslot⟩ | ⟨hold, hcount, hstructure⟩
  · rcases h' with ⟨hcount', hstructure', hslot'⟩ | ⟨hold', hcount', hstructure'⟩
    · exact .inl ⟨hcount'.trans hcount, hstructure'.trans hstructure, hslot'.trans hslot⟩
    · exact .inr ⟨hcount.symm.trans hold', hcount', hstructure'⟩
  · rcases h' with ⟨hcount', hstructure', -⟩ | ⟨-, hcount', hstructure'⟩
    · exact .inr ⟨hold, hcount'.trans hcount, hstructure'.trans hstructure⟩
    · exact .inr ⟨hold, hcount', hstructure'⟩

theorem SameReference.count {p q : BufferState} (h : SameReference p q) :
    q.referenceFrameCount = p.referenceFrameCount := by
  rcases h with ⟨hcount, -⟩ | ⟨hold, hcount, -⟩
  · exact hcount
  · exact hcount.trans hold.symm

structure Trimmed (s t : MmeVideo) : Prop where
  state : ∀ i, SameReference (s.bufferState i) (t.bufferState i)
  structureCount : t.structureCount = s.structureCount
  used : t.referenceFrameSlotUsed = s.referenceFrameSlotUsed
  outstanding : t.outstandingSlotAllocationRequest = s.outstandingSlotAllocationRequest

theorem Trimmed.trans (h : Trimmed s t) (h' : Trimmed t u) : Trimmed s u where
  state i := (h.state i).trans (h'.state i)
  structureCount := h'.structureCount.trans h.structureCount
  used := h'.used.trans h.used
  outstanding := h'.outstanding.trans h.outstanding

theorem SameMembers.trimmed (h : SameMembers s t) : Trimmed s t where
  state i := .inl ⟨h.count i, h.attached i, h.slot i⟩
  structureCount := h.structureCount
  used := h.used
  outstanding := h.outstanding

theorem trimmed_of_eq (hstate : t.bufferState = s.bufferState)
    (hcount : t.structureCount = s.structureCount)
    (hused : t.referenceFrameSlotUsed = s.referenceFrameSlotUsed)
    (houtstanding : t.outstandingSlotAllocationRequest = s.outstandingSlotAllocationRequest) :
    Trimmed s t :=
  (sameMembers_of_eq hstate hcount hused houtstanding).trimmed

theorem Kept.trimmed_decrement (hk : s.Kept (i :: named) running) :
    Trimmed s (s.decrementReferenceCount i).2 := by
  have hcount := (hk i).count
  rw [List.count_cons_self] at hcount
  have hbuffer : (s.bufferState i).buffer = true := (hk i).record.mpr (by omega)
  by_cases hone : s.ownerCount i = 1
  · rw [decrementReferenceCount_of_one hbuffer hone]
    refine ⟨fun j => ?_, rfl, rfl, rfl⟩
    show SameReference _ (Function.update s.bufferState i .cleared j)
    by_cases hj : j = i
    · subst hj
      rw [Function.update_self]
      exact .inr ⟨by omega, rfl, rfl⟩
    · rw [Function.update_of_ne hj]
      exact .inl ⟨rfl, rfl, rfl⟩
  · rw [decrementReferenceCount_of_ne hbuffer hone]
    exact trimmed_of_eq rfl rfl rfl rfl

theorem Kept.trimmed_releaseDecodeBuffer (hk : s.Kept named running) (h : s.hold i ≠ .none)
    (hrunning : i ∉ running) : Trimmed s (s.releaseDecodeBuffer i) := by
  have hk' := hk.setHold_none h hrunning
  have hsame : SameMembers s (s.setHold i .none) := sameMembers_of_eq rfl rfl rfl rfl
  unfold MmeVideo.releaseDecodeBuffer
  dsimp only
  rw [if_pos hk'.decrement.1]
  exact hsame.trimmed.trans hk'.trimmed_decrement

theorem Kept.trimmed_passOn (hk : s.Kept named running) (h : s.hold i ≠ .none)
    (hrunning : i ∉ running) (discard : Bool) : Trimmed s (s.passOn i discard) := by
  unfold MmeVideo.passOn
  split
  · exact hk.trimmed_releaseDecodeBuffer h hrunning
  · exact (sameMembers_insertIntoOutputRing s i).trimmed

theorem Kept.trimmed_finishDecode (hk : s.Kept named (i :: running)) (discard : Bool) :
    Trimmed s (s.finishDecode i discard) := by
  have hhold : s.hold i = .codec :=
    (hk i).codec (by rw [List.count_cons_self]; exact Nat.succ_ne_zero _)
  have hk' := hk.endDecode
  have hsame : SameMembers s (s.endDecode i) := sameMembers_setState rfl rfl rfl
  unfold MmeVideo.finishDecode
  dsimp only
  split
  · split
    · next hzero =>
      have hrunning : i ∉ running :=
        List.count_eq_zero.mp ((hk' i).progress.symm.trans hzero)
      have hpassed := hk'.trimmed_passOn (fun h => nomatch hhold.symm.trans h) hrunning discard
      exact (hsame.trimmed.trans hpassed).trans (trimmed_of_eq rfl rfl rfl rfl)
    · exact hsame.trimmed.trans (trimmed_of_eq rfl rfl rfl rfl)
  · exact hsame.trimmed

end Duckbox.Codec.MmeVideo
