import Mathlib.Data.List.Perm.Basic
import Duckbox.Codec.MmeVideoSteps

/-!
# The shares in a decode buffer

What makes up the count of a decode buffer, and how every operation of the codec
changes it.

> `Kept s named running`: the count of a buffer is its hold for output, its
> reference frame count, and the entries of `named` that are it; it has a record
> and is mapped while it is counted; and `running` are the decodes in progress.

A share that is to be given back is first made an entry of `named`, so that
`DecrementReferenceCount` is one lemma (`Kept.decrement`) for the three kinds of
them. Between events the entries are those of the contexts that have not been
released (`Sound`), and every event keeps that while the codec is served
(`Sound.step`).
-/

namespace Duckbox.Codec

open Duckbox.Lib

/-- The buffer that the decode of a context is in progress into. -/
def DecodeContext.running? (context : DecodeContext) : Option Nat :=
  if context.decodeInProgress then context.bufferIndex else none

namespace MmeVideo

variable {c : Configuration} {s t : MmeVideo} {i j n r : Nat} {named running : List Nat}

/-! ## The shares of a count -/

/-- The share of the hold for output. -/
def outputHold (s : MmeVideo) (i : Nat) : Nat := if s.hold i = .none then 0 else 1

/-- A decode index is mapped to the buffer. -/
def Mapped (s : MmeVideo) (i : Nat) : Prop :=
  ∃ decodeIndex, some (decodeIndex, i) ∈ s.indexBufferMap

/-- The count of a buffer that `n` entries of reference lists name, and that `r`
decodes are in progress into. -/
structure KeptAt (s : MmeVideo) (i n r : Nat) : Prop where
  count : s.ownerCount i = s.outputHold i + (s.bufferState i).referenceFrameCount + n
  record : (s.bufferState i).buffer = true ↔ s.ownerCount i ≠ 0
  mapped : s.Mapped i ↔ s.ownerCount i ≠ 0
  absent : (s.bufferState i).buffer = false → s.bufferState i = .cleared
  progress : (s.bufferState i).decodesInProgress = r
  codec : r ≠ 0 → s.hold i = .codec

/-- The counts of all buffers, with the entries and the decodes. -/
def Kept (s : MmeVideo) (named running : List Nat) : Prop :=
  ∀ i, s.KeptAt i (named.count i) (running.count i)

theorem outputHold_of_none (h : s.hold i = .none) : s.outputHold i = 0 := if_pos h

theorem outputHold_of_ne (h : s.hold i ≠ .none) : s.outputHold i = 1 := if_neg h

theorem KeptAt.count_ne_zero (h : s.KeptAt i n r)
    (hshare : s.hold i ≠ .none ∨ (s.bufferState i).referenceFrameCount ≠ 0 ∨ n ≠ 0) :
    s.ownerCount i ≠ 0 := by
  have hcount := h.count
  rcases hshare with hhold | hreference | hn
  · rw [outputHold_of_ne hhold] at hcount
    omega
  · omega
  · omega

theorem KeptAt.unused (h : s.KeptAt i n r) (hzero : s.ownerCount i = 0) :
    s.hold i = .none ∧ s.bufferState i = .cleared ∧ n = 0 ∧ r = 0 := by
  have hhold : s.hold i = .none := by
    by_contra hne
    exact h.count_ne_zero (.inl hne) hzero
  refine ⟨hhold, h.absent ?_, ?_, ?_⟩
  · exact Bool.eq_false_iff.mpr fun hbuffer => h.record.mp hbuffer hzero
  · have hcount := h.count
    omega
  · by_contra hr
    exact nomatch (h.codec hr).symm.trans hhold

theorem Kept.perm (hk : s.Kept named running) {named' running' : List Nat}
    (hnamed : named.Perm named') (hrunning : running.Perm running') : s.Kept named' running' := by
  intro i
  rw [← hnamed.count_eq, ← hrunning.count_eq]
  exact hk i

/-- Nothing about a buffer has changed. -/
structure SameAt (s t : MmeVideo) (i : Nat) : Prop where
  ownerCount : t.ownerCount i = s.ownerCount i
  hold : t.hold i = s.hold i
  state : t.bufferState i = s.bufferState i
  mapped : t.Mapped i ↔ s.Mapped i

theorem KeptAt.congr (h : s.KeptAt i n r) (hsame : SameAt s t i) : t.KeptAt i n r := by
  have hhold : t.outputHold i = s.outputHold i := by
    unfold outputHold
    rw [hsame.hold]
  constructor
  · rw [hsame.ownerCount, hhold, hsame.state]
    exact h.count
  · rw [hsame.ownerCount, hsame.state]
    exact h.record
  · rw [hsame.ownerCount, hsame.mapped]
    exact h.mapped
  · rw [hsame.state]
    exact h.absent
  · rw [hsame.state]
    exact h.progress
  · rw [hsame.hold]
    exact h.codec

theorem Kept.local (hk : s.Kept named running) {named' running' : List Nat}
    (hother : ∀ j, j ≠ i → SameAt s t j ∧ named'.count j = named.count j ∧
      running'.count j = running.count j)
    (hself : t.KeptAt i (named'.count i) (running'.count i)) : t.Kept named' running' := by
  intro j
  by_cases hj : j = i
  · exact hj ▸ hself
  · obtain ⟨hsame, hnamed, hrunning⟩ := hother j hj
    rw [hnamed, hrunning]
    exact (hk j).congr hsame

/-! ## Changes of a record -/

@[simp] theorem setState_bufferState (s : MmeVideo) (i : Nat) (state : BufferState) :
    (s.setState i state).bufferState = Function.update s.bufferState i state := rfl

theorem sameAt_setState {state : BufferState} (hj : j ≠ i) : SameAt s (s.setState i state) j where
  ownerCount := rfl
  hold := rfl
  state := Function.update_of_ne hj ..
  mapped := Iff.rfl

theorem Kept.setState (hk : s.Kept named running) (i : Nat) (state : BufferState)
    (hrecord : (s.bufferState i).buffer = true) (hbuffer : state.buffer = true)
    (hreference : state.referenceFrameCount = (s.bufferState i).referenceFrameCount)
    (hprogress : state.decodesInProgress = (s.bufferState i).decodesInProgress) :
    (s.setState i state).Kept named running := by
  refine hk.local (i := i) (fun j hj => ⟨sameAt_setState hj, rfl, rfl⟩) ?_
  have hself : (s.setState i state).bufferState i = state := Function.update_self ..
  constructor
  · rw [hself, hreference]
    exact (hk i).count
  · rw [hself, hbuffer]
    exact ⟨fun _ => (hk i).record.mp hrecord, fun _ => rfl⟩
  · exact (hk i).mapped
  · rw [hself, hbuffer]
    exact (fun h => nomatch h)
  · rw [hself, hprogress]
    exact (hk i).progress
  · exact (hk i).codec

/-! ## One share less -/

theorem mapped_unMapBufferIndex : (s.unMapBufferIndex i).Mapped j ↔ s.Mapped j ∧ j ≠ i := by
  unfold Mapped unMapBufferIndex
  constructor
  · rintro ⟨decodeIndex, hmem⟩
    obtain ⟨entry, hentry, heq⟩ := List.mem_map.mp hmem
    rw [Option.filter_eq_some_iff] at heq
    obtain ⟨rfl, hne⟩ := heq
    exact ⟨⟨decodeIndex, hentry⟩, by simpa using hne⟩
  · rintro ⟨⟨decodeIndex, hmem⟩, hne⟩
    refine ⟨decodeIndex, List.mem_map.mpr ⟨_, hmem, ?_⟩⟩
    rw [Option.filter_eq_some_iff]
    exact ⟨rfl, by simpa using hne⟩

theorem sameAt_setOwnerCount {count : Nat} (hj : j ≠ i) :
    SameAt s (s.setOwnerCount i count) j where
  ownerCount := Function.update_of_ne hj ..
  hold := rfl
  state := rfl
  mapped := Iff.rfl

theorem SameAt.trans {u : MmeVideo} (h : SameAt s t j) (h' : SameAt t u j) : SameAt s u j where
  ownerCount := h'.ownerCount.trans h.ownerCount
  hold := h'.hold.trans h.hold
  state := h'.state.trans h.state
  mapped := h'.mapped.trans h.mapped

theorem decrementReferenceCount_of_one (h : (s.bufferState i).buffer = true)
    (hone : s.ownerCount i = 1) : s.decrementReferenceCount i =
      (true, ((s.unMapBufferIndex i).setState i .cleared).setOwnerCount i 0) := by
  unfold decrementReferenceCount
  rw [if_pos h]
  dsimp only
  rw [if_pos hone, hone]

theorem decrementReferenceCount_of_ne (h : (s.bufferState i).buffer = true)
    (hone : s.ownerCount i ≠ 1) : s.decrementReferenceCount i =
      (true, s.setOwnerCount i (s.ownerCount i - 1)) := by
  unfold decrementReferenceCount
  rw [if_pos h]
  dsimp only
  rw [if_neg hone]

theorem Kept.decrement (hk : s.Kept (i :: named) running) :
    (s.decrementReferenceCount i).1 = true ∧
      (s.decrementReferenceCount i).2.Kept named running := by
  have hi := hk i
  rw [List.count_cons_self] at hi
  have hcount := hi.count
  have hbuffer : (s.bufferState i).buffer = true := hi.record.mpr (by omega)
  have hother : ∀ j, j ≠ i → named.count j = (i :: named).count j := fun j hj =>
    (List.count_cons_of_ne (fun h => hj h.symm)).symm
  by_cases hone : s.ownerCount i = 1
  · rw [decrementReferenceCount_of_one hbuffer hone]
    -- there is no other share
    have hhold : s.hold i = .none := by
      by_contra hne
      rw [outputHold_of_ne hne] at hcount
      omega
    have hrunning : running.count i = 0 := by
      by_contra hr
      exact nomatch (hi.codec hr).symm.trans hhold
    refine ⟨rfl, hk.local (i := i) (fun j hj => ⟨?_, hother j hj, rfl⟩) ?_⟩
    · have hsame : SameAt s ((s.unMapBufferIndex i).setState i .cleared) j :=
        ⟨rfl, rfl, Function.update_of_ne hj .., mapped_unMapBufferIndex.trans (and_iff_left hj)⟩
      exact hsame.trans (sameAt_setOwnerCount hj)
    · have hstate : (((s.unMapBufferIndex i).setState i .cleared).setOwnerCount i 0).bufferState i
          = .cleared := Function.update_self ..
      have howner : (((s.unMapBufferIndex i).setState i .cleared).setOwnerCount i 0).ownerCount i
          = 0 := Function.update_self ..
      constructor
      · rw [howner, hstate]
        show 0 = s.outputHold i + 0 + _
        rw [outputHold_of_none hhold]
        omega
      · rw [howner, hstate]
        exact ⟨(fun h => nomatch h), fun h => absurd rfl h⟩
      · rw [howner]
        exact ⟨fun h => absurd rfl (mapped_unMapBufferIndex.mp h).2, fun h => absurd rfl h⟩
      · exact fun _ => hstate
      · rw [hstate]
        exact hrunning.symm
      · exact fun h => absurd hrunning h
  · rw [decrementReferenceCount_of_ne hbuffer hone]
    refine ⟨rfl, hk.local (i := i) (fun j hj => ⟨sameAt_setOwnerCount hj, hother j hj, rfl⟩) ?_⟩
    have howner : (s.setOwnerCount i (s.ownerCount i - 1)).ownerCount i = s.ownerCount i - 1 :=
      Function.update_self ..
    have hne : s.ownerCount i - 1 ≠ 0 := by omega
    constructor
    · rw [howner]
      show s.ownerCount i - 1 = s.outputHold i + (s.bufferState i).referenceFrameCount + _
      omega
    · rw [howner]
      exact ⟨fun _ => hne, fun _ => hbuffer⟩
    · rw [howner]
      exact ⟨fun _ => hne, fun _ => hi.mapped.mpr (by omega)⟩
    · exact hi.absent
    · exact hi.progress
    · exact hi.codec

theorem Kept.of_eq (hk : s.Kept named running) (howner : t.ownerCount = s.ownerCount)
    (hhold : t.hold = s.hold) (hstate : t.bufferState = s.bufferState)
    (hmap : t.indexBufferMap = s.indexBufferMap) : t.Kept named running := by
  intro i
  refine (hk i).congr ⟨congrFun howner i, congrFun hhold i, congrFun hstate i, ?_⟩
  unfold Mapped
  rw [hmap]

theorem Kept.releaseMacroblockStructure (hk : s.Kept named running) (i : Nat) :
    (s.releaseMacroblockStructure i).Kept named running := by
  unfold MmeVideo.releaseMacroblockStructure
  split
  · exact hk
  · exact hk.of_eq rfl rfl rfl rfl

theorem Kept.releaseReference (hk : s.Kept (i :: named) running) :
    (s.releaseReference i).Kept named running :=
  (hk.releaseMacroblockStructure i).decrement.2

theorem Kept.releaseReferences (list : List Nat) :
    ∀ {s : MmeVideo}, s.Kept (list ++ named) running →
      (list.foldl MmeVideo.releaseReference s).Kept named running := by
  induction list with
  | nil => exact fun hk => hk
  | cons i list ih => exact fun hk => ih hk.releaseReference

theorem decrementReferenceFrameCount_state (s : MmeVideo) (i : Nat) :
    (s.decrementReferenceFrameCount i).bufferState i =
      { s.bufferState i with
        referenceFrameCount := (s.bufferState i).referenceFrameCount - 1 } :=
  Function.update_self ..

theorem Kept.decrementReferenceFrameCount (hk : s.Kept named running)
    (h : (s.bufferState i).referenceFrameCount ≠ 0) :
    (s.decrementReferenceFrameCount i).Kept (i :: named) running := by
  have hi := hk i
  have hne : s.ownerCount i ≠ 0 := hi.count_ne_zero (.inr (.inl h))
  have hcount := hi.count
  refine hk.local (i := i) (fun j hj =>
    ⟨sameAt_setState hj, List.count_cons_of_ne (fun h => hj h.symm), rfl⟩) ?_
  have hself := decrementReferenceFrameCount_state s i
  rw [List.count_cons_self]
  constructor
  · rw [hself]
    show s.ownerCount i = s.outputHold i + ((s.bufferState i).referenceFrameCount - 1) + _
    omega
  · rw [hself]
    exact hi.record
  · exact hi.mapped
  · rw [hself]
    intro hfalse
    exact absurd (hi.record.mpr hne) (Bool.eq_false_iff.mp hfalse)
  · rw [hself]
    exact hi.progress
  · exact hi.codec

theorem Kept.dropReferences (passes : Nat) :
    ∀ {s : MmeVideo}, s.Kept named running → (s.dropReferences i passes).Kept named running := by
  induction passes with
  | zero => exact fun hk => hk
  | succ passes ih =>
    intro s hk
    unfold MmeVideo.dropReferences
    split
    · exact hk
    · next h => exact ih (hk.decrementReferenceFrameCount h).decrement.2

theorem Kept.releaseAllReferences (hk : s.Kept named running) (i : Nat) :
    (s.releaseAllReferences i).Kept named running := by
  unfold MmeVideo.releaseAllReferences
  split
  · exact hk
  · exact (hk.releaseMacroblockStructure i).dropReferences _

theorem Kept.releaseReferenceFrame (hk : s.Kept named running) (decodeIndex : Option Nat) :
    (s.releaseReferenceFrame c decodeIndex).Kept named running := by
  unfold MmeVideo.releaseReferenceFrame
  cases decodeIndex with
  | none =>
    dsimp only
    induction List.range c.decodeBufferCount generalizing s with
    | nil => exact hk
    | cons i indices ih => exact ih (hk.releaseAllReferences i)
  | some decodeIndex =>
    dsimp only
    split
    · exact hk
    · split
      · exact hk
      · next h =>
        have hk' := hk.decrementReferenceFrameCount h
        split
        · exact (hk'.releaseMacroblockStructure _).decrement.2
        · exact hk'.decrement.2

/-! ## Slots -/

theorem Kept.takeSlot (hk : s.Kept named running) (h : (s.bufferState i).buffer = true)
    (slot : Fin 16) : (s.takeSlot i slot).Kept named running := by
  have hset := hk.setState i
    { s.bufferState i with referenceFrameSlot := some slot } h h rfl rfl
  exact hset.of_eq rfl rfl rfl rfl

theorem Kept.buffer_of_reference (hk : s.Kept named running)
    (h : (s.bufferState i).referenceFrameCount ≠ 0) : (s.bufferState i).buffer = true :=
  (hk i).record.mpr ((hk i).count_ne_zero (.inr (.inl h)))

theorem Kept.enactOutstandingRequest (hk : s.Kept named running) :
    s.enactOutstandingRequest.Kept named running := by
  unfold MmeVideo.enactOutstandingRequest
  split
  · exact hk
  · split
    · exact hk.of_eq rfl rfl rfl rfl
    · next h =>
      split
      · exact hk
      · exact (hk.takeSlot (hk.buffer_of_reference h) _).of_eq rfl rfl rfl rfl

theorem enactOutstandingRequest_buffer (s : MmeVideo) (i : Nat) :
    (s.enactOutstandingRequest.bufferState i).buffer = (s.bufferState i).buffer := by
  unfold MmeVideo.enactOutstandingRequest
  split
  · rfl
  · next k _ =>
    split
    · rfl
    · split
      · rfl
      · show (Function.update s.bufferState k _ i).buffer = _
        by_cases hi : i = k
        · subst hi
          rw [Function.update_self]
        · rw [Function.update_of_ne hi]

theorem Kept.referenceFrameSlotAllocate (hk : s.Kept named running) (request : Option Nat)
    (h : ∀ i ∈ request, (s.bufferState i).buffer = true) :
    (s.referenceFrameSlotAllocate request).2.Kept named running := by
  have hk' := hk.enactOutstandingRequest
  unfold MmeVideo.referenceFrameSlotAllocate
  cases request with
  | none => exact hk'
  | some i =>
    have hbuffer := (enactOutstandingRequest_buffer s i).trans (h i rfl)
    dsimp only
    split
    · exact hk'
    · split
      · exact hk'.takeSlot hbuffer _
      · have hset := hk'.setState i
          { s.enactOutstandingRequest.bufferState i with referenceFrameSlot := none }
          hbuffer hbuffer rfl rfl
        exact hset.of_eq rfl rfl rfl rfl

theorem Kept.releaseSlot (hk : s.Kept named running) (decodeIndex : Option Nat) :
    (s.releaseSlot decodeIndex).Kept named running := by
  unfold MmeVideo.releaseSlot
  cases decodeIndex with
  | none => exact hk.of_eq rfl rfl rfl rfl
  | some decodeIndex =>
    dsimp only
    split
    · exact hk
    · split
      · split
        · exact hk
        · exact hk.of_eq rfl rfl rfl rfl
      · exact hk

theorem Kept.h264ReleaseReferenceFrame (hk : s.Kept named running) (decodeIndex : Option Nat) :
    (s.h264ReleaseReferenceFrame c decodeIndex).Kept named running :=
  ((hk.releaseSlot decodeIndex).referenceFrameSlotAllocate none
    (by intro _ h; cases h)).releaseReferenceFrame decodeIndex

/-! ## Output -/

theorem Kept.setHold_output (hk : s.Kept named running) (h : s.hold i ≠ .none)
    (hrunning : i ∉ running) : (s.setHold i .output).Kept named running := by
  have hself : (s.setHold i .output).hold i = .output := Function.update_self ..
  refine hk.local (i := i) (fun j hj =>
    ⟨⟨rfl, Function.update_of_ne hj .., rfl, Iff.rfl⟩, rfl, rfl⟩) ?_
  refine ⟨?_, (hk i).record, (hk i).mapped, (hk i).absent, (hk i).progress, fun hr => ?_⟩
  · rw [outputHold_of_ne (by rw [hself]; exact fun h => nomatch h), ← outputHold_of_ne h]
    exact (hk i).count
  · exact absurd (List.count_eq_zero.mpr hrunning) hr

theorem Kept.setHold_none (hk : s.Kept named running) (h : s.hold i ≠ .none)
    (hrunning : i ∉ running) : (s.setHold i .none).Kept (i :: named) running := by
  have hcount := (hk i).count
  rw [outputHold_of_ne h] at hcount
  refine hk.local (i := i) (fun j hj =>
    ⟨⟨rfl, Function.update_of_ne hj .., rfl, Iff.rfl⟩,
      List.count_cons_of_ne (fun h => hj h.symm), rfl⟩) ?_
  rw [List.count_cons_self]
  refine ⟨?_, (hk i).record, (hk i).mapped, (hk i).absent, (hk i).progress, fun hr => ?_⟩
  · rw [outputHold_of_none (Function.update_self ..)]
    show s.ownerCount i = 0 + (s.bufferState i).referenceFrameCount + _
    omega
  · exact absurd (List.count_eq_zero.mpr hrunning) hr

theorem Kept.releaseDecodeBuffer (hk : s.Kept named running) (h : s.hold i ≠ .none)
    (hrunning : i ∉ running) : (s.releaseDecodeBuffer i).Kept named running := by
  obtain ⟨hknown, hk'⟩ := (hk.setHold_none h hrunning).decrement
  unfold MmeVideo.releaseDecodeBuffer
  dsimp only
  rw [if_pos hknown]
  exact hk'

theorem Kept.insertIntoOutputRing (hk : s.Kept named running) (h : s.hold i ≠ .none)
    (hrunning : i ∉ running) : (s.insertIntoOutputRing i).Kept named running := by
  unfold MmeVideo.insertIntoOutputRing
  split
  · exact (hk.setHold_output h hrunning).of_eq rfl rfl rfl rfl
  · exact hk.of_eq rfl rfl rfl rfl

/-- The current buffer has not been put out. -/
def CurrentHeld (s : MmeVideo) : Prop :=
  ∀ i, s.currentDecodeBufferIndex = some i → s.hold i = .codec

theorem steady_releaseDecodeBuffer (s : MmeVideo) (i : Nat) :
    Steady (s.setHold i .none) (s.releaseDecodeBuffer i) := by
  have hdecrement := steady_decrementReferenceCount (s.setHold i .none) i
  unfold releaseDecodeBuffer
  dsimp only
  split
  · exact hdecrement
  · exact hdecrement.trans ⟨rfl, rfl, rfl, rfl, rfl, rfl, rfl⟩

theorem Kept.endDecode (hk : s.Kept named (i :: running)) :
    (s.endDecode i).Kept named running := by
  have hi := hk i
  rw [List.count_cons_self] at hi
  have hhold : s.hold i = .codec := hi.codec (Nat.succ_ne_zero _)
  have hne : s.ownerCount i ≠ 0 :=
    hi.count_ne_zero (.inl (by rw [hhold]; exact fun h => nomatch h))
  refine hk.local (i := i) (fun j hj => ⟨sameAt_setState hj, rfl,
    (List.count_cons_of_ne (fun h => hj h.symm)).symm⟩) ?_
  have hself : (s.endDecode i).bufferState i =
      { s.bufferState i with decodesInProgress := (s.bufferState i).decodesInProgress - 1 } :=
    Function.update_self ..
  constructor
  · rw [hself]
    exact hi.count
  · rw [hself]
    exact hi.record
  · exact hi.mapped
  · rw [hself]
    intro hfalse
    exact absurd (hi.record.mpr hne) (Bool.eq_false_iff.mp hfalse)
  · rw [hself]
    show (s.bufferState i).decodesInProgress - 1 = _
    rw [hi.progress]
    rfl
  · exact fun _ => hhold

theorem Kept.startDecode (hk : s.Kept named running) (hhold : s.hold i = .codec) (f : ParsedFrame)
    (last : Bool) : (s.startDecode i f last).Kept named (i :: running) := by
  have hi := hk i
  have hne : s.ownerCount i ≠ 0 :=
    hi.count_ne_zero (.inl (by rw [hhold]; exact fun h => nomatch h))
  refine hk.local (i := i) (fun j hj => ⟨sameAt_setState hj, rfl,
    List.count_cons_of_ne (fun h => hj h.symm)⟩) ?_
  have hself : (s.startDecode i f last).bufferState i =
      { s.bufferState i with
        pictureStructure := s.pictureWith i f
        decodesInProgress := (s.bufferState i).decodesInProgress + 1
        outputOnDecodesComplete := last } :=
    Function.update_self ..
  rw [List.count_cons_self]
  constructor
  · rw [hself]
    exact hi.count
  · rw [hself]
    exact hi.record
  · exact hi.mapped
  · rw [hself]
    intro hfalse
    exact absurd (hi.record.mpr hne) (Bool.eq_false_iff.mp hfalse)
  · rw [hself]
    show (s.bufferState i).decodesInProgress + 1 = _
    rw [hi.progress]
  · exact fun _ => hhold

theorem Kept.passOn (hk : s.Kept named running) (h : s.hold i ≠ .none) (hrunning : i ∉ running)
    (discard : Bool) : (s.passOn i discard).Kept named running := by
  unfold MmeVideo.passOn
  split
  · exact hk.releaseDecodeBuffer h hrunning
  · exact hk.insertIntoOutputRing h hrunning

theorem steady_passOn (s : MmeVideo) (i : Nat) (discard : Bool) :
    (s.passOn i discard).currentDecodeBufferIndex = s.currentDecodeBufferIndex ∧
      (s.passOn i discard).decodeContext = s.decodeContext ∧
      (s.passOn i discard).inFlight = s.inFlight ∧ (s.passOn i discard).halted = s.halted ∧
      ∀ j, j ≠ i → (s.passOn i discard).hold j = s.hold j := by
  unfold passOn
  split
  · have h := steady_releaseDecodeBuffer s i
    refine ⟨h.currentDecodeBufferIndex, h.decodeContext, h.inFlight, h.halted, fun j hj => ?_⟩
    rw [h.hold]
    exact Function.update_of_ne hj ..
  · unfold insertIntoOutputRing
    split
    · exact ⟨rfl, rfl, rfl, rfl, fun j hj => Function.update_of_ne hj ..⟩
    · exact ⟨rfl, rfl, rfl, rfl, fun _ _ => rfl⟩

theorem Kept.finishDecode (hk : s.Kept named (i :: running)) (discard : Bool) :
    (s.finishDecode i discard).Kept named running := by
  have hhold : s.hold i = .codec :=
    (hk i).codec (by rw [List.count_cons_self]; exact Nat.succ_ne_zero _)
  have hk' := hk.endDecode
  unfold MmeVideo.finishDecode
  dsimp only
  split
  · have hdone : (if ((s.endDecode i).bufferState i).decodesInProgress = 0 then
        (s.endDecode i).passOn i discard else s.endDecode i).Kept named running := by
      split
      · next hzero =>
        -- no other decode into the buffer is in progress
        have hrunning : i ∉ running :=
          List.count_eq_zero.mp ((hk' i).progress.symm.trans hzero)
        exact hk'.passOn (fun h => nomatch hhold.symm.trans h) hrunning discard
      · exact hk'
    exact hdone.of_eq rfl rfl rfl rfl
  · exact hk'

theorem finishDecode_course (s : MmeVideo) (i : Nat) (discard : Bool) :
    (s.finishDecode i discard).decodeContext = s.decodeContext ∧
      (s.finishDecode i discard).inFlight = s.inFlight ∧
      (s.finishDecode i discard).halted = s.halted := by
  unfold finishDecode
  dsimp only
  split
  · split
    · obtain ⟨-, hcontext, hflight, hhalted, -⟩ := steady_passOn (s.endDecode i) i discard
      exact ⟨hcontext, hflight, hhalted⟩
    · exact ⟨rfl, rfl, rfl⟩
  · exact ⟨rfl, rfl, rfl⟩

theorem CurrentHeld.finishDecode (h : s.CurrentHeld) (discard : Bool) :
    (s.finishDecode i discard).CurrentHeld := by
  unfold MmeVideo.finishDecode
  dsimp only
  split
  · intro j hj
    rw [Option.filter_eq_some_iff] at hj
    obtain ⟨hcurrent, hne⟩ := hj
    have hne : j ≠ i := by simpa using hne
    -- the hold of no other buffer has changed hands
    obtain ⟨hcurrent', -, -, -, hhold⟩ := steady_passOn (s.endDecode i) i discard
    revert hcurrent
    show _ → MmeVideo.hold (if _ then _ else _) j = _
    split
    · rw [hcurrent', hhold j hne]
      exact h j
    · exact h j
  · exact h

theorem CurrentHeld.of_steady (h : s.CurrentHeld) (hsteady : Steady s t) : t.CurrentHeld := by
  intro i hi
  rw [hsteady.hold]
  exact h i (hsteady.currentDecodeBufferIndex ▸ hi)

theorem Kept.setOutputOnDecodesComplete (hk : s.Kept named running) (h : s.hold i = .codec) :
    (s.setOutputOnDecodesComplete i).Kept named running := by
  have hne : s.hold i ≠ .none := fun h' => nomatch h.symm.trans h'
  have hbuffer : (s.bufferState i).buffer = true :=
    (hk i).record.mpr ((hk i).count_ne_zero (.inl hne))
  have hk' := hk.setState i
    { s.bufferState i with outputOnDecodesComplete := true } hbuffer hbuffer rfl rfl
  unfold MmeVideo.setOutputOnDecodesComplete
  dsimp only
  split
  · next hzero =>
    have hrunning : i ∉ running :=
      List.count_eq_zero.mp ((hk' i).progress.symm.trans hzero)
    exact hk'.insertIntoOutputRing hne hrunning
  · exact hk'

theorem Kept.outputPartialDecodeBuffers (hk : s.Kept named running) (h : s.CurrentHeld) :
    s.outputPartialDecodeBuffers.Kept named running := by
  unfold MmeVideo.outputPartialDecodeBuffers
  cases hcurrent : s.currentDecodeBufferIndex with
  | none => exact hk
  | some i => exact (hk.setOutputOnDecodesComplete (h i hcurrent)).of_eq rfl rfl rfl rfl

theorem current_outputPartialDecodeBuffers (s : MmeVideo) :
    s.outputPartialDecodeBuffers.currentDecodeBufferIndex = none := by
  unfold outputPartialDecodeBuffers
  cases hcurrent : s.currentDecodeBufferIndex with
  | none => exact hcurrent
  | some i => rfl

/-- The contexts, the counts and the map are as they were. -/
structure SameRest (s t : MmeVideo) : Prop where
  ownerCount : t.ownerCount = s.ownerCount
  indexBufferMap : t.indexBufferMap = s.indexBufferMap
  decodeContext : t.decodeContext = s.decodeContext
  inFlight : t.inFlight = s.inFlight
  halted : t.halted = s.halted

theorem sameRest_outputPartialDecodeBuffers (s : MmeVideo) :
    SameRest s s.outputPartialDecodeBuffers := by
  unfold outputPartialDecodeBuffers
  split
  · exact ⟨rfl, rfl, rfl, rfl, rfl⟩
  · unfold setOutputOnDecodesComplete
    dsimp only
    split
    · unfold insertIntoOutputRing
      split <;> exact ⟨rfl, rfl, rfl, rfl, rfl⟩
    · exact ⟨rfl, rfl, rfl, rfl, rfl⟩

/-! ## One share more -/

theorem Kept.takeReference (hk : s.Kept named running) (h : s.ownerCount i ≠ 0) :
    (s.takeReference i).Kept (i :: named) running := by
  have hi := hk i
  have hcount : (s.setOwnerCount i (s.ownerCount i + 1)).Kept (i :: named) running := by
    refine hk.local (i := i) (fun j hj => ⟨sameAt_setOwnerCount hj,
      List.count_cons_of_ne (fun h => hj h.symm), rfl⟩) ?_
    have howner : (s.setOwnerCount i (s.ownerCount i + 1)).ownerCount i = s.ownerCount i + 1 :=
      Function.update_self ..
    rw [List.count_cons_self]
    constructor
    · rw [howner, hi.count]
      rfl
    · rw [howner]
      exact ⟨fun _ => Nat.succ_ne_zero _, fun _ => hi.record.mpr h⟩
    · rw [howner]
      exact ⟨fun _ => Nat.succ_ne_zero _, fun _ => hi.mapped.mpr h⟩
    · exact hi.absent
    · exact hi.progress
    · exact hi.codec
  unfold MmeVideo.takeReference
  dsimp only
  split
  · exact hcount
  · exact hcount.of_eq rfl rfl rfl rfl

theorem ownerCount_takeReference (h : s.ownerCount j ≠ 0) :
    (s.takeReference i).ownerCount j ≠ 0 := by
  have howner : (s.takeReference i).ownerCount
      = Function.update s.ownerCount i (s.ownerCount i + 1) := by
    unfold takeReference
    dsimp only
    split <;> rfl
  rw [howner]
  by_cases hj : j = i
  · subst hj
    rw [Function.update_self]
    exact Nat.succ_ne_zero _
  · rw [Function.update_of_ne hj]
    exact h

theorem Kept.takeReferences (list : List Nat) :
    ∀ {s : MmeVideo} {named : List Nat}, s.Kept named running →
      (∀ i ∈ list, s.ownerCount i ≠ 0) →
      (list.foldl MmeVideo.takeReference s).Kept (list ++ named) running := by
  induction list with
  | nil => exact fun hk _ => hk
  | cons i list ih =>
    intro s named hk h
    have hk' := ih (hk.takeReference (h i List.mem_cons_self)) fun j hj =>
      ownerCount_takeReference (h j (List.mem_cons_of_mem _ hj))
    exact hk'.perm List.perm_middle (List.Perm.refl _)

theorem Kept.incrementUseCount (hk : s.Kept named running) (h : s.ownerCount i ≠ 0)
    (f : ParsedFrame) : (s.incrementUseCount i f).Kept named running := by
  have hi := hk i
  have hbuffer := hi.record.mpr h
  unfold MmeVideo.incrementUseCount
  split
  · refine hk.local (i := i) (fun j hj =>
      ⟨(sameAt_setOwnerCount hj).trans (sameAt_setState hj), rfl, rfl⟩) ?_
    have hself : ((s.setOwnerCount i (s.ownerCount i + 1)).setState i
        { s.bufferState i with
          referenceFrameCount := (s.bufferState i).referenceFrameCount + 1 }).bufferState i =
        { s.bufferState i with
          referenceFrameCount := (s.bufferState i).referenceFrameCount + 1 } :=
      Function.update_self ..
    have howner : ((s.setOwnerCount i (s.ownerCount i + 1)).setState i
        { s.bufferState i with
          referenceFrameCount := (s.bufferState i).referenceFrameCount + 1 }).ownerCount i
        = s.ownerCount i + 1 :=
      Function.update_self ..
    constructor
    · rw [howner, hself, hi.count]
      show _ = s.outputHold i + ((s.bufferState i).referenceFrameCount + 1) + _
      omega
    · rw [howner, hself]
      exact ⟨fun _ => Nat.succ_ne_zero _, fun _ => hbuffer⟩
    · rw [howner]
      exact ⟨fun _ => Nat.succ_ne_zero _, fun _ => hi.mapped.mpr h⟩
    · rw [hself]
      exact fun hfalse => absurd hbuffer (Bool.eq_false_iff.mp hfalse)
    · rw [hself]
      exact hi.progress
    · exact hi.codec
  · exact hk

theorem ownerCount_incrementUseCount (h : s.ownerCount j ≠ 0) (f : ParsedFrame) :
    (s.incrementUseCount i f).ownerCount j ≠ 0 := by
  unfold incrementUseCount
  split
  · show Function.update s.ownerCount i (s.ownerCount i + 1) j ≠ 0
    by_cases hj : j = i
    · subst hj
      rw [Function.update_self]
      exact Nat.succ_ne_zero _
    · rw [Function.update_of_ne hj]
      exact h
  · exact h

theorem mapped_of_translateDecodeIndex {decodeIndex : Nat}
    (h : s.translateDecodeIndex decodeIndex = some i) : s.Mapped i := by
  obtain ⟨entry, hentry, heq⟩ := List.exists_of_findSome?_eq_some h
  rw [Option.map_eq_some_iff] at heq
  obtain ⟨pair, hpair, rfl⟩ := heq
  rw [Option.filter_eq_some_iff] at hpair
  exact ⟨pair.1, hpair.1 ▸ hentry⟩

theorem Kept.translatedList (hk : s.Kept named running) (h : s.ownerCount i ≠ 0) (f : ParsedFrame) :
    ∀ j ∈ s.translatedList i f, s.ownerCount j ≠ 0 := by
  intro j hj
  obtain ⟨decodeIndex, -, rfl⟩ := List.mem_map.mp hj
  cases htranslate : s.translateDecodeIndex decodeIndex with
  | none => exact h
  | some k => exact (hk k).mapped.mp (mapped_of_translateDecodeIndex htranslate)

theorem Kept.translateReferenceFrameLists (hk : s.Kept named running) (h : s.ownerCount i ≠ 0)
    (f : ParsedFrame) :
    (s.translateReferenceFrameLists i f).2.Kept
      ((s.translateReferenceFrameLists i f).1 ++ named) running := by
  have hk' := hk.incrementUseCount h f
  exact hk'.takeReferences _ (hk'.translatedList (ownerCount_incrementUseCount h f) f)

theorem Kept.attachMacroblockStructure (hk : s.Kept named running)
    (h : (s.bufferState i).buffer = true) (m selfReferences : Nat) :
    (s.attachMacroblockStructure i m selfReferences).Kept named running := by
  have hset := hk.setState i
    { s.bufferState i with macroblockStructure := some m } h h rfl rfl
  exact hset.of_eq rfl rfl rfl rfl

theorem Kept.fillOutDecodeCommand (hk : s.Kept named running) (h : s.hold i ≠ .none)
    (list : List Nat) (f : ParsedFrame) (e : Environment) :
    (s.fillOutDecodeCommand c i list f e).2.Kept named running := by
  have hbuffer : (s.bufferState i).buffer = true :=
    (hk i).record.mpr ((hk i).count_ne_zero (.inl h))
  have hk' := hk.referenceFrameSlotAllocate (some i)
    (by rintro j ⟨⟩; exact hbuffer)
  have hhold : (s.referenceFrameSlotAllocate (some i)).2.hold i ≠ .none := by
    rw [(steady_referenceFrameSlotAllocate s (some i)).hold]
    exact h
  have hbuffer' : ((s.referenceFrameSlotAllocate (some i)).2.bufferState i).buffer = true :=
    (hk' i).record.mpr ((hk' i).count_ne_zero (.inl hhold))
  unfold MmeVideo.fillOutDecodeCommand
  split
  · dsimp only
    split
    · show MmeVideo.Kept (if c.tdt = true then _ else _) _ _
      split
      · exact hk'.h264ReleaseReferenceFrame none
      · exact hk'
    · split
      · exact hk'
      · split
        · exact hk'
        · exact hk'.attachMacroblockStructure hbuffer' _ _
  · exact hk

/-! ## New mappings -/

theorem mem_mapEntry {entry entry' : Nat × Nat} :
    ∀ {map map' : List (Option (Nat × Nat))}, mapEntry entry map = some map' →
      (some entry' ∈ map' ↔ entry' = entry ∨ some entry' ∈ map)
  | none :: map, map', h => by
    obtain rfl := Option.some.inj h
    simp
  | some used :: map, map', h => by
    unfold mapEntry at h
    rw [Option.map_eq_some_iff] at h
    obtain ⟨map'', hmap, rfl⟩ := h
    rw [List.mem_cons, List.mem_cons, mem_mapEntry hmap]
    exact or_left_comm

theorem mapEntry_eq_some (entry : Nat × Nat) :
    ∀ {map : List (Option (Nat × Nat))}, none ∈ map → ∃ map', mapEntry entry map = some map'
  | none :: map, _ => ⟨_, rfl⟩
  | some used :: map, h => by
    obtain ⟨map', hmap⟩ := mapEntry_eq_some entry (by simpa using h)
    exact ⟨_, by unfold mapEntry; rw [hmap]; rfl⟩

theorem mapped_mapEntry {map : List (Option (Nat × Nat))} {decodeIndex j : Nat}
    (hmap : mapEntry (decodeIndex, i) s.indexBufferMap = some map) :
    (∃ index, some (index, j) ∈ map) ↔ j = i ∨ s.Mapped j := by
  constructor
  · rintro ⟨index, hmem⟩
    rcases (mem_mapEntry hmap).mp hmem with heq | hmem
    · exact .inl (congrArg Prod.snd heq)
    · exact .inr ⟨index, hmem⟩
  · rintro (rfl | ⟨index, hmem⟩)
    · exact ⟨decodeIndex, (mem_mapEntry hmap).mpr (.inl rfl)⟩
    · exact ⟨index, (mem_mapEntry hmap).mpr (.inr hmem)⟩

theorem Kept.mapBufferToDecodeIndex (hk : s.Kept named running) {decodeIndex : Nat}
    (hmap : s.mapBufferToDecodeIndex decodeIndex i = some t) (h : s.ownerCount i ≠ 0) :
    t.Kept named running := by
  unfold MmeVideo.mapBufferToDecodeIndex at hmap
  rw [Option.map_eq_some_iff] at hmap
  obtain ⟨map, hmap, rfl⟩ := hmap
  intro j
  refine (hk j).congr ⟨rfl, rfl, rfl, (mapped_mapEntry hmap).trans ⟨?_, .inr⟩⟩
  rintro (rfl | hj)
  · exact (hk j).mapped.mpr h
  · exact hj

theorem Kept.withBuffer (hk : s.Kept named running) (h : s.ownerCount i = 0)
    {map : List (Option (Nat × Nat))} {f : ParsedFrame}
    (hmap : mapEntry (f.decodeFrameIndex, i) s.indexBufferMap = some map) :
    (s.withBuffer i map f).Kept named running := by
  obtain ⟨hhold, hstate, hnamed, hrunning⟩ := (hk i).unused h
  have hself : (s.withBuffer i map f).bufferState i = .obtained f := Function.update_self ..
  have howner : (s.withBuffer i map f).ownerCount i = 1 := Function.update_self ..
  have hhold' : (s.withBuffer i map f).hold i = .codec := Function.update_self ..
  have hmapped : ∀ j, (s.withBuffer i map f).Mapped j ↔ j = i ∨ s.Mapped j :=
    fun j => mapped_mapEntry hmap
  refine hk.local (i := i) (fun j hj => ⟨⟨Function.update_of_ne hj .., Function.update_of_ne hj ..,
    Function.update_of_ne hj .., (hmapped j).trans (or_iff_right hj)⟩, rfl, rfl⟩) ?_
  rw [hnamed, hrunning]
  constructor
  · rw [howner, hself, outputHold_of_ne (by rw [hhold']; exact fun h => nomatch h)]
    rfl
  · rw [howner, hself]
    exact ⟨fun _ => Nat.one_ne_zero, fun _ => rfl⟩
  · rw [howner, hmapped]
    exact ⟨fun _ => Nat.one_ne_zero, fun _ => .inl rfl⟩
  · rw [hself]
    exact fun h => nomatch h
  · rw [hself]
    rfl
  · exact fun _ => hhold'

theorem Kept.addField (hk : s.Kept named running) (h : s.hold i ≠ .none) (f : ParsedFrame) :
    (s.addField i f).2.Kept named running := by
  have hcounted := (hk i).count_ne_zero (.inl h)
  unfold MmeVideo.addField
  cases hmap : s.mapBufferToDecodeIndex f.decodeFrameIndex i with
  | none => exact hk
  | some t =>
    have hk' := hk.mapBufferToDecodeIndex hmap hcounted
    have hhold : t.hold i = s.hold i := by
      unfold MmeVideo.mapBufferToDecodeIndex at hmap
      rw [Option.map_eq_some_iff] at hmap
      obtain ⟨map, -, rfl⟩ := hmap
      rfl
    have hbuffer : (t.bufferState i).buffer = true :=
      (hk' i).record.mpr ((hk' i).count_ne_zero (.inl (hhold ▸ h)))
    have hdisplay := hk'.setState i
      { t.bufferState i with displayCount := f.displayCount.1 } hbuffer hbuffer rfl rfl
    dsimp only
    split
    · exact hk'
    · have hbuffer' : ((t.setState i
          { t.bufferState i with displayCount := f.displayCount.1 }).bufferState i).buffer
          = true := by
        rw [setState_bufferState, Function.update_self]
        exact hbuffer
      split
      · exact hdisplay
      · exact hdisplay.setState i _ hbuffer' hbuffer' rfl rfl

theorem steady_addField (s : MmeVideo) (i : Nat) (f : ParsedFrame) :
    Steady s (s.addField i f).2 := by
  unfold addField mapBufferToDecodeIndex
  cases mapEntry (f.decodeFrameIndex, i) s.indexBufferMap with
  | none => exact Steady.refl s
  | some map =>
    dsimp only [Option.map_some]
    split
    · exact ⟨rfl, rfl, rfl, rfl, rfl, rfl, rfl⟩
    · split <;> exact ⟨rfl, rfl, rfl, rfl, rfl, rfl, rfl⟩

/-! ## Contexts -/

/-- The buffers that the reference lists of contexts name. -/
def namedBy (contexts : List DecodeContext) : List Nat := contexts.flatMap (·.referenceFrameList)

/-- The buffers that the decodes of contexts are in progress into. -/
def runningIn (contexts : List DecodeContext) : List Nat :=
  contexts.filterMap DecodeContext.running?

theorem namedBy_perm {contexts contexts' : List DecodeContext} (h : contexts.Perm contexts') :
    (namedBy contexts).Perm (namedBy contexts') :=
  h.flatMap_right _

theorem runningIn_perm {contexts contexts' : List DecodeContext} (h : contexts.Perm contexts') :
    (runningIn contexts).Perm (runningIn contexts') :=
  h.filterMap _

/-- The contexts that have not been released. -/
def liveContexts (s : MmeVideo) : List DecodeContext := s.decodeContext.toList ++ s.inFlight

/-- The counts of a codec between events, its current buffer, and the context that
a failed input can leave. -/
structure Sound (s : MmeVideo) : Prop where
  kept : s.Kept (namedBy s.liveContexts) (runningIn s.liveContexts)
  current : s.CurrentHeld
  idle : s.halted = false → namedBy s.decodeContext.toList = [] ∧
    runningIn s.decodeContext.toList = []

theorem releaseDecodeContext_eq (s : MmeVideo) (context : DecodeContext) (discard : Bool) :
    s.releaseDecodeContext context discard =
      context.referenceFrameList.foldl MmeVideo.releaseReference
        (match context.running? with
        | none => s
        | some i => s.finishDecode i discard) := by
  unfold MmeVideo.releaseDecodeContext DecodeContext.running?
  cases context.bufferIndex with
  | none => rw [ite_self]
  | some i => cases context.decodeInProgress <;> rfl

theorem Kept.releaseDecodeContext (hk : s.Kept named running) (context : DecodeContext)
    {named' running' : List Nat} (hnamed : named = context.referenceFrameList ++ named')
    (hrunning : running = context.running?.toList ++ running') (discard : Bool) :
    (s.releaseDecodeContext context discard).Kept named' running' := by
  subst hnamed hrunning
  rw [releaseDecodeContext_eq]
  refine Kept.releaseReferences _ ?_
  cases hprogress : context.running? with
  | none =>
    rw [hprogress] at hk
    exact hk
  | some i =>
    rw [hprogress] at hk
    exact hk.finishDecode discard

theorem CurrentHeld.releaseDecodeContext (h : s.CurrentHeld) (context : DecodeContext)
    (discard : Bool) : (s.releaseDecodeContext context discard).CurrentHeld := by
  rw [releaseDecodeContext_eq]
  refine CurrentHeld.of_steady ?_ (steady_foldl steady_releaseReference _ _)
  split
  · exact h
  · exact h.finishDecode discard

theorem releaseDecodeContext_course (s : MmeVideo) (context : DecodeContext) (discard : Bool) :
    (s.releaseDecodeContext context discard).decodeContext = s.decodeContext ∧
      (s.releaseDecodeContext context discard).inFlight = s.inFlight ∧
      (s.releaseDecodeContext context discard).halted = s.halted := by
  have hcourse : ∀ u : MmeVideo, Steady u
      (context.referenceFrameList.foldl releaseReference u) :=
    steady_foldl steady_releaseReference _
  rw [releaseDecodeContext_eq]
  cases context.running? with
  | none => exact ⟨(hcourse s).decodeContext, (hcourse s).inFlight, (hcourse s).halted⟩
  | some i =>
    obtain ⟨hcontext, hflight, hhalted⟩ := finishDecode_course s i discard
    exact ⟨(hcourse _).decodeContext.trans hcontext, (hcourse _).inFlight.trans hflight,
      (hcourse _).halted.trans hhalted⟩

theorem Sound.of_eq (hs : s.Sound) (hk : t.Kept (namedBy s.liveContexts) (runningIn s.liveContexts))
    (hcurrent : t.CurrentHeld) (hcontext : t.decodeContext = s.decodeContext)
    (hflight : t.inFlight = s.inFlight) (hhalted : t.halted = s.halted) : t.Sound where
  kept := by
    unfold liveContexts at hk ⊢
    rw [hcontext, hflight]
    exact hk
  current := hcurrent
  idle := by
    rw [hcontext, hhalted]
    exact hs.idle

theorem sound_of_idle (hk : s.Kept (namedBy s.inFlight) (runningIn s.inFlight))
    (hcurrent : s.CurrentHeld) (hidle : namedBy s.decodeContext.toList = [] ∧
      runningIn s.decodeContext.toList = []) : s.Sound where
  kept := by
    obtain ⟨hnamed, hrunning⟩ := hidle
    unfold namedBy at hnamed
    unfold runningIn at hrunning
    unfold liveContexts namedBy runningIn
    rw [List.flatMap_append, List.filterMap_append, hnamed, hrunning]
    exact hk
  current := hcurrent
  idle := fun _ => hidle

theorem sound_of_flight (hk : s.Kept (namedBy s.inFlight) (runningIn s.inFlight))
    (hcurrent : s.CurrentHeld) (hcontext : s.decodeContext = none) : s.Sound :=
  sound_of_idle hk hcurrent (by rw [hcontext]; exact ⟨rfl, rfl⟩)

theorem idle_openDecodeContext (hidle : namedBy s.decodeContext.toList = [] ∧
    runningIn s.decodeContext.toList = []) :
    namedBy s.openDecodeContext.decodeContext.toList = [] ∧
      runningIn s.openDecodeContext.decodeContext.toList = [] := by
  unfold openDecodeContext
  cases hcontext : s.decodeContext with
  | none => exact ⟨rfl, rfl⟩
  | some context =>
    rw [hcontext] at hidle
    exact hidle

theorem Sound.flight (hs : s.Sound) (hhalted : s.halted = false) :
    s.Kept (namedBy s.inFlight) (runningIn s.inFlight) := by
  obtain ⟨hnamed, hrunning⟩ := hs.idle hhalted
  have hk := hs.kept
  unfold liveContexts namedBy runningIn at hk
  rw [List.flatMap_append, List.filterMap_append] at hk
  unfold namedBy at hnamed
  unfold runningIn at hrunning
  rw [hnamed, hrunning] at hk
  exact hk

/-! ## Decodes -/

theorem Kept.afterDecode (hk : s.Kept named running) (f : ParsedFrame) (last : Bool) :
    (s.afterDecode f last).Kept named running := by
  unfold MmeVideo.afterDecode
  split <;> exact hk.of_eq rfl rfl rfl rfl

theorem CurrentHeld.afterDecode (h : s.CurrentHeld) (f : ParsedFrame) (last : Bool) :
    (s.afterDecode f last).CurrentHeld := by
  unfold MmeVideo.afterDecode
  split
  · exact fun i hi => nomatch hi
  · exact h

theorem afterDecode_course (s : MmeVideo) (f : ParsedFrame) (last : Bool) :
    (s.afterDecode f last).decodeContext = s.decodeContext ∧
      (s.afterDecode f last).inFlight = s.inFlight ∧ (s.afterDecode f last).halted = s.halted := by
  unfold afterDecode
  split <;> exact ⟨rfl, rfl, rfl⟩

variable {f : ParsedFrame} {e : Environment}

theorem Kept.filledOut (hk : s.Kept named running) (hhold : s.hold i = .codec) :
    (s.filledOut c i f e).2.Kept ((s.translated i f).1 ++ named) running := by
  have hne : s.hold i ≠ .none := fun h => nomatch hhold.symm.trans h
  have hk' : MmeVideo.Kept { s with decodeContext := none } named running :=
    hk.of_eq rfl rfl rfl rfl
  have htranslated : (s.translated i f).2.Kept ((s.translated i f).1 ++ named) running :=
    hk'.translateReferenceFrameLists ((hk i).count_ne_zero (.inl hne)) f
  refine htranslated.fillOutDecodeCommand ?_ _ f e
  rw [(steady_translated s i f).hold]
  exact hne

theorem Kept.started (hk : s.Kept named running) (hhold : s.hold i = .codec) :
    (s.started c i f e).2.Kept ((s.translated i f).1 ++ named) (i :: running) := by
  refine (hk.filledOut hhold).startDecode ?_ f _
  rw [(steady_filledOut c s i f e).hold]
  exact hhold

theorem context_decode (c : Configuration) (s : MmeVideo) (i : Nat) (f : ParsedFrame)
    (e : Environment) :
    (s.decode c i f e).1 = false ∨ (s.decode c i f e).2.halted = false →
      (s.decode c i f e).2.decodeContext = none := by
  have hsteady := steady_filledOut c s i f e
  have hsteady' := steady_started c s i f e
  have hcase := decode_case c s i f e
  generalize s.decode c i f e = result at hcase ⊢
  cases hcase with
  | notFilled hno =>
    obtain ⟨hcontext, -⟩ :=
      releaseDecodeContext_course (s.filledOut c i f e).2 (s.contextOf i f false) e.discard
    exact fun _ => hcontext.trans hsteady.decodeContext
  | refused hyes hsent =>
    obtain ⟨hcontext, -⟩ :=
      releaseDecodeContext_course (s.started c i f e).2 (s.contextOf i f true) e.discard
    exact fun _ => hcontext.trans hsteady'.decodeContext
  | halted hyes hsent =>
    obtain ⟨-, -, hhalted⟩ := afterDecode_course
      ((s.started c i f e).2.suppress (s.contextOf i f true)) f (s.started c i f e).1
    intro h
    rcases h with h | h
    · exact nomatch h
    · exact nomatch h.symm.trans hhalted
  | accepted hyes hsent =>
    obtain ⟨hcontext, -⟩ := afterDecode_course
      ((s.started c i f e).2.launch (s.contextOf i f true)) f (s.started c i f e).1
    exact fun _ => hcontext.trans hsteady'.decodeContext

theorem sound_decode (hk : s.Kept (namedBy s.inFlight) (runningIn s.inFlight))
    (hcurrent : s.CurrentHeld) (hhold : s.hold i = .codec) :
    (s.decode c i f e).2.Sound := by
  have hfilled := hk.filledOut (c := c) (f := f) (e := e) hhold
  have hstarted := hk.started (c := c) (f := f) (e := e) hhold
  have hsteady := steady_filledOut c s i f e
  have hsteady' := steady_started c s i f e
  have hcontext : MmeVideo.CurrentHeld { s with decodeContext := none } := hcurrent
  have hcurrent' : (s.started c i f e).2.CurrentHeld := hcontext.of_steady hsteady'
  have hnone := context_decode c s i f e
  have hcase := decode_case c s i f e
  generalize s.decode c i f e = result at hcase hnone ⊢
  cases hcase with
  | notFilled hno =>
    obtain ⟨-, hflight, -⟩ :=
      releaseDecodeContext_course (s.filledOut c i f e).2 (s.contextOf i f false) e.discard
    refine sound_of_flight ?_ ?_ (hnone (.inl rfl))
    · rw [hflight, hsteady.inFlight]
      exact hfilled.releaseDecodeContext (s.contextOf i f false) rfl rfl e.discard
    · exact (hcontext.of_steady hsteady).releaseDecodeContext _ _
  | refused hyes hsent =>
    obtain ⟨-, hflight, -⟩ :=
      releaseDecodeContext_course (s.started c i f e).2 (s.contextOf i f true) e.discard
    refine sound_of_flight ?_ (hcurrent'.releaseDecodeContext _ _) (hnone (.inl rfl))
    rw [hflight, hsteady'.inFlight]
    exact hstarted.releaseDecodeContext (s.contextOf i f true) rfl rfl e.discard
  | halted hyes hsent =>
    obtain ⟨hcontext, hflight, hhalted⟩ := afterDecode_course
      ((s.started c i f e).2.suppress (s.contextOf i f true)) f (s.started c i f e).1
    have hkept := (hstarted.of_eq (t := (s.started c i f e).2.suppress (s.contextOf i f true))
      rfl rfl rfl rfl).afterDecode f (s.started c i f e).1
    have hheld : CurrentHeld ((s.started c i f e).2.suppress (s.contextOf i f true)) :=
      hcurrent'
    refine ⟨?_, hheld.afterDecode f _, fun h => nomatch h.symm.trans hhalted⟩
    unfold liveContexts
    rw [hcontext, hflight]
    show MmeVideo.Kept _ (namedBy (_ :: (s.started c i f e).2.inFlight))
      (runningIn (_ :: (s.started c i f e).2.inFlight))
    rw [hsteady'.inFlight]
    exact hkept
  | accepted hyes hsent =>
    obtain ⟨hcontext, hflight, -⟩ := afterDecode_course
      ((s.started c i f e).2.launch (s.contextOf i f true)) f (s.started c i f e).1
    have hkept := (hstarted.of_eq (t := (s.started c i f e).2.launch (s.contextOf i f true))
      rfl rfl rfl rfl).afterDecode f (s.started c i f e).1
    have hheld : CurrentHeld ((s.started c i f e).2.launch (s.contextOf i f true)) :=
      hcurrent'
    refine sound_of_flight ?_ (hheld.afterDecode f _) (hcontext.trans hsteady'.decodeContext)
    rw [hflight]
    show MmeVideo.Kept _ (namedBy ((s.started c i f e).2.inFlight ++ _))
      (runningIn ((s.started c i f e).2.inFlight ++ _))
    rw [hsteady'.inFlight]
    have hadded : (s.contextOf i f true :: s.inFlight).Perm
        (s.inFlight ++ [s.contextOf i f true]) := (List.perm_append_singleton _ _).symm
    exact hkept.perm (namedBy_perm hadded) (runningIn_perm hadded)

/-! ## Inputs -/

theorem completePrevious_course (c : Configuration) (s : MmeVideo) (f : ParsedFrame) :
    SameRest s (s.completePrevious c f) := by
  unfold completePrevious
  split
  · exact ⟨rfl, rfl, rfl, rfl, rfl⟩
  · split
    · exact sameRest_outputPartialDecodeBuffers s
    · exact ⟨rfl, rfl, rfl, rfl, rfl⟩

theorem Kept.prepared (hk : s.Kept named running) (h : s.CurrentHeld) (f : ParsedFrame) :
    (s.prepared c f).Kept named running := by
  have hopen : s.openDecodeContext.Kept named running := hk.of_eq rfl rfl rfl rfl
  unfold MmeVideo.prepared completePrevious
  split
  · exact hopen
  · split
    · exact hopen.outputPartialDecodeBuffers h
    · exact hopen

/-- What the codec is given: a buffer from the pool when it asks for one, with an
entry free in the map, and the buffers that it has put out. -/
def Served (c : Configuration) (s : MmeVideo) : VideoEvent → Prop
  | .input f e => s.refuses c f e = false → f.newFrameParameters = true →
      s.reusedBuffer c f = none → ∀ i ∈ e.buffer,
        s.ownerCount i = 0 ∧ i < c.decodeBufferCount ∧ none ∈ s.indexBufferMap
  | .releaseDecodeBuffer i => s.hold i = .output
  | _ => True

theorem Sound.withBuffer (hs : s.Sound) (hserved : s.Served c (.input f e))
    (hrefuses : s.refuses c f e = false) (hframe : f.newFrameParameters = true)
    (hreused : s.reusedBuffer c f = none) (hbuffer : e.buffer = some i)
    {map : List (Option (Nat × Nat))}
    (hmap : mapEntry (f.decodeFrameIndex, i) (s.prepared c f).indexBufferMap = some map) :
    (s.prepared c f).ownerCount i = 0 ∧
      ((s.prepared c f).withBuffer i map f).Kept (namedBy s.inFlight) (runningIn s.inFlight) ∧
      ((s.prepared c f).withBuffer i map f).CurrentHeld ∧
      ((s.prepared c f).withBuffer i map f).inFlight = s.inFlight := by
  have hrest := completePrevious_course c s.openDecodeContext f
  have hpool : (s.prepared c f).ownerCount i = 0 :=
    (congrFun hrest.ownerCount i).trans (hserved hrefuses hframe hreused i hbuffer).1
  have hk := (hs.flight (halted_of_refuses hrefuses)).prepared (c := c) hs.current f
  refine ⟨hpool, hk.withBuffer hpool hmap, fun j hj => ?_, hrest.inFlight⟩
  obtain rfl := Option.some.inj hj
  exact Function.update_self ..

theorem Sound.opened (hs : s.Sound) (hrefuses : s.refuses c f e = false) :
    s.openDecodeContext.Kept (namedBy s.inFlight) (runningIn s.inFlight) :=
  (hs.flight (halted_of_refuses hrefuses)).of_eq rfl rfl rfl rfl

theorem Sound.fieldAdded (hs : s.Sound) (hrefuses : s.refuses c f e = false)
    (hcurrent : s.currentDecodeBufferIndex = some i) :
    (s.openDecodeContext.addField i f).2.Kept (namedBy s.inFlight) (runningIn s.inFlight) ∧
      (s.openDecodeContext.addField i f).2.CurrentHeld ∧
      (s.openDecodeContext.addField i f).2.hold i = .codec ∧
      (s.openDecodeContext.addField i f).2.inFlight = s.inFlight := by
  have hhold := hs.current i hcurrent
  have hsteady := steady_addField s.openDecodeContext i f
  have hopened : s.openDecodeContext.CurrentHeld := hs.current
  exact ⟨(hs.opened hrefuses).addField (fun h => nomatch hhold.symm.trans h) f,
    hopened.of_steady hsteady, (congrFun hsteady.hold i).trans hhold, hsteady.inFlight⟩

theorem Sound.input (hs : s.Sound) (hserved : s.Served c (.input f e)) :
    (s.input c f e).2.Sound := by
  have hcase := input_case c s f e
  generalize s.input c f e = result at hcase ⊢
  cases hcase with
  | refused hrefuses => exact hs
  | noFrame hrefuses hframe sent => exact hs
  | parameters hrefuses hframe hstream hrefused =>
    exact sound_of_idle (hs.opened hrefuses) hs.current
      (idle_openDecodeContext (hs.idle (halted_of_refuses hrefuses)))
  | noBuffer hrefuses hframe hreused hbuffer =>
    have hrest := completePrevious_course c s.openDecodeContext f
    refine sound_of_flight ?_ (fun i hi => ?_) rfl
    · show MmeVideo.Kept _ (namedBy (s.prepared c f).inFlight) (runningIn (s.prepared c f).inFlight)
      rw [show (s.prepared c f).inFlight = s.inFlight from hrest.inFlight]
      exact ((hs.flight (halted_of_refuses hrefuses)).prepared hs.current f).of_eq rfl rfl rfl rfl
    · exact nomatch (current_prepared_of_none hreused).symm.trans hi
  | notMapped hrefuses hframe hreused i hbuffer hmap =>
    -- there is room in the map
    have hrest := completePrevious_course c s.openDecodeContext f
    obtain ⟨-, -, hroom⟩ := hserved hrefuses hframe hreused i hbuffer
    obtain ⟨map, hmap'⟩ := mapEntry_eq_some (f.decodeFrameIndex, i) hroom
    exact nomatch (hrest.indexBufferMap ▸ hmap).symm.trans hmap'
  | notAttached hrefuses hframe hreused i hbuffer map hmap hattached hsent =>
    obtain ⟨-, hk, hcurrent, hflight⟩ :=
      hs.withBuffer hserved hrefuses hframe hreused hbuffer hmap
    refine sound_of_flight ?_ hcurrent rfl
    show MmeVideo.Kept _ (namedBy ((s.prepared c f).withBuffer i map f).inFlight)
      (runningIn ((s.prepared c f).withBuffer i map f).inFlight)
    rw [hflight]
    exact hk.of_eq rfl rfl rfl rfl
  | obtained hrefuses hframe hreused i hbuffer map hmap hinto =>
    obtain ⟨-, hk, hcurrent, hflight⟩ :=
      hs.withBuffer hserved hrefuses hframe hreused hbuffer hmap
    rw [← hflight] at hk
    exact sound_decode hk hcurrent (hcurrent i rfl)
  | notAdded hrefuses hframe i hreused hslice hadded =>
    obtain ⟨hk, hcurrent, -, hflight⟩ := hs.fieldAdded hrefuses (prepared_of_reused hreused).2
    have hsteady := steady_addField s.openDecodeContext i f
    have hrest := sameRest_outputPartialDecodeBuffers (s.openDecodeContext.addField i f).2
    refine sound_of_idle ?_ (fun j hj => ?_) ?_
    · rw [hrest.inFlight.trans hflight]
      exact hk.outputPartialDecodeBuffers hcurrent
    · exact nomatch (current_outputPartialDecodeBuffers _).symm.trans hj
    · rw [hrest.decodeContext.trans hsteady.decodeContext]
      exact idle_openDecodeContext (hs.idle (halted_of_refuses hrefuses))
  | added hrefuses hframe i hreused hslice hadded hinto =>
    obtain ⟨hk, hcurrent, hhold, hflight⟩ := hs.fieldAdded hrefuses (prepared_of_reused hreused).2
    rw [← hflight] at hk
    exact sound_decode hk hcurrent hhold
  | slice hrefuses hframe i hreused hslice hinto =>
    exact sound_decode (hs.opened hrefuses) hs.current
      (hs.current i (prepared_of_reused hreused).2)

/-! ## Runs -/

theorem perm_erased {k : Nat} {context : DecodeContext} (hcontext : s.inFlight[k]? = some context) :
    s.liveContexts.Perm (context :: (s.decodeContext.toList ++ s.inFlight.eraseIdx k)) := by
  obtain ⟨hk, rfl⟩ := List.getElem?_eq_some_iff.mp hcontext
  exact ((List.getElem_cons_eraseIdx_perm hk).symm.append_left _).trans List.perm_middle

theorem Sound.kept_erased (hs : s.Sound) {k : Nat} {context : DecodeContext}
    (hcontext : s.inFlight[k]? = some context) :
    MmeVideo.Kept { s with inFlight := s.inFlight.eraseIdx k }
      (context.referenceFrameList ++ namedBy (s.decodeContext.toList ++ s.inFlight.eraseIdx k))
      (context.running?.toList ++ runningIn (s.decodeContext.toList ++ s.inFlight.eraseIdx k)) := by
  have hperm := perm_erased hcontext
  have hrunning : runningIn (context :: (s.decodeContext.toList ++ s.inFlight.eraseIdx k))
      = context.running?.toList
        ++ runningIn (s.decodeContext.toList ++ s.inFlight.eraseIdx k) := by
    unfold runningIn
    cases hrunning : context.running? with
    | none => rw [List.filterMap_cons_none hrunning]; rfl
    | some i => rw [List.filterMap_cons_some hrunning]; rfl
  rw [← hrunning]
  exact (hs.kept.perm (namedBy_perm hperm) (runningIn_perm hperm)).of_eq rfl rfl rfl rfl

theorem Sound.callbackFromMME (hs : s.Sound) (k : Nat) (discard : Bool) :
    (s.callbackFromMME k discard).Sound := by
  unfold MmeVideo.callbackFromMME
  cases hcontext : s.inFlight[k]? with
  | none => exact hs
  | some context =>
    dsimp only
    obtain ⟨hcontext', hflight', hhalted'⟩ := releaseDecodeContext_course
      { s with inFlight := s.inFlight.eraseIdx k } context discard
    have hcurrent : CurrentHeld { s with inFlight := s.inFlight.eraseIdx k } := hs.current
    refine ⟨?_, hcurrent.releaseDecodeContext _ _, fun hhalted => ?_⟩
    · unfold liveContexts
      rw [hcontext', hflight']
      exact (hs.kept_erased hcontext).releaseDecodeContext _ rfl rfl discard
    · rw [hcontext']
      exact hs.idle (hhalted'.symm.trans hhalted)

theorem Sound.of_steady (hs : s.Sound) (hsteady : Steady s t)
    (hk : t.Kept (namedBy s.liveContexts) (runningIn s.liveContexts)) : t.Sound :=
  hs.of_eq hk (hs.current.of_steady hsteady) hsteady.decodeContext hsteady.inFlight hsteady.halted

theorem Sound.step (hs : s.Sound) {event : VideoEvent} (hserved : s.Served c event) :
    (s.step c event).Sound := by
  unfold MmeVideo.step
  cases event with
  | input f e => exact hs.input hserved
  | callback k discard => exact hs.callbackFromMME k discard
  | releaseReferenceFrame decodeIndex =>
    dsimp only
    split
    · exact hs.of_steady (steady_h264ReleaseReferenceFrame ..)
        (hs.kept.h264ReleaseReferenceFrame decodeIndex)
    · exact hs.of_steady (steady_releaseReferenceFrame ..)
        (hs.kept.releaseReferenceFrame decodeIndex)
  | releaseDecodeBuffer i =>
    have hhold : s.hold i = .output := hserved
    have hne : s.hold i ≠ .none := fun h => nomatch hhold.symm.trans h
    have hrunning : i ∉ runningIn s.liveContexts := fun hi =>
      nomatch hhold.symm.trans ((hs.kept i).codec fun h => List.count_eq_zero.mp h hi)
    have hsteady := steady_releaseDecodeBuffer s i
    refine hs.of_eq (hs.kept.releaseDecodeBuffer hne hrunning) (fun j hj => ?_)
      hsteady.decodeContext hsteady.inFlight hsteady.halted
    have hcurrent := hs.current j (hsteady.currentDecodeBufferIndex ▸ hj)
    have hj : j ≠ i := by
      rintro rfl
      exact nomatch hhold.symm.trans hcurrent
    dsimp only
    rw [hsteady.hold]
    exact (Function.update_of_ne hj ..).trans hcurrent
  | outputPartialDecodeBuffers =>
    have hrest := sameRest_outputPartialDecodeBuffers s
    exact hs.of_eq (hs.kept.outputPartialDecodeBuffers hs.current)
      (fun j hj => nomatch (current_outputPartialDecodeBuffers s).symm.trans hj)
      hrest.decodeContext hrest.inFlight hrest.halted
  | halt => exact ⟨hs.kept.of_eq rfl rfl rfl rfl, hs.current, fun h => nomatch h⟩

theorem sound_registered (size : Nat) : (registered size).Sound := by
  refine ⟨fun i => ?_, (fun i hi => nomatch hi), fun _ => ⟨rfl, rfl⟩⟩
  refine ⟨rfl, ?_, ?_, fun _ => rfl, rfl, fun h => absurd rfl h⟩
  · exact ⟨fun h => (nomatch h : False).elim, fun h => absurd rfl h⟩
  · refine ⟨?_, fun h => absurd rfl h⟩
    rintro ⟨decodeIndex, hmem⟩
    exact nomatch List.eq_of_mem_replicate hmem

end MmeVideo

end Duckbox.Codec
