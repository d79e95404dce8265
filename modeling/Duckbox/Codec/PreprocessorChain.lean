import Duckbox.Lib.Loop
import Duckbox.Lib.Slots

/-!
# The pre-processor chain and the check of reference frames

`Codec_MmeVideoH264_c` keeps a table of what is on its way through the
pre-processor. Frames are entered by `Input`; calls that must stay in order with
them are entered too, as actions: a release of a reference frame, an output of
partial decode buffers, a discard of queued decodes. `IntermediateProcess` takes
the entries out again, in the order of the ring.

`CheckReferenceFrameList` counts a decode index as available when an entry of the
table has it, or, in the base class, when the map to decode buffers has it. It
does not ask what the entry is. An entry of a release has the index that is to
go, and the entries of the other two actions have been cleared and say 0; free
places of the map say `INVALID_INDEX`. The check is sound where no listed index
is found in such a place only (`checkReferenceFrameList_sound_iff`).

> `chain_is_a_queue`: the ring has the entries in use, and they come out as they went
> in, frames and calls in one order.
-/

namespace Duckbox.Codec

open Duckbox.Lib

/-- A decode frame index, or the index of a decode buffer. -/
abbrev FrameIndex := BitVec 32

/-- `INVALID_INDEX`. -/
abbrev invalidIndex : FrameIndex := 0xffffffff

/-- `H264_CODED_FRAME_COUNT`. -/
abbrev h264CodedFrameCount : Nat := 1024

/-- `H264_NUM_REF_FRAME_LISTS`. -/
abbrev h264NumRefFrameLists : Nat := 3

/-- `FramesInPreprocessorChainAction_t`. -/
inductive ChainAction where
  | null
  | callOutputPartialDecodeBuffers
  | callDiscardQueuedDecodes
  | callReleaseReferenceFrame
  | passOnFrame
  | passOnPreProcessedFrame
deriving DecidableEq, Repr

/-- The entry is one of a coded frame. -/
def ChainAction.isFrame : ChainAction → Bool
  | .passOnFrame | .passOnPreProcessedFrame => true
  | _ => false

/-- `FramesInPreprocessorChain_t`, without the buffers. -/
structure ChainEntry where
  used : Bool
  action : ChainAction
  decodeFrameIndex : FrameIndex
deriving DecidableEq, Repr

/-- `CodecIndexBufferMap_t`. -/
structure IndexBufferEntry where
  decodeIndex : FrameIndex
  bufferIndex : FrameIndex
deriving DecidableEq, Repr

structure PreprocessorChain where
  framesInPreprocessorChain : Fin h264CodedFrameCount → ChainEntry
  framesInPreprocessorChainRing : List (Fin h264CodedFrameCount)
  discardFramesInPreprocessorChain : Bool
  indexBufferMap : List IndexBufferEntry

/-- A coded frame, and how far `Input` gets with it. -/
structure ChainInput where
  newFrameParameters : Bool
  decodeFrameIndex : FrameIndex
  /-- Not a first slice, or no buffer for the pre-processor. -/
  refused : Bool
  /-- `H264ppProcessBuffer` fails. -/
  junked : Bool
deriving DecidableEq, Repr

namespace PreprocessorChain

/-- The first entry that is not used. -/
def unused (s : PreprocessorChain) : Option (Fin h264CodedFrameCount) :=
  (List.finRange h264CodedFrameCount).find? fun i => !(s.framesInPreprocessorChain i).used

def setEntry (s : PreprocessorChain) (i : Fin h264CodedFrameCount) (entry : ChainEntry) :
    PreprocessorChain :=
  { s with framesInPreprocessorChain := Function.update s.framesInPreprocessorChain i entry }

theorem find?_finRange_zero {n : Nat} {p : Fin (n + 1) → Bool} (h : p 0 = true) :
    (List.finRange (n + 1)).find? p = some 0 := by
  rw [List.finRange_succ, List.find?_cons_of_pos h]

/-- An entry is written and inserted into the ring, if there is one; the status
says whether there was. -/
def enter (s : PreprocessorChain) (action : ChainAction) (decodeFrameIndex : FrameIndex) :
    Bool × PreprocessorChain :=
  match s.unused with
  | none => (false, s)
  | some i =>
    (true,
      { s.setEntry i ⟨true, action, decodeFrameIndex⟩ with
        framesInPreprocessorChainRing := s.framesInPreprocessorChainRing ++ [i] })

/-- `OutputPartialDecodeBuffers`: the index stays as cleared. -/
def outputPartialDecodeBuffers (s : PreprocessorChain) : Bool × PreprocessorChain :=
  s.enter .callOutputPartialDecodeBuffers 0

/-- `DiscardQueuedDecodes`. -/
def discardQueuedDecodes (s : PreprocessorChain) : Bool × PreprocessorChain :=
  let (found, s) := s.enter .callDiscardQueuedDecodes 0
  (found,
    { s with discardFramesInPreprocessorChain := s.discardFramesInPreprocessorChain || found })

/-- `ReleaseReferenceFrame`. -/
def releaseReferenceFrame (s : PreprocessorChain) (referenceFrameDecodeIndex : FrameIndex) :
    Bool × PreprocessorChain :=
  s.enter .callReleaseReferenceFrame referenceFrameDecodeIndex

/-- `Input`. -/
def input (s : PreprocessorChain) (frame : ChainInput) : Bool × PreprocessorChain :=
  if !frame.newFrameParameters || frame.decodeFrameIndex == invalidIndex then
    s.enter .passOnFrame frame.decodeFrameIndex
  else if frame.refused then (false, s)
  else if frame.junked then
    match s.unused with
    | none => (false, s)
    | some i => (false, s.setEntry i ⟨false, .passOnPreProcessedFrame, frame.decodeFrameIndex⟩)
  else s.enter .passOnPreProcessedFrame frame.decodeFrameIndex

/-- One pass of `IntermediateProcess`. What the rest of the codec makes of the
map to decode buffers is given. -/
def intermediateProcess (s : PreprocessorChain) (terminating : Bool)
    (indexBufferMap : List IndexBufferEntry) : PreprocessorChain :=
  match s.framesInPreprocessorChainRing with
  | [] => s
  | i :: ring =>
    let entry := s.framesInPreprocessorChain i
    let action := if terminating then .null else entry.action
    { s.setEntry i { entry with used := false, action := action } with
      framesInPreprocessorChainRing := ring
      discardFramesInPreprocessorChain :=
        s.discardFramesInPreprocessorChain && action != .callDiscardQueuedDecodes
      indexBufferMap := indexBufferMap }

/-! ## The check -/

/-- `TranslateDecodeIndex`: the buffer index of the first place with the index. -/
def translateDecodeIndex (s : PreprocessorChain) (decodeIndex : FrameIndex) : Option FrameIndex :=
  (s.indexBufferMap.find? fun place => place.decodeIndex == decodeIndex).map (·.bufferIndex)

/-- Some entry that is used has the index. -/
def inChain (s : PreprocessorChain) (index : FrameIndex) : Bool :=
  (List.finRange h264CodedFrameCount).any fun k =>
    (s.framesInPreprocessorChain k).used &&
      (s.framesInPreprocessorChain k).decodeFrameIndex == index

/-- `Codec_MmeBase_c::CheckReferenceFrameList`. -/
def baseCheckReferenceFrameList (s : PreprocessorChain) (referenceFrameList : List (List FrameIndex)) :
    Bool :=
  referenceFrameList.all fun entryIndicies =>
    entryIndicies.all fun index => (s.translateDecodeIndex index).isSome

/-- `Codec_MmeVideoH264_c::CheckReferenceFrameList`: the base class is asked about
those elements that the chain does not know. -/
def checkReferenceFrameList (s : PreprocessorChain) (referenceFrameList : List (List FrameIndex)) :
    Bool :=
  if h264NumRefFrameLists < referenceFrameList.length then false
  else
    s.baseCheckReferenceFrameList <|
      referenceFrameList.map fun entryIndicies => entryIndicies.filter fun index => !s.inChain index

/-! ## What is available -/

/-- An entry in use has the index. -/
def Carries (s : PreprocessorChain) (k : Fin h264CodedFrameCount) (index : FrameIndex) : Prop :=
  (s.framesInPreprocessorChain k).used = true ∧
    (s.framesInPreprocessorChain k).decodeFrameIndex = index

/-- The index is mapped to a decode buffer. -/
def Mapped (s : PreprocessorChain) (index : FrameIndex) : Prop :=
  ∃ place ∈ s.indexBufferMap, place.decodeIndex = index ∧ place.bufferIndex ≠ invalidIndex

/-- The index is that of a coded frame in the chain. -/
def Queued (s : PreprocessorChain) (index : FrameIndex) : Prop :=
  ∃ k, s.Carries k index ∧ (s.framesInPreprocessorChain k).action.isFrame = true

def Available (s : PreprocessorChain) (index : FrameIndex) : Prop :=
  s.Mapped index ∨ s.Queued index

/-- The index is not available, but an action's entry has it, or a place of the
map that has no buffer. -/
def Misleading (s : PreprocessorChain) (index : FrameIndex) : Prop :=
  ¬ s.Available index ∧
    ((∃ k, s.Carries k index ∧ (s.framesInPreprocessorChain k).action.isFrame = false) ∨
      ∃ place ∈ s.indexBufferMap, place.decodeIndex = index ∧ place.bufferIndex = invalidIndex)

/-- The index is nowhere. -/
def Unknown (s : PreprocessorChain) (index : FrameIndex) : Prop :=
  (∀ k, ¬ s.Carries k index) ∧ ∀ place ∈ s.indexBufferMap, place.decodeIndex ≠ index

variable {s : PreprocessorChain} {index : FrameIndex} {lists : List (List FrameIndex)}

theorem inChain_iff : s.inChain index = true ↔ ∃ k, s.Carries k index := by
  unfold inChain Carries
  rw [List.any_eq_true]
  constructor
  · rintro ⟨k, _, hk⟩
    rw [Bool.and_eq_true, beq_iff_eq] at hk
    exact ⟨k, hk⟩
  · rintro ⟨k, hk⟩
    refine ⟨k, List.mem_finRange k, ?_⟩
    rw [Bool.and_eq_true, beq_iff_eq]
    exact hk

theorem isSome_translateDecodeIndex :
    (s.translateDecodeIndex index).isSome = true ↔
      ∃ place ∈ s.indexBufferMap, place.decodeIndex = index := by
  unfold translateDecodeIndex
  rw [Option.isSome_map, List.find?_isSome]
  simp only [beq_iff_eq]

theorem checkReferenceFrameList_iff :
    s.checkReferenceFrameList lists = true ↔
      lists.length ≤ h264NumRefFrameLists ∧ ∀ list ∈ lists, ∀ index ∈ list, ¬ s.Unknown index := by
  have hknown : ∀ index, ¬ s.Unknown index ↔
      (s.inChain index = false → (s.translateDecodeIndex index).isSome = true) := by
    intro index
    rw [isSome_translateDecodeIndex, ← Bool.not_eq_true, inChain_iff]
    unfold Unknown
    constructor
    · intro h hnot
      by_contra hplace
      exact h ⟨fun k hk => hnot ⟨k, hk⟩, fun place hmem he => hplace ⟨place, hmem, he⟩⟩
    · rintro h ⟨hchain, hmap⟩
      obtain ⟨place, hmem, he⟩ := h (by rintro ⟨k, hk⟩; exact hchain k hk)
      exact hmap place hmem he
  unfold checkReferenceFrameList baseCheckReferenceFrameList
  split
  case isTrue h => exact iff_of_false Bool.false_ne_true (by rintro ⟨hle, _⟩; omega)
  case isFalse h =>
    simp only [List.all_eq_true, List.mem_map, forall_exists_index, and_imp,
      forall_apply_eq_imp_iff₂, List.mem_filter, Bool.not_eq_true', hknown]
    exact ⟨fun hall => ⟨by omega, hall⟩, And.right⟩

theorem not_unknown_iff : ¬ s.Unknown index ↔ s.Available index ∨ s.Misleading index := by
  unfold Unknown
  constructor
  · intro h
    by_cases havailable : s.Available index
    · exact .inl havailable
    · refine .inr ⟨havailable, ?_⟩
      by_contra hnot
      push Not at hnot
      refine h ⟨?_, ?_⟩
      · intro k hk
        cases haction : (s.framesInPreprocessorChain k).action.isFrame with
        | true => exact havailable (.inr ⟨k, hk, haction⟩)
        | false => exact hnot.1 k hk haction
      · intro place hmem he
        exact havailable (.inl ⟨place, hmem, he, hnot.2 place hmem he⟩)
  · rintro h ⟨hchain, hmap⟩
    rcases h with (⟨place, hmem, he, _⟩ | ⟨k, hk, _⟩) | ⟨_, ⟨k, hk, _⟩ | ⟨place, hmem, he, _⟩⟩
    · exact hmap place hmem he
    · exact hchain k hk
    · exact hchain k hk
    · exact hmap place hmem he

theorem Misleading.not_available (h : s.Misleading index) : ¬ s.Available index := h.1

/-! ## Runs -/

/-- What happens to the chain. -/
inductive ChainEvent where
  | input (frame : ChainInput)
  | releaseReferenceFrame (referenceFrameDecodeIndex : FrameIndex)
  | outputPartialDecodeBuffers
  | discardQueuedDecodes
  | intermediateProcess (terminating : Bool) (indexBufferMap : List IndexBufferEntry)

def step (s : PreprocessorChain) : ChainEvent → PreprocessorChain
  | .input frame => (s.input frame).2
  | .releaseReferenceFrame index => (s.releaseReferenceFrame index).2
  | .outputPartialDecodeBuffers => s.outputPartialDecodeBuffers.2
  | .discardQueuedDecodes => s.discardQueuedDecodes.2
  | .intermediateProcess terminating map => s.intermediateProcess terminating map

/-- The chain as it is made, over an empty map. -/
def empty (indexBufferMapSize : Nat) : PreprocessorChain where
  framesInPreprocessorChain _ := ⟨false, .null, 0⟩
  framesInPreprocessorChainRing := []
  discardFramesInPreprocessorChain := false
  indexBufferMap := List.replicate indexBufferMapSize ⟨invalidIndex, invalidIndex⟩

/-! ## The order of the ring -/

/-- What waits, the first to come out first. -/
def waiting (s : PreprocessorChain) : List ChainEntry :=
  s.framesInPreprocessorChainRing.map s.framesInPreprocessorChain

/-- A queue that turns away what it has no room for. -/
def enqueue (q : List ChainEntry) (action : ChainAction) (index : FrameIndex) : List ChainEntry :=
  if q.length < h264CodedFrameCount then q ++ [⟨true, action, index⟩] else q

/-- What an event does to the queue. -/
def queued (q : List ChainEntry) : ChainEvent → List ChainEntry
  | .input frame =>
    if !frame.newFrameParameters || frame.decodeFrameIndex == invalidIndex then
      enqueue q .passOnFrame frame.decodeFrameIndex
    else if frame.refused || frame.junked then q
    else enqueue q .passOnPreProcessedFrame frame.decodeFrameIndex
  | .releaseReferenceFrame index => enqueue q .callReleaseReferenceFrame index
  | .outputPartialDecodeBuffers => enqueue q .callOutputPartialDecodeBuffers 0
  | .discardQueuedDecodes => enqueue q .callDiscardQueuedDecodes 0
  | .intermediateProcess _ _ => q.tail

/-- The ring has the entries in use, each once. -/
structure Ringed (s : PreprocessorChain) : Prop where
  nodup : s.framesInPreprocessorChainRing.Nodup
  used : ∀ k, k ∈ s.framesInPreprocessorChainRing ↔ (s.framesInPreprocessorChain k).used = true

theorem map_update {l : List (Fin h264CodedFrameCount)} {i : Fin h264CodedFrameCount} (hi : i ∉ l)
    (entry : ChainEntry) : l.map (Function.update s.framesInPreprocessorChain i entry) =
      l.map s.framesInPreprocessorChain :=
  List.map_congr_left fun _ hk => Function.update_of_ne (ne_of_mem_of_not_mem hk hi) ..

theorem Ringed.unused (h : s.Ringed) :
    (s.unused = none ∧ ¬s.waiting.length < h264CodedFrameCount) ∨
      ∃ i, s.unused = some i ∧ i ∉ s.framesInPreprocessorChainRing ∧
        s.waiting.length < h264CodedFrameCount := by
  unfold waiting
  rw [List.length_map]
  rcases Lib.find?_free (p := fun i => !(s.framesInPreprocessorChain i).used) h.nodup
    (fun i => by simp [h.used i]) with ⟨hnone, hfull⟩ | hsome
  · exact .inl ⟨hnone, hfull.not_lt⟩
  · exact .inr hsome

theorem Ringed.enter (h : s.Ringed) (action : ChainAction) (index : FrameIndex) :
    (s.enter action index).2.Ringed ∧
      (s.enter action index).2.waiting = enqueue s.waiting action index := by
  unfold PreprocessorChain.enter enqueue
  rcases h.unused with ⟨hnone, hfull⟩ | ⟨i, hsome, hi, hroom⟩
  · rw [hnone, if_neg hfull]
    exact ⟨h, rfl⟩
  · rw [hsome, if_pos hroom]
    refine ⟨⟨List.nodup_append_comm.mp (List.nodup_cons.mpr ⟨hi, h.nodup⟩), fun k => ?_⟩, ?_⟩
    · unfold PreprocessorChain.setEntry
      by_cases hk : k = i
      · simp [hk]
      · simp [hk, h.used k]
    · refine (List.map_append ..).trans (congrArg₂ _ (map_update hi _) ?_)
      exact congrArg (fun entry => [entry]) (Function.update_self ..)

theorem Ringed.input (h : s.Ringed) (frame : ChainInput) :
    (s.input frame).2.Ringed ∧ (s.input frame).2.waiting = queued s.waiting (.input frame) := by
  unfold PreprocessorChain.input queued
  dsimp only
  by_cases hpass : (!frame.newFrameParameters || frame.decodeFrameIndex == invalidIndex) = true
  · rw [if_pos hpass, if_pos hpass]
    exact h.enter ..
  rw [if_neg hpass, if_neg hpass]
  cases frame.refused with
  | true => exact ⟨h, rfl⟩
  | false =>
    cases frame.junked with
    | false =>
      simp only [Bool.or_self, Bool.false_eq_true, if_false]
      exact h.enter .passOnPreProcessedFrame frame.decodeFrameIndex
    | true =>
      simp only [Bool.or_true, Bool.false_eq_true, if_false, if_true]
      rcases h.unused with ⟨hnone, _⟩ | ⟨i, hsome, hi, _⟩
      · rw [hnone]
        exact ⟨h, rfl⟩
      · -- What is written is not in use, and its place is not in the ring.
        rw [hsome]
        refine ⟨⟨h.nodup, fun k => ?_⟩, map_update hi _⟩
        by_cases hk : k = i
        · simpa [PreprocessorChain.setEntry, hk] using hi
        · simpa [PreprocessorChain.setEntry, hk] using h.used k

theorem Ringed.intermediateProcess (h : s.Ringed) (terminating : Bool)
    (map : List IndexBufferEntry) : (s.intermediateProcess terminating map).Ringed ∧
      (s.intermediateProcess terminating map).waiting = s.waiting.tail := by
  unfold PreprocessorChain.intermediateProcess waiting
  split
  · next hring =>
    rw [hring]
    exact ⟨h, rfl⟩
  · next i ring hring =>
    rw [hring]
    obtain ⟨hi, hnodup⟩ := List.nodup_cons.mp (hring ▸ h.nodup)
    refine ⟨⟨hnodup, fun k => ?_⟩, map_update hi _⟩
    have hused := h.used k
    rw [hring, List.mem_cons] at hused
    by_cases hk : k = i
    · simpa [PreprocessorChain.setEntry, hk] using hi
    · simpa [PreprocessorChain.setEntry, hk] using hused

theorem Ringed.step (h : s.Ringed) (event : ChainEvent) :
    (s.step event).Ringed ∧ (s.step event).waiting = queued s.waiting event := by
  cases event with
  | input frame => exact h.input frame
  | releaseReferenceFrame index => exact h.enter ..
  | outputPartialDecodeBuffers => exact h.enter ..
  | discardQueuedDecodes =>
    have hentered := h.enter .callDiscardQueuedDecodes 0
    unfold PreprocessorChain.step PreprocessorChain.discardQueuedDecodes
    dsimp only
    generalize s.enter .callDiscardQueuedDecodes 0 = entered at hentered ⊢
    exact ⟨⟨hentered.1.nodup, hentered.1.used⟩, hentered.2⟩
  | intermediateProcess terminating map => exact h.intermediateProcess terminating map

theorem chain_is_a_queue (indexBufferMapSize : Nat) (events : List ChainEvent) :
    (events.foldl step (empty indexBufferMapSize)).waiting = events.foldl queued [] := by
  have h : ∀ (s : PreprocessorChain), s.Ringed →
      (events.foldl step s).waiting = events.foldl queued s.waiting := by
    induction events with
    | nil => intro s _; rfl
    | cons event events ih =>
      intro s hs
      obtain ⟨hs, hwaiting⟩ := hs.step event
      rw [List.foldl_cons, List.foldl_cons, ih _ hs, hwaiting]
  exact h _ ⟨List.nodup_nil, fun k => by simp [empty]⟩

/-! ## Soundness of the check -/

/-- The check is sound, for any table and any lists, exactly where it has
something to refuse or no listed index misleads it. -/
theorem checkReferenceFrameList_sound_iff (s : PreprocessorChain)
    (lists : List (List FrameIndex)) :
    (s.checkReferenceFrameList lists = true →
        ∀ list ∈ lists, ∀ index ∈ list, s.Available index) ↔
      (h264NumRefFrameLists < lists.length ∨ (∃ list ∈ lists, ∃ index ∈ list, s.Unknown index)) ∨
        ∀ list ∈ lists, ∀ index ∈ list, ¬ s.Misleading index := by
  rw [checkReferenceFrameList_iff]
  constructor
  · intro h
    by_cases hrefused :
      h264NumRefFrameLists < lists.length ∨ ∃ list ∈ lists, ∃ index ∈ list, s.Unknown index
    · exact .inl hrefused
    · push Not at hrefused
      refine .inr ?_
      intro list hlist index hindex hmisleads
      exact hmisleads.not_available (h hrefused list hlist index hindex)
  · rintro h ⟨hle, hknown⟩ list hlist index hindex
    rcases h with (hlt | ⟨list', hlist', index', hindex', hunknown⟩) | hnone
    · omega
    · exact absurd hunknown (hknown list' hlist' index' hindex')
    · rcases not_unknown_iff.mp (hknown list hlist index hindex) with havailable | hmisleads
      · exact havailable
      · exact absurd hmisleads (hnone list hlist index hindex)

/-- A reference frame is released before it is asked for: the release is found. -/
theorem release_counts_as_available :
    ((empty 0).releaseReferenceFrame 5).2.checkReferenceFrameList [[5]] = true ∧
      ¬ ((empty 0).releaseReferenceFrame 5).2.Available 5 := by
  have hunused : (empty 0).unused = some 0 := find?_finRange_zero rfl
  have hreleased : ((empty 0).releaseReferenceFrame 5).2 =
      { (empty 0).setEntry 0 ⟨true, .callReleaseReferenceFrame, 5⟩ with
        framesInPreprocessorChainRing := [0] } := by
    unfold releaseReferenceFrame enter
    rw [hunused]
    rfl
  have hentry : ∀ k, (((empty 0).releaseReferenceFrame 5).2.framesInPreprocessorChain k).action =
      .callReleaseReferenceFrame ∨
        (((empty 0).releaseReferenceFrame 5).2.framesInPreprocessorChain k).used = false := by
    intro k
    rw [hreleased]
    by_cases hk : k = 0
    · subst hk
      exact .inl rfl
    · right
      dsimp only [setEntry]
      rw [Function.update_of_ne hk]
      rfl
  refine ⟨?_, ?_⟩
  · rw [checkReferenceFrameList_iff]
    refine ⟨by decide, ?_⟩
    rintro list hlist index hindex ⟨hchain, _⟩
    rw [List.mem_singleton] at hlist
    subst hlist
    rw [List.mem_singleton] at hindex
    subst hindex
    refine hchain 0 ?_
    rw [hreleased]
    exact ⟨rfl, rfl⟩
  · rintro (⟨place, hmem, _⟩ | ⟨k, ⟨hused, _⟩, hframe⟩)
    · rw [hreleased] at hmem
      cases hmem
    · rcases hentry k with haction | hnot
      · rw [haction] at hframe
        cases hframe
      · rw [hnot] at hused
        cases hused

end PreprocessorChain

end Duckbox.Codec
