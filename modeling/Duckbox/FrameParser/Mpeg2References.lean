import Duckbox.FrameParser.Video

/-!
# Reference frames of MPEG-2

The list of reference frames of `FrameParser_VideoMpeg2_c` in forward play, and what
the codec is told: the pictures it is to decode, each with the reference frames it
needs, and which of them are released. The releases are called in sequence with the
pictures. A picture has the decode frame index that it is queued under; the first of two
fields goes at once, and the second stands for the frame.

> `references_held`: whatever the pictures say they are and wherever the stream breaks
> off, the codec is told to release nothing that it does not hold, and to decode nothing
> from a frame that it does not hold; and it holds what is in the list.
-/

namespace Duckbox.FrameParser

/-- `StructureEmpty`. -/
abbrev structureEmpty : Nat := 0

/-- What the codec hears, in this order. -/
inductive CodecCall where
  | input (decodeFrameIndex : Nat) (entryIndicies : List Nat) (referenceFrame : Bool)
  | releaseReferenceFrame (decodeFrameIndex : Nat)
  | releaseAll
deriving DecidableEq

/-- What the codec holds after it, if it can do it. -/
def CodecCall.hear (held : List Nat) : CodecCall → Option (List Nat)
  | input i entries referenceFrame =>
    if ∀ x ∈ entries, x ∈ held ∨ x = i then some (if referenceFrame then held ++ [i] else held)
    else none
  | releaseReferenceFrame i => if i ∈ held then some (held.erase i) else none
  | releaseAll => some []

/-- `picture_coding_type` and `picture_structure`, as they are coded. -/
structure Mpeg2Picture where
  codingType : Fin 8
  codedStructure : Fin 4

namespace Mpeg2Picture

variable (p : Mpeg2Picture)

/-- `PictureStructures`. -/
def pictureStructure : Nat := if p.codedStructure = 0 then structureFrame else p.codedStructure

/-- `REFERENCE_FRAMES_NEEDED`, an `unsigned int`. -/
def referenceFramesNeeded : Nat := (p.codingType.val + (2 ^ 32 - 1)) % 2 ^ 32

/-- A slice type other than `SliceTypeB`. -/
def referenceFrame : Bool := p.codingType != 3 && p.codingType != 4

end Mpeg2Picture

/-- The members of `FrameParser_VideoMpeg2_c` that see to the references. -/
structure VideoMpeg2 where
  accumulatedPictureStructure : Nat
  lastFirstFieldWasAnI : Bool
  entryIndicies : List Nat
  nextDecodeFrameIndex : Nat
  calls : List CodecCall

namespace VideoMpeg2

/-- After `Reset`. -/
def reset : VideoMpeg2 := ⟨structureEmpty, false, [], 0, []⟩

variable (s : VideoMpeg2) (p : Mpeg2Picture)

def call (c : CodecCall) : VideoMpeg2 := { s with calls := s.calls ++ [c] }

/-- `FirstDecodeOfFrame`, of `CommitFrameForDecode`. -/
def firstDecodeOfFrame : Bool :=
  s.accumulatedPictureStructure == p.pictureStructure ||
    s.accumulatedPictureStructure == structureEmpty

/-- What `CommitFrameForDecode` leaves of it. -/
def accumulate : VideoMpeg2 :=
  { s with
    accumulatedPictureStructure :=
      if s.firstDecodeOfFrame p && p.pictureStructure != structureFrame then p.pictureStructure
      else structureEmpty }

/-- What `PrepareReferenceFrameList` keeps of a first field. -/
def noteFirstField (first : Bool) : VideoMpeg2 :=
  if p.pictureStructure != structureFrame && first then
    { s with lastFirstFieldWasAnI := p.codingType == 1 }
  else s

/-- `PrepareReferenceFrameList`; `none` are insufficient reference frames. -/
def prepareReferenceFrameList (first : Bool) : Option (List Nat) × VideoMpeg2 :=
  let needed := p.referenceFramesNeeded
  let selfReference :=
    p.pictureStructure != structureFrame && !first && needed == 1 && s.lastFirstFieldWasAnI
  let s := s.noteFirstField p first
  if selfReference then (some [s.nextDecodeFrameIndex], s)
  else if s.entryIndicies.length < needed then (none, s)
  else (some (s.entryIndicies.drop (s.entryIndicies.length - needed)), s)

/-- `ForPlayQueueFrameForDecode`. -/
def queueFrameForDecode (entries : List Nat) : VideoMpeg2 :=
  { s.call (.input s.nextDecodeFrameIndex entries p.referenceFrame) with
    nextDecodeFrameIndex := s.nextDecodeFrameIndex + 1 }

/-- `MAX_REFERENCE_FRAMES_FORWARD_PLAY` are held, and one goes. -/
def releaseOldest : VideoMpeg2 :=
  match s.entryIndicies with
  | x :: y :: rest => { s.call (.releaseReferenceFrame x) with entryIndicies := y :: rest }
  | _ => s

/-- `ForPlayUpdateReferenceFrameList`, for the picture of this index. -/
def updateReferenceFrameList (first : Bool) (i : Nat) : VideoMpeg2 :=
  if !p.referenceFrame then s
  else if p.pictureStructure == structureFrame || !first then
    { s.releaseOldest with entryIndicies := s.releaseOldest.entryIndicies ++ [i] }
  else s.call (.releaseReferenceFrame i)

/-- `CommitFrameForDecode` and `ForPlayProcessFrame`, for the references. -/
def processFrame : VideoMpeg2 :=
  let first := s.firstDecodeOfFrame p
  match (s.accumulate p).prepareReferenceFrameList p first with
  | (none, t) => t
  | (some entries, t) =>
    (t.queueFrameForDecode p entries).updateReferenceFrameList p first t.nextDecodeFrameIndex

/-- A picture, or `none` where the stream is discontinuous: `ResetReferenceFrameList`. -/
def processBuffer : Option Mpeg2Picture → VideoMpeg2
  | some p => s.processFrame p
  | none =>
    { s.call .releaseAll with entryIndicies := [], accumulatedPictureStructure := structureEmpty }

/-- The codec can do what it is told, and then holds these. -/
def Hears (held : List Nat) : Prop := Lib.run CodecCall.hear [] s.calls = some held

/-- It holds what is in the list. -/
structure Inv : Prop where
  hears : s.Hears s.entryIndicies
  below : ∀ x ∈ s.entryIndicies, x < s.nextDecodeFrameIndex
  length_le : s.entryIndicies.length ≤ 2

variable {s p} {held held' : List Nat} {i : Nat} {first : Bool}

theorem Hears.call (h : s.Hears held) {c : CodecCall} (hc : c.hear held = some held') :
    (s.call c).Hears held' :=
  (Lib.run_concat ..).trans (by rw [h]; exact hc)

theorem Inv.prepare (h : s.Inv) (p : Mpeg2Picture) (first : Bool) :
    (s.prepareReferenceFrameList p first).2.Inv ∧
    ∀ l, (s.prepareReferenceFrameList p first).1 = some l → ∀ x ∈ l,
      x ∈ (s.prepareReferenceFrameList p first).2.entryIndicies ∨
        x = (s.prepareReferenceFrameList p first).2.nextDecodeFrameIndex := by
  have hinv : (s.noteFirstField p first).Inv := by
    unfold noteFirstField
    split
    · exact ⟨h.hears, h.below, h.length_le⟩
    · exact h
  unfold prepareReferenceFrameList
  dsimp only
  split_ifs
  · refine ⟨hinv, fun l hl x hx => .inr ?_⟩
    rw [← Option.some.inj hl] at hx
    exact List.mem_singleton.mp hx
  · exact ⟨hinv, fun l hl => by cases hl⟩
  · refine ⟨hinv, fun l hl x hx => .inl ?_⟩
    rw [← Option.some.inj hl] at hx
    exact List.mem_of_mem_drop hx

theorem releaseOldest_hears (h : s.Hears (s.entryIndicies ++ [i]))
    (hlength : s.entryIndicies.length ≤ 2) :
    s.releaseOldest.Hears (s.releaseOldest.entryIndicies ++ [i]) ∧
      s.releaseOldest.entryIndicies.length ≤ 1 ∧
      s.releaseOldest.entryIndicies.Sublist s.entryIndicies := by
  unfold releaseOldest
  split
  · next x y rest hentries =>
    rw [hentries] at h hlength ⊢
    refine ⟨h.call ?_, Nat.le_of_succ_le_succ hlength, List.sublist_cons_self ..⟩
    exact (if_pos (by simp)).trans (by simp)
  · next hshort =>
    refine ⟨h, ?_, List.Sublist.refl _⟩
    match hentries : s.entryIndicies with
    | [] => exact Nat.zero_le 1
    | [x] => exact Nat.le_refl 1
    | x :: y :: rest => exact (hshort x y rest hentries).elim

theorem updateReferenceFrameList_inv
    (hears : s.Hears (if p.referenceFrame then s.entryIndicies ++ [i] else s.entryIndicies))
    (hnext : s.nextDecodeFrameIndex = i + 1) (hbelow : ∀ x ∈ s.entryIndicies, x < i)
    (hlength : s.entryIndicies.length ≤ 2) : (s.updateReferenceFrameList p first i).Inv := by
  have hi : i ∉ s.entryIndicies := fun hi => Nat.lt_irrefl i (hbelow i hi)
  unfold updateReferenceFrameList
  cases hreference : p.referenceFrame with
  | false =>
    rw [hreference] at hears
    exact ⟨hears, fun x hx => hnext ▸ Nat.lt_succ_of_lt (hbelow x hx), hlength⟩
  | true =>
    rw [hreference, if_pos rfl] at hears
    rw [if_neg (by simp)]
    split_ifs
    · obtain ⟨hears, hle, hsub⟩ := releaseOldest_hears hears hlength
      refine ⟨hears, fun x hx => ?_, by simpa using hle⟩
      have hnext' : s.releaseOldest.nextDecodeFrameIndex = i + 1 := by
        rw [← hnext]
        unfold releaseOldest
        split <;> rfl
      rcases List.mem_append.mp hx with hx | hx
      · exact hnext' ▸ Nat.lt_succ_of_lt (hbelow x (hsub.subset hx))
      · exact hnext' ▸ List.mem_singleton.mp hx ▸ Nat.lt_succ_self i
    · -- The index is new, so what is taken out again is the field.
      refine ⟨hears.call ?_, fun x hx => ?_, hlength⟩
      · show (if _ then _ else _) = some s.entryIndicies
        rw [if_pos (by simp), List.erase_append_right _ hi, List.erase_cons_head, List.append_nil]
      · exact hnext ▸ Nat.lt_succ_of_lt (hbelow x hx)

theorem Inv.processFrame (h : s.Inv) : (s.processFrame p).Inv := by
  have hs : (s.accumulate p).Inv := ⟨h.hears, h.below, h.length_le⟩
  obtain ⟨hinv, hentries⟩ := hs.prepare p (s.firstDecodeOfFrame p)
  unfold VideoMpeg2.processFrame
  dsimp only
  split
  · next t ht =>
    rw [ht] at hinv
    exact hinv
  · next entries t ht =>
    rw [ht] at hinv hentries
    refine updateReferenceFrameList_inv (hinv.hears.call ?_) rfl hinv.below hinv.length_le
    exact if_pos (hentries entries rfl)

theorem Inv.processBuffer (h : s.Inv) (p : Option Mpeg2Picture) : (s.processBuffer p).Inv := by
  cases p with
  | some p => exact h.processFrame
  | none => exact ⟨h.hears.call rfl, by simp [VideoMpeg2.processBuffer], Nat.zero_le _⟩

theorem references_held (pictures : List (Option Mpeg2Picture)) :
    (pictures.foldl processBuffer reset).Hears (pictures.foldl processBuffer reset).entryIndicies ∧
      (pictures.foldl processBuffer reset).entryIndicies.length ≤ 2 := by
  have h : (pictures.foldl processBuffer reset).Inv := by
    refine List.foldlRecOn pictures processBuffer ?_ fun s h p _ => h.processBuffer p
    exact ⟨rfl, by simp [reset], Nat.zero_le _⟩
  exact ⟨h.hears, h.length_le⟩

end VideoMpeg2

end Duckbox.FrameParser
