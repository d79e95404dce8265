import Duckbox.Player.DecodeToManifest

/-!
# Decode to manifest: the two tables

What a scan of the accumulated buffers finds (`nextDisplayFrame_spec`), and what
a search of the non-decoded frames leaves alone (`searched_check`) and finds: as
long as no hole collapses, it is true of the index of a recorded frame only
(`Quiet.check`).
-/

namespace Duckbox.Player

open Duckbox.Lib

variable {φ : Type} {n : Nat}

/-! ## The scan -/

namespace Stream

variable {s : Stream φ n}

/-- What a scan of some slots found: the frame with the lowest index in them. -/
def Lowest (s : Stream φ n) (slots : List (Fin n)) : Option (Fin n × φ) → Prop
  | none => ∀ i ∈ slots, ∀ f, s.accumulatedBufferTable i = some f →
      s.displayFrameIndex f = invalidIndex
  | some (i, f) => s.accumulatedBufferTable i = some f ∧ s.displayFrameIndex f ≠ invalidIndex ∧
      ∀ j ∈ slots, ∀ g, s.accumulatedBufferTable j = some g →
        s.displayFrameIndex g ≠ invalidIndex → s.displayFrameIndex f ≤ s.displayFrameIndex g

theorem Lowest.lowestOf {slots : List (Fin n)} {lowest : Option (Fin n × φ)}
    (h : s.Lowest slots lowest) (i : Fin n) : s.Lowest (slots ++ [i]) (s.lowestOf lowest i) := by
  have hmem : ∀ j, j ∈ slots ++ [i] → j ∈ slots ∨ j = i := by
    intro j hj
    simpa using hj
  unfold Stream.lowestOf
  cases hi : s.accumulatedBufferTable i with
  | none =>
    cases lowest with
    | none =>
      intro j hj f hf
      rcases hmem j hj with hold | rfl
      · exact h j hold f hf
      · exact absurd (hi.symm.trans hf) (by simp)
    | some low =>
      refine ⟨h.1, h.2.1, fun j hj f hf => ?_⟩
      rcases hmem j hj with hold | rfl
      · exact h.2.2 j hold f hf
      · exact absurd (hi.symm.trans hf) (by simp)
  | some f =>
    simp only
    cases lowest with
    | none =>
      split
      · next hcond =>
        refine ⟨hi, hcond.1, fun j hj g hg hvalid => ?_⟩
        rcases hmem j hj with hold | rfl
        · exact absurd (h j hold g hg) hvalid
        · obtain rfl := Option.some.inj (hi.symm.trans hg)
          exact Nat.le_refl _
      · next hcond =>
        intro j hj g hg
        rcases hmem j hj with hold | rfl
        · exact h j hold g hg
        · obtain rfl := Option.some.inj (hi.symm.trans hg)
          by_contra hvalid
          exact hcond ⟨hvalid, by simp⟩
    | some low =>
      split
      · next hcond =>
        have hlt := hcond.2 low rfl
        refine ⟨hi, hcond.1, fun j hj g hg hvalid => ?_⟩
        rcases hmem j hj with hold | rfl
        · exact Nat.le_of_lt (Nat.lt_of_lt_of_le hlt (h.2.2 j hold g hg hvalid))
        · obtain rfl := Option.some.inj (hi.symm.trans hg)
          exact Nat.le_refl _
      · next hcond =>
        refine ⟨h.1, h.2.1, fun j hj g hg hvalid => ?_⟩
        rcases hmem j hj with hold | rfl
        · exact h.2.2 j hold g hg hvalid
        · obtain rfl := Option.some.inj (hi.symm.trans hg)
          apply Nat.le_of_not_lt
          intro hlt
          exact hcond ⟨hvalid, fun l hl => Option.some.inj hl ▸ hlt⟩

theorem lowest_foldl (rest : List (Fin n)) :
    ∀ {slots : List (Fin n)} {lowest : Option (Fin n × φ)}, s.Lowest slots lowest →
      s.Lowest (slots ++ rest) (rest.foldl s.lowestOf lowest) := by
  induction rest with
  | nil =>
    intro slots lowest h
    rwa [List.append_nil]
  | cons i rest ih =>
    intro slots lowest h
    have hrest := ih (h.lowestOf i)
    rwa [List.append_assoc] at hrest

theorem nextDisplayFrame_spec {direction : PlayDirection} {possibleDecodeBuffers : Nat}
    {i : Fin n} {f : φ}
    (h : s.nextDisplayFrame direction possibleDecodeBuffers = some (i, f)) :
    s.accumulatedBufferTable i = some f ∧ s.displayFrameIndex f ≠ invalidIndex ∧
      (∀ g ∈ contents s.accumulatedBufferTable, s.displayFrameIndex g ≠ invalidIndex →
        s.displayFrameIndex f ≤ s.displayFrameIndex g) ∧
      s.accumulatedBufferTableOccupancy ≠ 0 ∧
      (s.displayFrameIndex f = s.desiredFrameIndex ∨
        maxDecodesOutOfOrder direction possibleDecodeBuffers ≤ s.accumulatedBufferTableOccupancy ∨
        s.collapseHolesInDisplayIndices f = true ∨ s.markerFrameBuffer = true) := by
  unfold nextDisplayFrame at h
  split at h
  · exact absurd h (by simp)
  · next hoccupied =>
    obtain ⟨hlow, hcond⟩ := Option.filter_eq_some_iff.mp h
    have hspec : s.Lowest ([] ++ List.finRange n) s.lowestIndex :=
      lowest_foldl (List.finRange n) (show s.Lowest [] none from fun j hj => absurd hj (by simp))
    rw [hlow] at hspec
    refine ⟨hspec.1, hspec.2.1, fun g hg hvalid => ?_, hoccupied, ?_⟩
    · obtain ⟨j, hj⟩ := mem_contents.mp hg
      exact hspec.2.2 j (by simp) g hj hvalid
    · simpa [or_assoc] using hcond

/-! ## The search -/

/-- All that a search of the non-decoded frames changes. -/
def Searched (s t : Stream φ n) : Prop :=
  ∃ entries removals collapse, t = { s with
    nonDecodedBuffers := entries
    removalsFromNonDecodedBuffers := removals
    displayIndicesCollapse := collapse }

theorem Searched.refl (s : Stream φ n) : Searched s s := ⟨_, _, _, rfl⟩

theorem Searched.trans {t u : Stream φ n} (h : Searched s t) (h' : Searched t u) :
    Searched s u := by
  obtain ⟨_, _, _, rfl⟩ := h
  obtain ⟨entries, removals, collapse, rfl⟩ := h'
  exact ⟨entries, removals, collapse, rfl⟩

theorem searched_checkIndex (s : Stream φ n) (idx : Nat) (i : Fin playerMaxDiscardedFrames)
    (d : Nat) : Searched s (s.checkIndex idx i d).2 := by
  unfold checkIndex
  split
  · exact ⟨_, _, _, rfl⟩
  · exact Searched.refl s

theorem searched_checkEntry (s : Stream φ n) (idx : Nat) (i : Fin playerMaxDiscardedFrames) :
    Searched s (s.checkEntry idx i).2 := by
  unfold checkEntry
  split
  · exact Searched.refl s
  · exact searched_checkIndex s idx i _
  · next f _ =>
    split
    · have hrelease : Searched s (s.releaseNonDecoded i f) := ⟨_, _, _, rfl⟩
      exact hrelease.trans (searched_checkIndex _ idx i _)
    · exact Searched.refl s

theorem searched_checkEntries (idx : Nat) (rest : List (Fin playerMaxDiscardedFrames)) :
    ∀ s : Stream φ n, Searched s (checkEntries idx rest s).2 := by
  induction rest with
  | nil =>
    intro s
    exact Searched.refl s
  | cons i rest ih =>
    intro s
    have hentry := searched_checkEntry s idx i
    unfold checkEntries
    split
    · next t ht =>
      rw [ht] at hentry
      exact hentry
    · next t ht =>
      rw [ht] at hentry
      exact hentry.trans (ih t)

theorem searched_check (s : Stream φ n) (idx : Nat) :
    Searched s (s.checkForNonDecodedFrame idx).2 := by
  unfold checkForNonDecodedFrame
  split
  · exact Searched.refl s
  · exact searched_checkEntries idx _ s

/-- An entry of a frame that was recorded, with its index if it has one. -/
def Records (index : φ → Nat) (recorded : List φ) : NonDecodedBuffer φ → Prop
  | .released d => d ≠ invalidIndex ∧ ∃ f ∈ recorded, index f = d
  | .unreleased f => f ∈ recorded

/-- No hole collapses, and the non-decoded frames were recorded. -/
structure Quiet (s : Stream φ n) (recorded : List φ) : Prop where
  unflagged : ∀ f, s.collapseHolesInDisplayIndices f = false
  parseToDecode : s.discardingUntilMarkerFramePtoD = false
  decodeToManifest : s.discardingUntilMarkerFrameDtoM = false
  collapse : s.displayIndicesCollapse = 0
  entries : ∀ i e, s.nonDecodedBuffers i = some e → Records s.displayFrameIndex recorded e

variable {recorded : List φ}

theorem entries_update {index : φ → Nat}
    {t : Fin playerMaxDiscardedFrames → Option (NonDecodedBuffer φ)}
    (h : ∀ i e, t i = some e → Records index recorded e) (i : Fin playerMaxDiscardedFrames)
    {v : Option (NonDecodedBuffer φ)} (hv : ∀ e, v = some e → Records index recorded e) :
    ∀ j e, Function.update t i v j = some e → Records index recorded e := by
  intro j e he
  by_cases hj : j = i
  · rw [hj, Function.update_self] at he
    exact hv e he
  · rw [Function.update_of_ne hj] at he
    exact h j e he

theorem Quiet.checkIndex (h : s.Quiet recorded) (idx : Nat) (i : Fin playerMaxDiscardedFrames)
    (d : Nat) : (s.checkIndex idx i d).2.Quiet recorded ∧
      ((s.checkIndex idx i d).1 = true → d = idx) := by
  unfold Stream.checkIndex
  split
  · refine ⟨⟨h.unflagged, h.parseToDecode, h.decodeToManifest, h.collapse, ?_⟩, ?_⟩
    · exact entries_update h.entries i (fun e he => absurd he (by simp))
    · exact of_decide_eq_true
  · exact ⟨h, fun hf => absurd hf (by simp)⟩

theorem Quiet.release (h : s.Quiet recorded) (i : Fin playerMaxDiscardedFrames) {f : φ}
    (hf : f ∈ recorded) (hvalid : s.displayFrameIndex f ≠ invalidIndex) :
    (s.releaseNonDecoded i f).Quiet recorded := by
  refine ⟨h.unflagged, h.parseToDecode, h.decodeToManifest, ?_, ?_⟩
  · unfold releaseNonDecoded
    simp only [h.decodeToManifest, h.unflagged f, Bool.or_self, Bool.false_eq_true, if_false]
    exact h.collapse
  · refine entries_update h.entries i fun e he => ?_
    obtain rfl := Option.some.inj he
    exact ⟨hvalid, f, hf, rfl⟩

theorem Quiet.checkEntry (h : s.Quiet recorded) (idx : Nat) (i : Fin playerMaxDiscardedFrames) :
    (s.checkEntry idx i).2.Quiet recorded ∧
      ((s.checkEntry idx i).1 = true →
        idx ≠ invalidIndex ∧ ∃ f ∈ recorded, s.displayFrameIndex f = idx) := by
  unfold Stream.checkEntry
  split
  · exact ⟨h, fun hf => absurd hf (by simp)⟩
  · next d hd =>
    obtain ⟨hquiet, hfound⟩ := h.checkIndex idx i d
    refine ⟨hquiet, fun hf => ?_⟩
    rw [← hfound hf]
    exact h.entries i _ hd
  · next f hf =>
    have hrec : f ∈ recorded := h.entries i _ hf
    split
    · next hvalid =>
      obtain ⟨hquiet, hfound⟩ := (h.release i hrec hvalid).checkIndex idx i
        (s.displayFrameIndex f)
      refine ⟨hquiet, fun htrue => ?_⟩
      rw [← hfound htrue]
      exact ⟨hvalid, f, hrec, rfl⟩
    · exact ⟨h, fun hfalse => absurd hfalse (by simp)⟩

theorem Quiet.checkEntries (idx : Nat) (rest : List (Fin playerMaxDiscardedFrames)) :
    ∀ {s : Stream φ n}, s.Quiet recorded → (checkEntries idx rest s).2.Quiet recorded ∧
      ((checkEntries idx rest s).1 = true →
        idx ≠ invalidIndex ∧ ∃ f ∈ recorded, s.displayFrameIndex f = idx) := by
  induction rest with
  | nil =>
    intro s h
    refine ⟨h, fun htrue => ?_⟩
    have hlt := of_decide_eq_true htrue
    rw [h.collapse] at hlt
    exact absurd hlt (Nat.not_lt_zero _)
  | cons i rest ih =>
    intro s h
    obtain ⟨hquiet, hfound⟩ := h.checkEntry idx i
    have hentry := searched_checkEntry s idx i
    unfold Stream.checkEntries
    split
    · next t ht =>
      rw [ht] at hquiet hfound
      exact ⟨hquiet, fun _ => hfound rfl⟩
    · next t ht =>
      rw [ht] at hquiet hentry
      obtain ⟨_, _, _, rfl⟩ := hentry
      exact ih hquiet

theorem Quiet.check (h : s.Quiet recorded) (idx : Nat) :
    (s.checkForNonDecodedFrame idx).2.Quiet recorded ∧
      ((s.checkForNonDecodedFrame idx).1 = true →
        idx ≠ invalidIndex ∧ ∃ f ∈ recorded, s.displayFrameIndex f = idx) := by
  unfold checkForNonDecodedFrame
  split
  · exact ⟨h, fun hf => absurd hf (by simp)⟩
  · exact Quiet.checkEntries idx _ h

/-! ## The records -/

theorem recordNonDecodedFrame_eq (s : Stream φ n) (f : φ) :
    ∃ entries insertions collapse, s.recordNonDecodedFrame f = { s with
      nonDecodedBuffers := entries
      insertionsIntoNonDecodedBuffers := insertions
      displayIndicesCollapse := collapse } := by
  unfold recordNonDecodedFrame
  split
  · exact ⟨_, _, _, rfl⟩
  · simp only
    split
    · exact ⟨_, _, _, rfl⟩
    · exact ⟨_, _, _, rfl⟩

theorem Quiet.record (h : s.Quiet recorded) (f : φ) :
    (s.recordNonDecodedFrame f).Quiet (f :: recorded) := by
  have hentries : ∀ i e, s.nonDecodedBuffers i = some e →
      Records s.displayFrameIndex (f :: recorded) e := by
    intro i e he
    have hold := h.entries i e he
    cases e with
    | released d =>
      obtain ⟨hd, g, hg, hindex⟩ := hold
      exact ⟨hd, g, List.mem_cons_of_mem f hg, hindex⟩
    | unreleased g => exact List.mem_cons_of_mem f hold
  unfold recordNonDecodedFrame
  split
  · exact ⟨h.unflagged, h.parseToDecode, h.decodeToManifest, h.collapse, hentries⟩
  · next i _ =>
    simp only
    split
    · next hvalid =>
      refine ⟨h.unflagged, h.parseToDecode, h.decodeToManifest, ?_, ?_⟩
      · simp only [h.parseToDecode, h.unflagged f, Bool.or_self, Bool.false_eq_true, if_false]
        exact h.collapse
      · refine entries_update hentries i fun e he => ?_
        obtain rfl := Option.some.inj he
        exact ⟨hvalid, f, List.mem_cons_self, rfl⟩
    · refine ⟨h.unflagged, h.parseToDecode, h.decodeToManifest, h.collapse, ?_⟩
      refine entries_update hentries i fun e he => ?_
      obtain rfl := Option.some.inj he
      exact List.mem_cons_self

end Stream

end Duckbox.Player
