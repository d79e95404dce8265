import Duckbox.BufferPool.ReferenceInvariant

/-!
# Giving buffers back

A call of `DecrementReferenceCount` returns whatever the counts are, since each
call it makes has cleared an attachment (`decrementReferenceCount_returns`). A
buffer that was only just obtained goes back to its pool when it is dropped, also
when another has been attached to it, which then loses just that reference.
-/

namespace Duckbox.BufferPool.Manager

open Duckbox.Lib

variable {n m : Nat} {poolOf : Fin n → Fin m} {s : Manager n m} {b c : Fin n}

/-! ## Returning -/

variable (poolOf) in
theorem links_decrementCounts (s : Manager n m) (b : Fin n) :
    (s.decrementCounts poolOf b).links = s.links :=
  count_congr fun x => by rw [Balanced.decrementCounts_slot]

theorem foldlM_releaseAttachment_returns {fuel : Nat}
    (ih : ∀ (t : Manager n m) c, t.links < fuel →
      ∃ u, decrementWithin poolOf fuel t c = some u ∧ u.links ≤ t.links)
    (l : List (Fin maxAttachedBuffers)) :
    ∀ s : Manager n m, s.links ≤ fuel →
      ∃ t, l.foldlM (releaseAttachment (decrementWithin poolOf fuel) b) s = some t ∧
        t.links ≤ s.links := by
  induction l with
  | nil => intro s _; exact ⟨s, rfl, Nat.le_refl _⟩
  | cons i l ihl =>
    intro s hs
    have hpass : ∃ t, releaseAttachment (decrementWithin poolOf fuel) b s i = some t ∧
        t.links ≤ s.links := by
      unfold releaseAttachment
      cases hslot : s.slot b i with
      | none => exact ⟨s, rfl, Nat.le_refl _⟩
      | some c =>
        have hclear := links_clear hslot
        obtain ⟨t, ht, hlinks⟩ := ih (s.setSlot b i none) c (by omega)
        exact ⟨t, ht, by omega⟩
    obtain ⟨t, ht, hlinks⟩ := hpass
    obtain ⟨u, hu, hle⟩ := ihl t (by omega)
    refine ⟨u, ?_, by omega⟩
    rw [List.foldlM_cons, ht]
    exact hu

variable (poolOf) in
theorem decrementWithin_returns (fuel : Nat) :
    ∀ (s : Manager n m) (b : Fin n), s.links < fuel →
      ∃ t, decrementWithin poolOf fuel s b = some t ∧ t.links ≤ s.links := by
  induction fuel with
  | zero => intro s b h; omega
  | succ fuel ih =>
    intro s b h
    have hlinks := links_decrementCounts poolOf s b
    unfold decrementWithin
    dsimp only
    split
    · obtain ⟨t, ht, hle⟩ := foldlM_releaseAttachment_returns (b := b) ih (List.finRange _)
        (s.decrementCounts poolOf b) (by omega)
      refine ⟨t.insertFree poolOf b, ?_, ?_⟩
      · unfold releaseBuffer
        rw [ht]
        rfl
      · show t.links ≤ _
        omega
    · exact ⟨_, rfl, by omega⟩

variable (poolOf) in
theorem decrementReferenceCount_returns (s : Manager n m) (b : Fin n) :
    ∃ t, s.decrementReferenceCount poolOf b = some t := by
  obtain ⟨t, ht, -⟩ := decrementWithin_returns poolOf _ s b (Nat.lt_succ_self _)
  exact ⟨t, ht⟩

/-! ## A buffer just obtained -/

/-- Nobody but the caller of `GetBuffer` holds it, and it holds nothing. -/
structure Fresh (s : Manager n m) (b : Fin n) : Prop where
  count : (s.buffers b).referenceCount = 1
  slots : ∀ i, s.slot b i = none

theorem getBuffer_some {p : Fin m} {t : Manager n m} (h : s.getBuffer p = some (b, t)) :
    b ∈ (s.pools p).freeBuffer.entries ∧ t.Fresh b ∧ ∀ c, c ≠ b → t.buffers c = s.buffers c := by
  unfold getBuffer Ring.extract at h
  cases hentries : (s.pools p).freeBuffer.entries with
  | nil =>
    rw [hentries] at h
    exact absurd h (by simp)
  | cons b' rest =>
    rw [hentries] at h
    obtain ⟨rfl, rfl⟩ := Prod.mk.inj (Option.some.inj h)
    refine ⟨List.mem_cons_self, ⟨?_, fun i => ?_⟩, fun c hc => ?_⟩
    · rw [modifyPool_buffers, modifyBuffer_same]
    · unfold slot
      rw [modifyPool_buffers, modifyBuffer_same]
    · rw [modifyPool_buffers, modifyBuffer_other _ _ hc]

theorem foldlM_releaseAttachment_none (decrement : Manager n m → Fin n → Option (Manager n m))
    {l : List (Fin maxAttachedBuffers)} (h : ∀ i, s.slot b i = none) :
    l.foldlM (releaseAttachment decrement b) s = some s := by
  induction l with
  | nil => rfl
  | cons i l ih =>
    rw [List.foldlM_cons]
    unfold releaseAttachment
    rw [h i]
    exact ih

theorem decrementWithin_shared (fuel : Nat) (h : (s.buffers c).referenceCount ≠ 1) :
    decrementWithin poolOf (fuel + 1) s c = some (s.decrementCounts poolOf c) := by
  unfold decrementWithin
  dsimp only
  rw [if_neg]
  rw [Balanced.decrementCounts_referenceCount, if_pos rfl]
  intro hzero
  refine h ?_
  rw [← BitVec.sub_add_cancel (s.buffers c).referenceCount 1, hzero]
  rfl

theorem Fresh.decrementReferenceCount (h : s.Fresh b) :
    s.decrementReferenceCount poolOf b
      = some ((s.decrementCounts poolOf b).insertFree poolOf b) := by
  unfold Manager.decrementReferenceCount decrementWithin
  dsimp only
  rw [if_pos]
  · unfold releaseBuffer
    rw [foldlM_releaseAttachment_none]
    · rfl
    · intro i
      rw [Balanced.decrementCounts_slot]
      exact h.slots i
  · rw [Balanced.decrementCounts_referenceCount, if_pos rfl, h.count]
    rfl

theorem Fresh.released (h : s.Fresh b) {t : Manager n m}
    (ht : s.decrementReferenceCount poolOf b = some t) : (t.buffers b).referenceCount = 0 := by
  rw [h.decrementReferenceCount] at ht
  obtain rfl := Option.some.inj ht
  unfold insertFree
  rw [modifyPool_buffers, Balanced.decrementCounts_referenceCount, if_pos rfl, h.count]
  rfl

theorem Fresh.attachBuffer (h : s.Fresh b) (c : Fin n) :
    s.attachBuffer poolOf b c = (s.setSlot b 0 (some c)).incrementReferenceCount poolOf c := by
  have hfirst : s.firstSlot b none = some 0 := by
    unfold firstSlot
    rw [show List.finRange maxAttachedBuffers = [0, 1, 2, 3] from rfl, List.find?_cons, h.slots 0]
    rfl
  unfold Manager.attachBuffer
  rw [hfirst]

variable (poolOf s) in
theorem attached_slot (b c : Fin n) (i : Fin maxAttachedBuffers) :
    ((s.setSlot b 0 (some c)).incrementReferenceCount poolOf c).slot b i
      = if i = 0 then some c else s.slot b i := by
  rw [Balanced.incrementReferenceCount_slot, slot_setSlot]
  by_cases hi : i = 0
  · rw [if_pos hi, if_pos (by rw [hi])]
  · rw [if_neg hi, if_neg fun h => hi (Prod.mk.inj h).2]

/-- Dropped with a live buffer attached, it is free as well. -/
theorem Fresh.released_attached (h : s.Fresh b) (hne : c ≠ b)
    (hlive : (s.buffers c).referenceCount ≠ 0) {t : Manager n m}
    (ht : (s.attachBuffer poolOf b c).decrementReferenceCount poolOf b = some t) :
    (t.buffers b).referenceCount = 0 := by
  rw [h.attachBuffer] at ht
  have hslot := attached_slot poolOf s b c
  have hcount : ∀ x, (((s.setSlot b 0 (some c)).incrementReferenceCount poolOf c).buffers
      x).referenceCount
        = if x = c then (s.buffers x).referenceCount + 1 else (s.buffers x).referenceCount := by
    intro x
    rw [Balanced.incrementReferenceCount_referenceCount, setSlot_referenceCount]
  generalize (s.setSlot b 0 (some c)).incrementReferenceCount poolOf c = a at ht hslot hcount
  -- the attachment leaves fuel for the call for it
  obtain ⟨fuel, hfuel⟩ : ∃ fuel, a.links = fuel + 1 :=
    ⟨_, (links_clear (show a.slot b 0 = some c by rw [hslot, if_pos rfl])).symm⟩
  have hzero : ((a.decrementCounts poolOf b).buffers b).referenceCount = 0 := by
    rw [Balanced.decrementCounts_referenceCount, if_pos rfl, hcount, if_neg hne.symm, h.count]
    rfl
  have hshared : ((((a.decrementCounts poolOf b).setSlot b 0 none)).buffers c).referenceCount
      ≠ 1 := by
    rw [setSlot_referenceCount, Balanced.decrementCounts_referenceCount, if_neg hne, hcount,
      if_pos rfl]
    intro hone
    refine hlive ?_
    rw [← BitVec.add_sub_cancel (s.buffers c).referenceCount 1, hone]
    rfl
  have hfirst : releaseAttachment (decrementWithin poolOf (fuel + 1)) b
      (a.decrementCounts poolOf b) 0
        = some (((a.decrementCounts poolOf b).setSlot b 0 none).decrementCounts poolOf c) := by
    unfold releaseAttachment
    rw [Balanced.decrementCounts_slot, hslot, if_pos rfl]
    exact decrementWithin_shared _ hshared
  have hrest : ∀ i, (((a.decrementCounts poolOf b).setSlot b 0 none).decrementCounts poolOf
      c).slot b i = none := by
    intro i
    rw [Balanced.decrementCounts_slot, slot_setSlot]
    split
    · rfl
    · next hi =>
      rw [Balanced.decrementCounts_slot, hslot, if_neg fun h0 => hi (by rw [h0])]
      exact h.slots i
  unfold Manager.decrementReferenceCount decrementWithin at ht
  dsimp only at ht
  rw [if_pos hzero, hfuel] at ht
  unfold releaseBuffer at ht
  rw [show List.finRange maxAttachedBuffers = 0 :: [1, 2, 3] from rfl, List.foldlM_cons, hfirst,
    Option.bind_eq_bind, Option.bind_some, foldlM_releaseAttachment_none _ hrest] at ht
  obtain rfl := Option.some.inj ht
  unfold insertFree
  rw [modifyPool_buffers, Balanced.decrementCounts_referenceCount, if_neg hne.symm,
    setSlot_referenceCount]
  exact hzero

end Duckbox.BufferPool.Manager
