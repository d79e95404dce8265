import Duckbox.BufferPool.ReferenceReturn
import Duckbox.BufferPool.ReferenceRuns

/-!
# Buffers with one owner

A component that never takes a second reference to a buffer owns a set of them.
With fewer buffers than a count can count, all its calls are allowed, and a
buffer that is owned, or attached to one that is live, keeps what is attached to
it (`Retains`).
-/

namespace Duckbox.BufferPool

open Duckbox.Lib

variable {n m : Nat} {poolOf : Fin n → Fin m} {owners : Finset (Fin n)} {s t : Manager n m}
  {a b : Fin n}

/-- The counts are those of one reference to each buffer in a set. -/
structure Owned (poolOf : Fin n → Fin m) (s : Manager n m) (owners : Finset (Fin n)) : Prop where
  inv : Run.Inv poolOf ⟨s, fun b => if b ∈ owners then 1 else 0⟩
  few : 5 * n + 1 < 2 ^ 32

/-- From `s` to `t` live buffers keep what is attached to them, and only `new`
attachments are made. -/
structure Retains (owners : Finset (Fin n)) (new : Fin n → Fin n → Prop) (s t : Manager n m) :
    Prop where
  holds : ∀ {a b}, a ∈ owners ∨ (∃ c, t.Holds c a) → s.Holds a b → t.Holds a b
  sub : ∀ {a b}, t.Holds a b → s.Holds a b ∨ new a b

namespace Owned

/-! ## Room -/

theorem sum_attachments (s : Manager n m) : ∑ b, s.attachments b = s.links := by
  unfold Manager.attachments Manager.links count
  rw [Finset.sum_comm]
  apply Finset.sum_congr rfl
  intro x _
  cases hslot : s.slot x.1 x.2 with
  | none => simp [hslot]
  | some c => simp [hslot]

theorem links_le (s : Manager n m) : s.links ≤ 4 * n := by
  have hle : s.links ≤ ∑ _x : Fin n × Fin maxAttachedBuffers, 1 := by
    refine Finset.sum_le_sum fun x _ => ?_
    split
    · exact Nat.le_refl 1
    · exact Nat.zero_le 1
  rw [← Finset.card_eq_sum_ones, Finset.card_univ, Fintype.card_prod, Fintype.card_fin,
    Fintype.card_fin, show maxAttachedBuffers = 4 from rfl] at hle
  omega

theorem room (h : Owned poolOf s owners) (p : Fin m) :
    Run.Room ⟨s, fun b => if b ∈ owners then 1 else 0⟩ p := by
  have hsum : poolReferences poolOf (Run.refs ⟨s, fun b => if b ∈ owners then 1 else 0⟩) p
      ≤ ∑ b : Fin n, (1 + s.attachments b) := by
    refine Finset.sum_le_sum fun b _ => ?_
    unfold Run.refs
    dsimp only
    by_cases hb : b ∈ owners
    · rw [if_pos hb]
      split <;> omega
    · rw [if_neg hb]
      split <;> omega
  rw [Finset.sum_add_distrib, sum_attachments, ← Finset.card_eq_sum_ones, Finset.card_univ,
    Fintype.card_fin] at hsum
  have hlinks := links_le s
  have hfew := h.few
  unfold Run.Room
  rw [h.inv.toNat.2]
  omega

/-! ## Live buffers -/

theorem live (h : Owned poolOf s owners) (hb : b ∈ owners) :
    (s.buffers b).referenceCount ≠ 0 := by
  rw [ne_eq, h.inv.balanced.referenceCount_eq_zero]
  unfold Run.refs
  dsimp only
  rw [if_pos hb]
  omega

theorem live_of_holds (h : Owned poolOf s owners) (hab : s.Holds a b) :
    (s.buffers b).referenceCount ≠ 0 := by
  rw [ne_eq, h.inv.balanced.referenceCount_eq_zero]
  have hpos := (Manager.attachments_pos_iff s b).mpr ⟨a, hab⟩
  unfold Run.refs
  dsimp only
  omega

theorem live_of_reached (h : Owned poolOf s owners) (ha : a ∈ owners)
    (hab : Relation.ReflTransGen s.Holds a b) : (s.buffers b).referenceCount ≠ 0 := by
  rcases hab.cases_tail with rfl | ⟨c, -, hcb⟩
  · exact h.live ha
  · exact h.live_of_holds hcb

theorem free (h : Owned poolOf s owners) {p : Fin m}
    (hb : b ∈ (s.pools p).freeBuffer.entries) :
    b ∉ owners ∧ (∀ c, ¬ s.Holds c b) ∧ (∀ c, ¬ s.Holds b c) ∧ (s.buffers b).referenceCount = 0 := by
  have hfree := h.inv.balanced.free p b
  have hcount := List.count_pos_iff.mpr hb
  have hrefs : Run.refs ⟨s, fun b => if b ∈ owners then 1 else 0⟩ b = 0 := by
    by_contra hne
    rw [if_neg fun hall => hne hall.2.1] at hfree
    exact Nat.ne_of_gt hcount hfree
  have hzero := (h.inv.balanced.referenceCount_eq_zero b).mpr hrefs
  refine ⟨fun hb => h.live hb hzero, fun c hc => h.live_of_holds hc hzero, ?_, hzero⟩
  rintro c ⟨i, hi⟩
  rw [h.inv.balanced.dead b hrefs List.not_mem_nil i] at hi
  exact nomatch hi

/-! ## Calls -/

private theorem update_one (owners : Finset (Fin n)) (b : Fin n) :
    Function.update (fun c => if c ∈ owners then 1 else 0) b 1
      = fun c => if c ∈ insert b owners then 1 else 0 := by
  funext c
  by_cases hc : c = b
  · rw [hc, Function.update_self, if_pos (Finset.mem_insert_self _ _)]
  · rw [Function.update_of_ne hc]
    exact if_congr (by simp [hc]) rfl rfl

private theorem update_zero (owners : Finset (Fin n)) (b : Fin n) :
    Function.update (fun c => if c ∈ owners then 1 else 0) b 0
      = fun c => if c ∈ owners.erase b then 1 else 0 := by
  funext c
  by_cases hc : c = b
  · rw [hc, Function.update_self, if_neg (Finset.notMem_erase _ _)]
  · rw [Function.update_of_ne hc]
    exact if_congr (by simp [hc]) rfl rfl

theorem getBuffer (h : Owned poolOf s owners) {p : Fin m} (hget : s.getBuffer p = some (b, t)) :
    b ∉ owners ∧ Owned poolOf t (insert b owners) ∧
      Retains (insert b owners) (fun _ _ => False) s t ∧ (∀ c, ¬ t.Holds c b) ∧ t.Fresh b := by
  obtain ⟨hring, hfresh, hothers⟩ := Manager.getBuffer_some hget
  obtain ⟨hnot, hunheld, hholds, -⟩ := h.free hring
  have hslots : ∀ c, c ≠ b → ∀ i, t.slot c i = s.slot c i := by
    intro c hc i
    unfold Manager.slot
    rw [hothers c hc]
  have hsub : ∀ {a c}, t.Holds a c → s.Holds a c := by
    rintro a c ⟨i, hi⟩
    have hne : a ≠ b := by
      rintro rfl
      exact nomatch (hfresh.slots i).symm.trans hi
    exact ⟨i, (hslots a hne i).symm.trans hi⟩
  refine ⟨hnot, ⟨?_, h.few⟩, ⟨?_, fun hac => .inl (hsub hac)⟩, fun c hc => hunheld c (hsub hc),
    hfresh⟩
  · have hinv := h.inv.getBuffer (h.room p) hget
    dsimp only at hinv
    rw [if_neg hnot, Nat.zero_add, update_one] at hinv
    exact hinv
  · intro a c _ hac
    have hne : a ≠ b := by
      rintro rfl
      exact hholds c hac
    obtain ⟨i, hi⟩ := hac
    exact ⟨i, (hslots a hne i).trans hi⟩

theorem decrementReferenceCount (h : Owned poolOf s owners) (hb : b ∈ owners)
    (hdrop : s.decrementReferenceCount poolOf b = some t) :
    Owned poolOf t (owners.erase b) ∧ Retains (owners.erase b) (fun _ _ => False) s t := by
  obtain ⟨t', ht', hinv, hdrops⟩ := h.inv.decrementReferenceCount (b := b) (by
    dsimp only
    rw [if_pos hb]
    exact Nat.one_pos)
  obtain rfl : t' = t := Option.some.inj (ht'.symm.trans hdrop)
  dsimp only at hinv hdrops
  rw [if_pos hb, update_zero] at hinv hdrops
  refine ⟨⟨hinv, h.few⟩, ?_, fun hac => .inl (Run.holds_of_drops hdrops _ _ hac)⟩
  rintro a c ha ⟨i, hi⟩
  refine ⟨i, (hdrops.keep a (.inr ?_) i).trans hi⟩
  rcases ha with ha | ha
  · rw [if_pos ha]
    omega
  · have hpos := (Manager.attachments_pos_iff t' a).mpr ha
    omega

theorem attachBuffer (h : Owned poolOf s owners) (ha : a ∈ owners)
    (hb : (s.buffers b).referenceCount ≠ 0) (hne : b ≠ a) (hunheld : ∀ c, ¬ s.Holds c a) :
    Owned poolOf (s.attachBuffer poolOf a b) owners ∧
      Retains owners (fun c d => c = a ∧ d = b) s (s.attachBuffer poolOf a b) ∧
      ((∀ i, s.slot a i = none) → (s.attachBuffer poolOf a b).Holds a b) := by
  have hcircle : ¬ Relation.ReflTransGen s.Holds b a := by
    intro hpath
    rcases hpath.cases_tail with heq | ⟨c, -, hca⟩
    · exact hne heq.symm
    · exact hunheld c hca
  refine ⟨⟨h.inv.attachBuffer ⟨h.live ha, hb, hcircle, h.room _⟩, h.few⟩, ?_, ?_⟩
  · unfold Manager.attachBuffer
    split
    · exact ⟨fun _ hab => hab, fun hab => .inl hab⟩
    · next i hfirst =>
      have hnone := Manager.firstSlot_some hfirst
      refine ⟨?_, ?_⟩
      · rintro c d - ⟨j, hj⟩
        refine ⟨j, ?_⟩
        rw [Balanced.incrementReferenceCount_slot, Manager.slot_setSlot, if_neg]
        · exact hj
        · intro heq
          rw [(Prod.mk.inj heq).1, (Prod.mk.inj heq).2, hnone] at hj
          exact nomatch hj
      · rintro c d ⟨j, hj⟩
        rw [Balanced.incrementReferenceCount_slot, Manager.slot_setSlot] at hj
        split at hj
        · next heq => exact .inr ⟨(Prod.mk.inj heq).1, (Option.some.inj hj).symm⟩
        · exact .inl ⟨j, hj⟩
  · intro hslots
    unfold Manager.attachBuffer
    cases hfirst : s.firstSlot a none with
    | none =>
      unfold Manager.firstSlot at hfirst
      have hall := List.find?_eq_none.mp hfirst 0 (List.mem_finRange 0)
      rw [hslots 0] at hall
      exact absurd rfl hall
    | some i =>
      refine ⟨i, ?_⟩
      rw [Balanced.incrementReferenceCount_slot, Manager.slot_setSlot, if_pos rfl]

end Owned

end Duckbox.BufferPool
