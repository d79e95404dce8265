import Duckbox.BufferPool.ReferenceCounting

/-!
# What the reference counts count

A reference to a buffer is one that a user of the buffers holds, or an
attachment of the buffer. `Balanced s refs releasing` says that the counts of
`s` are those of `refs` references, where the buffers in `releasing` have none
left and are not free yet: their attached buffers are being dropped, the last
one's first.

> Dropping a reference leaves a balanced manager, whatever it releases
> (`decrementWithin_balanced`); the calls end because each one after the first
> has cleared an attachment.
-/

namespace Duckbox.BufferPool

open Duckbox.Lib

variable {n m : Nat} {poolOf : Fin n → Fin m}

/-! ## Reading a manager -/

namespace Manager

@[simp] theorem modifyBuffer_pools (s : Manager n m) (b : Fin n) (f : Buffer n → Buffer n) :
    (s.modifyBuffer b f).pools = s.pools := rfl

@[simp] theorem modifyPool_buffers (s : Manager n m) (p : Fin m) (f : Pool n → Pool n) :
    (s.modifyPool p f).buffers = s.buffers := rfl

@[simp] theorem modifyBuffer_same (s : Manager n m) (b : Fin n) (f : Buffer n → Buffer n) :
    (s.modifyBuffer b f).buffers b = f (s.buffers b) := Function.update_self ..

theorem modifyBuffer_other (s : Manager n m) {b c : Fin n} (f : Buffer n → Buffer n) (h : c ≠ b) :
    (s.modifyBuffer b f).buffers c = s.buffers c := Function.update_of_ne h ..

@[simp] theorem modifyPool_same (s : Manager n m) (p : Fin m) (f : Pool n → Pool n) :
    (s.modifyPool p f).pools p = f (s.pools p) := Function.update_self ..

theorem modifyPool_other (s : Manager n m) {p q : Fin m} (f : Pool n → Pool n) (h : q ≠ p) :
    (s.modifyPool p f).pools q = s.pools q := Function.update_of_ne h ..

theorem slot_setSlot (s : Manager n m) (a c : Fin n) (i j : Fin maxAttachedBuffers)
    (v : Option (Fin n)) :
    (s.setSlot a i v).slot c j = if (c, j) = (a, i) then v else s.slot c j := by
  unfold slot setSlot
  by_cases hc : c = a
  · subst hc
    by_cases hj : j = i
    · subst hj
      simp
    · simp [hj]
  · rw [modifyBuffer_other s _ hc, if_neg (fun h => hc (congrArg Prod.fst h))]

theorem setSlot_referenceCount (s : Manager n m) (a c : Fin n) (i : Fin maxAttachedBuffers)
    (v : Option (Fin n)) :
    ((s.setSlot a i v).buffers c).referenceCount = (s.buffers c).referenceCount := by
  unfold setSlot
  by_cases hc : c = a
  · subst hc
    rw [modifyBuffer_same]
  · rw [modifyBuffer_other s _ hc]

@[simp] theorem setSlot_pools (s : Manager n m) (a : Fin n) (i : Fin maxAttachedBuffers)
    (v : Option (Fin n)) : (s.setSlot a i v).pools = s.pools := rfl

variable {i : Fin maxAttachedBuffers}

theorem firstSlot_some {s : Manager n m} {b : Fin n} {v : Option (Fin n)}
    (h : s.firstSlot b v = some i) : s.slot b i = v := by
  unfold firstSlot at h
  have hslot := List.find?_some h
  exact beq_iff_eq.mp hslot

/-- How many attachments of a buffer there are. -/
def attachments (s : Manager n m) (b : Fin n) : Nat :=
  count fun x : Fin n × Fin maxAttachedBuffers => s.slot x.1 x.2 = some b

theorem attachments_clear {s : Manager n m} {a c : Fin n} (h : s.slot a i = some c) (x : Fin n) :
    (s.setSlot a i none).attachments x + (if x = c then 1 else 0) = s.attachments x := by
  have hchange := count_change
    (q := fun y : Fin n × Fin maxAttachedBuffers => s.slot y.1 y.2 = some x)
    (r := fun y => (s.setSlot a i none).slot y.1 y.2 = some x) (x := (a, i)) (by
      intro y hy
      rw [slot_setSlot, if_neg hy])
  simp only [slot_setSlot, if_true, h, Option.some.injEq, reduceCtorEq, if_false,
    Nat.add_zero] at hchange
  unfold attachments
  simp only [slot_setSlot]
  simp only [eq_comm (a := x) (b := c)]
  exact hchange

theorem links_clear {s : Manager n m} {a c : Fin n} (h : s.slot a i = some c) :
    (s.setSlot a i none).links + 1 = s.links := by
  have hchange := count_change
    (q := fun y : Fin n × Fin maxAttachedBuffers => s.slot y.1 y.2 ≠ none)
    (r := fun y => (s.setSlot a i none).slot y.1 y.2 ≠ none) (x := (a, i)) (by
      intro y hy
      rw [slot_setSlot, if_neg hy])
  simp only [slot_setSlot, if_true, h, ne_eq, reduceCtorEq, not_false_eq_true, not_true_eq_false,
    if_false, Nat.add_zero] at hchange
  unfold links
  simp only [slot_setSlot, ne_eq]
  exact hchange

end Manager

/-! ## Balance -/

/-- The references to the buffers of a pool. -/
def poolReferences (poolOf : Fin n → Fin m) (refs : Fin n → Nat) (p : Fin m) : Nat :=
  ∑ b, if poolOf b = p then refs b else 0

/-- The counts are those of `refs`, free buffers are in their pool's ring once,
and buffers without a reference hold none; those in `releasing` have lost their
last reference, may hold some, and are not free yet. -/
structure Balanced (poolOf : Fin n → Fin m) (s : Manager n m) (refs : Fin n → Nat)
    (releasing : List (Fin n)) : Prop where
  count : ∀ b, (s.buffers b).referenceCount = BitVec.ofNat 32 (refs b)
  pool : ∀ p, (s.pools p).referenceCount = BitVec.ofNat 32 (poolReferences poolOf refs p)
  bound : ∀ p, poolReferences poolOf refs p < 2 ^ 32
  referenced : ∀ p, (s.pools p).countOfReferencedBuffers
    = BitVec.ofNat 32 (Lib.count fun b => poolOf b = p ∧ (refs b ≠ 0 ∨ b ∈ releasing))
  limit : ∀ p, (s.pools p).freeBuffer.limit = Lib.count (poolOf · = p) + 1
  free : ∀ p b, (s.pools p).freeBuffer.entries.count b
    = if poolOf b = p ∧ refs b = 0 ∧ b ∉ releasing then 1 else 0
  dead : ∀ b, refs b = 0 → b ∉ releasing → ∀ i, s.slot b i = none
  zero : ∀ b ∈ releasing, refs b = 0

namespace Balanced

variable {s : Manager n m} {refs refs' : Fin n → Nat} {releasing : List (Fin n)} {b : Fin n}

theorem refs_le (refs : Fin n → Nat) (b : Fin n) :
    refs b ≤ poolReferences poolOf refs (poolOf b) := by
  have hle := Finset.single_le_sum (f := fun c => if poolOf c = poolOf b then refs c else 0)
    (fun c _ => Nat.zero_le _) (Finset.mem_univ b)
  simp only [if_true] at hle
  exact hle

theorem referenceCount_eq_zero (hs : Balanced poolOf s refs releasing) (b : Fin n) :
    (s.buffers b).referenceCount = 0 ↔ refs b = 0 := by
  have hlt : refs b < 2 ^ 32 := Nat.lt_of_le_of_lt (refs_le refs b) (hs.bound (poolOf b))
  rw [hs.count]
  constructor
  · intro h
    have hnat := congrArg BitVec.toNat h
    rw [BitVec.toNat_ofNat, Nat.mod_eq_of_lt hlt] at hnat
    exact hnat
  · intro h
    rw [h]
    rfl

private theorem ofNat_pred {k l : Nat} (h : k = l + 1) :
    BitVec.ofNat 32 k - 1 = BitVec.ofNat 32 l := by
  rw [h, BitVec.ofNat_add]
  exact BitVec.add_sub_cancel _ _

theorem poolReferences_pred (poolOf : Fin n → Fin m) (hother : ∀ c, c ≠ b → refs' c = refs c) (hb : refs b = refs' b + 1)
    (p : Fin m) :
    poolReferences poolOf refs p
      = poolReferences poolOf refs' p + if poolOf b = p then 1 else 0 := by
  have hchange := sum_change
    (f := fun c => if poolOf c = p then refs c else 0)
    (g := fun c => if poolOf c = p then refs' c else 0) (x := b) (by
      intro c hc
      rw [hother c hc])
  unfold poolReferences
  by_cases hp : poolOf b = p
  · simp only [hp, if_true] at hchange ⊢
    omega
  · simp only [hp, if_false] at hchange ⊢
    omega

theorem clear (hs : Balanced poolOf s refs releasing) (a : Fin n) (i : Fin maxAttachedBuffers) :
    Balanced poolOf (s.setSlot a i none) refs releasing := by
  refine ⟨?_, hs.pool, hs.bound, hs.referenced, hs.limit, hs.free, ?_, hs.zero⟩
  · intro b
    rw [Manager.setSlot_referenceCount]
    exact hs.count b
  · intro b hb hnot j
    rw [Manager.slot_setSlot]
    split
    · rfl
    · exact hs.dead b hb hnot j

theorem recount {s' : Manager n m} {releasing' : List (Fin n)}
    (hs : Balanced poolOf s refs releasing)
    (hcount : ∀ c, (s'.buffers c).referenceCount = BitVec.ofNat 32 (refs' c))
    (hpool : ∀ p, (s'.pools p).referenceCount = BitVec.ofNat 32 (poolReferences poolOf refs' p))
    (hbound : ∀ p, poolReferences poolOf refs' p < 2 ^ 32)
    (hkept : ∀ p, (s'.pools p).countOfReferencedBuffers = (s.pools p).countOfReferencedBuffers ∧
      (s'.pools p).freeBuffer = (s.pools p).freeBuffer)
    (hslots : ∀ c i, s'.slot c i = s.slot c i)
    (hbusy : ∀ c, (refs' c ≠ 0 ∨ c ∈ releasing') ↔ (refs c ≠ 0 ∨ c ∈ releasing))
    (hzero : ∀ c ∈ releasing', refs' c = 0) : Balanced poolOf s' refs' releasing' := by
  have hidle : ∀ c, (refs' c = 0 ∧ c ∉ releasing') ↔ (refs c = 0 ∧ c ∉ releasing) := by
    intro c
    have h := not_congr (hbusy c)
    rw [not_or, not_or, not_not, not_not] at h
    exact h
  refine ⟨hcount, hpool, hbound, ?_, ?_, ?_, ?_, hzero⟩
  · intro p
    rw [(hkept p).1, hs.referenced]
    exact congrArg _ (count_congr fun c => and_congr Iff.rfl (hbusy c).symm)
  · intro p
    rw [(hkept p).2]
    exact hs.limit p
  · intro p c
    rw [(hkept p).2, hs.free]
    exact if_congr (and_congr Iff.rfl (hidle c).symm) rfl rfl
  · intro c hc hout i
    obtain ⟨hzero, hout⟩ := (hidle c).mp ⟨hc, hout⟩
    rw [hslots]
    exact hs.dead c hzero hout i

private theorem moved (s : Manager n m) (p : Fin m) (b : Fin n) (f : UnsignedInt → UnsignedInt) :
    let t := (s.modifyPool p fun x => { x with referenceCount := f x.referenceCount }).modifyBuffer
      b fun x => { x with referenceCount := f x.referenceCount }
    (∀ c, (t.buffers c).referenceCount
        = if c = b then f (s.buffers c).referenceCount else (s.buffers c).referenceCount) ∧
      (∀ q, (t.pools q).referenceCount
        = if q = p then f (s.pools q).referenceCount else (s.pools q).referenceCount) ∧
      (∀ q, (t.pools q).countOfReferencedBuffers = (s.pools q).countOfReferencedBuffers ∧
        (t.pools q).freeBuffer = (s.pools q).freeBuffer) ∧
      ∀ c i, t.slot c i = s.slot c i := by
  refine ⟨?_, ?_, ?_, ?_⟩
  · intro c
    by_cases hc : c = b
    · rw [if_pos hc, hc, Manager.modifyBuffer_same]
      rfl
    · rw [if_neg hc, Manager.modifyBuffer_other _ _ hc]
      rfl
  · intro q
    rw [Manager.modifyBuffer_pools]
    by_cases hq : q = p
    · rw [if_pos hq, hq, Manager.modifyPool_same]
    · rw [if_neg hq, Manager.modifyPool_other s _ hq]
  · intro q
    rw [Manager.modifyBuffer_pools]
    by_cases hq : q = p
    · rw [hq, Manager.modifyPool_same]
      exact ⟨rfl, rfl⟩
    · rw [Manager.modifyPool_other s _ hq]
      exact ⟨rfl, rfl⟩
  · intro c i
    unfold Manager.slot
    by_cases hc : c = b
    · rw [hc, Manager.modifyBuffer_same]
      rfl
    · rw [Manager.modifyBuffer_other _ _ hc]
      rfl

theorem decrementCounts_slot (s : Manager n m) (b c : Fin n) (i : Fin maxAttachedBuffers) :
    (s.decrementCounts poolOf b).slot c i = s.slot c i :=
  (moved s (poolOf b) b (· - 1)).2.2.2 c i

theorem decrementCounts_referenceCount (s : Manager n m) (b c : Fin n) :
    ((s.decrementCounts poolOf b).buffers c).referenceCount
      = if c = b then (s.buffers c).referenceCount - 1 else (s.buffers c).referenceCount :=
  (moved s (poolOf b) b (· - 1)).1 c

theorem incrementReferenceCount_referenceCount (poolOf : Fin n → Fin m) (s : Manager n m)
    (b c : Fin n) :
    ((s.incrementReferenceCount poolOf b).buffers c).referenceCount
      = if c = b then (s.buffers c).referenceCount + 1 else (s.buffers c).referenceCount :=
  (moved s (poolOf b) b (· + 1)).1 c

theorem incrementReferenceCount_slot (poolOf : Fin n → Fin m) (s : Manager n m) (b c : Fin n)
    (i : Fin maxAttachedBuffers) :
    (s.incrementReferenceCount poolOf b).slot c i = s.slot c i :=
  (moved s (poolOf b) b (· + 1)).2.2.2 c i

theorem incrementReferenceCount_counts (poolOf : Fin n → Fin m) (s : Manager n m) (b : Fin n) :
    ((s.incrementReferenceCount poolOf b).buffers b).referenceCount
        = (s.buffers b).referenceCount + 1 ∧
      ∀ p, ((s.incrementReferenceCount poolOf b).pools p).freeBuffer = (s.pools p).freeBuffer := by
  obtain ⟨hbuffers, _, hkept, _⟩ := moved s (poolOf b) b (· + 1)
  exact ⟨(hbuffers b).trans (if_pos rfl), fun p => (hkept p).2⟩

/-- Taking one off the counts of a buffer: its last reference begins its release. -/
theorem decrementCounts (hs : Balanced poolOf s refs releasing)
    (hother : ∀ c, c ≠ b → refs' c = refs c) (hb : refs b = refs' b + 1) :
    Balanced poolOf (s.decrementCounts poolOf b) refs'
      (if refs' b = 0 then b :: releasing else releasing) := by
  obtain ⟨hcount, hpool, hkept, hslots⟩ := moved s (poolOf b) b (· - 1)
  have hpred := poolReferences_pred poolOf hother hb
  have hnot : b ∉ releasing := fun h => by
    have hzero := hs.zero b h
    omega
  refine hs.recount ?_ ?_ ?_ hkept hslots ?_ ?_
  · intro c
    refine (hcount c).trans ?_
    rw [hs.count]
    by_cases hc : c = b
    · rw [if_pos hc, hc]
      exact ofNat_pred hb
    · rw [if_neg hc, hother c hc]
  · intro p
    refine (hpool p).trans ?_
    rw [hs.pool, hpred]
    by_cases hp : p = poolOf b
    · rw [if_pos hp, if_pos hp.symm]
      exact ofNat_pred rfl
    · rw [if_neg hp, if_neg (fun h => hp h.symm), Nat.add_zero]
  · intro p
    have hbound := hs.bound p
    rw [hpred] at hbound
    omega
  · intro c
    by_cases hc : c = b
    · subst hc
      refine iff_of_true ?_ (.inl (by omega))
      by_cases hzero : refs' c = 0
      · rw [if_pos hzero]
        exact .inr List.mem_cons_self
      · exact .inl hzero
    · rw [hother c hc]
      refine or_congr Iff.rfl ?_
      split
      · simp [hc]
      · rfl
  · intro c hc
    have hold : c ∈ releasing → refs' c = 0 := by
      intro hmem
      rw [hother c fun h => hnot (h ▸ hmem)]
      exact hs.zero c hmem
    split at hc
    · next hzero =>
      rcases List.mem_cons.mp hc with rfl | hmem
      · exact hzero
      · exact hold hmem
    · exact hold hc

theorem incrementReferenceCount (hs : Balanced poolOf s refs releasing) (hlive : refs b ≠ 0)
    (hother : ∀ c, c ≠ b → refs' c = refs c) (hb : refs' b = refs b + 1)
    (hroom : poolReferences poolOf refs (poolOf b) + 1 < 2 ^ 32) :
    Balanced poolOf (s.incrementReferenceCount poolOf b) refs' releasing := by
  obtain ⟨hcount, hpool, hkept, hslots⟩ := moved s (poolOf b) b (· + 1)
  have hsucc := poolReferences_pred poolOf (fun c hc => (hother c hc).symm) hb
  refine hs.recount ?_ ?_ ?_ hkept hslots ?_ ?_
  · intro c
    refine (hcount c).trans ?_
    rw [hs.count]
    by_cases hc : c = b
    · rw [if_pos hc, hc, hb]
      exact (BitVec.ofNat_add _ _).symm
    · rw [if_neg hc, hother c hc]
  · intro p
    refine (hpool p).trans ?_
    rw [hs.pool, hsucc]
    by_cases hp : p = poolOf b
    · rw [if_pos hp, if_pos hp.symm]
      exact (BitVec.ofNat_add _ _).symm
    · rw [if_neg hp, if_neg (fun h => hp h.symm), Nat.add_zero]
  · intro p
    rw [hsucc]
    by_cases hp : poolOf b = p
    · rw [if_pos hp, ← hp]
      exact hroom
    · rw [if_neg hp, Nat.add_zero]
      exact hs.bound p
  · intro c
    by_cases hc : c = b
    · subst hc
      exact iff_of_true (.inl (by omega)) (.inl hlive)
    · rw [hother c hc]
  · intro c hc
    rw [hother c fun h => hlive (h ▸ hs.zero c hc)]
    exact hs.zero c hc

theorem ring_not_full (hs : Balanced poolOf s refs (b :: releasing)) :
    (s.pools (poolOf b)).freeBuffer.entries.length + 1
      ≠ (s.pools (poolOf b)).freeBuffer.limit := by
  have hlength : (s.pools (poolOf b)).freeBuffer.entries.length
      = Lib.count fun c => poolOf c = poolOf b ∧ refs c = 0 ∧ c ∉ b :: releasing := by
    rw [length_eq_sum_count]
    exact Finset.sum_congr rfl fun c _ => hs.free (poolOf b) c
  have hlt : (Lib.count fun c => poolOf c = poolOf b ∧ refs c = 0 ∧ c ∉ b :: releasing)
      < Lib.count (poolOf · = poolOf b) :=
    count_lt (fun c hc => hc.1) rfl fun hc => hc.2.2 List.mem_cons_self
  rw [hlength, hs.limit]
  omega

theorem insertFree (hs : Balanced poolOf s refs (b :: releasing)) (hnot : b ∉ releasing)
    (hslots : ∀ i, s.slot b i = none) :
    Balanced poolOf (s.insertFree poolOf b) refs releasing := by
  have hzero := hs.zero b List.mem_cons_self
  refine ⟨hs.count, ?_, hs.bound, ?_, ?_, ?_, ?_, ?_⟩
  · intro p
    unfold Manager.insertFree
    by_cases hp : p = poolOf b
    · subst hp
      rw [Manager.modifyPool_same]
      exact hs.pool _
    · rw [Manager.modifyPool_other s _ hp]
      exact hs.pool p
  · intro p
    have hchange := count_change
      (q := fun c => poolOf c = p ∧ (refs c ≠ 0 ∨ c ∈ b :: releasing))
      (r := fun c => poolOf c = p ∧ (refs c ≠ 0 ∨ c ∈ releasing)) (x := b) (by
        intro c hc
        simp [hc])
    simp only [hzero, hnot, ne_eq, not_true_eq_false, or_false, List.mem_cons_self, or_true,
      and_true, and_false, if_false, Nat.add_zero] at hchange
    unfold Manager.insertFree
    by_cases hp : p = poolOf b
    · subst hp
      rw [Manager.modifyPool_same]
      show (s.pools (poolOf b)).countOfReferencedBuffers - 1 = _
      rw [hs.referenced]
      apply ofNat_pred
      rw [if_pos rfl] at hchange
      exact hchange.symm
    · rw [Manager.modifyPool_other s _ hp, hs.referenced]
      rw [if_neg (fun h => hp h.symm), Nat.add_zero] at hchange
      exact congrArg _ hchange.symm
  · intro p
    unfold Manager.insertFree
    by_cases hp : p = poolOf b
    · subst hp
      rw [Manager.modifyPool_same]
      unfold Ring.insert
      rw [if_neg hs.ring_not_full]
      exact hs.limit _
    · rw [Manager.modifyPool_other s _ hp]
      exact hs.limit p
  · intro p c
    have hcount : ((s.insertFree poolOf b).pools p).freeBuffer.entries.count c
        = (s.pools p).freeBuffer.entries.count c + if p = poolOf b ∧ c = b then 1 else 0 := by
      unfold Manager.insertFree
      by_cases hp : p = poolOf b
      · subst hp
        rw [Manager.modifyPool_same]
        unfold Ring.insert
        rw [if_neg hs.ring_not_full]
        show (_ ++ [b]).count c = _
        rw [List.count_append, List.count_singleton]
        by_cases hc : c = b
        · simp [hc]
        · simp [hc, Ne.symm hc]
      · rw [Manager.modifyPool_other s _ hp, if_neg (fun h => hp h.1), Nat.add_zero]
    rw [hcount, hs.free]
    by_cases hc : c = b
    · subst hc
      by_cases hp : p = poolOf c
      · simp [hp, hzero, hnot]
      · simp [hp, Ne.symm hp]
    · simp [hc]
  · intro c hc hout i
    by_cases hcb : c = b
    · rw [hcb]
      exact hslots i
    · exact hs.dead c hc (by simp [hcb, hout]) i
  · intro c hc
    exact hs.zero c (List.mem_cons_of_mem b hc)

end Balanced

/-! ## Dropping a reference -/

/-- From `s` to `t` attachments were only cleared, and none of a kept buffer or of
one that is referenced afterwards. -/
structure Drops (external : Fin n → Nat) (kept : List (Fin n)) (s t : Manager n m) : Prop where
  sub : ∀ c i, t.slot c i = s.slot c i ∨ t.slot c i = none
  keep : ∀ c, c ∈ kept ∨ external c + t.attachments c ≠ 0 → ∀ i, t.slot c i = s.slot c i

namespace Drops

variable {external : Fin n → Nat} {kept : List (Fin n)} {s t u : Manager n m}

theorem refl (s : Manager n m) : Drops external kept s s :=
  ⟨fun _ _ => .inl rfl, fun _ _ _ => rfl⟩

theorem attachments_le (h : Drops external kept s t) (c : Fin n) :
    t.attachments c ≤ s.attachments c := by
  apply count_le
  intro x hx
  rcases h.sub x.1 x.2 with heq | hnone
  · exact heq ▸ hx
  · rw [hnone] at hx
    exact absurd hx (by simp)

theorem links_le (h : Drops external kept s t) : t.links ≤ s.links := by
  apply count_le
  intro x hx
  rcases h.sub x.1 x.2 with heq | hnone
  · exact heq ▸ hx
  · exact absurd hnone hx

theorem trans (h : Drops external kept s t) (h' : Drops external kept t u) :
    Drops external kept s u := by
  refine ⟨?_, ?_⟩
  · intro c i
    rcases h'.sub c i with heq | hnone
    · rw [heq]
      exact h.sub c i
    · exact .inr hnone
  · intro c hc i
    rw [h'.keep c hc i]
    refine h.keep c (hc.imp_right fun hne => ?_) i
    have hle := h'.attachments_le c
    omega

theorem of_cons {b : Fin n} (h : Drops external (b :: kept) s t) : Drops external kept s t :=
  ⟨h.sub, fun c hc => h.keep c (hc.imp_left (List.mem_cons_of_mem b))⟩

theorem clear {b : Fin n} {i : Fin maxAttachedBuffers} (hnot : b ∉ kept)
    (hzero : external b + (s.setSlot b i none).attachments b = 0) :
    Drops external kept s (s.setSlot b i none) := by
  refine ⟨?_, ?_⟩
  · intro c j
    rw [Manager.slot_setSlot]
    split
    · exact .inr rfl
    · exact .inl rfl
  · intro c hc j
    rw [Manager.slot_setSlot, if_neg]
    intro heq
    obtain rfl : c = b := congrArg Prod.fst heq
    rcases hc with hmem | hne
    · exact hnot hmem
    · exact hne hzero

end Drops

/-- What dropping a reference does within a depth of calls. -/
def DropsWithin (poolOf : Fin n → Fin m) (external : Fin n → Nat) (fuel : Nat) : Prop :=
  ∀ (s : Manager n m) (b : Fin n) (releasing : List (Fin n)), s.links < fuel →
    Balanced poolOf s (fun c => external c + s.attachments c + if c = b then 1 else 0) releasing →
    ∃ t, Manager.decrementWithin poolOf fuel s b = some t ∧
      Balanced poolOf t (fun c => external c + t.attachments c) releasing ∧
      Drops external releasing s t

theorem releaseAttachments_balanced {external : Fin n → Nat} {fuel : Nat}
    (hdrops : DropsWithin poolOf external fuel) {b : Fin n} {releasing : List (Fin n)}
    (hnot : b ∉ releasing) (l : List (Fin maxAttachedBuffers)) :
    ∀ {s : Manager n m}, s.links ≤ fuel →
      Balanced poolOf s (fun c => external c + s.attachments c) (b :: releasing) →
      (∀ i, i ∉ l → s.slot b i = none) →
      ∃ t, l.foldlM (Manager.releaseAttachment (Manager.decrementWithin poolOf fuel) b) s = some t ∧
        Balanced poolOf t (fun c => external c + t.attachments c) (b :: releasing) ∧
        (∀ i, t.slot b i = none) ∧ Drops external releasing s t := by
  induction l with
  | nil =>
    intro s _ hs hnone
    exact ⟨s, rfl, hs, fun i => hnone i List.not_mem_nil, Drops.refl s⟩
  | cons i l ih =>
    intro s hlinks hs hnone
    rw [List.foldlM_cons]
    cases hslot : s.slot b i with
    | none =>
      have hpass : Manager.releaseAttachment (Manager.decrementWithin poolOf fuel) b s i
          = some s := by
        unfold Manager.releaseAttachment
        rw [hslot]
      obtain ⟨t, ht, hrest⟩ := ih hlinks hs fun j hj => by
        by_cases hji : j = i
        · rw [hji, hslot]
        · exact hnone j (by simp [hji, hj])
      refine ⟨t, ?_, hrest⟩
      rw [hpass]
      exact ht
    | some c =>
      have hpass : Manager.releaseAttachment (Manager.decrementWithin poolOf fuel) b s i
          = Manager.decrementWithin poolOf fuel (s.setSlot b i none) c := by
        unfold Manager.releaseAttachment
        rw [hslot]
      have hclear := Manager.attachments_clear hslot
      have hbalanced : Balanced poolOf (s.setSlot b i none)
          (fun x => external x + (s.setSlot b i none).attachments x + if x = c then 1 else 0)
          (b :: releasing) := by
        have hsame : (fun x => external x + (s.setSlot b i none).attachments x
            + if x = c then 1 else 0) = fun x => external x + s.attachments x := by
          funext x
          rw [← hclear x]
          omega
        rw [hsame]
        exact hs.clear b i
      have hlinks' := Manager.links_clear hslot
      obtain ⟨t, ht, htb, htd⟩ := hdrops _ c _ (by omega) hbalanced
      have hzero : external b + (s.setSlot b i none).attachments b = 0 := by
        have h := hs.zero b List.mem_cons_self
        have h' := hclear b
        omega
      have hdrop := (Drops.clear hnot hzero).trans htd.of_cons
      -- the recursion leaves the slots of the buffer being released alone
      have hslots : ∀ j, j ∉ l → t.slot b j = none := by
        intro j hj
        rw [htd.keep b (.inl List.mem_cons_self), Manager.slot_setSlot]
        split
        · rfl
        · next hne =>
          refine hnone j ?_
          rw [List.mem_cons, not_or]
          exact ⟨fun h => hne (h ▸ rfl), hj⟩
      obtain ⟨u, hu, hub, hun, hud⟩ := ih (Nat.le_trans hdrop.links_le hlinks) htb hslots
      refine ⟨u, ?_, hub, hun, hdrop.trans hud⟩
      rw [hpass, ht]
      exact hu

/-- **Dropping a reference** returns, with the counts of what is left. -/
theorem decrementWithin_balanced (external : Fin n → Nat) (fuel : Nat) :
    DropsWithin poolOf external fuel := by
  induction fuel with
  | zero =>
    intro s b releasing h
    exact absurd h (Nat.not_lt_zero _)
  | succ fuel ih =>
    intro s b releasing hlinks hs
    have hnot : b ∉ releasing := fun h => by
      have hzero := hs.zero b h
      simp at hzero
    have hdec : Balanced poolOf (s.decrementCounts poolOf b)
        (fun c => external c + s.attachments c)
        (if external b + s.attachments b = 0 then b :: releasing else releasing) :=
      hs.decrementCounts (fun c hc => by simp [hc]) (by simp)
    have hslots : ∀ c i, (s.decrementCounts poolOf b).slot c i = s.slot c i :=
      Balanced.decrementCounts_slot s b
    have hsame : ∀ c, (s.decrementCounts poolOf b).attachments c = s.attachments c :=
      fun c => count_congr fun x => by rw [hslots]
    have hlinks' : (s.decrementCounts poolOf b).links = s.links :=
      count_congr fun x => by rw [hslots]
    have hstart : Drops external releasing s (s.decrementCounts poolOf b) :=
      ⟨fun c i => .inl (hslots c i), fun c _ i => hslots c i⟩
    have hcounts : (fun c => external c + s.attachments c)
        = fun c => external c + (s.decrementCounts poolOf b).attachments c := by
      funext c
      rw [hsame]
    rw [hcounts, ← hsame b] at hdec
    have hiff := hdec.referenceCount_eq_zero b
    unfold Manager.decrementWithin
    simp only
    by_cases hzero : external b + (s.decrementCounts poolOf b).attachments b = 0
    · -- the last reference: release
      rw [if_pos hzero] at hdec
      obtain ⟨t, ht, htb, htn, htd⟩ := releaseAttachments_balanced ih hnot
        (List.finRange maxAttachedBuffers) (by omega) hdec
        (fun i hi => absurd (List.mem_finRange i) hi)
      have hslots' : ∀ c i, (t.insertFree poolOf b).slot c i = t.slot c i := fun _ _ => rfl
      have hfree := htb.insertFree hnot htn
      refine ⟨t.insertFree poolOf b, ?_, hfree, hstart.trans (htd.trans ?_)⟩
      · rw [if_pos (hiff.mpr hzero)]
        unfold Manager.releaseBuffer
        rw [ht]
        rfl
      · exact ⟨fun c i => .inl (hslots' c i), fun c _ i => hslots' c i⟩
    · rw [if_neg hzero] at hdec
      refine ⟨_, ?_, hdec, hstart⟩
      rw [if_neg (mt hiff.mp hzero)]

end Duckbox.BufferPool
