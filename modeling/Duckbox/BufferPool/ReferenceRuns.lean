import Duckbox.BufferPool.ReferenceInvariant

/-!
# Reference counts over whole runs

Users get buffers, take and drop references to buffers that are live, attach
live buffers without closing a circle, and detach what is attached
(`Allowed`); the references to the buffers of a pool stay below 2^32. Then the
counts are what they count, the rings hold the buffers nobody references, and
the buffers referenced are those a user's reference reaches through attachments
(`Counted`). A buffer attached twice to another is counted twice.
-/

namespace Duckbox.BufferPool

open Duckbox.Lib

variable {n m : Nat} {poolOf : Fin n → Fin m}

namespace Manager

/-- Buffer `b` is attached to buffer `a`. -/
def Holds (s : Manager n m) (a b : Fin n) : Prop := ∃ i, s.slot a i = some b

theorem attachments_pos_iff (s : Manager n m) (b : Fin n) :
    0 < s.attachments b ↔ ∃ a, s.Holds a b := by
  unfold attachments
  rw [count_pos_iff]
  constructor
  · rintro ⟨x, hx⟩
    exact ⟨x.1, x.2, hx⟩
  · rintro ⟨a, i, hi⟩
    exact ⟨(a, i), hi⟩

end Manager

namespace Run

/-- One more reference to a buffer of the pool does not wrap its count. -/
def Room (r : Run n m) (p : Fin m) : Prop :=
  (r.manager.pools p).referenceCount.toNat + 1 < 2 ^ 32

/-- What the users of the buffers do. -/
def Allowed (poolOf : Fin n → Fin m) (r : Run n m) : Operation n m → Prop
  | .getBuffer p => r.Room p
  | .incrementReferenceCount b => (r.manager.buffers b).referenceCount ≠ 0 ∧ r.Room (poolOf b)
  | .decrementReferenceCount b => 0 < r.external b
  | .attachBuffer a b =>
    (r.manager.buffers a).referenceCount ≠ 0 ∧ (r.manager.buffers b).referenceCount ≠ 0 ∧
      ¬ Relation.ReflTransGen r.manager.Holds b a ∧ r.Room (poolOf b)
  | .detachBuffer a b => (r.manager.buffers a).referenceCount ≠ 0 ∧ r.manager.Holds a b

/-- References of the users and attachments. -/
def refs (r : Run n m) (b : Fin n) : Nat := r.external b + r.manager.attachments b

/-- The counts count the references, and no buffer holds itself. -/
structure Inv (poolOf : Fin n → Fin m) (r : Run n m) : Prop where
  balanced : Balanced poolOf r.manager r.refs []
  acyclic : ∀ a, ¬ Relation.TransGen r.manager.Holds a a

variable {r : Run n m}

/-! ## Creation -/

theorem count_buffersOf (poolOf : Fin n → Fin m) (p : Fin m) (b : Fin n) :
    (buffersOf poolOf p).count b = if poolOf b = p then 1 else 0 := by
  have hnodup : (buffersOf poolOf p).Nodup := (List.nodup_finRange n).filter _
  have hmem : b ∈ buffersOf poolOf p ↔ poolOf b = p := by
    unfold buffersOf
    rw [List.mem_filter, decide_eq_true_eq]
    exact and_iff_right (List.mem_finRange b)
  rw [hnodup.count]
  exact if_congr hmem rfl rfl

theorem Inv.created (poolOf : Fin n → Fin m) : Inv poolOf (created poolOf) := by
  have hslots : ∀ a i, (Run.created poolOf).manager.slot a i = none := fun _ _ => rfl
  have hrefs : ∀ b, (Run.created poolOf).refs b = 0 := by
    intro b
    have hnone : (Run.created poolOf).manager.attachments b = 0 := by
      refine Nat.eq_zero_of_not_pos fun h => ?_
      obtain ⟨a, i, hi⟩ := (Manager.attachments_pos_iff _ b).mp h
      rw [hslots] at hi
      exact absurd hi (by simp)
    unfold refs
    rw [hnone]
    rfl
  have hpool : ∀ p, poolReferences poolOf (Run.created poolOf).refs p = 0 := by
    intro p
    apply Finset.sum_eq_zero
    intro b _
    rw [hrefs]
    exact ite_self 0
  have hring : ∀ p, ((Run.created poolOf).manager.pools p).freeBuffer
      = ⟨(buffersOf poolOf p).length + 1, buffersOf poolOf p⟩ := by
    intro p
    exact Ring.foldl_insert _ (by simp [Ring.create])
  refine ⟨⟨?_, ?_, ?_, ?_, ?_, ?_, fun b _ _ i => hslots b i, ?_⟩, ?_⟩
  · intro b
    rw [hrefs]
    rfl
  · intro p
    rw [hpool]
    rfl
  · intro p
    rw [hpool]
    decide
  · intro p
    have hnone : (Lib.count fun b => poolOf b = p ∧ ((Run.created poolOf).refs b ≠ 0 ∨ b ∈ [])) = 0 := by
      refine Nat.eq_zero_of_not_pos fun h => ?_
      obtain ⟨b, _, hb⟩ := count_pos_iff.mp h
      rcases hb with hne | hmem
      · exact hne (hrefs b)
      · cases hmem
    rw [hnone]
    rfl
  · intro p
    rw [hring, length_eq_sum_count]
    exact congrArg (· + 1) (Finset.sum_congr rfl fun b _ => count_buffersOf poolOf p b)
  · intro p b
    rw [hring, count_buffersOf]
    simp [hrefs]
  · intro b hb
    cases hb
  · intro a h
    obtain ⟨b, ⟨i, hi⟩, _⟩ := Relation.TransGen.head'_iff.mp h
    rw [hslots] at hi
    exact absurd hi (by simp)

/-! ## Calls -/

theorem Inv.toNat (hr : r.Inv poolOf) :
    (∀ b, (r.manager.buffers b).referenceCount.toNat = r.refs b) ∧
      ∀ p, (r.manager.pools p).referenceCount.toNat = poolReferences poolOf r.refs p := by
  have hbound := hr.balanced.bound
  constructor
  · intro b
    have hlt := Nat.lt_of_le_of_lt (Balanced.refs_le r.refs b) (hbound (poolOf b))
    rw [hr.balanced.count, BitVec.toNat_ofNat, Nat.mod_eq_of_lt hlt]
  · intro p
    rw [hr.balanced.pool, BitVec.toNat_ofNat, Nat.mod_eq_of_lt (hbound p)]

theorem Inv.room (hr : r.Inv poolOf) {p : Fin m} (h : r.Room p) :
    poolReferences poolOf r.refs p + 1 < 2 ^ 32 := by
  unfold Room at h
  rwa [hr.toNat.2] at h

theorem Inv.refs_of_holds (hr : r.Inv poolOf) {a b : Fin n} (h : r.manager.Holds a b) :
    r.refs a ≠ 0 := by
  obtain ⟨i, hi⟩ := h
  intro hzero
  rw [hr.balanced.dead a hzero List.not_mem_nil i] at hi
  exact absurd hi (by simp)

theorem acyclic_of_sub {s t : Manager n m} (hs : ∀ a, ¬ Relation.TransGen s.Holds a a)
    (hsub : ∀ a b, t.Holds a b → s.Holds a b) (a : Fin n) : ¬ Relation.TransGen t.Holds a a :=
  fun h => hs a (Relation.TransGen.mono hsub a a h)

theorem holds_of_drops {external : Fin n → Nat} {kept : List (Fin n)} {s t : Manager n m}
    (h : Drops external kept s t) (a b : Fin n) (hab : t.Holds a b) : s.Holds a b := by
  obtain ⟨i, hi⟩ := hab
  rcases h.sub a i with heq | hnone
  · exact ⟨i, heq ▸ hi⟩
  · rw [hnone] at hi
    exact absurd hi (by simp)

theorem Inv.incrementReferenceCount (hr : r.Inv poolOf) {b : Fin n}
    (hok : r.Allowed poolOf (.incrementReferenceCount b)) :
    Inv poolOf ⟨r.manager.incrementReferenceCount poolOf b,
      Function.update r.external b (r.external b + 1)⟩ := by
  have hlive : r.refs b ≠ 0 := mt (hr.balanced.referenceCount_eq_zero b).mpr hok.1
  have hslots := Balanced.incrementReferenceCount_slot poolOf r.manager b
  have hsame : ∀ c, (r.manager.incrementReferenceCount poolOf b).attachments c
      = r.manager.attachments c := fun c => count_congr fun x => by rw [hslots]
  refine ⟨hr.balanced.incrementReferenceCount hlive ?_ ?_ (hr.room hok.2), ?_⟩
  · intro c hc
    simp only [refs, hsame, Function.update_of_ne hc]
  · simp only [refs, hsame, Function.update_self]
    omega
  · refine acyclic_of_sub hr.acyclic fun a c hac => ?_
    obtain ⟨i, hi⟩ := hac
    exact ⟨i, (hslots a i).symm.trans hi⟩

theorem Inv.decrementReferenceCount (hr : r.Inv poolOf) {b : Fin n} (hok : 0 < r.external b) :
    ∃ t, r.manager.decrementReferenceCount poolOf b = some t ∧
      Inv poolOf ⟨t, Function.update r.external b (r.external b - 1)⟩ ∧
      Drops (Function.update r.external b (r.external b - 1)) [] r.manager t := by
  have hrefs : r.refs = fun c => Function.update r.external b (r.external b - 1) c
      + r.manager.attachments c + if c = b then 1 else 0 := by
    funext c
    unfold refs
    by_cases hc : c = b
    · rw [hc, Function.update_self, if_pos rfl]
      omega
    · rw [Function.update_of_ne hc, if_neg hc, Nat.add_zero]
  obtain ⟨t, ht, htb, htd⟩ := decrementWithin_balanced _ _ r.manager b [] (Nat.lt_succ_self _)
    (hrefs ▸ hr.balanced)
  exact ⟨t, ht, ⟨htb, acyclic_of_sub hr.acyclic (holds_of_drops htd)⟩, htd⟩

theorem Inv.attachBuffer (hr : r.Inv poolOf) {a b : Fin n}
    (hok : r.Allowed poolOf (.attachBuffer a b)) :
    Inv poolOf ⟨r.manager.attachBuffer poolOf a b, r.external⟩ := by
  obtain ⟨ha, hb, hcircle, hroom⟩ := hok
  have ha : r.refs a ≠ 0 := mt (hr.balanced.referenceCount_eq_zero a).mpr ha
  have hb : r.refs b ≠ 0 := mt (hr.balanced.referenceCount_eq_zero b).mpr hb
  unfold Manager.attachBuffer
  split
  · exact hr
  · next i hfirst =>
    have hnone := Manager.firstSlot_some hfirst
    -- with the slot set and the counts not moved yet
    have hset : Balanced poolOf (r.manager.setSlot a i (some b)) r.refs [] := by
      have hs := hr.balanced
      refine ⟨?_, hs.pool, hs.bound, hs.referenced, hs.limit, hs.free, ?_, hs.zero⟩
      · intro c
        rw [Manager.setSlot_referenceCount]
        exact hs.count c
      · intro c hc hout j
        rw [Manager.slot_setSlot, if_neg]
        · exact hs.dead c hc hout j
        · intro heq
          obtain rfl : c = a := congrArg Prod.fst heq
          exact ha hc
    have hattached : ∀ x, (r.manager.setSlot a i (some b)).attachments x
        = r.manager.attachments x + if x = b then 1 else 0 := by
      intro x
      have hslot : (r.manager.setSlot a i (some b)).slot a i = some b := by
        rw [Manager.slot_setSlot, if_pos rfl]
      have hclear := Manager.attachments_clear hslot x
      have hback : ((r.manager.setSlot a i (some b)).setSlot a i none).attachments x
          = r.manager.attachments x := by
        apply count_congr
        intro y
        rw [Manager.slot_setSlot, Manager.slot_setSlot]
        split
        · next heq =>
          rw [show r.manager.slot y.1 y.2 = none by
            rw [congrArg Prod.fst heq, congrArg Prod.snd heq]; exact hnone]
        · rfl
      omega
    have hslots := Balanced.incrementReferenceCount_slot poolOf
      (r.manager.setSlot a i (some b)) b
    have hsame : ∀ c, ((r.manager.setSlot a i (some b)).incrementReferenceCount
        poolOf b).attachments c = (r.manager.setSlot a i (some b)).attachments c :=
      fun c => count_congr fun x => by rw [hslots]
    refine ⟨hset.incrementReferenceCount hb ?_ ?_ (hr.room hroom), ?_⟩
    · intro c hc
      simp only [refs, hsame, hattached, if_neg hc, Nat.add_zero]
    · simp only [refs, hsame, hattached, if_true]
      omega
    · refine acyclic_of_edge hr.acyclic hcircle fun x y hxy => ?_
      obtain ⟨j, hj⟩ := hxy
      rw [hslots, Manager.slot_setSlot] at hj
      split at hj
      · next heq => exact .inr ⟨congrArg Prod.fst heq, (Option.some.inj hj).symm⟩
      · exact .inl ⟨j, hj⟩

theorem Inv.detachBuffer (hr : r.Inv poolOf) (a b : Fin n) :
    ∃ t, r.manager.detachBuffer poolOf a b = some t ∧ Inv poolOf ⟨t, r.external⟩ := by
  unfold Manager.detachBuffer
  split
  · exact ⟨r.manager, rfl, hr⟩
  · next i hfirst =>
    have hslot := Manager.firstSlot_some hfirst
    have hrefs : r.refs = fun c => r.external c + (r.manager.setSlot a i none).attachments c
        + if c = b then 1 else 0 := by
      funext c
      unfold refs
      rw [← Manager.attachments_clear hslot c]
      omega
    obtain ⟨t, ht, htb, htd⟩ := decrementWithin_balanced r.external _
      (r.manager.setSlot a i none) b [] (Nat.lt_succ_self _) (hrefs ▸ hr.balanced.clear a i)
    refine ⟨t, ht, htb, acyclic_of_sub hr.acyclic fun x y hxy => ?_⟩
    obtain ⟨j, hj⟩ := holds_of_drops htd x y hxy
    rw [Manager.slot_setSlot] at hj
    split at hj
    · exact absurd hj (by simp)
    · exact ⟨j, hj⟩

theorem Inv.getBuffer (hr : r.Inv poolOf) {p : Fin m} (hroom : r.Room p) {b : Fin n}
    {s : Manager n m} (hget : r.manager.getBuffer p = some (b, s)) :
    Inv poolOf ⟨s, Function.update r.external b (r.external b + 1)⟩ := by
  have hs := hr.balanced
  unfold Manager.getBuffer Ring.extract at hget
  cases hentries : (r.manager.pools p).freeBuffer.entries with
  | nil =>
    rw [hentries] at hget
    exact absurd hget (by simp)
  | cons x rest =>
    rw [hentries] at hget
    simp only [Option.some.injEq, Prod.mk.injEq] at hget
    obtain ⟨rfl, rfl⟩ := hget
    have hfree : ∀ c, (x :: rest).count c = if poolOf c = p ∧ r.refs c = 0 ∧ c ∉ [] then 1 else 0 :=
      fun c => hentries ▸ hs.free p c
    obtain ⟨hpool, hzero⟩ : poolOf x = p ∧ r.refs x = 0 := by
      have hx := hfree x
      rw [List.count_cons_self] at hx
      split at hx
      · next h => exact ⟨h.1, h.2.1⟩
      · omega
    subst hpool
    have hrest : ∀ c, rest.count c
        = if poolOf c = poolOf x ∧ r.refs c = 0 ∧ c ≠ x then 1 else 0 := by
      intro c
      have hc := hfree c
      by_cases hcx : c = x
      · subst hcx
        rw [List.count_cons_self] at hc
        simp only [hzero, List.not_mem_nil, not_false_eq_true, and_self, if_true] at hc
        rw [if_neg (fun h => h.2.2 rfl)]
        omega
      · rw [List.count_cons_of_ne (Ne.symm hcx)] at hc
        simpa [hcx] using hc
    set t : Manager n m := (r.manager.modifyBuffer x fun _ => ⟨1, fun _ => none⟩).modifyPool
      (poolOf x) fun y =>
        { referenceCount := y.referenceCount + 1
          countOfReferencedBuffers := y.countOfReferencedBuffers + 1
          freeBuffer := { (r.manager.pools (poolOf x)).freeBuffer with entries := rest } } with ht
    have hslots : ∀ c i, t.slot c i = r.manager.slot c i := by
      intro c i
      unfold Manager.slot
      by_cases hc : c = x
      · subst hc
        rw [ht, Manager.modifyPool_buffers, Manager.modifyBuffer_same]
        exact (hs.dead c hzero List.not_mem_nil i).symm
      · rw [ht, Manager.modifyPool_buffers, Manager.modifyBuffer_other _ _ hc]
    have hsame : ∀ c, t.attachments c = r.manager.attachments c :=
      fun c => count_congr fun y => by rw [hslots]
    have hother : ∀ c, c ≠ x → refs ⟨t, Function.update r.external x (r.external x + 1)⟩ c
        = r.refs c := by
      intro c hc
      simp only [refs, hsame, Function.update_of_ne hc]
    have hone : refs ⟨t, Function.update r.external x (r.external x + 1)⟩ x = r.refs x + 1 := by
      simp only [refs, hsame, Function.update_self]
      omega
    have hsucc := Balanced.poolReferences_pred poolOf (fun c hc => (hother c hc).symm) hone
    have hroom := hr.room hroom
    generalize hrefs : refs ⟨t, Function.update r.external x (r.external x + 1)⟩ = refs' at *
    have hreferenced : ∀ q, (Lib.count fun c => poolOf c = q ∧ (refs' c ≠ 0 ∨ c ∈ []))
        = (Lib.count fun c => poolOf c = q ∧ (r.refs c ≠ 0 ∨ c ∈ []))
          + if poolOf x = q then 1 else 0 := by
      intro q
      have hchange := count_change
        (q := fun c => poolOf c = q ∧ (r.refs c ≠ 0 ∨ c ∈ []))
        (r := fun c => poolOf c = q ∧ (refs' c ≠ 0 ∨ c ∈ [])) (x := x) (by
          intro c hc
          rw [hother c hc])
      simp only [hzero, hone, List.not_mem_nil, or_false, ne_eq, not_true_eq_false, and_false,
        if_false, Nat.add_zero, Nat.zero_add, one_ne_zero, not_false_eq_true, and_true]
        at hchange ⊢
      exact hchange
    refine ⟨⟨?_, ?_, ?_, ?_, ?_, ?_, ?_, ?_⟩, ?_⟩
    · intro c
      rw [hrefs]
      by_cases hc : c = x
      · subst hc
        rw [ht, Manager.modifyPool_buffers, Manager.modifyBuffer_same, hone, hzero]
        rfl
      · rw [ht, Manager.modifyPool_buffers, Manager.modifyBuffer_other _ _ hc, hother c hc]
        exact hs.count c
    · intro q
      rw [hrefs, hsucc]
      by_cases hq : q = poolOf x
      · subst hq
        rw [ht, Manager.modifyPool_same, if_pos rfl, BitVec.ofNat_add, ← hs.pool]
        rfl
      · rw [ht, Manager.modifyPool_other _ _ hq, if_neg (fun h => hq h.symm), Nat.add_zero]
        exact hs.pool q
    · intro q
      rw [hrefs, hsucc]
      by_cases hq : poolOf x = q
      · rw [if_pos hq, ← hq]
        exact hroom
      · rw [if_neg hq, Nat.add_zero]
        exact hs.bound q
    · intro q
      rw [hrefs, hreferenced]
      by_cases hq : q = poolOf x
      · subst hq
        rw [ht, Manager.modifyPool_same, if_pos rfl, BitVec.ofNat_add, ← hs.referenced]
        rfl
      · rw [ht, Manager.modifyPool_other _ _ hq, if_neg (fun h => hq h.symm), Nat.add_zero]
        exact hs.referenced q
    · intro q
      by_cases hq : q = poolOf x
      · subst hq
        rw [ht, Manager.modifyPool_same]
        exact hs.limit _
      · rw [ht, Manager.modifyPool_other _ _ hq]
        exact hs.limit q
    · intro q c
      rw [hrefs]
      by_cases hq : q = poolOf x
      · subst hq
        rw [ht, Manager.modifyPool_same]
        refine (hrest c).trans (if_congr ?_ rfl rfl)
        by_cases hc : c = x
        · simp [hc, hone]
        · simp [hc, hother c hc]
      · rw [ht, Manager.modifyPool_other _ _ hq]
        refine (hs.free q c).trans (if_congr ?_ rfl rfl)
        by_cases hc : c = x
        · simp [hc, Ne.symm hq]
        · rw [hother c hc]
    · intro c hc _ i
      rw [hrefs] at hc
      rw [hslots]
      by_cases hcx : c = x
      · rw [hcx, hone] at hc
        omega
      · exact hs.dead c (hother c hcx ▸ hc) List.not_mem_nil i
    · intro c hc
      cases hc
    · refine acyclic_of_sub hr.acyclic fun a c hac => ?_
      obtain ⟨i, hi⟩ := hac
      exact ⟨i, (hslots a i).symm.trans hi⟩

theorem Inv.step (hr : r.Inv poolOf) {op : Operation n m} (hok : r.Allowed poolOf op) :
    ∃ t, r.step poolOf op = some t ∧ t.Inv poolOf := by
  cases op with
  | getBuffer p =>
    cases hget : r.manager.getBuffer p with
    | none => exact ⟨r, by simp only [Run.step, hget], hr⟩
    | some bs => exact ⟨_, by simp only [Run.step, hget], hr.getBuffer hok hget⟩
  | incrementReferenceCount b => exact ⟨_, rfl, hr.incrementReferenceCount hok⟩
  | decrementReferenceCount b =>
    obtain ⟨t, ht, hinv, _⟩ := hr.decrementReferenceCount hok
    exact ⟨_, by simp only [Run.step, ht, Option.map_some], hinv⟩
  | attachBuffer a b => exact ⟨_, rfl, hr.attachBuffer hok⟩
  | detachBuffer a b =>
    obtain ⟨t, ht, hinv⟩ := hr.detachBuffer a b
    exact ⟨_, by simp only [Run.step, ht, Option.map_some], hinv⟩

/-! ## What the counts say -/

/-- The counts, the rings and the attachments agree with the references. -/
structure Counted (poolOf : Fin n → Fin m) (r : Run n m) : Prop where
  /-- A pool's count is the sum of its buffers' counts. -/
  pool : ∀ p, (r.manager.pools p).referenceCount.toNat
    = ∑ b, if poolOf b = p then (r.manager.buffers b).referenceCount.toNat else 0
  /-- A buffer is in its pool's ring once if its count is 0, and in no ring otherwise. -/
  free : ∀ p b, (r.manager.pools p).freeBuffer.entries.count b
    = if poolOf b = p ∧ (r.manager.buffers b).referenceCount = 0 then 1 else 0
  /-- A buffer's count is its outstanding references and attachments. -/
  buffer : ∀ b, (r.manager.buffers b).referenceCount.toNat
    = r.external b + r.manager.attachments b
  /-- Only live buffers have others attached. -/
  attached : ∀ a b, r.manager.Holds a b → (r.manager.buffers a).referenceCount ≠ 0
  /-- The live buffers are those that a user's reference reaches. -/
  live : ∀ b, (r.manager.buffers b).referenceCount ≠ 0 ↔
    ∃ c, 0 < r.external c ∧ Relation.ReflTransGen r.manager.Holds c b

theorem Inv.live_iff (hr : r.Inv poolOf) (b : Fin n) :
    (r.manager.buffers b).referenceCount ≠ 0 ↔
      0 < r.external b ∨ ∃ a, (r.manager.buffers a).referenceCount ≠ 0 ∧ r.manager.Holds a b := by
  have hzero := hr.balanced.referenceCount_eq_zero
  have hrefs : (r.manager.buffers b).referenceCount ≠ 0 ↔
      0 < r.external b ∨ 0 < r.manager.attachments b := by
    rw [ne_eq, hzero]
    unfold refs
    omega
  rw [hrefs, Manager.attachments_pos_iff]
  refine or_congr Iff.rfl (exists_congr fun a => ?_)
  exact (and_iff_right_of_imp fun hab => mt (hzero a).mp (hr.refs_of_holds hab)).symm

theorem Inv.reached (hr : r.Inv poolOf) (b : Fin n) :
    (r.manager.buffers b).referenceCount ≠ 0 ↔
      ∃ c, 0 < r.external c ∧ Relation.ReflTransGen r.manager.Holds c b :=
  live_iff_reached hr.acyclic hr.live_iff b

theorem Inv.counted (hr : r.Inv poolOf) : r.Counted poolOf := by
  obtain ⟨hbuffers, hpools⟩ := hr.toNat
  refine ⟨?_, ?_, hbuffers, ?_, hr.reached⟩
  · intro p
    rw [hpools]
    apply Finset.sum_congr rfl
    intro b _
    rw [hbuffers]
  · intro p b
    refine (hr.balanced.free p b).trans (if_congr ?_ rfl rfl)
    rw [hr.balanced.referenceCount_eq_zero]
    simp
  · intro a b hab
    exact mt (hr.balanced.referenceCount_eq_zero a).mp (hr.refs_of_holds hab)

theorem Inv.drops (hr : r.Inv poolOf) {b : Fin n} (hok : 0 < r.external b) :
    ∃ t, r.step poolOf (.decrementReferenceCount b) = some t ∧
      ∀ c, (t.manager.buffers c).referenceCount ≠ 0 ↔
        ∃ d, 0 < t.external d ∧ Relation.ReflTransGen r.manager.Holds d c := by
  obtain ⟨s, hs, hinv, hdrops⟩ := hr.decrementReferenceCount hok
  refine ⟨⟨s, Function.update r.external b (r.external b - 1)⟩,
    by simp only [Run.step, hs, Option.map_some], fun c => ?_⟩
  rw [hinv.reached c]
  refine exists_congr fun d => and_congr_right fun hd => ⟨?_, ?_⟩
  · intro h
    exact Relation.ReflTransGen.mono (holds_of_drops hdrops) d c h
  · -- whatever lies on the way is live afterwards, so its attachments are still there
    intro h
    induction h with
    | refl => exact .refl
    | tail _ hxy ih =>
      refine ih.tail ?_
      obtain ⟨i, hi⟩ := hxy
      have hlive := (hinv.reached _).mpr ⟨d, hd, ih⟩
      have hrefs := mt (hinv.balanced.referenceCount_eq_zero _).mpr hlive
      exact ⟨i, (hdrops.keep _ (.inr hrefs) i).trans hi⟩

/-- **Reference counts match the references**, in every run of allowed calls, all
of which return; dropping a reference releases exactly what only it kept alive. -/
theorem referenceCounts_match (poolOf : Fin n → Fin m) {ops : List (Operation n m)}
    (hops : Admits (Run.step poolOf) (Run.Allowed poolOf) (created poolOf) ops) :
    ∃ r, run (Run.step poolOf) (created poolOf) ops = some r ∧ r.Counted poolOf ∧
      ∀ b, 0 < r.external b →
        ∃ t, r.step poolOf (.decrementReferenceCount b) = some t ∧
          ∀ c, (t.manager.buffers c).referenceCount ≠ 0 ↔
            ∃ d, 0 < t.external d ∧ Relation.ReflTransGen r.manager.Holds d c := by
  obtain ⟨r, hrun, hr⟩ := run_of_admits (P := Inv poolOf)
    (fun hok hinv => hinv.step hok) hops (Inv.created poolOf)
  exact ⟨r, hrun, hr.counted, fun b hb => hr.drops hb⟩

/-! ## Two pools of one buffer -/

theorem not_reaches {s : Manager n m} {a b : Fin n} (hne : b ≠ a) (h : ∀ i, s.slot b i = none) :
    ¬ Relation.ReflTransGen s.Holds b a := by
  intro hpath
  rcases hpath.cases_head with heq | ⟨c, ⟨i, hi⟩, _⟩
  · exact hne heq
  · rw [h i] at hi
    exact absurd hi (by simp)

/-- A coded buffer attached to a decode buffer, both references dropped. -/
theorem referenceCounts_match_attached :
    let ops : List (Operation 2 2) := [.getBuffer 0, .getBuffer 1, .attachBuffer 0 1,
      .decrementReferenceCount 1, .decrementReferenceCount 0]
    ∃ r, run (Run.step id) (created id) ops = some r ∧ r.Counted id ∧
      ∀ b, 0 < r.external b →
        ∃ t, r.step id (.decrementReferenceCount b) = some t ∧
          ∀ c, (t.manager.buffers c).referenceCount ≠ 0 ↔
            ∃ d, 0 < t.external d ∧ Relation.ReflTransGen r.manager.Holds d c := by
  refine referenceCounts_match id ⟨by unfold Allowed Room; decide, fun t ht => ?_⟩
  obtain rfl := Option.some.inj ht
  refine ⟨by unfold Allowed Room; decide, fun t ht => ?_⟩
  obtain rfl := Option.some.inj ht
  refine ⟨⟨by decide, by decide, not_reaches (by decide) (by decide), by unfold Room; decide⟩,
    fun t ht => ?_⟩
  obtain rfl := Option.some.inj ht
  refine ⟨by unfold Allowed; decide, fun t ht => ?_⟩
  obtain rfl := Option.some.inj ht
  exact ⟨by unfold Allowed; decide, fun _ _ => trivial⟩

theorem run_increments (poolOf : Fin n → Fin m) (b : Fin n) (k : Nat) :
    ∀ r : Run n m, ∃ t,
      run (Run.step poolOf) r (List.replicate k (.incrementReferenceCount b)) = some t ∧
      (t.manager.buffers b).referenceCount
        = (r.manager.buffers b).referenceCount + BitVec.ofNat 32 k ∧
      t.external b = r.external b + k ∧
      ∀ p, (t.manager.pools p).freeBuffer = (r.manager.pools p).freeBuffer := by
  induction k with
  | zero =>
    intro r
    exact ⟨r, rfl, (BitVec.add_zero _).symm, rfl, fun _ => rfl⟩
  | succ k ih =>
    intro r
    obtain ⟨t, ht, hcount, hexternal, hring⟩ := ih ⟨r.manager.incrementReferenceCount poolOf b,
      Function.update r.external b (r.external b + 1)⟩
    obtain ⟨hbuffer, hring'⟩ := Balanced.incrementReferenceCount_counts poolOf r.manager b
    refine ⟨t, ?_, ?_, ?_, fun p => (hring p).trans (hring' p)⟩
    · rw [List.replicate_succ, run_cons]
      exact ht
    · rw [hcount, hbuffer, Nat.add_comm k 1, BitVec.ofNat_add, BitVec.add_assoc]
      rfl
    · simp only [Function.update_self] at hexternal
      omega

theorem run_getBuffer_increments (k : Nat) :
    ∃ r : Run 1 1, run (Run.step id) (created id)
        (.getBuffer 0 :: List.replicate k (.incrementReferenceCount 0)) = some r ∧
      r.external 0 = k + 1 ∧ (r.manager.buffers 0).referenceCount = 1 + BitVec.ofNat 32 k ∧
      (r.manager.pools 0).freeBuffer.entries = [] := by
  obtain ⟨t, ht, hcount, hexternal, hring⟩ := run_increments id (0 : Fin 1) k
    ⟨(((Manager.created id).getBuffer 0).get rfl).2, Function.update (fun _ => 0) 0 1⟩
  refine ⟨t, ?_, ?_, hcount, ?_⟩
  · rw [run_cons]
    exact ht
  · exact hexternal.trans (Nat.add_comm 1 k)
  · rw [hring]
    rfl

/-- A buffer attached twice to another has two references of it, though one
buffer has it attached; and with 2^32 references a count is 0 and the buffer is
not free. -/
theorem referenceCounts_differ_on_second_attachment :
    (∃ (ops : List (Operation 2 2)) (r : Run 2 2),
      ops = [.getBuffer 0, .getBuffer 1, .attachBuffer 0 1, .attachBuffer 0 1] ∧
        Admits (Run.step id) (Run.Allowed id) (created id) ops ∧
        run (Run.step id) (created id) ops = some r ∧ r.external 1 = 1 ∧
        (r.manager.buffers 1).referenceCount = 3 ∧
        (count fun a => (r.manager.buffers a).referenceCount ≠ 0 ∧
          ∃ i, r.manager.slot a i = some 1) = 1) ∧
      ∃ r : Run 1 1, run (Run.step id) (created id)
          (.getBuffer 0 :: List.replicate 4294967295 (.incrementReferenceCount 0)) = some r ∧
        r.external 0 = 4294967296 ∧ (r.manager.buffers 0).referenceCount = 0 ∧
        (r.manager.pools 0).freeBuffer.entries = [] := by
  refine ⟨⟨_, _, rfl, ?_, rfl, by decide, by decide, by decide⟩, ?_⟩
  · refine ⟨by unfold Allowed Room; decide, fun t ht => ?_⟩
    obtain rfl := Option.some.inj ht
    refine ⟨by unfold Allowed Room; decide, fun t ht => ?_⟩
    obtain rfl := Option.some.inj ht
    refine ⟨⟨by decide, by decide, not_reaches (by decide) (by decide), by unfold Room; decide⟩,
      fun t ht => ?_⟩
    obtain rfl := Option.some.inj ht
    exact ⟨⟨by decide, by decide, not_reaches (by decide) (by decide), by unfold Room; decide⟩,
      fun _ _ => trivial⟩
  · obtain ⟨r, hr, hexternal, hcount, hring⟩ := run_getBuffer_increments 4294967295
    exact ⟨r, hr, hexternal, hcount.trans (by decide), hring⟩

end Run

end Duckbox.BufferPool
