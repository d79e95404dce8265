import Duckbox.BufferPool.MemoryRecords
import Mathlib.Data.BitVec
import Mathlib.Tactic.Ring

/-!
# What a buffer pool says it has allocated

`TotalAllocatedMemory` against the blocks the buffers hold (`heldMemory`): they
agree at the end of every run that resizes no block and partitions no buffer of
a fixed size (`totalAllocatedMemory_accounts`), since `ShrinkMemoryBlock` and
`ExtendMemoryBlock` change the size of a block and not the total, and the "buffer
of zero size" that `PartitionBuffer` gets of a fixed-size pool has that size.

`getBuffer_atomic`: a `GetBuffer` that fails has left the pool as it was, since for the
memory of the record that it has taken it waits (`getBuffer_granted`).
-/

namespace Duckbox.BufferPool

open Duckbox.Lib

namespace MemoryPool

/-! ## The memory held -/

/-- The memory a buffer holds: a part of the pool's own block for good, or a
block of its own while it is referenced. -/
def heldBy (c : PoolConfiguration) (x : BufferRecord) : UnsignedInt :=
  if c.allocationSource = .noAllocation then 0
  else if c.allocateOnPoolCreation ∨ x.referenceCount ≠ 0 then x.bufferBlock.size
  else 0

/-- The sum over the buffers of the pool, of 32 bits as the counter is. -/
def heldMemory (c : PoolConfiguration) (s : MemoryPool) : UnsignedInt :=
  (s.listOfBuffers.map fun b => heldBy c (s.buffers b)).sum

section

variable {c : PoolConfiguration} {s s' : MemoryPool} {b : Nat} {x : BufferRecord}

theorem heldBy_unreferenced (hper : c.allocatesPerBuffer = true) (hx : x.referenceCount = 0) :
    heldBy c x = 0 := by
  have hcreation : c.allocateOnPoolCreation = false := by
    simp only [PoolConfiguration.allocatesPerBuffer, Bool.and_eq_true, Bool.not_eq_true'] at hper
    exact hper.1
  unfold heldBy
  simp [hcreation, hx]

theorem heldBy_referenced (hper : c.allocatesPerBuffer = true) (hx : x.referenceCount ≠ 0) :
    heldBy c x = x.bufferBlock.size := by
  have hsource : c.allocationSource ≠ .noAllocation := by
    simp only [PoolConfiguration.allocatesPerBuffer, Bool.and_eq_true, bne_iff_ne] at hper
    exact hper.2
  unfold heldBy
  rw [if_neg hsource, if_pos (.inr hx)]

theorem heldBy_fresh : heldBy c ⟨0, ⟨0, 0⟩, 0⟩ = 0 := by
  unfold heldBy
  split_ifs <;> rfl

theorem heldBy_congr {y : BufferRecord} (hblock : y.bufferBlock.size = x.bufferBlock.size)
    (h : c.allocatesPerBuffer = false ∨ (y.referenceCount = 0 ↔ x.referenceCount = 0)) :
    heldBy c y = heldBy c x := by
  unfold heldBy
  rw [hblock]
  rcases h with hper | hiff
  · by_cases hsource : c.allocationSource = .noAllocation
    · rw [if_pos hsource, if_pos hsource]
    · have hcreation : c.allocateOnPoolCreation = true := by
        by_contra hnot
        simp [PoolConfiguration.allocatesPerBuffer, hsource, hnot] at hper
      simp [hcreation]
  · simp only [ne_eq, hiff]

theorem sum_map_update {f : Nat → UnsignedInt} {l : List Nat} (hl : l.Nodup) (hb : b ∈ l)
    (v : UnsignedInt) :
    (l.map (Function.update f b v)).sum = (l.map f).sum + (v - f b) := by
  induction l with
  | nil => exact absurd hb (by simp)
  | cons a l ih =>
    obtain ⟨hnot, hl⟩ := List.nodup_cons.mp hl
    simp only [List.map_cons, List.sum_cons]
    by_cases hab : b = a
    · subst hab
      have hrest : l.map (Function.update f b v) = l.map f :=
        List.map_congr_left fun i hi =>
          Function.update_of_ne (fun (h : i = b) => hnot (h ▸ hi)) v f
      rw [Function.update_self, hrest]
      ring
    · have hmem : b ∈ l := (List.mem_cons.mp hb).resolve_left hab
      rw [ih hl hmem, Function.update_of_ne (fun h => hab h.symm), add_assoc]

theorem heldMemory_update (hlist : s'.listOfBuffers = s.listOfBuffers)
    (hbuffers : s'.buffers = Function.update s.buffers b x) (hl : s.listOfBuffers.Nodup)
    (hb : b ∈ s.listOfBuffers) :
    s'.heldMemory c = s.heldMemory c + (heldBy c x - heldBy c (s.buffers b)) := by
  unfold heldMemory
  rw [hlist, hbuffers, ← sum_map_update hl hb]
  refine congrArg List.sum (List.map_congr_left fun a _ => ?_)
  by_cases hab : a = b
  · subst hab
    rw [Function.update_self, Function.update_self]
  · rw [Function.update_of_ne hab, Function.update_of_ne hab]

end

/-! ## The calls that keep the accounts -/

/-- Whether blocks of the pool can be resized and split. -/
def Resizable (c : PoolConfiguration) : Prop :=
  c.allocationSource = .allocateFromSuppliedBlock ∧ c.allocateOnPoolCreation = false

instance (c : PoolConfiguration) : Decidable (Resizable c) := inferInstanceAs (Decidable (_ ∧ _))

theorem resizable_of_supplied {c : PoolConfiguration}
    (h : (c.allocatesPerBuffer && c.allocationSource == .allocateFromSuppliedBlock) = true) :
    Resizable c := by
  simp only [PoolConfiguration.allocatesPerBuffer, Bool.and_eq_true, Bool.not_eq_true',
    beq_iff_eq] at h
  exact ⟨h.2, h.1.1⟩

theorem shrunkBlock_some {c : PoolConfiguration} {s : MemoryPool} {b : Nat}
    {newSize : UnsignedInt} {block : MemoryBlock} (h : s.shrunkBlock c b newSize = some block) :
    block = s.block b ∨ Resizable c ∧ (s.buffers b).dataSize ≤ newSize ∧
      newSize < (s.block b).size ∧ block = { s.block b with size := c.roundUp newSize } := by
  unfold shrunkBlock PoolConfiguration.shrinkMemoryBlock at h
  split at h
  · exact absurd h (by simp)
  · next hdata =>
    split at h
    · exact absurd h (by simp)
    · next hcreation =>
      split at h
      · exact absurd h (by simp)
      · next hsmaller =>
        cases hsource : c.allocationSource <;> simp only [hsource] at h
        case noAllocation => exact absurd h (by simp)
        case allocateFromSuppliedBlock =>
          exact .inr ⟨⟨hsource, by simpa using hcreation⟩, BitVec.not_lt.mp hdata,
            BitVec.not_le.mp hsmaller, (Option.some.inj h).symm⟩
        all_goals exact .inl (Option.some.inj h).symm

theorem extendMemoryBlock_some {c : PoolConfiguration} {block extended : MemoryBlock}
    {memory : Option Grant} (h : c.extendMemoryBlock block memory = some extended) :
    Resizable c ∧ ∃ granted, memory = some granted ∧ extended.size = granted.size := by
  unfold PoolConfiguration.extendMemoryBlock at h
  split at h
  · exact absurd h (by simp)
  · next hcreation =>
    split at h
    · next hsource =>
      obtain ⟨granted, hgranted, rfl⟩ := Option.map_eq_some_iff.mp h
      exact ⟨⟨hsource, by simpa using hcreation⟩, granted, hgranted, rfl⟩
    · exact absurd h (by simp)

/-- Whether a `GetBuffer` finds a record. -/
def HasRecord (c : PoolConfiguration) (s : MemoryPool) (o : Surroundings) : Prop :=
  match c.numberOfBuffers with
  | none => o.newBuffer = true
  | some _ => s.freeBuffer.entries ≠ []

instance (c : PoolConfiguration) (s : MemoryPool) (o : Surroundings) :
    Decidable (s.HasRecord c o) :=
  match h : c.numberOfBuffers with
  | none => decidable_of_iff (o.newBuffer = true) (by rw [HasRecord, h])
  | some _ => decidable_of_iff (s.freeBuffer.entries ≠ []) (by rw [HasRecord, h])

/-- Whether the allocator of the memory pool lacks what it is asked for. -/
def LacksMemory (c : PoolConfiguration) (o : Surroundings) : Prop :=
  c.memoryPoolAllocator = true ∧ o.memory = none

instance (c : PoolConfiguration) (o : Surroundings) : Decidable (LacksMemory c o) :=
  inferInstanceAs (Decidable (_ ∧ _))

/-- The call resizes no block, and does not split a block of a pool of fixed-size
buffers, whose second record is got with memory of that size. -/
def KeepsAccounts (c : PoolConfiguration) (s : MemoryPool) : Operation → Prop
  | .shrinkBuffer b newSize =>
    Resizable c → (s.buffers b).dataSize ≤ newSize → newSize < (s.block b).size →
      c.roundUp newSize = (s.block b).size
  | .extendBuffer b memory =>
    Resizable c → memory = none ∨ memory.map (·.size) = some (s.block b).size
  | .partitionBuffer _ _ _ o =>
    Resizable c → c.hasFixedSize = true → c.fixedSize ≠ 0 → c.fixedSize ≠ notSpecified →
      s.HasRecord c o → LacksMemory c o
  | .memoryGranted _ _ _ partitioned => Resizable c → partitioned = none
  | .getBuffer .. | .incrementReferenceCount _ | .decrementReferenceCount _
  | .setUsedDataSize .. => True

instance (c : PoolConfiguration) (s : MemoryPool) : ∀ op, Decidable (s.KeepsAccounts c op)
  | .shrinkBuffer _ _ => inferInstanceAs (Decidable (_ → _))
  | .extendBuffer _ _ => inferInstanceAs (Decidable (_ → _))
  | .partitionBuffer .. => inferInstanceAs (Decidable (_ → _))
  | .memoryGranted .. => inferInstanceAs (Decidable (_ → _))
  | .getBuffer .. | .incrementReferenceCount _ | .decrementReferenceCount _
  | .setUsedDataSize .. => inferInstanceAs (Decidable True)

/-! ## What `GetBuffer` can do -/

section

variable {c : PoolConfiguration} {s s' : MemoryPool} {requiredSize : UnsignedInt}
  {nonBlocking lowerBound : Bool} {o : Surroundings} {b : Nat} {status : BufferStatus}

theorem checkMemoryParameters_size {size itemSize : UnsignedInt}
    (h : c.checkMemoryParameters false size true false = some itemSize) :
    itemSize = (if c.hasFixedSize then c.fixedSize else size) ∧ itemSize ≠ notSpecified ∧
      c.allocationSource = .allocateFromSuppliedBlock := by
  unfold PoolConfiguration.checkMemoryParameters at h
  simp only [if_true, Bool.false_eq_true, if_false, false_and, not_false_eq_true, and_false] at h
  generalize (if c.hasFixedSize = true then c.fixedSize else size) = required at h ⊢
  split at h
  · exact absurd h (by simp)
  · next hspecified =>
    split at h
    · exact absurd h (by simp)
    · cases hsource : c.allocationSource <;>
        simp only [hsource, or_true, if_true, not_true, or_false, reduceCtorEq] at h
      split at h
      · exact absurd h (by simp)
      · exact ⟨(Option.some.inj h).symm, Option.some.inj h ▸ hspecified, rfl⟩

theorem HasRecord.of_takeRecord (h : s.takeRecord c nonBlocking o = .got b s') :
    s.HasRecord c o := by
  unfold takeRecord at h
  unfold HasRecord
  cases hnumber : c.numberOfBuffers with
  | none =>
    simp only [hnumber] at h ⊢
    split at h
    · assumption
    · exact absurd h (by simp)
  | some n =>
    simp only [hnumber, Ring.extract] at h ⊢
    intro hnil
    simp only [hnil] at h
    split at h <;> exact absurd h (by simp)

theorem allocateFor_block {itemSize : UnsignedInt} {memory : Option Grant} {obtained : Bool}
    (h : s.allocateFor c b itemSize lowerBound memory = (obtained, s')) :
    c.allocateMemoryBlock { s.block b with size := itemSize } false c.memoryPoolAllocator
      lowerBound memory = (obtained, s'.block b) := by
  unfold allocateFor at h
  simp only at h
  obtain ⟨rfl, rfl⟩ := Prod.mk.inj h
  refine Prod.ext rfl ?_
  show _ = MemoryPool.block (ite _ _ _) b
  split <;> simp only [block, setBlock, modifyBuffer, Function.update_self]

theorem allocateFor_fails {itemSize : UnsignedInt} {memory : Option Grant}
    (hsource : c.allocationSource = .allocateFromSuppliedBlock) :
    (s.allocateFor c b itemSize lowerBound memory).1 = false ↔
      itemSize ≠ 0 ∧ c.memoryPoolAllocator = true ∧ memory = none := by
  show (c.allocateMemoryBlock { s.block b with size := itemSize } false c.memoryPoolAllocator
    lowerBound memory).1 = false ↔ _
  unfold PoolConfiguration.allocateMemoryBlock
  simp only [hsource]
  by_cases hzero : itemSize = 0
  · simp [hzero]
  · rw [if_neg hzero, and_iff_right (show itemSize ≠ 0 from hzero)]
    cases c.memoryPoolAllocator <;> cases memory <;> simp

/-- No source but that one passes the checks of `GetBuffer`. -/
theorem getBuffer_failed
    (h : s.getBuffer c requiredSize nonBlocking lowerBound o = .failed status s') : s' = s := by
  unfold getBuffer at h
  split at h
  · split at h
    · exact (Got.failed.inj h).2.symm
    · next itemSize hcheck =>
      split at h
      · split at h
        · exact absurd h (by simp)
        · rw [if_pos (checkMemoryParameters_size hcheck).2.2] at h
          exact absurd h (by simp)
      · exact takeRecord_failed h
  · split at h
    · exact absurd h (by simp)
    · exact takeRecord_failed h

end

/-! ## The invariant -/

/-- A pool whose buffers never have memory: it was to be allocated on creation,
and the number of buffers was not known then. -/
def Bare (c : PoolConfiguration) : Prop :=
  c.numberOfBuffers = none ∧ c.allocateOnPoolCreation = true

structure Inv (c : PoolConfiguration) (s : MemoryPool) : Prop where
  nodup : s.listOfBuffers.Nodup
  made : ∀ b ∈ s.listOfBuffers, b < s.buffersMade
  ringNodup : s.freeBuffer.entries.Nodup
  free : ∀ b ∈ s.freeBuffer.entries, b ∈ s.listOfBuffers ∧ (s.buffers b).referenceCount = 0
  bare : Bare c → ∀ b ∈ s.listOfBuffers, (s.block b).size = 0
  accounts : s.totalAllocatedMemory = s.heldMemory c

namespace Inv

variable {c : PoolConfiguration} {s s' : MemoryPool} {b : Nat} {x : BufferRecord}

theorem heldAll (h : Inv c s) : HeldAll (fun _ => True) s :=
  ⟨h.made, h.ringNodup, h.free, fun _ _ => trivial⟩

theorem not_free (h : Inv c s) (hb : s.Holds b) : b ∉ s.freeBuffer.entries := h.heldAll.not_free hb

section Set

variable (h : Inv c s) (hb : b ∈ s.listOfBuffers)
  (hbuffers : s'.buffers = Function.update s.buffers b x)
  (hmade : s'.buffersMade = s.buffersMade) (hlist : s'.listOfBuffers = s.listOfBuffers)
  (hring : s'.freeBuffer = s.freeBuffer)
  (hfree : b ∈ s.freeBuffer.entries → x.referenceCount = 0)

include h hb hbuffers hmade hlist hring hfree

theorem set (hbare : Bare c → x.bufferBlock.size = 0)
    (htotal : s'.totalAllocatedMemory
      = s.totalAllocatedMemory + (heldBy c x - heldBy c (s.buffers b))) : Inv c s' := by
  have hall := h.heldAll.set hbuffers hmade hlist hring hfree fun _ => trivial
  refine ⟨hlist ▸ h.nodup, hall.made, hall.ringNodup, hall.free, fun hc a ha => ?_, ?_⟩
  · unfold block
    rw [hbuffers]
    by_cases hab : a = b
    · subst hab
      rw [Function.update_self]
      exact hbare hc
    · rw [Function.update_of_ne hab]
      exact h.bare hc a (hlist ▸ ha)
  · rw [heldMemory_update hlist hbuffers h.nodup hb, htotal, h.accounts]

theorem setSame (hsize : x.bufferBlock.size = (s.block b).size)
    (hheld : heldBy c x = heldBy c (s.buffers b))
    (htotal : s'.totalAllocatedMemory = s.totalAllocatedMemory) : Inv c s' := by
  refine h.set hb hbuffers hmade hlist hring hfree (fun hc => ?_) ?_
  · rw [hsize]
    exact h.bare hc b hb
  · rw [htotal, hheld, sub_self, add_zero]

end Set

/-! ## The calls that move no memory -/

theorem incrementReferenceCount (h : Inv c s) (hb : s.Holds b)
    (hroom : (s.buffers b).referenceCount + 1 ≠ 0) : Inv c (s.incrementReferenceCount b) :=
  h.setSame hb.1 rfl rfl rfl rfl (fun hmem => absurd hmem (h.not_free hb)) rfl
    (heldBy_congr rfl (.inr (iff_of_false hroom hb.2))) rfl

theorem setUsedDataSize (h : Inv c s) (hb : s.Holds b) (dataSize : UnsignedInt) :
    Inv c (s.setUsedDataSize b dataSize) := by
  unfold MemoryPool.setUsedDataSize
  split
  · exact h
  · exact h.setSame hb.1 rfl rfl rfl rfl (fun hmem => absurd hmem (h.not_free hb)) rfl
      (heldBy_congr rfl (.inr Iff.rfl)) rfl

/-! ## Releasing -/

theorem putBack (h : Inv c s) (hb : b ∈ s.listOfBuffers) (hnot : b ∉ s.freeBuffer.entries)
    (hzero : (s.buffers b).referenceCount = 0)
    (hheld : c.numberOfBuffers = none → heldBy c (s.buffers b) = 0) : Inv c (s.putBack c b) := by
  have hall := h.heldAll.putBack (c := c) hb hnot hzero
  cases hnumber : c.numberOfBuffers with
  | some n =>
    simp only [MemoryPool.putBack, hnumber] at hall ⊢
    exact ⟨h.nodup, hall.made, hall.ringNodup, hall.free, h.bare, h.accounts⟩
  | none =>
    simp only [MemoryPool.putBack, hnumber] at hall ⊢
    refine ⟨h.nodup.erase b, hall.made, hall.ringNodup, hall.free,
      fun hc a ha => h.bare hc a (List.mem_of_mem_erase ha), ?_⟩
    show s.totalAllocatedMemory = _
    rw [h.accounts]
    unfold heldMemory
    rw [((List.perm_cons_erase hb).map _).sum_eq]
    simp only [List.map_cons, List.sum_cons, hheld hnumber, zero_add]

section Release

variable (h : Inv c s) (hb : s.Holds b) (hx : x.referenceCount = 0)
  (hsize : x.bufferBlock.size = if c.allocatesPerBuffer then 0 else (s.block b).size)
  (hbuffers : s'.buffers = Function.update s.buffers b x)
  (hmade : s'.buffersMade = s.buffersMade) (hlist : s'.listOfBuffers = s.listOfBuffers)
  (hring : s'.freeBuffer = s.freeBuffer)
  (htotal : s'.totalAllocatedMemory = if c.allocatesPerBuffer
    then s.totalAllocatedMemory - (s.block b).size else s.totalAllocatedMemory)

include h hb hx hsize hbuffers hmade hlist hring htotal

theorem releaseBlock : Inv c s' := by
  by_cases hper : c.allocatesPerBuffer = true
  · rw [if_pos hper] at hsize htotal
    refine h.set hb.1 hbuffers hmade hlist hring (fun _ => hx) (fun _ => hsize) ?_
    rw [htotal, heldBy_unreferenced hper hx, heldBy_referenced hper hb.2, zero_sub,
      sub_eq_add_neg]
    rfl
  · rw [if_neg hper] at hsize htotal
    exact h.setSame hb.1 hbuffers hmade hlist hring (fun _ => hx) hsize
      (heldBy_congr hsize (.inl (Bool.not_eq_true _ ▸ hper))) htotal

theorem releaseRecord : Inv c (s'.putBack c b) := by
  have hinv := h.releaseBlock hb hx hsize hbuffers hmade hlist hring htotal
  have hmem : b ∈ s'.listOfBuffers := by rw [hlist]; exact hb.1
  have hbuffer : s'.buffers b = x := by rw [hbuffers, Function.update_self]
  refine hinv.putBack hmem (by rw [hring]; exact h.not_free hb) (by rw [hbuffer]; exact hx)
    fun hnone => ?_
  by_cases hper : c.allocatesPerBuffer = true
  · exact heldBy_unreferenced hper (by rw [hbuffer]; exact hx)
  · by_cases hsource : c.allocationSource = .noAllocation
    · exact if_pos hsource
    · have hcreation : c.allocateOnPoolCreation = true := by
        by_contra hnot
        simp [PoolConfiguration.allocatesPerBuffer, hsource, hnot] at hper
      unfold heldBy
      rw [if_neg hsource, if_pos (.inl hcreation)]
      exact hinv.bare ⟨hnone, hcreation⟩ b hmem

end Release

theorem releaseBuffer (h : Inv c s) (hb : s.Holds b) {t : MemoryPool}
    (hbuffers : t.buffers = Function.update s.buffers b { s.buffers b with referenceCount := 0 })
    (hmade : t.buffersMade = s.buffersMade) (hlist : t.listOfBuffers = s.listOfBuffers)
    (hring : t.freeBuffer = s.freeBuffer)
    (htotal : t.totalAllocatedMemory = s.totalAllocatedMemory) : Inv c (t.releaseBuffer c b) := by
  have hblock : t.block b = s.block b := by
    unfold block
    rw [hbuffers, Function.update_self]
  obtain ⟨hbuffers', hmade', hlist', hring', htotal'⟩ := deAllocateMemoryBlock_spec t b
  unfold MemoryPool.releaseBuffer
  simp only
  by_cases hper : c.allocatesPerBuffer = true
  · rw [if_pos hper]
    refine h.releaseRecord hb (x := ⟨0, { s.block b with size := 0 }, 0⟩) rfl (if_pos hper).symm
      ?_ (hmade'.trans hmade) (hlist'.trans hlist) (hring'.trans hring) ?_
    · simp only [modifyBuffer, hbuffers', hbuffers, hblock, Function.update_self,
        Function.update_idem]
    · rw [if_pos hper, ← htotal, ← hblock]
      exact htotal'
  · rw [if_neg hper]
    refine h.releaseRecord hb (x := ⟨0, s.block b, 0⟩) rfl (if_neg hper).symm ?_ hmade hlist hring
      (htotal.trans (if_neg hper).symm)
    simp only [modifyBuffer, hbuffers, Function.update_self, Function.update_idem]
    rfl

theorem decrementReferenceCount (h : Inv c s) (hb : s.Holds b) :
    Inv c (s.decrementReferenceCount c b) := by
  unfold MemoryPool.decrementReferenceCount
  simp only
  split
  · next hzero =>
    simp only [modifyBuffer, Function.update_self] at hzero
    refine h.releaseBuffer hb ?_ rfl rfl rfl rfl
    simp only [modifyBuffer, hzero]
  · next hne =>
    simp only [modifyBuffer, Function.update_self] at hne
    exact h.setSame hb.1 rfl rfl rfl rfl (fun hmem => absurd hmem (h.not_free hb)) rfl
      (heldBy_congr rfl (.inr (iff_of_false hne hb.2))) rfl

/-! ## Getting a buffer -/

variable {nonBlocking : Bool} {o : Surroundings}

theorem takeRecord (h : Inv c s) (ht : s.takeRecord c nonBlocking o = .got b s') :
    Inv c s' ∧ Taken s b s' := by
  obtain ⟨hall, htaken⟩ := h.heldAll.takeRecord ht
  refine ⟨?_, htaken⟩
  unfold MemoryPool.takeRecord at ht
  cases hnumber : c.numberOfBuffers with
  | none =>
    simp only [hnumber] at ht
    split at ht
    · obtain ⟨rfl, rfl⟩ := Got.got.inj ht
      have hfresh : ∀ a ∈ s.listOfBuffers, a ≠ s.buffersMade :=
        fun a ha hEq => Nat.lt_irrefl _ (hEq ▸ h.made a ha)
      have hkeep : ∀ a ∈ s.listOfBuffers,
          Function.update s.buffers s.buffersMade ⟨0, ⟨0, 0⟩, 0⟩ a = s.buffers a :=
        fun a ha => Function.update_of_ne (hfresh a ha) _ _
      refine ⟨List.nodup_cons.mpr ⟨fun hmem => hfresh _ hmem rfl, h.nodup⟩, hall.made,
        hall.ringNodup, hall.free, fun hc a ha => ?_, ?_⟩
      · show (Function.update s.buffers s.buffersMade _ a).bufferBlock.size = 0
        rcases List.mem_cons.mp ha with rfl | ha
        · rw [Function.update_self]
        · rw [hkeep a ha]
          exact h.bare hc a ha
      · have hrest : s.listOfBuffers.map (fun a => heldBy c
              (Function.update s.buffers s.buffersMade ⟨0, ⟨0, 0⟩, 0⟩ a)) =
            s.listOfBuffers.map fun a => heldBy c (s.buffers a) :=
          List.map_congr_left fun a ha => by rw [hkeep a ha]
        show s.totalAllocatedMemory =
          heldBy c (Function.update s.buffers s.buffersMade _ s.buffersMade) + List.sum _
        rw [Function.update_self, heldBy_fresh, zero_add, hrest]
        exact h.accounts
    · exact absurd ht (by simp)
  | some n =>
    simp only [hnumber] at ht
    split at ht
    · obtain ⟨rfl, rfl⟩ := Got.got.inj ht
      exact ⟨h.nodup, hall.made, hall.ringNodup, hall.free, h.bare, h.accounts⟩
    · split at ht <;> exact absurd ht (by simp)

theorem handOver (h : Inv c s) (hb : b ∈ s.listOfBuffers) (hnot : b ∉ s.freeBuffer.entries)
    (hzero : (s.buffers b).referenceCount = 0) {block : MemoryBlock}
    (hbuffers : s'.buffers = Function.update s.buffers b { s.buffers b with bufferBlock := block })
    (hmade : s'.buffersMade = s.buffersMade) (hlist : s'.listOfBuffers = s.listOfBuffers)
    (hring : s'.freeBuffer = s.freeBuffer)
    (htotal : c.allocatesPerBuffer = true ∧
        s'.totalAllocatedMemory = s.totalAllocatedMemory + block.size ∨
      c.allocatesPerBuffer = false ∧ block = s.block b ∧
        s'.totalAllocatedMemory = s.totalAllocatedMemory) : Inv c (s'.handOver b) := by
  have hbuffers' : (s'.handOver b).buffers = Function.update s.buffers b ⟨1, block, 0⟩ := by
    simp only [MemoryPool.handOver, modifyBuffer, hbuffers, Function.update_self,
      Function.update_idem]
  rcases htotal with ⟨hper, htotal⟩ | ⟨hper, rfl, htotal⟩
  · refine h.set hb hbuffers' hmade hlist hring (fun hmem => absurd hmem hnot) (fun hc => ?_) ?_
    · have hcreation := hc.2
      simp [PoolConfiguration.allocatesPerBuffer, hcreation] at hper
    · show s'.totalAllocatedMemory = _
      rw [htotal, heldBy_unreferenced hper hzero,
        heldBy_referenced hper (show (1 : UnsignedInt) ≠ 0 by decide), sub_zero]
  · exact h.setSame hb hbuffers' hmade hlist hring (fun hmem => absurd hmem hnot) rfl
      (heldBy_congr rfl (.inl hper)) htotal

variable {memory : Option Grant}

theorem allocateFor (h : Inv c s) (hper : c.allocatesPerBuffer = true) (hb : b ∈ s.listOfBuffers)
    (hnot : b ∉ s.freeBuffer.entries) (hzero : (s.buffers b).referenceCount = 0)
    {itemSize : UnsignedInt} {lowerBound : Bool} {obtained : Bool}
    (ht : s.allocateFor c b itemSize lowerBound memory = (obtained, s')) :
    if obtained then Inv c (s'.handOver b) else Inv c s' := by
  unfold MemoryPool.allocateFor at ht
  simp only at ht
  obtain ⟨rfl, rfl⟩ := Prod.mk.inj ht
  generalize c.allocateMemoryBlock { s.block b with size := itemSize } false
    c.memoryPoolAllocator lowerBound memory = r
  obtain ⟨obtained, block⟩ := r
  cases obtained with
  | true =>
    exact h.handOver hb hnot hzero rfl rfl rfl rfl (.inl ⟨hper, rfl⟩)
  | false =>
    refine h.set hb rfl rfl rfl rfl (fun _ => hzero) (fun hc => ?_) ?_
    · have hcreation := hc.2
      simp [PoolConfiguration.allocatesPerBuffer, hcreation] at hper
    · -- a record that nobody holds has no memory, before or after
      have hnew : heldBy c { s.buffers b with bufferBlock := block } = 0 :=
        heldBy_unreferenced hper hzero
      show s.totalAllocatedMemory = s.totalAllocatedMemory
        + (heldBy c { s.buffers b with bufferBlock := block } - heldBy c (s.buffers b))
      rw [hnew, heldBy_unreferenced hper hzero, sub_self, add_zero]

section

variable {requiredSize : UnsignedInt} {nonBlocking lowerBound : Bool} {o : Surroundings}

theorem getBuffer_got (h : Inv c s)
    (hgot : s.getBuffer c requiredSize nonBlocking lowerBound o = .got b s') :
    Inv c s' ∧ s'.Holds b ∧
      ∀ a, s.Holds a → a ≠ b ∧ s'.buffers a = s.buffers a ∧ a ∈ s'.listOfBuffers := by
  refine ⟨?_, (h.heldAll.getBuffer_got (fun _ => trivial) hgot).2⟩
  obtain ⟨t, htake, hrest⟩ := MemoryPool.getBuffer_got hgot
  obtain ⟨ht, hmem, hzero, hnot, -⟩ := h.takeRecord htake
  rcases hrest with ⟨hper, itemSize, u, -, hallocate, rfl⟩ | ⟨hper, rfl⟩
  · exact ht.allocateFor hper hmem hnot hzero hallocate
  · exact ht.handOver hmem hnot hzero (Function.update_eq_self b t.buffers).symm rfl rfl rfl
      (.inr ⟨hper, rfl, rfl⟩)

theorem getBuffer_waits (h : Inv c s)
    (hwaits : s.getBuffer c requiredSize nonBlocking lowerBound o = .waitingForMemory b s') :
    Inv c s' := by
  obtain ⟨hper, itemSize, t, -, htake, hallocate⟩ := MemoryPool.getBuffer_waits hwaits
  obtain ⟨ht, hmem, hzero, hnot, -⟩ := h.takeRecord htake
  exact ht.allocateFor hper hmem hnot hzero hallocate

theorem memoryGranted (h : Inv c s) (hper : c.allocatesPerBuffer = true) (hwaits : s.Waits b)
    (granted : Grant) : Inv c (s.memoryGranted b lowerBound granted) :=
  h.handOver hwaits.1 hwaits.2.2 hwaits.2.1 rfl rfl rfl rfl (.inl ⟨hper, rfl⟩)

end

/-! ## Resizing and splitting -/

theorem setBlock (h : Inv c s) (hb : s.Holds b) {block : MemoryBlock}
    (hsize : block.size = (s.block b).size) : Inv c (s.setBlock b block) :=
  h.setSame hb.1 rfl rfl rfl rfl (fun hmem => absurd hmem (h.not_free hb)) hsize
    (heldBy_congr hsize (.inr Iff.rfl)) rfl

theorem shrinkBuffer (h : Inv c s) (hb : s.Holds b) {newSize : UnsignedInt}
    (hkeep : s.KeepsAccounts c (.shrinkBuffer b newSize)) : Inv c (s.shrinkBuffer c b newSize) := by
  unfold MemoryPool.shrinkBuffer
  cases hshrunk : s.shrunkBlock c b newSize with
  | none => exact h
  | some block =>
    refine h.setBlock hb ?_
    rcases shrunkBlock_some hshrunk with rfl | ⟨hresizable, hdata, hsmaller, rfl⟩
    · rfl
    · exact hkeep hresizable hdata hsmaller

theorem extendBuffer (h : Inv c s) (hb : s.Holds b)
    (hkeep : s.KeepsAccounts c (.extendBuffer b memory)) : Inv c (s.extendBuffer c b memory) := by
  unfold MemoryPool.extendBuffer
  cases hextended : c.extendMemoryBlock (s.block b) memory with
  | none => exact h
  | some block =>
    refine h.setBlock hb ?_
    obtain ⟨hresizable, granted, rfl, hsize⟩ := extendMemoryBlock_some hextended
    rcases hkeep hresizable with hnone | hsame
    · exact absurd hnone (by simp)
    · exact hsize.trans (Option.some.inj hsame)

variable {leave : UnsignedInt}

theorem getBuffer_zero (hsupports : c.supportsPartitioning = true)
    (hkeep : s.KeepsAccounts c (.partitionBuffer b leave nonBlocking o)) {new : Nat}
    (hgot : s.getBuffer c 0 nonBlocking false o = .got new s') : heldBy c (s'.buffers new) = 0 := by
  simp only [PoolConfiguration.supportsPartitioning, Bool.and_eq_true, Bool.not_eq_true',
    Bool.or_eq_true, beq_iff_eq] at hsupports
  obtain ⟨hcreation, hsource⟩ := hsupports
  obtain ⟨t, htake, ⟨hper, itemSize, u, hcheck, hallocate, rfl⟩ | ⟨hper, rfl⟩⟩ :=
    MemoryPool.getBuffer_got hgot
  · obtain ⟨hitem, hspecified, hsource⟩ := checkMemoryParameters_size hcheck
    have hblock := allocateFor_block hallocate
    unfold PoolConfiguration.allocateMemoryBlock at hblock
    simp only [hsource] at hblock
    by_cases hzero : itemSize = 0
    · rw [if_pos hzero] at hblock
      have hsize : (u.block new).size = 0 := by
        rw [← (Prod.mk.inj hblock).2]
        exact hzero
      rw [heldBy_referenced hper (handOver_referenced u new), handOver_block]
      exact hsize
    · -- a pool of fixed-size buffers: had the allocator to refuse, it would have refused here
      rw [if_neg hzero] at hblock
      have hfixed : c.hasFixedSize = true := by
        by_contra hnot
        rw [if_neg hnot] at hitem
        exact hzero hitem
      rw [if_pos hfixed] at hitem
      obtain ⟨hallocator, hrefuses⟩ := hkeep ⟨hsource, hcreation⟩ hfixed (hitem ▸ hzero)
        (hitem ▸ hspecified) (.of_takeRecord htake)
      simp [hallocator, hrefuses] at hblock
  · have hsource : c.allocationSource = .noAllocation := by
      refine hsource.resolve_left fun hsupplied => ?_
      simp [PoolConfiguration.allocatesPerBuffer, hsupplied, hcreation] at hper
    exact if_pos hsource

theorem split (h : Inv c s) {new : Nat} (hnew : s.Holds new) (hb : s.Holds b) (hne : b ≠ new)
    (hzero : heldBy c (s.buffers new) = 0) (hsupports : c.supportsPartitioning = true) :
    Inv c (s.split b new leave) := by
  have hcreation : c.allocateOnPoolCreation = false := by
    simp only [PoolConfiguration.supportsPartitioning, Bool.and_eq_true, Bool.not_eq_true']
      at hsupports
    exact hsupports.1
  have hbare : ¬ Bare c := fun hc => by
    have := hc.2
    simp [hcreation] at this
  -- a held record holds its size, or nothing where there is no memory at all
  have hheld : ∀ x : BufferRecord, x.referenceCount ≠ 0 → heldBy c x =
      if c.allocationSource = .noAllocation then 0 else x.bufferBlock.size := by
    intro x hx
    unfold heldBy
    by_cases hsource : c.allocationSource = .noAllocation
    · rw [if_pos hsource, if_pos hsource]
    · rw [if_neg hsource, if_neg hsource, if_pos (.inr hx)]
  let first := s.buffers b
  let x : BufferRecord :=
    { s.buffers new with
      bufferBlock :=
        { first.bufferBlock with
          size := first.bufferBlock.size - leave
          poolAllocatedOffset := first.bufferBlock.poolAllocatedOffset + leave }
      dataSize := first.dataSize - leave }
  let y : BufferRecord :=
    { first with
      bufferBlock := { first.bufferBlock with size := leave }
      dataSize := leave }
  -- the new record has its part, and the total counts it twice until the old one shrinks
  have hmiddle : Inv c { s.modifyBuffer new fun _ => x with
      totalAllocatedMemory := s.totalAllocatedMemory + heldBy c x } :=
    h.set hnew.1 rfl rfl rfl rfl (fun hmem => absurd hmem (h.not_free hnew))
      (fun hc => absurd hc hbare) (by rw [hzero, sub_zero])
  refine hmiddle.set (x := y) hb.1 ?_ rfl rfl rfl (fun hmem => absurd hmem (h.not_free hb))
    (fun hc => absurd hc hbare) ?_
  · show Function.update (Function.update s.buffers new x) b
        { (Function.update s.buffers new x) b with
          bufferBlock := { ((Function.update s.buffers new x) b).bufferBlock with size := leave }
          dataSize := leave } = Function.update (Function.update s.buffers new x) b y
    rw [Function.update_of_ne hne]
  · have hold : (Function.update s.buffers new x) b = s.buffers b := Function.update_of_ne hne _ _
    show s.totalAllocatedMemory = s.totalAllocatedMemory + heldBy c x
      + (heldBy c y - heldBy c ((Function.update s.buffers new x) b))
    rw [hold, hheld x hnew.2, hheld y hb.2, hheld (s.buffers b) hb.2]
    split
    · simp
    · show _ = s.totalAllocatedMemory + ((s.buffers b).bufferBlock.size - leave)
        + (leave - (s.buffers b).bufferBlock.size)
      ring

theorem partitionBuffer (h : Inv c s) (hb : s.Holds b)
    (hkeep : s.KeepsAccounts c (.partitionBuffer b leave nonBlocking o)) :
    Inv c (s.partitionBuffer c b leave nonBlocking o) := by
  unfold MemoryPool.partitionBuffer
  split
  · next hsupports =>
    split
    · next new t hgot =>
      obtain ⟨ht, hnew, hkept⟩ := h.getBuffer_got hgot
      obtain ⟨hne, hsame, hmem⟩ := hkept b hb
      exact ht.split hnew ⟨hmem, by rw [hsame]; exact hb.2⟩ hne
        (getBuffer_zero hsupports hkeep hgot) hsupports
    · next hfailed => exact MemoryPool.getBuffer_failed hfailed ▸ h
    · next hwaits => exact h.getBuffer_waits hwaits
    · exact h
  · exact h

theorem step (h : Inv c s) {op : Operation} (hkeep : s.Callable op → s.KeepsAccounts c op) :
    Inv c (s.step c op) := by
  unfold MemoryPool.step
  split
  · next hcallable =>
    have hkeep := hkeep hcallable
    cases op with
    | getBuffer requiredSize nonBlocking lowerBound o =>
      unfold MemoryPool.apply
      dsimp only
      split
      · next hgot => exact (h.getBuffer_got hgot).1
      · next hfailed => exact MemoryPool.getBuffer_failed hfailed ▸ h
      · next hwaits => exact h.getBuffer_waits hwaits
      · exact h
    | incrementReferenceCount b => exact h.incrementReferenceCount hcallable.1 hcallable.2
    | decrementReferenceCount b => exact h.decrementReferenceCount hcallable
    | setUsedDataSize b dataSize => exact h.setUsedDataSize hcallable dataSize
    | shrinkBuffer b newSize => exact h.shrinkBuffer hcallable hkeep
    | extendBuffer b memory => exact h.extendBuffer hcallable hkeep
    | partitionBuffer b leave nonBlocking o => exact h.partitionBuffer hcallable hkeep
    | memoryGranted b lowerBound granted partitioned =>
      unfold MemoryPool.apply
      dsimp only
      split
      · next hsupplied =>
        rw [hkeep (resizable_of_supplied hsupplied)]
        exact h.memoryGranted (Bool.and_eq_true_iff.mp hsupplied).1 hcallable.1 granted
      · exact h
  · exact h

/-! ## The constructor -/

theorem allocateMemoryBlock_array (block : MemoryBlock) (memory : Option Grant) :
    (c.allocateMemoryBlock block true false false memory).2.size = block.size := by
  unfold PoolConfiguration.allocateMemoryBlock
  split
  · rfl
  · cases c.allocationSource <;> rfl

theorem empty : Inv c MemoryPool.empty where
  nodup := List.nodup_nil
  made := by simp [MemoryPool.empty]
  ringNodup := List.nodup_nil
  free := by simp [MemoryPool.empty]
  bare := by simp [MemoryPool.empty]
  accounts := rfl

theorem withBuffers {n : Nat} {block : MemoryBlock} {total : UnsignedInt} (hbare : ¬ Bare c)
    (htotal : total = heldBy c ⟨0, block, 0⟩ * BitVec.ofNat 32 n) :
    Inv c (MemoryPool.withBuffers n block total) := by
  have hall : HeldAll (fun _ => True) (MemoryPool.withBuffers n block total) := .withBuffers ..
  refine ⟨List.nodup_reverse.mpr List.nodup_range, hall.made, hall.ringNodup, hall.free,
    fun hc => absurd hc hbare, ?_⟩
  show total = ((List.range n).reverse.map fun _ => heldBy c ⟨0, block, 0⟩).sum
  rw [List.map_const', List.sum_replicate, List.length_reverse, List.length_range,
    nsmul_eq_mul, htotal, mul_comm]
  rfl

theorem created (h : MemoryPool.created c memory = some s) : Inv c s := by
  unfold MemoryPool.created at h
  split at h
  · obtain rfl := Option.some.inj h
    exact .empty
  · next n hnumber =>
    split at h
    · next hcreation =>
      split at h
      · exact absurd h (by simp)
      · next itemSize hcheck =>
        have hsize := allocateMemoryBlock_array (c := c) ⟨itemSize * BitVec.ofNat 32 n, 0⟩ memory
        have hsource : c.allocationSource ≠ .noAllocation := fun hnone => by
          simp [PoolConfiguration.checkMemoryParameters, hnone] at hcheck
        have hheld : heldBy c ⟨0, ⟨itemSize, 0⟩, 0⟩ = itemSize := by
          unfold heldBy
          rw [if_neg hsource, if_pos (.inl hcreation)]
        split at h
        · exact absurd h (by simp)
        · next block hallocate =>
          obtain rfl := Option.some.inj h
          rw [hallocate] at hsize
          refine .withBuffers (fun hc => by simp [Bare, hnumber] at hc) ?_
          rw [hheld, hsize]
    · next hcreation =>
      obtain rfl := Option.some.inj h
      refine .withBuffers (fun hc => by simp [Bare, hnumber] at hc) ?_
      rw [heldBy_fresh, zero_mul]

end Inv

/-! ## The accounts of a run -/

/-- At the end of every run from creation whose calls keep the accounts, the
total is the memory the buffers hold; it is 0 when memory comes with each buffer
and all buffers are released. -/
theorem totalAllocatedMemory_accounts (c : PoolConfiguration) (memory : Option Grant)
    (start : MemoryPool) (hcreated : created c memory = some start) (ops : List Operation)
    (hkeep : Along (step c) (fun s op => s.Callable op → s.KeepsAccounts c op) start ops) :
    let s := ops.foldl (step c) start
    s.totalAllocatedMemory = s.heldMemory c ∧
      (c.allocatesPerBuffer = true →
        (∀ b ∈ s.listOfBuffers, (s.buffers b).referenceCount = 0) →
          s.totalAllocatedMemory = 0) := by
  intro s
  have hinv : Inv c s := foldl_inv (fun hok h => h.step hok) ops hkeep (.created hcreated)
  refine ⟨hinv.accounts, fun hper hreleased => ?_⟩
  rw [hinv.accounts]
  refine List.sum_eq_zero fun v hv => ?_
  obtain ⟨b, hb, rfl⟩ := List.mem_map.mp hv
  exact heldBy_unreferenced hper (hreleased b hb)

/-- A pool of two buffers whose memory comes from a supplied block. -/
def suppliedBlockPool : PoolConfiguration where
  allocationSource := .allocateFromSuppliedBlock
  allocationUnitSize := 1024
  hasFixedSize := false
  allocateOnPoolCreation := false
  fixedSize := notSpecified
  numberOfBuffers := some 2
  size := 65536
  memoryPool := true
  arrayOfMemoryBlocks := false
  memoryPartitionName := false

/-- A buffer of 4000 bytes, taken and split, and its first part shrunk to a size
that rounds to the one it has. -/
theorem totalAllocatedMemory_accounts_partitioned :
    let ops : List Operation :=
      [.getBuffer 4000 false false ⟨false, false, some ⟨4096, 0⟩⟩,
        .partitionBuffer 0 2048 false ⟨false, false, none⟩, .shrinkBuffer 0 1500,
        .decrementReferenceCount 0]
    ∃ start, created suppliedBlockPool none = some start ∧
      Along (step suppliedBlockPool)
        (fun s op => s.Callable op → s.KeepsAccounts suppliedBlockPool op) start ops ∧
      (ops.foldl (step suppliedBlockPool) start).totalAllocatedMemory
        = (ops.foldl (step suppliedBlockPool) start).heldMemory suppliedBlockPool ∧
      (ops.foldl (step suppliedBlockPool) start).totalAllocatedMemory = 2048 := by
  intro ops
  have hcreated : created suppliedBlockPool none = some (withBuffers 2 ⟨0, 0⟩ 0) := rfl
  have hkeep : Along (step suppliedBlockPool)
      (fun s op => s.Callable op → s.KeepsAccounts suppliedBlockPool op)
      (withBuffers 2 ⟨0, 0⟩ 0) ops := by
    decide +kernel
  exact ⟨_, hcreated, hkeep,
    (totalAllocatedMemory_accounts suppliedBlockPool none _ hcreated ops hkeep).1, by
      decide +kernel⟩

/-- A buffer of 4096 bytes shrunk to 1024 and released: the total keeps the
difference, though no buffer holds anything. -/
theorem totalAllocatedMemory_drifts :
    let ops : List Operation :=
      [.getBuffer 4096 false false ⟨false, false, some ⟨4096, 0⟩⟩, .shrinkBuffer 0 1024,
        .decrementReferenceCount 0]
    ∃ start, created suppliedBlockPool none = some start ∧
      (∀ b ∈ (ops.foldl (step suppliedBlockPool) start).listOfBuffers,
        ((ops.foldl (step suppliedBlockPool) start).buffers b).referenceCount = 0) ∧
      (ops.foldl (step suppliedBlockPool) start).heldMemory suppliedBlockPool = 0 ∧
      (ops.foldl (step suppliedBlockPool) start).totalAllocatedMemory = 3072 :=
  ⟨_, rfl, by decide +kernel, by decide +kernel, by decide +kernel⟩

/-! ## A `GetBuffer` that fails -/

/-- Whatever is in the pool and whatever is asked for, a `GetBuffer` that returns an error has
left the pool as it was. -/
theorem getBuffer_atomic (c : PoolConfiguration) (s : MemoryPool) (requiredSize : UnsignedInt)
    (nonBlocking lowerBound : Bool) (o : Surroundings) (status : BufferStatus) (s' : MemoryPool)
    (hfailed : s.getBuffer c requiredSize nonBlocking lowerBound o = .failed status s') : s' = s :=
  getBuffer_failed hfailed

/-- A pool that allocates from a supplied block, with both of its buffers given out. -/
theorem getBuffer_atomic_none :
    ∃ s s' : MemoryPool, s.getBuffer suppliedBlockPool 4096 true false ⟨false, false, none⟩ =
      .failed .bufferNoFreeBufferAvailable s' ∧ s' = s :=
  ⟨_, _, rfl, getBuffer_atomic suppliedBlockPool
    ([.getBuffer 4096 true false ⟨false, false, some ⟨4096, 0⟩⟩,
      .getBuffer 4096 true false ⟨false, false, some ⟨4096, 4096⟩⟩].foldl
        (step suppliedBlockPool) (withBuffers 2 ⟨0, 0⟩ 0)) 4096 true false
    ⟨false, false, none⟩ .bufferNoFreeBufferAvailable _ rfl⟩

/-- A call that has waited for memory comes to what it would have with that memory at once. -/
theorem getBuffer_granted {c : PoolConfiguration} {s s' : MemoryPool} {requiredSize : UnsignedInt}
    {nonBlocking lowerBound : Bool} {o : Surroundings} {b : Nat}
    (h : s.getBuffer c requiredSize nonBlocking lowerBound o = .waitingForMemory b s')
    (granted : Grant) :
    s.getBuffer c requiredSize nonBlocking lowerBound { o with memory := some granted } =
      .got b (s'.memoryGranted b lowerBound granted) := by
  obtain ⟨hper, itemSize, t, hcheck, htake, hallocate⟩ := getBuffer_waits h
  have hsource := (checkMemoryParameters_size hcheck).2.2
  have htake' : s.takeRecord c nonBlocking { o with memory := some granted } = .got b t := htake
  have hlacks : itemSize ≠ 0 ∧ c.memoryPoolAllocator = true ∧ o.memory = none := by
    rw [← allocateFor_fails hsource, hallocate]
  obtain ⟨hsize, hallocator, hmemory⟩ := hlacks
  have hsize : ¬ itemSize = 0#32 := hsize
  have hwaited : s' = t.setBlock b ⟨c.roundUp itemSize, 0⟩ := by
    have hsame : (t.allocateFor c b itemSize lowerBound o.memory).2 = s' := by rw [hallocate]
    rw [← hsame]
    simp [allocateFor, PoolConfiguration.allocateMemoryBlock, hsource, hsize, hallocator, hmemory]
  have hgranted : t.allocateFor c b itemSize lowerBound (some granted) =
      (true, { t.setBlock b
          ⟨if lowerBound then granted.size else c.roundUp itemSize, granted.offset⟩ with
        totalAllocatedMemory := t.totalAllocatedMemory +
          if lowerBound then granted.size else c.roundUp itemSize }) := by
    simp [allocateFor, PoolConfiguration.allocateMemoryBlock, hsource, hsize, hallocator]
    rfl
  unfold getBuffer
  simp only [hper, hcheck, htake', hgranted, if_true, hwaited]
  congr 1
  simp [memoryGranted, setBlock, modifyBuffer, block, Function.update_idem]

end MemoryPool

end Duckbox.BufferPool
