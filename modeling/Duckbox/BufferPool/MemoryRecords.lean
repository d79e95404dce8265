import Duckbox.BufferPool.Memory

/-!
# The records of a buffer pool

What `GetBuffer` does to the records of a pool, and what holds of every record that is
held, whatever is said of it (`HeldAll`).
-/

namespace Duckbox.BufferPool

open Duckbox.Lib

namespace MemoryPool

section

variable {c : PoolConfiguration} {s s' : MemoryPool} {requiredSize : UnsignedInt}
  {nonBlocking lowerBound : Bool} {o : Surroundings} {b : Nat} {status : BufferStatus}

/-! ## What `GetBuffer` can do -/

theorem takeRecord_failed (h : s.takeRecord c nonBlocking o = .failed status s') : s' = s := by
  unfold takeRecord at h
  split at h
  · split at h
    · exact absurd h (by simp)
    · exact (Got.failed.inj h).2.symm
  · split at h
    · exact absurd h (by simp)
    · split at h
      · exact (Got.failed.inj h).2.symm
      · exact absurd h (by simp)

theorem getBuffer_got (h : s.getBuffer c requiredSize nonBlocking lowerBound o = .got b s') :
    ∃ t, s.takeRecord c nonBlocking o = .got b t ∧
      (c.allocatesPerBuffer = true ∧ (∃ itemSize u,
          c.checkMemoryParameters false requiredSize true false = some itemSize ∧
          t.allocateFor c b itemSize lowerBound o.memory = (true, u) ∧ s' = u.handOver b) ∨
        c.allocatesPerBuffer = false ∧ s' = t.handOver b) := by
  unfold getBuffer at h
  split at h
  · next hper =>
    split at h
    · exact absurd h (by simp)
    · next itemSize hcheck =>
      split at h
      · next a t htake =>
        split at h
        · next u hallocate =>
          obtain ⟨rfl, rfl⟩ := Got.got.inj h
          exact ⟨t, htake, .inl ⟨hper, itemSize, u, hcheck, hallocate, rfl⟩⟩
        · split at h <;> exact absurd h (by simp)
      · next hother => exact absurd h (hother b s')
  · next hper =>
    split at h
    · next a t htake =>
      obtain ⟨rfl, rfl⟩ := Got.got.inj h
      exact ⟨t, htake, .inr ⟨by simpa using hper, rfl⟩⟩
    · next hother => exact absurd h (hother b s')

theorem takeRecord_waits (h : s.takeRecord c nonBlocking o = .waitingForMemory b s') : False := by
  unfold takeRecord at h
  split at h
  · split at h <;> exact absurd h (by simp)
  · split at h
    · exact absurd h (by simp)
    · split at h <;> exact absurd h (by simp)

theorem getBuffer_waits
    (h : s.getBuffer c requiredSize nonBlocking lowerBound o = .waitingForMemory b s') :
    c.allocatesPerBuffer = true ∧ ∃ itemSize t,
      c.checkMemoryParameters false requiredSize true false = some itemSize ∧
      s.takeRecord c nonBlocking o = .got b t ∧
      t.allocateFor c b itemSize lowerBound o.memory = (false, s') := by
  unfold getBuffer at h
  split at h
  · next hper =>
    split at h
    · exact absurd h (by simp)
    · next itemSize hcheck =>
      split at h
      · next a t htake =>
        split at h
        · exact absurd h (by simp)
        · next u hallocate =>
          split at h
          · obtain ⟨rfl, rfl⟩ := Got.waitingForMemory.inj h
            exact ⟨hper, itemSize, t, hcheck, htake, hallocate⟩
          · exact absurd h (by simp)
      · exact (takeRecord_waits h).elim
  · split at h
    · exact absurd h (by simp)
    · exact (takeRecord_waits h).elim

/-! ## A record that is taken -/

/-- What is known of the record a `GetBuffer` has taken: it is one of the pool's,
nobody holds it, and those that are held have not changed. -/
def Taken (s : MemoryPool) (b : Nat) (s' : MemoryPool) : Prop :=
  b ∈ s'.listOfBuffers ∧ (s'.buffers b).referenceCount = 0 ∧ b ∉ s'.freeBuffer.entries ∧
    ∀ a, s.Holds a → a ≠ b ∧ s'.buffers a = s.buffers a ∧ a ∈ s'.listOfBuffers

theorem handOver_referenced (s : MemoryPool) (b : Nat) :
    ((s.handOver b).buffers b).referenceCount ≠ 0 := by
  show (Function.update s.buffers b _ b).referenceCount ≠ 0
  rw [Function.update_self]
  show (1 : UnsignedInt) ≠ 0
  decide

theorem handOver_holds (hb : b ∈ s.listOfBuffers) : (s.handOver b).Holds b :=
  ⟨hb, handOver_referenced s b⟩

theorem handOver_block (s : MemoryPool) (b : Nat) :
    ((s.handOver b).buffers b).bufferBlock = s.block b := by
  show (Function.update s.buffers b _ b).bufferBlock = _
  rw [Function.update_self]
  rfl

theorem handOver_of_ne {a : Nat} (h : a ≠ b) : (s.handOver b).buffers a = s.buffers a :=
  Function.update_of_ne h _ _

theorem deAllocateMemoryBlock_spec (s : MemoryPool) (b : Nat) :
    (s.deAllocateMemoryBlock b).buffers = Function.update s.buffers b
        { s.buffers b with bufferBlock := { s.block b with size := 0 } } ∧
      (s.deAllocateMemoryBlock b).buffersMade = s.buffersMade ∧
      (s.deAllocateMemoryBlock b).listOfBuffers = s.listOfBuffers ∧
      (s.deAllocateMemoryBlock b).freeBuffer = s.freeBuffer ∧
      (s.deAllocateMemoryBlock b).totalAllocatedMemory
        = s.totalAllocatedMemory - (s.block b).size := by
  unfold deAllocateMemoryBlock
  simp only
  split
  · next hzero =>
    refine ⟨?_, rfl, rfl, rfl, ?_⟩
    · rw [← hzero]
      exact (Function.update_eq_self b s.buffers).symm
    · rw [hzero]
      exact (BitVec.sub_zero _).symm
  · exact ⟨rfl, rfl, rfl, rfl, rfl⟩

end

/-! ## A property of every buffer held -/

/-- The records are where they should be, and those that are held have a property. -/
structure HeldAll (P : BufferRecord → Prop) (s : MemoryPool) : Prop where
  made : ∀ b ∈ s.listOfBuffers, b < s.buffersMade
  ringNodup : s.freeBuffer.entries.Nodup
  free : ∀ b ∈ s.freeBuffer.entries, b ∈ s.listOfBuffers ∧ (s.buffers b).referenceCount = 0
  held : ∀ b, s.Holds b → P (s.buffers b)

namespace HeldAll

variable {P : BufferRecord → Prop} {c : PoolConfiguration} {s s' : MemoryPool} {b : Nat}
  {x : BufferRecord}

theorem not_free (h : HeldAll P s) (hb : s.Holds b) : b ∉ s.freeBuffer.entries :=
  fun hmem => hb.2 (h.free b hmem).2

theorem set (h : HeldAll P s) (hbuffers : s'.buffers = Function.update s.buffers b x)
    (hmade : s'.buffersMade = s.buffersMade) (hlist : s'.listOfBuffers = s.listOfBuffers)
    (hring : s'.freeBuffer = s.freeBuffer)
    (hfree : b ∈ s.freeBuffer.entries → x.referenceCount = 0)
    (hx : x.referenceCount ≠ 0 → P x) : HeldAll P s' where
  made := by rw [hlist, hmade]; exact h.made
  ringNodup := hring ▸ h.ringNodup
  free := by
    rw [hring, hlist, hbuffers]
    intro a ha
    refine ⟨(h.free a ha).1, ?_⟩
    by_cases hab : a = b
    · subst hab
      rw [Function.update_self]
      exact hfree ha
    · rw [Function.update_of_ne hab]
      exact (h.free a ha).2
  held := by
    intro a ha
    unfold Holds at ha
    rw [hlist, hbuffers] at ha
    rw [hbuffers]
    by_cases hab : a = b
    · subst hab
      rw [Function.update_self] at ha ⊢
      exact hx ha.2
    · rw [Function.update_of_ne hab] at ha ⊢
      exact h.held a ha

theorem setHeld (h : HeldAll P s) (hb : s.Holds b)
    (hbuffers : s'.buffers = Function.update s.buffers b x)
    (hmade : s'.buffersMade = s.buffersMade) (hlist : s'.listOfBuffers = s.listOfBuffers)
    (hring : s'.freeBuffer = s.freeBuffer) (hx : x.referenceCount ≠ 0 → P x) : HeldAll P s' :=
  h.set hbuffers hmade hlist hring (fun hmem => absurd hmem (h.not_free hb)) hx

theorem putBack (h : HeldAll P s) (hb : b ∈ s.listOfBuffers) (hnot : b ∉ s.freeBuffer.entries)
    (hzero : (s.buffers b).referenceCount = 0) : HeldAll P (s.putBack c b) := by
  unfold MemoryPool.putBack
  cases c.numberOfBuffers with
  | some n =>
    refine ⟨h.made, ?_, ?_, h.held⟩
    · show (s.freeBuffer.insert b).entries.Nodup
      unfold Ring.insert
      split
      · exact h.ringNodup
      · rw [List.nodup_append]
        refine ⟨h.ringNodup, List.nodup_singleton b, fun a ha d hd hEq => ?_⟩
        rw [List.mem_singleton] at hd
        rw [hEq, hd] at ha
        exact hnot ha
    · show ∀ a ∈ (s.freeBuffer.insert b).entries, _
      unfold Ring.insert
      intro a ha
      split at ha
      · exact h.free a ha
      · rcases List.mem_append.mp ha with ha | ha
        · exact h.free a ha
        · obtain rfl := List.mem_singleton.mp ha
          exact ⟨hb, hzero⟩
  | none =>
    refine ⟨fun a ha => h.made a (List.mem_of_mem_erase ha), h.ringNodup, fun a ha => ?_,
      fun a ha => h.held a ⟨List.mem_of_mem_erase ha.1, ha.2⟩⟩
    obtain ⟨hmem, hcount⟩ := h.free a ha
    have hne : a ≠ b := by
      rintro rfl
      exact hnot ha
    exact ⟨(List.mem_erase_of_ne hne).mpr hmem, hcount⟩

theorem releaseBuffer (h : HeldAll P s) (hb : s.Holds b) {t : MemoryPool}
    (hbuffers : t.buffers = Function.update s.buffers b { s.buffers b with referenceCount := 0 })
    (hmade : t.buffersMade = s.buffersMade) (hlist : t.listOfBuffers = s.listOfBuffers)
    (hring : t.freeBuffer = s.freeBuffer) : HeldAll P (t.releaseBuffer c b) := by
  have hrecord {u : MemoryPool} {y : BufferRecord} (hy : y.referenceCount = 0)
      (hbuffers' : u.buffers = Function.update s.buffers b y)
      (hmade' : u.buffersMade = t.buffersMade) (hlist' : u.listOfBuffers = t.listOfBuffers)
      (hring' : u.freeBuffer = t.freeBuffer) : HeldAll P (u.putBack c b) := by
    have hinv := h.set hbuffers' (hmade'.trans hmade) (hlist'.trans hlist) (hring'.trans hring)
      (fun _ => hy) fun hne => absurd hy hne
    refine hinv.putBack (by rw [hlist', hlist]; exact hb.1)
      (by rw [hring', hring]; exact h.not_free hb) ?_
    rw [hbuffers', Function.update_self]
    exact hy
  have hzero : (t.buffers b).referenceCount = 0 := by rw [hbuffers, Function.update_self]
  obtain ⟨hbuffers', hmade', hlist', hring', -⟩ := deAllocateMemoryBlock_spec t b
  unfold MemoryPool.releaseBuffer
  simp only
  split
  · refine hrecord (y := ⟨0, { t.block b with size := 0 }, 0⟩) rfl ?_ hmade' hlist' hring'
    simp only [modifyBuffer, hbuffers', hbuffers, Function.update_self, Function.update_idem]
  · refine hrecord (y := { t.buffers b with dataSize := 0 }) hzero ?_ rfl rfl rfl
    simp only [modifyBuffer, hbuffers, Function.update_self, Function.update_idem]

theorem decrementReferenceCount (h : HeldAll P s) (hb : s.Holds b)
    (hP : ∀ n, P { s.buffers b with referenceCount := n }) :
    HeldAll P (s.decrementReferenceCount c b) := by
  unfold MemoryPool.decrementReferenceCount
  simp only
  split
  · next hzero =>
    simp only [modifyBuffer, Function.update_self] at hzero
    refine h.releaseBuffer hb ?_ rfl rfl rfl
    simp only [modifyBuffer, hzero]
  · exact h.setHeld hb rfl rfl rfl rfl fun _ => hP _

/-! ## Getting a buffer -/

theorem takeRecord (h : HeldAll P s) {nonBlocking : Bool} {o : Surroundings}
    (ht : s.takeRecord c nonBlocking o = .got b s') : HeldAll P s' ∧ Taken s b s' := by
  unfold MemoryPool.takeRecord at ht
  cases hnumber : c.numberOfBuffers with
  | none =>
    simp only [hnumber] at ht
    split at ht
    · obtain ⟨rfl, rfl⟩ := Got.got.inj ht
      have hfresh : ∀ a ∈ s.listOfBuffers, a ≠ s.buffersMade :=
        fun a ha hEq => Nat.lt_irrefl _ (hEq ▸ h.made a ha)
      have hkeep : ∀ a ∈ s.listOfBuffers,
          Function.update s.buffers s.buffersMade ⟨0, ⟨0, 0⟩, 0⟩ a = s.buffers a :=
        fun a ha => Function.update_of_ne (hfresh a ha) _ _
      refine ⟨⟨fun a ha => ?_, h.ringNodup, fun a ha => ?_, fun a ha => ?_⟩,
        List.mem_cons_self, ?_, fun hmem => hfresh _ (h.free _ hmem).1 rfl, fun a ha =>
        ⟨hfresh a ha.1, hkeep a ha.1, List.mem_cons_of_mem _ ha.1⟩⟩
      · rcases List.mem_cons.mp ha with rfl | ha
        · exact Nat.lt_succ_self _
        · exact Nat.lt_succ_of_lt (h.made a ha)
      · obtain ⟨hold, hzero⟩ := h.free a ha
        exact ⟨List.mem_cons_of_mem _ hold, (congrArg _ (hkeep a hold)).trans hzero⟩
      · obtain ⟨hmem, hne⟩ := ha
        rcases List.mem_cons.mp hmem with rfl | hmem
        · exact absurd (congrArg _ (Function.update_self s.buffersMade _ s.buffers)) hne
        · simp only [hkeep a hmem] at hne ⊢
          exact h.held a ⟨hmem, hne⟩
      · exact congrArg _ (Function.update_self s.buffersMade _ s.buffers)
    · exact absurd ht (by simp)
  | some n =>
    simp only [hnumber] at ht
    split at ht
    · next hextract =>
      obtain ⟨rfl, rfl⟩ := Got.got.inj ht
      unfold Ring.extract at hextract
      cases hring : s.freeBuffer.entries with
      | nil =>
        rw [hring] at hextract
        exact absurd hextract (by simp)
      | cons first rest =>
        rw [hring] at hextract
        obtain ⟨rfl, rfl⟩ := Prod.mk.inj (Option.some.inj hextract)
        have hsub : ∀ a ∈ first :: rest, a ∈ s.freeBuffer.entries := by
          rw [hring]
          exact fun _ ha => ha
        have hnodup := h.ringNodup
        rw [hring, List.nodup_cons] at hnodup
        obtain ⟨hlist, hzero⟩ := h.free first (hsub first List.mem_cons_self)
        refine ⟨⟨h.made, hnodup.2, fun a ha => h.free a (hsub a (List.mem_cons_of_mem _ ha)),
          h.held⟩, hlist, hzero, hnodup.1, fun a ha => ⟨?_, rfl, ha.1⟩⟩
        rintro rfl
        exact ha.2 hzero
    · split at ht <;> exact absurd ht (by simp)

section GetBuffer

variable {requiredSize : UnsignedInt} {nonBlocking lowerBound : Bool} {o : Surroundings}
  (hempty : ∀ block, P ⟨1, block, 0⟩)

include hempty

theorem handOver (h : HeldAll P s) (hnot : b ∉ s.freeBuffer.entries) {block : MemoryBlock}
    (hbuffers : s'.buffers = Function.update s.buffers b { s.buffers b with bufferBlock := block })
    (hmade : s'.buffersMade = s.buffersMade) (hlist : s'.listOfBuffers = s.listOfBuffers)
    (hring : s'.freeBuffer = s.freeBuffer) : HeldAll P (s'.handOver b) := by
  refine h.set (x := ⟨1, block, 0⟩) ?_ hmade hlist hring (fun hmem => absurd hmem hnot)
    fun _ => hempty block
  simp only [MemoryPool.handOver, modifyBuffer, hbuffers, Function.update_self,
    Function.update_idem]

omit hempty in
theorem allocateFor_spec {itemSize : UnsignedInt} {memory : Option Grant} {obtained : Bool}
    (ht : s.allocateFor c b itemSize lowerBound memory = (obtained, s')) :
    ∃ block, s'.buffers = Function.update s.buffers b { s.buffers b with bufferBlock := block } ∧
      s'.buffersMade = s.buffersMade ∧ s'.listOfBuffers = s.listOfBuffers ∧
      s'.freeBuffer = s.freeBuffer := by
  unfold MemoryPool.allocateFor at ht
  simp only at ht
  obtain ⟨rfl, rfl⟩ := Prod.mk.inj ht
  generalize c.allocateMemoryBlock { s.block b with size := itemSize } false
    c.memoryPoolAllocator lowerBound memory = r
  obtain ⟨obtained, block⟩ := r
  cases obtained with
  | true => exact ⟨block, rfl, rfl, rfl, rfl⟩
  | false => exact ⟨block, rfl, rfl, rfl, rfl⟩

theorem getBuffer_got (h : HeldAll P s)
    (hgot : s.getBuffer c requiredSize nonBlocking lowerBound o = .got b s') :
    HeldAll P s' ∧ s'.Holds b ∧
      ∀ a, s.Holds a → a ≠ b ∧ s'.buffers a = s.buffers a ∧ a ∈ s'.listOfBuffers := by
  obtain ⟨t, htake, hrest⟩ := MemoryPool.getBuffer_got hgot
  obtain ⟨ht, hmem, -, hnot, hkeep⟩ := h.takeRecord htake
  have hover {u : MemoryPool} (block : MemoryBlock) (hbuffers : u.buffers =
        Function.update t.buffers b { t.buffers b with bufferBlock := block })
      (hmade : u.buffersMade = t.buffersMade) (hlist : u.listOfBuffers = t.listOfBuffers)
      (hring : u.freeBuffer = t.freeBuffer) :
      HeldAll P (u.handOver b) ∧ (u.handOver b).Holds b ∧ ∀ a, s.Holds a → a ≠ b ∧
        (u.handOver b).buffers a = s.buffers a ∧ a ∈ (u.handOver b).listOfBuffers := by
    refine ⟨ht.handOver hempty hnot hbuffers hmade hlist hring,
      MemoryPool.handOver_holds (by rw [hlist]; exact hmem), fun a ha => ?_⟩
    obtain ⟨hne, hsame, hold⟩ := hkeep a ha
    refine ⟨hne, ?_, ?_⟩
    · rw [MemoryPool.handOver_of_ne hne, hbuffers, Function.update_of_ne hne, hsame]
    · show a ∈ u.listOfBuffers
      rw [hlist]
      exact hold
  rcases hrest with ⟨-, itemSize, u, -, hallocate, rfl⟩ | ⟨-, rfl⟩
  · obtain ⟨block, hbuffers, hmade, hlist, hring⟩ := allocateFor_spec hallocate
    exact hover block hbuffers hmade hlist hring
  · exact hover (t.buffers b).bufferBlock (Function.update_eq_self b t.buffers).symm
      rfl rfl rfl

omit hempty in
theorem getBuffer_waits (h : HeldAll P s)
    (hwaits : s.getBuffer c requiredSize nonBlocking lowerBound o = .waitingForMemory b s') :
    HeldAll P s' := by
  obtain ⟨-, itemSize, t, -, htake, hallocate⟩ := MemoryPool.getBuffer_waits hwaits
  obtain ⟨ht, -, hzero, -, -⟩ := h.takeRecord htake
  obtain ⟨block, hbuffers, hmade, hlist, hring⟩ := allocateFor_spec hallocate
  exact ht.set hbuffers hmade hlist hring (fun _ => hzero) fun hne => absurd hzero hne

variable (lowerBound) in
theorem memoryGranted (h : HeldAll P s) (hwaits : s.Waits b) (granted : Grant) :
    HeldAll P (s.memoryGranted b lowerBound granted) ∧
      (s.memoryGranted b lowerBound granted).Holds b ∧
      ∀ a, s.Holds a → a ≠ b ∧ (s.memoryGranted b lowerBound granted).buffers a = s.buffers a ∧
        a ∈ (s.memoryGranted b lowerBound granted).listOfBuffers := by
  refine ⟨h.handOver hempty hwaits.2.2 rfl rfl rfl rfl, MemoryPool.handOver_holds hwaits.1,
    fun a ha => ?_⟩
  have hne : a ≠ b := by
    rintro rfl
    exact ha.2 hwaits.2.1
  exact ⟨hne, (MemoryPool.handOver_of_ne hne).trans (Function.update_of_ne hne _ _), ha.1⟩

end GetBuffer

theorem empty : HeldAll P MemoryPool.empty where
  made := fun _ hb => absurd hb List.not_mem_nil
  ringNodup := List.nodup_nil
  free := fun _ hb => absurd hb List.not_mem_nil
  held := fun _ hb => absurd hb.1 List.not_mem_nil

theorem withBuffers (n : Nat) (block : MemoryBlock) (total : UnsignedInt) :
    HeldAll P (MemoryPool.withBuffers n block total) := by
  have hring : (MemoryPool.withBuffers n block total).freeBuffer.entries = List.range n := by
    show ((List.range n).foldl Ring.insert (Ring.create n)).entries = List.range n
    rw [Ring.foldl_insert _ (by simp [Ring.create])]
    rfl
  refine ⟨fun b hb => List.mem_range.mp (List.mem_reverse.mp hb), ?_, ?_,
    fun _ hb => absurd rfl hb.2⟩
  · rw [hring]
    exact List.nodup_range
  · rw [hring]
    exact fun b hb => ⟨List.mem_reverse.mpr hb, rfl⟩

theorem created {memory : Option Grant} (h : MemoryPool.created c memory = some s) :
    HeldAll P s := by
  unfold MemoryPool.created at h
  split at h
  · obtain rfl := Option.some.inj h
    exact empty
  · split at h
    · split at h
      · exact absurd h (by simp)
      · split at h
        · exact absurd h (by simp)
        · obtain rfl := Option.some.inj h
          exact withBuffers ..
    · obtain rfl := Option.some.inj h
      exact withBuffers ..

end HeldAll

end MemoryPool

end Duckbox.BufferPool
