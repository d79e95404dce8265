import Duckbox.BufferPool.MemoryAccounts

/-!
# The indices of a pool's buffers

`Index` of a buffer record beside the rest of the pool: set once, where the record
is made, to the loop counter in the constructor of a pool with a fixed number of
buffers and to `CountOfBuffers++` in `GetBuffer` of any other. That counter goes
down again when a record is deleted, whichever it was, so the next record can get
the index of one still in the list (`getBuffer_repeats_index`). The indices in the
list are distinct throughout a run exactly if no record of it is made while the
counter is the index of a listed one (`indices_distinct_iff`); in a pool with a
fixed number of buffers no record is ever made by a call.
-/

namespace Duckbox.BufferPool

open Duckbox.Lib

/-- A pool with the `Index` of its buffer records. -/
structure IndexedPool where
  pool : MemoryPool
  index : Nat → UnsignedInt

namespace IndexedPool

/-- `GetIndex`; the assertion on the reference count only reports. -/
def getIndex (x : IndexedPool) (b : Nat) : UnsignedInt := x.index b

/-- "Get a buffer - two different paths", a new record with its index. -/
def takeRecord (c : PoolConfiguration) (x : IndexedPool) (nonBlocking : Bool) (o : Surroundings) :
    Got IndexedPool :=
  match x.pool.takeRecord c nonBlocking o with
  | .got b s =>
    match c.numberOfBuffers with
    -- `LocalBuffer->Index = CountOfBuffers++`
    | none => .got b ⟨s, Function.update x.index b x.pool.countOfBuffers⟩
    | some _ => .got b ⟨s, x.index⟩
  | .failed status s => .failed status ⟨s, x.index⟩
  | .waitingForMemory b s => .waitingForMemory b ⟨s, x.index⟩
  | .waiting => .waiting

/-- `GetBuffer`. -/
def getBuffer (c : PoolConfiguration) (x : IndexedPool) (requiredSize : UnsignedInt)
    (nonBlocking requiredSizeIsLowerBound : Bool) (o : Surroundings) : Got IndexedPool :=
  if c.allocatesPerBuffer then
    match c.checkMemoryParameters false requiredSize true false with
    | none => .failed .bufferError x
    | some itemSize =>
      match x.takeRecord c nonBlocking o with
      | .got b x =>
        match x.pool.allocateFor c b itemSize requiredSizeIsLowerBound o.memory with
        | (true, s) => .got b ⟨s.handOver b, x.index⟩
        | (false, s) =>
          if c.allocationSource = .allocateFromSuppliedBlock then .waitingForMemory b ⟨s, x.index⟩
          else .failed .bufferInsufficientMemoryGeneral ⟨s, x.index⟩
      | other => other
  else
    match x.takeRecord c nonBlocking o with
    | .got b x => .got b ⟨x.pool.handOver b, x.index⟩
    | other => other

/-- `PartitionBuffer`. -/
def partitionBuffer (c : PoolConfiguration) (x : IndexedPool) (b : Nat)
    (leaveInFirstPartitionSize : UnsignedInt) (nonBlocking : Bool) (o : Surroundings) :
    IndexedPool :=
  if c.supportsPartitioning then
    match x.getBuffer c 0 nonBlocking false o with
    | .got new x => ⟨x.pool.split b new leaveInFirstPartitionSize, x.index⟩
    | .failed _ x | .waitingForMemory _ x => x
    | .waiting => x
  else x

/-- The constructor: `Buffer->Index = i`. -/
def created (c : PoolConfiguration) (memory : Option Grant) : Option IndexedPool :=
  (MemoryPool.created c memory).map fun s => ⟨s, fun i => BitVec.ofNat 32 i⟩

/-- One call. -/
def apply (c : PoolConfiguration) (x : IndexedPool) : MemoryPool.Operation → IndexedPool
  | .getBuffer requiredSize nonBlocking requiredSizeIsLowerBound o =>
    match x.getBuffer c requiredSize nonBlocking requiredSizeIsLowerBound o with
    | .got _ x | .failed _ x | .waitingForMemory _ x => x
    | .waiting => x
  | .partitionBuffer b leave nonBlocking o => x.partitionBuffer c b leave nonBlocking o
  | op => ⟨x.pool.apply c op, x.index⟩

/-- One call, if it can be made. -/
def step (c : PoolConfiguration) (x : IndexedPool) (op : MemoryPool.Operation) : IndexedPool :=
  if x.pool.Callable op then x.apply c op else x

/-- No two buffers of the list return the same `GetIndex`. -/
def DistinctIndices (x : IndexedPool) : Prop :=
  ∀ b ∈ x.pool.listOfBuffers, ∀ b' ∈ x.pool.listOfBuffers, x.getIndex b = x.getIndex b' → b = b'

instance (x : IndexedPool) : Decidable x.DistinctIndices :=
  inferInstanceAs (Decidable (∀ b ∈ _, ∀ b' ∈ _, _))

/-! ## The pool without the indices -/

/-- What a call comes to, of the pool alone. -/
def withoutIndex : Got IndexedPool → Got MemoryPool
  | .got b x => .got b x.pool
  | .failed status x => .failed status x.pool
  | .waitingForMemory b x => .waitingForMemory b x.pool
  | .waiting => .waiting

theorem takeRecord_pool (c : PoolConfiguration) (x : IndexedPool) (nonBlocking : Bool)
    (o : Surroundings) :
    withoutIndex (x.takeRecord c nonBlocking o) = x.pool.takeRecord c nonBlocking o := by
  unfold takeRecord
  cases hgot : x.pool.takeRecord c nonBlocking o with
  | got b s =>
    dsimp only
    split <;> rfl
  | failed status s => rfl
  | waitingForMemory b s => rfl
  | waiting => rfl

theorem getBuffer_pool (c : PoolConfiguration) (x : IndexedPool) (requiredSize : UnsignedInt)
    (nonBlocking lowerBound : Bool) (o : Surroundings) :
    withoutIndex (x.getBuffer c requiredSize nonBlocking lowerBound o)
      = x.pool.getBuffer c requiredSize nonBlocking lowerBound o := by
  unfold getBuffer MemoryPool.getBuffer
  rw [← takeRecord_pool c x nonBlocking o]
  split
  · cases c.checkMemoryParameters false requiredSize true false with
    | none => rfl
    | some itemSize =>
      cases x.takeRecord c nonBlocking o with
      | got b t =>
        show withoutIndex (match t.pool.allocateFor c b itemSize lowerBound o.memory with
          | (true, s) => .got b ⟨s.handOver b, t.index⟩
          | (false, s) =>
            if c.allocationSource = .allocateFromSuppliedBlock then .waitingForMemory b ⟨s, t.index⟩
            else .failed .bufferInsufficientMemoryGeneral ⟨s, t.index⟩)
          = match t.pool.allocateFor c b itemSize lowerBound o.memory with
          | (true, s) => .got b (s.handOver b)
          | (false, s) =>
            if c.allocationSource = .allocateFromSuppliedBlock then .waitingForMemory b s
            else .failed .bufferInsufficientMemoryGeneral s
        obtain ⟨obtained, s⟩ := t.pool.allocateFor c b itemSize lowerBound o.memory
        cases obtained with
        | true => rfl
        | false =>
          dsimp only
          split <;> rfl
      | failed status t => rfl
      | waitingForMemory b t => rfl
      | waiting => rfl
  · cases x.takeRecord c nonBlocking o with
    | got b t => rfl
    | failed status t => rfl
    | waitingForMemory b t => rfl
    | waiting => rfl

theorem step_pool (c : PoolConfiguration) (x : IndexedPool) (op : MemoryPool.Operation) :
    (x.step c op).pool = x.pool.step c op := by
  unfold step MemoryPool.step
  split
  · cases op with
    | getBuffer requiredSize nonBlocking lowerBound o =>
      show (match x.getBuffer c requiredSize nonBlocking lowerBound o with
        | .got _ x | .failed _ x | .waitingForMemory _ x => x | .waiting => x).pool = _
      unfold MemoryPool.apply
      dsimp only
      rw [← getBuffer_pool]
      cases x.getBuffer c requiredSize nonBlocking lowerBound o <;> rfl
    | partitionBuffer b leave nonBlocking o =>
      show (x.partitionBuffer c b leave nonBlocking o).pool
        = x.pool.partitionBuffer c b leave nonBlocking o
      unfold partitionBuffer MemoryPool.partitionBuffer
      rw [← getBuffer_pool]
      split
      · cases x.getBuffer c 0 nonBlocking false o <;> rfl
      · rfl
    | incrementReferenceCount | decrementReferenceCount | setUsedDataSize | shrinkBuffer
    | extendBuffer | memoryGranted => rfl
  · rfl

/-! ## The calls that make a record -/

/-- Whether `GetBuffer` of a size gets as far as a new record. -/
def MakesRecord (c : PoolConfiguration) (requiredSize : UnsignedInt) (o : Surroundings) : Prop :=
  c.numberOfBuffers = none ∧ o.newBuffer = true ∧
    (c.allocatesPerBuffer = true →
      (c.checkMemoryParameters false requiredSize true false).isSome = true)

instance (c : PoolConfiguration) (requiredSize : UnsignedInt) (o : Surroundings) :
    Decidable (MakesRecord c requiredSize o) := inferInstanceAs (Decidable (_ ∧ _ ∧ (_ → _)))

/-- Whether a call makes a new record. -/
def Records (c : PoolConfiguration) (s : MemoryPool) : MemoryPool.Operation → Prop
  | .getBuffer requiredSize _ _ o => MakesRecord c requiredSize o
  | .partitionBuffer b _ _ o => s.Holds b ∧ c.supportsPartitioning = true ∧ MakesRecord c 0 o
  | .incrementReferenceCount _ | .decrementReferenceCount _ | .setUsedDataSize .. | .shrinkBuffer ..
  | .extendBuffer .. | .memoryGranted .. => False

instance (c : PoolConfiguration) (s : MemoryPool) : ∀ op, Decidable (Records c s op)
  | .getBuffer .. => inferInstanceAs (Decidable (MakesRecord ..))
  | .partitionBuffer .. => inferInstanceAs (Decidable (_ ∧ _ ∧ MakesRecord ..))
  | .incrementReferenceCount _ | .decrementReferenceCount _ | .setUsedDataSize .. | .shrinkBuffer ..
  | .extendBuffer .. | .memoryGranted .. => inferInstanceAs (Decidable False)

/-- A call makes no record while the counter is the index of a buffer in the list. -/
def CounterFree (c : PoolConfiguration) (x : IndexedPool) (op : MemoryPool.Operation) : Prop :=
  Records c x.pool op → ∀ b ∈ x.pool.listOfBuffers, x.getIndex b ≠ x.pool.countOfBuffers

instance (c : PoolConfiguration) (x : IndexedPool) (op : MemoryPool.Operation) :
    Decidable (CounterFree c x op) := inferInstanceAs (Decidable (_ → ∀ b ∈ _, _))

/-! ## What a call does to the list and the indices -/

/-- No record made: the list has lost a buffer at most. -/
structure Kept (x x' : IndexedPool) : Prop where
  index : x'.index = x.index
  made : x'.pool.buffersMade = x.pool.buffersMade
  list : x'.pool.listOfBuffers.Sublist x.pool.listOfBuffers

/-- A record made, with the counter for its index. -/
structure Recorded (x x' : IndexedPool) : Prop where
  index : x'.index = Function.update x.index x.pool.buffersMade x.pool.countOfBuffers
  made : x'.pool.buffersMade = x.pool.buffersMade + 1
  list : x'.pool.listOfBuffers = x.pool.buffersMade :: x.pool.listOfBuffers

/-- What a call that makes a record just when `records` can leave. -/
def Leaves (records : Prop) (x x' : IndexedPool) : Prop :=
  records ∧ Recorded x x' ∨ ¬ records ∧ Kept x x'

/-- The same of what `GetBuffer` comes to. -/
def ComesTo (records : Prop) (x : IndexedPool) : Got IndexedPool → Prop
  | .got _ x' | .failed _ x' | .waitingForMemory _ x' => Leaves records x x'
  | .waiting => ¬ records

section

variable {c : PoolConfiguration} {x x' : IndexedPool} {s : MemoryPool} {b : Nat}
  {requiredSize : UnsignedInt} {nonBlocking lowerBound : Bool} {o : Surroundings}
  {records : Prop}

theorem Kept.refl (x : IndexedPool) : Kept x x := ⟨rfl, rfl, List.Sublist.refl _⟩

theorem Leaves.congr (h : Leaves records x x') (hlist : s.listOfBuffers = x'.pool.listOfBuffers)
    (hmade : s.buffersMade = x'.pool.buffersMade) : Leaves records x ⟨s, x'.index⟩ := by
  rcases h with ⟨hyes, h⟩ | ⟨hno, h⟩
  · exact .inl ⟨hyes, h.index, hmade.trans h.made, hlist.trans h.list⟩
  · refine .inr ⟨hno, h.index, hmade.trans h.made, ?_⟩
    show s.listOfBuffers.Sublist _
    rw [hlist]
    exact h.list

theorem takeRecord_comes (c : PoolConfiguration) (x : IndexedPool) (nonBlocking : Bool)
    (o : Surroundings) :
    ComesTo (c.numberOfBuffers = none ∧ o.newBuffer = true) x (x.takeRecord c nonBlocking o) := by
  unfold takeRecord MemoryPool.takeRecord
  cases hnumber : c.numberOfBuffers with
  | none =>
    dsimp only
    split
    · next hnew =>
      split at hnew
      · next hmade =>
        obtain ⟨rfl, rfl⟩ := Got.got.inj hnew
        exact .inl ⟨⟨rfl, hmade⟩, rfl, rfl, rfl⟩
      · exact absurd hnew (by simp)
    · next hnew =>
      split at hnew
      · exact absurd hnew (by simp)
      · next hmade =>
        obtain ⟨-, rfl⟩ := Got.failed.inj hnew
        exact .inr ⟨fun h => hmade h.2, Kept.refl x⟩
    · next hnew => split at hnew <;> exact absurd hnew (by simp)
    · next hnew => split at hnew <;> exact absurd hnew (by simp)
  | some n =>
    have hno : ¬ (some n = none ∧ o.newBuffer = true) := fun h => nomatch h.1
    dsimp only
    split
    · next hgot =>
      split at hgot
      · obtain ⟨rfl, rfl⟩ := Got.got.inj hgot
        exact .inr ⟨hno, rfl, rfl, List.Sublist.refl _⟩
      · split at hgot <;> exact absurd hgot (by simp)
    · next hfailed =>
      split at hfailed
      · exact absurd hfailed (by simp)
      · split at hfailed
        · obtain ⟨-, rfl⟩ := Got.failed.inj hfailed
          exact .inr ⟨hno, Kept.refl x⟩
        · exact absurd hfailed (by simp)
    · next hwaits =>
      split at hwaits
      · exact absurd hwaits (by simp)
      · split at hwaits <;> exact absurd hwaits (by simp)
    · exact hno

theorem allocateFor_list {itemSize : UnsignedInt} {memory : Option Grant} {obtained : Bool}
    {t : MemoryPool} (h : s.allocateFor c b itemSize lowerBound memory = (obtained, t)) :
    t.listOfBuffers = s.listOfBuffers ∧ t.buffersMade = s.buffersMade := by
  unfold MemoryPool.allocateFor at h
  dsimp only at h
  obtain ⟨-, rfl⟩ := Prod.mk.inj h
  split <;> exact ⟨rfl, rfl⟩

theorem getBuffer_comes (c : PoolConfiguration) (x : IndexedPool) (requiredSize : UnsignedInt)
    (nonBlocking lowerBound : Bool) (o : Surroundings) :
    ComesTo (MakesRecord c requiredSize o) x
      (x.getBuffer c requiredSize nonBlocking lowerBound o) := by
  have htake := takeRecord_comes c x nonBlocking o
  unfold getBuffer
  by_cases hper : c.allocatesPerBuffer = true
  · rw [if_pos hper]
    cases hcheck : c.checkMemoryParameters false requiredSize true false with
    | none =>
      refine .inr ⟨fun h => ?_, Kept.refl x⟩
      have hsome := h.2.2 hper
      rw [hcheck] at hsome
      exact absurd hsome (by simp)
    | some itemSize =>
      have hrecords : MakesRecord c requiredSize o ↔
          c.numberOfBuffers = none ∧ o.newBuffer = true :=
        ⟨fun h => ⟨h.1, h.2.1⟩, fun h => ⟨h.1, h.2, fun _ => by rw [hcheck]; rfl⟩⟩
      rw [hrecords]
      dsimp only
      cases hgot : x.takeRecord c nonBlocking o with
      | got b t =>
        rw [hgot] at htake
        dsimp only
        split
        · next hallocate =>
          obtain ⟨hlist, hmade⟩ := allocateFor_list hallocate
          exact htake.congr hlist hmade
        · next hallocate =>
          obtain ⟨hlist, hmade⟩ := allocateFor_list hallocate
          split <;> exact htake.congr hlist hmade
      | failed status t => rw [hgot] at htake; exact htake
      | waitingForMemory b t => rw [hgot] at htake; exact htake
      | waiting => rw [hgot] at htake; exact htake
  · rw [if_neg hper]
    have hrecords : MakesRecord c requiredSize o ↔
        c.numberOfBuffers = none ∧ o.newBuffer = true :=
      ⟨fun h => ⟨h.1, h.2.1⟩, fun h => ⟨h.1, h.2, fun hyes => absurd hyes hper⟩⟩
    rw [hrecords]
    cases hgot : x.takeRecord c nonBlocking o with
    | got b t => rw [hgot] at htake; exact htake.congr rfl rfl
    | failed status t => rw [hgot] at htake; exact htake
    | waitingForMemory b t => rw [hgot] at htake; exact htake
    | waiting => rw [hgot] at htake; exact htake

theorem Kept.ofPool (hmade : s.buffersMade = x.pool.buffersMade)
    (hlist : s.listOfBuffers.Sublist x.pool.listOfBuffers) : Kept x ⟨s, x.index⟩ :=
  ⟨rfl, hmade, hlist⟩

theorem releaseBuffer_list (c : PoolConfiguration) (s : MemoryPool) (b : Nat) :
    (s.releaseBuffer c b).buffersMade = s.buffersMade ∧
      (s.releaseBuffer c b).listOfBuffers.Sublist s.listOfBuffers := by
  unfold MemoryPool.releaseBuffer
  dsimp only
  generalize ht : (if c.allocatesPerBuffer = true then s.deAllocateMemoryBlock b else s) = t
  have hsame : t.listOfBuffers = s.listOfBuffers ∧ t.buffersMade = s.buffersMade := by
    rw [← ht]
    obtain ⟨-, hmade, hlist, -⟩ := MemoryPool.deAllocateMemoryBlock_spec s b
    split
    · exact ⟨hlist, hmade⟩
    · exact ⟨rfl, rfl⟩
  unfold MemoryPool.putBack
  rw [← hsame.1, ← hsame.2]
  -- in a pool of as many buffers as asked for the record leaves the list
  cases c.numberOfBuffers with
  | none => exact ⟨rfl, List.erase_sublist⟩
  | some n => exact ⟨rfl, List.Sublist.refl _⟩

theorem decrementReferenceCount_list (c : PoolConfiguration) (s : MemoryPool) (b : Nat) :
    (s.decrementReferenceCount c b).buffersMade = s.buffersMade ∧
      (s.decrementReferenceCount c b).listOfBuffers.Sublist s.listOfBuffers := by
  unfold MemoryPool.decrementReferenceCount
  dsimp only
  split
  · exact releaseBuffer_list c _ b
  · exact ⟨rfl, List.Sublist.refl _⟩

theorem step_leaves (c : PoolConfiguration) (x : IndexedPool) (op : MemoryPool.Operation) :
    Leaves (Records c x.pool op) x (x.step c op) := by
  unfold step
  by_cases hcallable : x.pool.Callable op
  · rw [if_pos hcallable]
    cases op with
    | getBuffer requiredSize nonBlocking lowerBound o =>
      have hcomes := getBuffer_comes c x requiredSize nonBlocking lowerBound o
      show Leaves _ x (match x.getBuffer c requiredSize nonBlocking lowerBound o with
        | .got _ x | .failed _ x | .waitingForMemory _ x => x | .waiting => x)
      cases hgot : x.getBuffer c requiredSize nonBlocking lowerBound o with
      | got b t => rw [hgot] at hcomes; exact hcomes
      | failed status t => rw [hgot] at hcomes; exact hcomes
      | waitingForMemory b t => rw [hgot] at hcomes; exact hcomes
      | waiting => rw [hgot] at hcomes; exact .inr ⟨hcomes, Kept.refl x⟩
    | partitionBuffer b leave nonBlocking o =>
      have hcomes := getBuffer_comes c x 0 nonBlocking false o
      show Leaves (x.pool.Holds b ∧ _) x (x.partitionBuffer c b leave nonBlocking o)
      unfold partitionBuffer
      by_cases hsupports : c.supportsPartitioning = true
      · have hrecords : (x.pool.Holds b ∧ c.supportsPartitioning = true ∧ MakesRecord c 0 o) ↔
            MakesRecord c 0 o := ⟨fun h => h.2.2, fun h => ⟨hcallable, hsupports, h⟩⟩
        rw [if_pos hsupports, hrecords]
        cases hgot : x.getBuffer c 0 nonBlocking false o with
        | got new t => rw [hgot] at hcomes; exact hcomes.congr rfl rfl
        | failed status t => rw [hgot] at hcomes; exact hcomes
        | waitingForMemory new t => rw [hgot] at hcomes; exact hcomes
        | waiting => rw [hgot] at hcomes; exact .inr ⟨hcomes, Kept.refl x⟩
      · rw [if_neg hsupports]
        exact .inr ⟨fun h => hsupports h.2.1, Kept.refl x⟩
    | incrementReferenceCount b =>
      exact .inr ⟨id, Kept.ofPool rfl (List.Sublist.refl _)⟩
    | decrementReferenceCount b =>
      obtain ⟨hmade, hlist⟩ := decrementReferenceCount_list c x.pool b
      exact .inr ⟨id, Kept.ofPool hmade hlist⟩
    | setUsedDataSize b dataSize =>
      refine .inr ⟨id, ?_⟩
      show Kept x ⟨x.pool.setUsedDataSize b dataSize, x.index⟩
      unfold MemoryPool.setUsedDataSize
      split <;> exact Kept.ofPool rfl (List.Sublist.refl _)
    | shrinkBuffer b newSize =>
      refine .inr ⟨id, ?_⟩
      show Kept x ⟨x.pool.shrinkBuffer c b newSize, x.index⟩
      unfold MemoryPool.shrinkBuffer
      split <;> exact Kept.ofPool rfl (List.Sublist.refl _)
    | extendBuffer b memory =>
      refine .inr ⟨id, ?_⟩
      show Kept x ⟨x.pool.extendBuffer c b memory, x.index⟩
      unfold MemoryPool.extendBuffer
      split <;> exact Kept.ofPool rfl (List.Sublist.refl _)
    | memoryGranted b lowerBound granted partitioned =>
      refine .inr ⟨id, ?_⟩
      show Kept x ⟨x.pool.apply c (.memoryGranted b lowerBound granted partitioned), x.index⟩
      unfold MemoryPool.apply
      dsimp only
      split
      · split <;> exact Kept.ofPool rfl (List.Sublist.refl _)
      · exact Kept.refl x
  · rw [if_neg hcallable]
    refine .inr ⟨fun h => ?_, Kept.refl x⟩
    cases op with
    | getBuffer => exact hcallable trivial
    | partitionBuffer => exact hcallable h.1
    | incrementReferenceCount | decrementReferenceCount | setUsedDataSize | shrinkBuffer
    | extendBuffer | memoryGranted => exact h

/-! ## The indices over a run -/

/-- The buffers of the list are among the records made. -/
def ListMade (x : IndexedPool) : Prop := ∀ b ∈ x.pool.listOfBuffers, b < x.pool.buffersMade

theorem step_listMade (op : MemoryPool.Operation) (h : x.ListMade) : (x.step c op).ListMade := by
  intro b hb
  rcases step_leaves c x op with ⟨-, hrecorded⟩ | ⟨-, hkept⟩
  · rw [hrecorded.list] at hb
    rw [hrecorded.made]
    rcases List.mem_cons.mp hb with rfl | hb
    · exact Nat.lt_succ_self _
    · exact Nat.lt_succ_of_lt (h b hb)
  · rw [hkept.made]
    exact h b (hkept.list.subset hb)

theorem Recorded.distinct_iff (hrecorded : Recorded x x') (hmade : x.ListMade)
    (h : x.DistinctIndices) :
    x'.DistinctIndices ↔ ∀ b ∈ x.pool.listOfBuffers, x.getIndex b ≠ x.pool.countOfBuffers := by
  have hnew : x'.getIndex x.pool.buffersMade = x.pool.countOfBuffers := by
    unfold getIndex
    rw [hrecorded.index, Function.update_self]
  have hne : ∀ b ∈ x.pool.listOfBuffers, b ≠ x.pool.buffersMade :=
    fun b hb => Nat.ne_of_lt (hmade b hb)
  have hold : ∀ b ∈ x.pool.listOfBuffers, x'.getIndex b = x.getIndex b := by
    intro b hb
    unfold getIndex
    rw [hrecorded.index, Function.update_of_ne (hne b hb)]
  unfold DistinctIndices
  rw [hrecorded.list]
  constructor
  · intro hdistinct b hb heq
    refine hne b hb (hdistinct b (List.mem_cons_of_mem _ hb) _ List.mem_cons_self ?_)
    rw [hold b hb, heq, hnew]
  · intro hfree b hb b' hb' heq
    rcases List.mem_cons.mp hb with rfl | hb <;> rcases List.mem_cons.mp hb' with rfl | hb'
    · rfl
    · rw [hnew, hold b' hb'] at heq
      exact absurd heq.symm (hfree b' hb')
    · rw [hnew, hold b hb] at heq
      exact absurd heq (hfree b hb)
    · rw [hold b hb, hold b' hb'] at heq
      exact h b hb b' hb' heq

theorem Kept.distinct (hkept : Kept x x') (h : x.DistinctIndices) : x'.DistinctIndices := by
  unfold DistinctIndices getIndex
  rw [hkept.index]
  exact fun b hb b' hb' => h b (hkept.list.subset hb) b' (hkept.list.subset hb')

theorem step_distinct_iff (op : MemoryPool.Operation) (hmade : x.ListMade)
    (h : x.DistinctIndices) : (x.step c op).DistinctIndices ↔ CounterFree c x op := by
  rcases step_leaves c x op with ⟨hrecords, hrecorded⟩ | ⟨hnot, hkept⟩
  · rw [hrecorded.distinct_iff hmade h]
    exact ⟨fun hfree _ => hfree, fun hfree => hfree hrecords⟩
  · exact iff_of_true (hkept.distinct h) fun hrecords => absurd hrecords hnot

end

theorem created_distinct {c : PoolConfiguration} {memory : Option Grant} {start : IndexedPool}
    (hcount : ∀ n, c.numberOfBuffers = some n → n < 2 ^ 32) (h : created c memory = some start) :
    start.ListMade ∧ start.DistinctIndices := by
  obtain ⟨s, hs, rfl⟩ := Option.map_eq_some_iff.mp h
  have hbuffers : (∀ b ∈ s.listOfBuffers, b < s.buffersMade) ∧
      ∀ b ∈ s.listOfBuffers, b < 2 ^ 32 := by
    have hwith : ∀ n block total, c.numberOfBuffers = some n →
        s = MemoryPool.withBuffers n block total → (∀ b ∈ s.listOfBuffers, b < s.buffersMade) ∧
          ∀ b ∈ s.listOfBuffers, b < 2 ^ 32 := by
      intro n block total hn hs
      have hlist : ∀ b ∈ s.listOfBuffers, b < n := by
        intro b hb
        rw [hs] at hb
        exact List.mem_range.mp (List.mem_reverse.mp hb)
      refine ⟨fun b hb => ?_, fun b hb => (hlist b hb).trans (hcount n hn)⟩
      rw [hs]
      exact hlist b hb
    unfold MemoryPool.created at hs
    cases hnumber : c.numberOfBuffers with
    | none =>
      simp only [hnumber] at hs
      obtain rfl := Option.some.inj hs
      exact ⟨fun b hb => (nomatch hb), fun b hb => (nomatch hb)⟩
    | some n =>
      simp only [hnumber] at hs
      split at hs
      · split at hs
        · exact absurd hs (by simp)
        · split at hs
          · exact absurd hs (by simp)
          · exact hwith n _ _ hnumber (Option.some.inj hs).symm
      · exact hwith n _ _ hnumber (Option.some.inj hs).symm
  refine ⟨hbuffers.1, fun b hb b' hb' heq => ?_⟩
  have heq : BitVec.ofNat 32 b = BitVec.ofNat 32 b' := heq
  have hval := congrArg BitVec.toNat heq
  rw [BitVec.toNat_ofNat, BitVec.toNat_ofNat, Nat.mod_eq_of_lt (hbuffers.2 b hb),
    Nat.mod_eq_of_lt (hbuffers.2 b' hb')] at hval
  exact hval

/-- The buffers in the list have distinct indices in every state of a run exactly if
none of its calls makes a record while the counter is the index of a listed buffer.
In a pool with a fixed number of buffers that is every run. -/
theorem indices_distinct_iff (c : PoolConfiguration)
    (hcount : ∀ n, c.numberOfBuffers = some n → n < 2 ^ 32) (memory : Option Grant)
    (start : IndexedPool) (hcreated : created c memory = some start)
    (ops : List MemoryPool.Operation) :
    ((∀ pre, pre <+: ops → (pre.foldl (step c) start).DistinctIndices) ↔
        Along (step c) (CounterFree c) start ops) ∧
      (c.numberOfBuffers ≠ none → Along (step c) (CounterFree c) start ops) := by
  obtain ⟨hmade, hdistinct⟩ := created_distinct hcount hcreated
  refine ⟨forall_prefix_iff_along (fun op h => step_listMade op h)
    (fun op hI h => step_distinct_iff op hI h) ops hmade hdistinct, fun hfixed => ?_⟩
  have hnever : ∀ (s : MemoryPool) op, ¬ Records c s op := by
    intro s op h
    cases op with
    | getBuffer => exact hfixed h.1
    | partitionBuffer => exact hfixed h.2.2.1
    | incrementReferenceCount | decrementReferenceCount | setUsedDataSize | shrinkBuffer
    | extendBuffer | memoryGranted => exact h
  have hall : ∀ (ops : List MemoryPool.Operation) (x : IndexedPool),
      Along (step c) (CounterFree c) x ops := by
    intro ops
    induction ops with
    | nil => intro x; trivial
    | cons op ops ih => intro x; exact ⟨fun h => absurd h (hnever _ op), ih _⟩
  exact hall ops start

/-- A pool of as many buffers as are asked for, without memory. -/
def dynamicPool : PoolConfiguration where
  allocationSource := .noAllocation
  allocationUnitSize := 1
  hasFixedSize := false
  allocateOnPoolCreation := false
  fixedSize := notSpecified
  numberOfBuffers := none
  size := notSpecified
  memoryPool := false
  arrayOfMemoryBlocks := false
  memoryPartitionName := false

/-- Two buffers got and released, the last one first, and another got. -/
theorem indices_distinct_lastFirst :
    let get : MemoryPool.Operation := .getBuffer 0 true false ⟨false, true, none⟩
    ∃ start, created dynamicPool none = some start ∧
      ([get, get, .decrementReferenceCount 1, get].foldl (step dynamicPool)
        start).DistinctIndices := by
  intro get
  have hok : Along (step dynamicPool) (CounterFree dynamicPool) ⟨.empty, fun i => BitVec.ofNat 32 i⟩
      [get, get, .decrementReferenceCount 1, get] := by
    decide +kernel
  exact ⟨_, rfl, ((indices_distinct_iff dynamicPool (fun n h => nomatch h) none _ rfl _).1.mpr
    hok) _ List.prefix_rfl⟩

/-- Two buffers got, the first of them released, another got: it has the index of
the second, which is still in the list. -/
theorem getBuffer_repeats_index :
    let get : MemoryPool.Operation := .getBuffer 0 true false ⟨false, true, none⟩
    ∃ start, created dynamicPool none = some start ∧
      let x := [get, get, .decrementReferenceCount 0, get].foldl (step dynamicPool) start
      x.pool.Holds 1 ∧ x.pool.Holds 2 ∧ x.getIndex 1 = 1 ∧ x.getIndex 2 = 1 ∧
        ¬ x.DistinctIndices :=
  ⟨_, rfl, by decide +kernel⟩

end IndexedPool

end Duckbox.BufferPool
