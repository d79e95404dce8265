import Duckbox.BufferPool.MemoryAccounts
import Duckbox.Infrastructure.AllocatorExtension
import Mathlib.Order.CompletePartialOrder

/-!
# The sizes of buffers and of their partitions

The data of a buffer fits in its block (`Fits`) at the end of every run in which
no partition leaves more in the first part than there is data, and no shrunk
block is rounded to less (`sizes_fit`). `PartitionBuffer` always splits the block
into two that cover it, but takes what it leaves in the first part off the
data size unasked: where there was less, the second part gets a size below 0.
-/

namespace Duckbox.BufferPool

open Duckbox.Lib
open Duckbox.Infrastructure

namespace MemoryPool

/-! ## Splitting a block -/

/-- The addresses of a block, each of 32 bits. -/
def addresses (x : MemoryBlock) : Set UnsignedInt := {a | a - x.poolAllocatedOffset < x.size}

/-- Two blocks one after the other, that have no address in common and together
those of the whole. -/
structure SplitInto (whole first second : MemoryBlock) : Prop where
  adjacent : second.poolAllocatedOffset = first.poolAllocatedOffset + first.size
  disjoint : Disjoint (addresses first) (addresses second)
  cover : addresses first ∪ addresses second = addresses whole

variable {leave : UnsignedInt}

theorem splitInto {whole : MemoryBlock} (h : leave ≤ whole.size) :
    SplitInto whole { whole with size := leave }
      ⟨whole.size - leave, whole.poolAllocatedOffset + leave⟩ := by
  -- both conditions are on how far an address is into the whole
  have hsecond (a : UnsignedInt) : a - (whole.poolAllocatedOffset + leave) < whole.size - leave ↔
      leave ≤ a - whole.poolAllocatedOffset ∧ a - whole.poolAllocatedOffset < whole.size := by
    rw [← sub_sub]
    generalize a - whole.poolAllocatedOffset = d
    have hd := d.isLt
    have hsize := whole.size.isLt
    rw [BitVec.le_def] at h
    rw [BitVec.lt_def, BitVec.lt_def, BitVec.le_def, BitVec.toNat_sub_of_le h, BitVec.toNat_sub]
    omega
  refine ⟨rfl, ?_, ?_⟩
  · rw [Set.disjoint_left]
    intro a hfirst ha
    exact absurd ((hsecond a).mp ha).1 (BitVec.not_le.mpr hfirst)
  · ext a
    show a - whole.poolAllocatedOffset < leave ∨
      a - (whole.poolAllocatedOffset + leave) < whole.size - leave ↔ _
    rw [hsecond]
    show _ ↔ a - whole.poolAllocatedOffset < whole.size
    rw [BitVec.lt_def, BitVec.le_def, BitVec.lt_def]
    rw [BitVec.le_def] at h
    omega

section Split

variable {s : MemoryPool} {b new : Nat} {leave : UnsignedInt}

theorem split_first (hne : b ≠ new) : (s.split b new leave).buffers b =
    { s.buffers b with
      bufferBlock := { s.block b with size := leave }
      dataSize := leave } := by
  unfold MemoryPool.split
  simp only [modifyBuffer, Function.update_self, Function.update_of_ne hne]
  rfl

theorem split_second (hne : b ≠ new) : (s.split b new leave).buffers new =
    { s.buffers new with
      bufferBlock := ⟨(s.block b).size - leave, (s.block b).poolAllocatedOffset + leave⟩
      dataSize := (s.buffers b).dataSize - leave } := by
  unfold MemoryPool.split
  simp only [modifyBuffer, Function.update_of_ne hne.symm, Function.update_self]
  rfl

theorem dataSizes_iff {dataSize : UnsignedInt} :
    leave.toNat + (dataSize - leave).toNat = dataSize.toNat ↔ leave ≤ dataSize := by
  have hleave := leave.isLt
  have hdata := dataSize.isLt
  rw [BitVec.le_def, BitVec.toNat_sub]
  omega

end Split

/-! ## The data fits -/

/-- The data of a buffer fits in its block. -/
def Fits (x : BufferRecord) : Prop := x.dataSize ≤ x.bufferBlock.size

/-- Whether `PartitionBuffer` comes to its split. -/
def CanSplit (c : PoolConfiguration) (s : MemoryPool) (o : Surroundings) : Prop :=
  c.supportsPartitioning = true ∧ s.HasRecord c o ∧
    (Resizable c → c.hasFixedSize = true →
      c.fixedSize ≠ notSpecified ∧ (c.fixedSize ≠ 0 → ¬LacksMemory c o))

instance (c : PoolConfiguration) (s : MemoryPool) (o : Surroundings) :
    Decidable (s.CanSplit c o) := inferInstanceAs (Decidable (_ ∧ _ ∧ _))

/-- The call does not partition a block past its data, and rounds no block it shrinks
to less than the data. -/
def Sound (c : PoolConfiguration) (s : MemoryPool) : Operation → Prop
  | .shrinkBuffer b newSize =>
    Resizable c → (s.buffers b).dataSize ≤ newSize → newSize < (s.block b).size →
      (s.buffers b).dataSize ≤ c.roundUp newSize
  | .partitionBuffer b leave _ o => s.CanSplit c o → leave ≤ (s.buffers b).dataSize
  | .memoryGranted _ _ _ partitioned =>
    Resizable c → ∀ p ∈ partitioned, p.2 ≤ (s.buffers p.1).dataSize
  | .getBuffer .. | .incrementReferenceCount _ | .decrementReferenceCount _
  | .setUsedDataSize .. | .extendBuffer .. => True

instance (c : PoolConfiguration) (s : MemoryPool) : ∀ op, Decidable (s.Sound c op)
  | .shrinkBuffer _ _ => inferInstanceAs (Decidable (_ → _))
  | .partitionBuffer .. => inferInstanceAs (Decidable (_ → _))
  | .memoryGranted .. => inferInstanceAs (Decidable (_ → ∀ p ∈ _, _))
  | .getBuffer .. | .incrementReferenceCount _ | .decrementReferenceCount _
  | .setUsedDataSize .. | .extendBuffer .. => inferInstanceAs (Decidable True)

/-- The allocator extends a block to no less than it has. -/
def Extends (s : MemoryPool) : Operation → Prop
  | .extendBuffer b (some granted) => (s.block b).size ≤ granted.size
  | _ => True

instance (s : MemoryPool) : ∀ op, Decidable (s.Extends op)
  | .extendBuffer _ (some _) => inferInstanceAs (Decidable (_ ≤ _))
  | .extendBuffer _ none => inferInstanceAs (Decidable True)
  | .getBuffer .. | .incrementReferenceCount _ | .decrementReferenceCount _
  | .setUsedDataSize .. | .shrinkBuffer .. | .partitionBuffer .. | .memoryGranted .. =>
    inferInstanceAs (Decidable True)

section Steps

variable {c : PoolConfiguration} {s s' : MemoryPool} {b : Nat}

theorem fits_empty (block : MemoryBlock) : Fits ⟨1, block, 0⟩ := BitVec.le_def.mpr (Nat.zero_le _)

theorem setUsedDataSize_fits (h : HeldAll Fits s) (hb : s.Holds b) (dataSize : UnsignedInt) :
    HeldAll Fits (s.setUsedDataSize b dataSize) := by
  unfold setUsedDataSize
  split
  · exact h
  · next hroom => exact h.setHeld hb rfl rfl rfl rfl fun _ => BitVec.not_lt.mp hroom

theorem shrinkBuffer_fits (h : HeldAll Fits s) (hb : s.Holds b) {newSize : UnsignedInt}
    (hsound : s.Sound c (.shrinkBuffer b newSize)) :
    HeldAll Fits (s.shrinkBuffer c b newSize) := by
  unfold shrinkBuffer
  cases hshrunk : s.shrunkBlock c b newSize with
  | none => exact h
  | some block =>
    refine h.setHeld hb rfl rfl rfl rfl fun _ => ?_
    show (s.buffers b).dataSize ≤ block.size
    rcases shrunkBlock_some hshrunk with rfl | ⟨hresizable, hdata, hsmaller, rfl⟩
    · exact h.held b hb
    · exact hsound hresizable hdata hsmaller

theorem extendBuffer_fits (h : HeldAll Fits s) (hb : s.Holds b) {memory : Option Grant}
    (hextends : s.Extends (.extendBuffer b memory)) : HeldAll Fits (s.extendBuffer c b memory) := by
  unfold extendBuffer
  cases hextended : c.extendMemoryBlock (s.block b) memory with
  | none => exact h
  | some block =>
    refine h.setHeld hb rfl rfl rfl rfl fun _ => ?_
    obtain ⟨-, granted, rfl, hsize⟩ := extendMemoryBlock_some hextended
    show (s.buffers b).dataSize ≤ block.size
    rw [hsize]
    exact BitVec.le_trans (h.held b hb) hextends

theorem canSplit_of_got {nonBlocking : Bool} {o : Surroundings} {new : Nat}
    (hsupports : c.supportsPartitioning = true)
    (hgot : s.getBuffer c 0 nonBlocking false o = .got new s') : s.CanSplit c o := by
  obtain ⟨t, htake, ⟨-, itemSize, u, hcheck, hallocate, -⟩ | ⟨hper, -⟩⟩ := getBuffer_got hgot
  · refine ⟨hsupports, .of_takeRecord htake, fun _ hfixed => ?_⟩
    obtain ⟨hitem, hspecified, hsource⟩ := checkMemoryParameters_size hcheck
    rw [if_pos hfixed] at hitem
    refine ⟨hitem ▸ hspecified, fun hne hrefused => ?_⟩
    have hfails : (t.allocateFor c new itemSize false o.memory).1 = false :=
      (allocateFor_fails hsource).mpr ⟨hitem ▸ hne, hrefused⟩
    rw [hallocate] at hfails
    exact nomatch hfails
  · refine ⟨hsupports, .of_takeRecord htake, fun hresizable _ => ?_⟩
    simp [PoolConfiguration.allocatesPerBuffer, hresizable.1, hresizable.2] at hper

/-- Of a buffer whose new second part has been got, `t`. -/
theorem split_fits {t : MemoryPool} {new : Nat} (h : HeldAll Fits s) (hb : s.Holds b)
    (ht : HeldAll Fits t) (hnew : t.Holds new) (hne : b ≠ new) (hsame : t.buffers b = s.buffers b)
    (hmem : b ∈ t.listOfBuffers) (hle : leave ≤ (s.buffers b).dataSize) :
    HeldAll Fits (t.split b new leave) := by
  have hfits : (s.buffers b).dataSize ≤ (s.block b).size := h.held b hb
  -- the second part, then the first
  have hsecond : HeldAll Fits (t.modifyBuffer new fun x =>
      { x with
        bufferBlock :=
          { (t.buffers b).bufferBlock with
            size := (t.buffers b).bufferBlock.size - leave
            poolAllocatedOffset := (t.buffers b).bufferBlock.poolAllocatedOffset + leave }
        dataSize := (t.buffers b).dataSize - leave }) := by
    refine ht.setHeld hnew rfl rfl rfl rfl fun _ => ?_
    show (t.buffers b).dataSize - leave ≤ (t.buffers b).bufferBlock.size - leave
    rw [hsame]
    have hsize : leave ≤ (s.buffers b).bufferBlock.size := BitVec.le_trans hle hfits
    rw [BitVec.le_def, BitVec.toNat_sub_of_le hle, BitVec.toNat_sub_of_le hsize]
    exact Nat.sub_le_sub_right (BitVec.le_def.mp hfits) _
  refine hsecond.setHeld (b := b) ⟨hmem, ?_⟩ rfl rfl rfl rfl fun _ => BitVec.le_refl leave
  show (Function.update t.buffers new _ b).referenceCount ≠ 0
  rw [Function.update_of_ne hne, hsame]
  exact hb.2

theorem partitionBuffer_fits (h : HeldAll Fits s) (hb : s.Holds b) {nonBlocking : Bool}
    {o : Surroundings} (hsound : s.Sound c (.partitionBuffer b leave nonBlocking o)) :
    HeldAll Fits (s.partitionBuffer c b leave nonBlocking o) := by
  unfold partitionBuffer
  split
  · next hsupports =>
    split
    · next new t hgot =>
      obtain ⟨ht, hnew, hkept⟩ := h.getBuffer_got fits_empty hgot
      obtain ⟨hne, hsame, hmem⟩ := hkept b hb
      exact split_fits h hb ht hnew hne hsame hmem (hsound (canSplit_of_got hsupports hgot))
    · next hfailed => exact getBuffer_failed hfailed ▸ h
    · next hwaits => exact h.getBuffer_waits hwaits
    · exact h
  · exact h

theorem step_fits (h : HeldAll Fits s) {op : Operation} (hextends : s.Extends op)
    (hsound : s.Callable op → s.Sound c op) : HeldAll Fits (s.step c op) := by
  unfold MemoryPool.step
  split
  · next hcallable =>
    have hsound := hsound hcallable
    cases op with
    | getBuffer requiredSize nonBlocking lowerBound o =>
      unfold MemoryPool.apply
      dsimp only
      split
      · next hgot => exact (h.getBuffer_got fits_empty hgot).1
      · next hfailed => exact getBuffer_failed hfailed ▸ h
      · next hwaits => exact h.getBuffer_waits hwaits
      · exact h
    | incrementReferenceCount b =>
      exact h.setHeld hcallable.1 rfl rfl rfl rfl fun _ => h.held b hcallable.1
    | decrementReferenceCount b =>
      exact h.decrementReferenceCount hcallable fun _ => h.held b hcallable
    | setUsedDataSize b dataSize => exact setUsedDataSize_fits h hcallable dataSize
    | shrinkBuffer b newSize => exact shrinkBuffer_fits h hcallable hsound
    | extendBuffer b memory => exact extendBuffer_fits h hcallable hextends
    | partitionBuffer b leave nonBlocking o => exact partitionBuffer_fits h hcallable hsound
    | memoryGranted new lowerBound granted partitioned =>
      obtain ⟨hwaits, hpart⟩ := hcallable
      obtain ⟨ht, hnew, hkept⟩ := h.memoryGranted lowerBound fits_empty hwaits granted
      unfold MemoryPool.apply
      dsimp only
      split
      · next hsupplied =>
        cases partitioned with
        | none => exact ht
        | some p =>
          have hb := hpart p rfl
          obtain ⟨hne, hsame, hmem⟩ := hkept p.1 hb
          exact split_fits h hb ht hnew hne hsame hmem
            (hsound (resizable_of_supplied hsupplied) p rfl)
      · exact h
  · exact h

end Steps

/-- The allocator of a memory pool extends each of its blocks so. -/
theorem extendToLargest_extends {bufferSize physicalAddress : UInt32} {calls : List Call}
    {t : System} (hrun : run System.call (System.start bufferSize physicalAddress) calls = some t)
    {e : Extent} (he : e ∈ t.outstanding) (s : MemoryPool) {b : Nat}
    (hblock : (s.block b).size.toNat = e.size) (up : Bool) :
    s.Extends (.extendBuffer b ((t.allocator.extendToLargest e up).map fun extended =>
      ⟨BitVec.ofNat 32 extended.1.size, BitVec.ofNat 32 extended.1.base⟩)) := by
  cases hextended : t.allocator.extendToLargest e up with
  | none => exact trivial
  | some extended =>
    have hsize := extendToLargest_size hrun he hextended
    show (s.block b).size ≤ BitVec.ofNat 32 extended.1.size
    rw [BitVec.le_def, BitVec.toNat_ofNat, hblock, Nat.mod_eq_of_lt (by omega)]
    exact hsize.1

/-- What `PartitionBuffer` makes of a buffer: two blocks that the block is split into,
and data sizes that add up exactly where it leaves no more than there is. -/
structure Partitions (s s' : MemoryPool) (b new : Nat) (leave : UnsignedInt) : Prop where
  blocks : SplitInto (s.block b) (s'.block b) (s'.block new)
  dataSizes : (s'.buffers b).dataSize.toNat + (s'.buffers new).dataSize.toNat =
    (s.buffers b).dataSize.toNat ↔ leave ≤ (s.buffers b).dataSize

theorem split_partitions {s t : MemoryPool} {b new : Nat} (hne : b ≠ new)
    (hsame : t.buffers b = s.buffers b) (hle : leave ≤ (s.block b).size) :
    Partitions s (t.split b new leave) b new leave := by
  have hblock : t.block b = s.block b := congrArg BufferRecord.bufferBlock hsame
  constructor
  · unfold block
    rw [split_first hne, split_second hne, hblock]
    exact splitInto hle
  · rw [split_first hne, split_second hne, hsame]
    exact dataSizes_iff

theorem partitionBuffer_partitions {c : PoolConfiguration} {s t : MemoryPool} {b new : Nat}
    {nonBlocking : Bool} {o : Surroundings} (h : HeldAll Fits s) (hb : s.Holds b)
    (hle : leave ≤ (s.block b).size) (hsupports : c.supportsPartitioning = true)
    (hgot : s.getBuffer c 0 nonBlocking false o = .got new t) :
    Partitions s (s.partitionBuffer c b leave nonBlocking o) b new leave := by
  obtain ⟨-, -, hkept⟩ := h.getBuffer_got fits_empty hgot
  obtain ⟨hne, hsame, -⟩ := hkept b hb
  have hresult : s.partitionBuffer c b leave nonBlocking o = t.split b new leave := by
    unfold partitionBuffer
    rw [if_pos hsupports, hgot]
  rw [hresult]
  exact split_partitions hne hsame hle

/-- The same of a `PartitionBuffer` that has waited for the memory of its new buffer. -/
theorem memoryGranted_partitions {c : PoolConfiguration} {s : MemoryPool} {b new : Nat}
    {lowerBound : Bool} (h : HeldAll Fits s) (hb : s.Holds b) (hwaits : s.Waits new)
    (hle : leave ≤ (s.block b).size) (hresizable : Resizable c) (granted : Grant) :
    Partitions s (s.apply c (.memoryGranted new lowerBound granted (some (b, leave)))) b new
      leave := by
  obtain ⟨-, -, hkept⟩ := h.memoryGranted lowerBound fits_empty hwaits granted
  obtain ⟨hne, hsame, -⟩ := hkept b hb
  have hsupplied : (c.allocatesPerBuffer &&
      c.allocationSource == .allocateFromSuppliedBlock) = true := by
    simp [PoolConfiguration.allocatesPerBuffer, hresizable.1, hresizable.2]
  show Partitions s (if _ then _ else _) b new leave
  rw [if_pos hsupplied]
  exact split_partitions hne hsame hle

/-- In every state reached by sound calls the data of each buffer fits in its block,
and `PartitionBuffer` of any of them splits it in two, also where it has to wait for memory. -/
theorem sizes_fit (c : PoolConfiguration) (memory : Option Grant) (start : MemoryPool)
    (hcreated : created c memory = some start) (ops : List Operation)
    (hok : Along (step c) (fun s op => s.Extends op ∧ (s.Callable op → s.Sound c op)) start ops) :
    let s := ops.foldl (step c) start
    (∀ b, s.Holds b → (s.buffers b).dataSize ≤ (s.block b).size) ∧
      (∀ b new leave nonBlocking o t, s.Holds b → leave ≤ (s.block b).size →
        c.supportsPartitioning = true → s.getBuffer c 0 nonBlocking false o = .got new t →
        Partitions s (s.partitionBuffer c b leave nonBlocking o) b new leave) ∧
      ∀ b new leave lowerBound granted, s.Holds b → s.Waits new → leave ≤ (s.block b).size →
        Resizable c →
        Partitions s (s.apply c (.memoryGranted new lowerBound granted (some (b, leave)))) b new
          leave := by
  intro s
  have hall : HeldAll Fits (ops.foldl (step c) start) :=
    foldl_inv (P := HeldAll Fits) (fun hok h => step_fits h hok.1 hok.2) ops hok
      (HeldAll.created hcreated)
  refine ⟨hall.held, ?_, ?_⟩
  · intro b new leave nonBlocking o t hb hle hsupports hgot
    exact partitionBuffer_partitions hall hb hle hsupports hgot
  · intro b new leave lowerBound granted hb hwaits hle hresizable
    exact memoryGranted_partitions hall hb hwaits hle hresizable granted

/-- 3000 bytes in a buffer of 4096, split at 2048. -/
theorem sizes_fit_split :
    let ops : List Operation :=
      [.getBuffer 4000 false false ⟨false, false, some ⟨4096, 0⟩⟩, .setUsedDataSize 0 3000,
        .partitionBuffer 0 2048 false ⟨false, false, none⟩]
    ∃ start, created suppliedBlockPool none = some start ∧
      ((ops.foldl (step suppliedBlockPool) start).buffers 1).dataSize = 952 ∧
      ((ops.foldl (step suppliedBlockPool) start).buffers 1).dataSize ≤
        ((ops.foldl (step suppliedBlockPool) start).block 1).size := by
  intro ops
  have hcreated : created suppliedBlockPool none = some (withBuffers 2 ⟨0, 0⟩ 0) := rfl
  have hok : Along (step suppliedBlockPool)
      (fun s op => s.Extends op ∧ (s.Callable op → s.Sound suppliedBlockPool op))
      (withBuffers 2 ⟨0, 0⟩ 0) ops := by
    decide +kernel
  exact ⟨_, hcreated, by decide +kernel,
    (sizes_fit suppliedBlockPool none _ hcreated ops hok).1 1 (by decide +kernel)⟩

/-- 1000 bytes in a buffer of 4096, split at 2048: the second part has 2048 bytes and
a data size of almost 4 GB. -/
theorem partitionBuffer_underflows :
    let ops : List Operation :=
      [.getBuffer 4000 false false ⟨false, false, some ⟨4096, 0⟩⟩, .setUsedDataSize 0 1000]
    ∃ start, created suppliedBlockPool none = some start ∧
      let s := ops.foldl (step suppliedBlockPool) start
      let s' := s.partitionBuffer suppliedBlockPool 0 2048 false ⟨false, false, none⟩
      s.Holds 0 ∧ 2048 ≤ (s.block 0).size ∧ s'.Holds 1 ∧ (s'.block 1).size = 2048 ∧
        (s'.buffers 1).dataSize = 4294966248 ∧ (s'.buffers 0).dataSize = 2048 ∧
        (s.buffers 0).dataSize = 1000 :=
  ⟨_, rfl, by decide +kernel⟩

end MemoryPool

end Duckbox.BufferPool
