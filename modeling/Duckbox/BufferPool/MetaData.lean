import Duckbox.BufferPool.Memory

/-!
# The meta data attached to one buffer

`AttachMetaData`, `DetachMetaData` and `ObtainMetaDataReference` of
`Buffer_Generic_c`, over the list of block descriptors of the buffer, with
`GetDescriptor` of the manager and the pool's two memory functions.

`AttachMetaData` links the block into the list, and only then asks for its
memory. Where the memory is refused the call fails and the block stays: a buffer
without memory behind it, which the next reference finds. The pool's own
`AttachMetaData` asks first and links afterwards. Every other failure comes
before the link and leaves the list alone.

Not modelled: the contents of the memory, what `DeAllocateMemoryBlock` gives
back, the locks and the check that the buffer is in use.
-/

namespace Duckbox.BufferPool

/-- `BufferDataDescriptor_t`, without the alignment and the name. -/
structure BufferDataDescriptor where
  type : UnsignedInt
  allocationSource : AllocationSource
  allocationUnitSize : UnsignedInt
  hasFixedSize : Bool
  allocateOnPoolCreation : Bool
  fixedSize : UnsignedInt
deriving DecidableEq, Repr

/-- The statuses of the meta data functions. -/
inductive MetaDataStatus where
  | bufferError
  | bufferInsufficientMemoryGeneral
  | bufferInsufficientMemoryForMetaData
  | bufferInvalidDescriptor
  | bufferDataTypeNotFound
  | bufferMetaDataTypeNotFound
  | bufferParametersIncompatibleWithAllocationSource
deriving DecidableEq, Repr

/-- `MAX_BUFFER_DATA_TYPES` less one, `TYPE_INDEX_MASK`. -/
abbrev typeIndexMask : UnsignedInt := 0xff

/-- `MetaDataTypeBase`. -/
abbrev metaDataTypeBase : UnsignedInt := 0x8000

/-- `BufferManager_Generic_c`: its table of types. -/
structure BufferManager where
  typeDescriptors : Nat → BufferDataDescriptor
  typeDescriptorCount : UnsignedInt

/-- `GetDescriptor`, for a kind of type. -/
def BufferManager.getDescriptor (m : BufferManager) (type requiredKind : UnsignedInt) :
    Except MetaDataStatus BufferDataDescriptor :=
  if type &&& ~~~ typeIndexMask ≠ requiredKind then .error .bufferDataTypeNotFound
  else if m.typeDescriptorCount < type &&& typeIndexMask then .error .bufferDataTypeNotFound
  else
    let descriptor := m.typeDescriptors (type &&& typeIndexMask).toNat
    if descriptor.type ≠ type then .error .bufferInvalidDescriptor else .ok descriptor

/-- `BlockDescriptor_s` of meta data. -/
structure MetaDataBlock where
  descriptor : BufferDataDescriptor
  attachedToPool : Bool
  size : UnsignedInt
  /-- `Address[CachedAddress]`; `none` is `NULL`. -/
  address : Option Nat
deriving DecidableEq, Repr

/-- What a call of `AttachMetaData` is given, and what it meets outside: whether
`new` makes a block descriptor, and the memory that the source grants. -/
structure AttachCall where
  type : UnsignedInt
  size : UnsignedInt
  memoryBlock : Option Nat
  deviceMemoryPartitionName : Bool
  newBlock : Bool
  memory : Option Nat
deriving DecidableEq, Repr

namespace AttachCall

/-- The descriptor as the pool's memory functions see it. A single block is
asked for, so the number of buffers plays no part. -/
def configuration (call : AttachCall) (d : BufferDataDescriptor) : PoolConfiguration where
  allocationSource := d.allocationSource
  allocationUnitSize := d.allocationUnitSize
  hasFixedSize := d.hasFixedSize
  allocateOnPoolCreation := d.allocateOnPoolCreation
  fixedSize := d.fixedSize
  numberOfBuffers := none
  size := call.size
  memoryPool := call.memoryBlock.isSome
  arrayOfMemoryBlocks := false
  memoryPartitionName := call.deviceMemoryPartitionName

/-- `CheckMemoryParameters`, as `AttachMetaData` calls it. -/
def itemSize (call : AttachCall) (d : BufferDataDescriptor) : Option UnsignedInt :=
  (call.configuration d).checkMemoryParameters false call.size call.memoryBlock.isSome false

/-- The address that `AllocateMemoryBlock` writes in a block of a size. -/
def allocatedAddress (call : AttachCall) (d : BufferDataDescriptor) (size : UnsignedInt) :
    Option Nat :=
  if size = 0 then none
  else
    match d.allocationSource with
    | .allocateFromOSMemory | .allocateFromNamedDeviceMemory
    | .allocateFromDeviceVideoLMIMemory | .allocateFromDeviceMemory => call.memory
    | .allocateFromSuppliedBlock => call.memoryBlock
    | .allocateIndividualSuppliedBlocks | .noAllocation => none

/-- `AllocateMemoryBlock`, as `AttachMetaData` calls it: without an allocator. -/
def allocateMemoryBlock (call : AttachCall) (d : BufferDataDescriptor) (size : UnsignedInt) :
    Bool :=
  ((call.configuration d).allocateMemoryBlock ⟨size, 0⟩ false false false
    (call.memory.map fun _ => ⟨size, 0⟩)).1

end AttachCall

/-- `AttachMetaData`: the status, and the list it leaves. -/
def attachMetaData (m : BufferManager) (listOfMetaData : List MetaDataBlock) (call : AttachCall) :
    Except MetaDataStatus Unit × List MetaDataBlock :=
  match m.getDescriptor call.type metaDataTypeBase with
  | .error status => (.error status, listOfMetaData)
  | .ok d =>
    if d.allocationSource ≠ .noAllocation then
      match call.itemSize d with
      | none => (.error .bufferError, listOfMetaData)
      | some itemSize =>
        if !call.newBlock then (.error .bufferInsufficientMemoryForMetaData, listOfMetaData)
        else
          -- linked before the memory is there
          let listOfMetaData :=
            ⟨d, false, itemSize, call.allocatedAddress d itemSize⟩ :: listOfMetaData
          if call.allocateMemoryBlock d itemSize then (.ok (), listOfMetaData)
          else (.error .bufferInsufficientMemoryGeneral, listOfMetaData)
    else if call.memoryBlock = none then
      (.error .bufferParametersIncompatibleWithAllocationSource, listOfMetaData)
    else if !call.newBlock then (.error .bufferInsufficientMemoryForMetaData, listOfMetaData)
    else (.ok (), ⟨d, false, call.size, call.memoryBlock⟩ :: listOfMetaData)

/-- `DetachMetaData`: the first block of the type that is not the pool's. -/
def detachMetaData (listOfMetaData : List MetaDataBlock) (type : UnsignedInt) :
    Except MetaDataStatus Unit × List MetaDataBlock :=
  let found := fun block : MetaDataBlock => block.descriptor.type == type && !block.attachedToPool
  if listOfMetaData.any found then (.ok (), listOfMetaData.eraseP found)
  else (.error .bufferMetaDataTypeNotFound, listOfMetaData)

/-- `ObtainMetaDataReference`: the address, which may be `NULL`. -/
def obtainMetaDataReference (listOfMetaData : List MetaDataBlock) (type : UnsignedInt) :
    Except MetaDataStatus (Option Nat) :=
  match listOfMetaData.find? fun block => block.descriptor.type == type with
  | none => .error .bufferMetaDataTypeNotFound
  | some block => .ok block.address

/-! ## Later calls -/

/-- The three calls. -/
inductive MetaDataCall where
  | attach (call : AttachCall)
  | detach (type : UnsignedInt)
  | obtain (type : UnsignedInt)

/-- One call: what it answers, and the list after it. -/
def MetaDataCall.apply (m : BufferManager) (listOfMetaData : List MetaDataBlock) :
    MetaDataCall → Except MetaDataStatus (Option Nat) × List MetaDataBlock
  | .attach call =>
    let (status, after) := attachMetaData m listOfMetaData call
    (status.map fun _ => none, after)
  | .detach type =>
    let (status, after) := detachMetaData listOfMetaData type
    (status.map fun _ => none, after)
  | .obtain type => (obtainMetaDataReference listOfMetaData type, listOfMetaData)

/-- What the calls of a run answer. -/
def answers (m : BufferManager) (listOfMetaData : List MetaDataBlock) :
    List MetaDataCall → List (Except MetaDataStatus (Option Nat))
  | [] => []
  | call :: calls =>
    let (answer, after) := call.apply m listOfMetaData
    answer :: answers m after calls

/-! ## A failed call -/

/-- The sources that can refuse. -/
def AllocationSource.MayRefuse (source : AllocationSource) : Prop :=
  source = .allocateFromOSMemory ∨ source = .allocateFromDeviceMemory ∨
    source = .allocateFromDeviceVideoLMIMemory ∨ source = .allocateFromNamedDeviceMemory

/-- Everything about the call is in order, and the source refuses its memory. -/
def RefusedMemory (m : BufferManager) (call : AttachCall) : Prop :=
  ∃ d itemSize, m.getDescriptor call.type metaDataTypeBase = .ok d ∧
    d.allocationSource.MayRefuse ∧ call.itemSize d = some itemSize ∧ itemSize ≠ 0 ∧
    call.newBlock = true ∧ call.memory = none

/-- The list is as it was, and no run of later calls can tell the call was made. -/
def AsIfNotCalled (m : BufferManager) (listOfMetaData : List MetaDataBlock) (call : AttachCall) :
    Prop :=
  (attachMetaData m listOfMetaData call).2 = listOfMetaData ∧
    ∀ calls, answers m (attachMetaData m listOfMetaData call).2 calls =
      answers m listOfMetaData calls

variable {m : BufferManager} {listOfMetaData : List MetaDataBlock} {call : AttachCall}
  {d : BufferDataDescriptor} {size : UnsignedInt}

theorem asIfNotCalled_iff :
    AsIfNotCalled m listOfMetaData call ↔
      (attachMetaData m listOfMetaData call).2 = listOfMetaData := by
  constructor
  · intro h
    exact h.1
  · intro h
    refine ⟨h, ?_⟩
    intro calls
    rw [h]

theorem AttachCall.allocateMemoryBlock_eq_false_iff :
    call.allocateMemoryBlock d size = false ↔
      d.allocationSource.MayRefuse ∧ size ≠ 0 ∧ call.memory = none := by
  unfold AttachCall.allocateMemoryBlock PoolConfiguration.allocateMemoryBlock
    AllocationSource.MayRefuse
  by_cases hsize : size = 0
  · simp [hsize]
  · rw [if_neg hsize]
    cases hsource : d.allocationSource <;> cases hmemory : call.memory <;>
      simp [AttachCall.configuration, hsource, show ¬ size = 0#32 from hsize]

theorem AllocationSource.MayRefuse.ne {source : AllocationSource} (h : source.MayRefuse) :
    source ≠ .noAllocation := by
  rintro rfl
  rcases h with h | h | h | h <;> cases h

theorem attachMetaData_of_refused
    (hd : m.getDescriptor call.type metaDataTypeBase = .ok d)
    (hsource : d.allocationSource.MayRefuse) (hsize : call.itemSize d = some size)
    (hne : size ≠ 0) (hnew : call.newBlock = true) (hmemory : call.memory = none) :
    attachMetaData m listOfMetaData call =
      (.error .bufferInsufficientMemoryGeneral, ⟨d, false, size, none⟩ :: listOfMetaData) := by
  have hfails : call.allocateMemoryBlock d size = false :=
    AttachCall.allocateMemoryBlock_eq_false_iff.mpr ⟨hsource, hne, hmemory⟩
  have haddress : call.allocatedAddress d size = none := by
    unfold AttachCall.allocatedAddress
    rw [if_neg hne]
    rcases hsource with h | h | h | h <;> simp [h, hmemory]
  unfold attachMetaData
  simp only [hd, hsize, hnew, hfails, haddress, if_pos hsource.ne]
  rfl

theorem attachMetaData_of_not_refused (h : ¬ RefusedMemory m call)
    (hfails : ∀ u, (attachMetaData m listOfMetaData call).1 ≠ .ok u) :
    (attachMetaData m listOfMetaData call).2 = listOfMetaData := by
  revert hfails
  unfold attachMetaData
  cases hd : m.getDescriptor call.type metaDataTypeBase with
  | error status => intro _; rfl
  | ok d =>
    by_cases hsource : d.allocationSource ≠ .noAllocation
    · simp only [if_pos hsource]
      cases hsize : call.itemSize d with
      | none => intro _; rfl
      | some itemSize =>
        dsimp only
        cases hnew : call.newBlock with
        | false => intro _; rfl
        | true =>
          cases hallocate : call.allocateMemoryBlock d itemSize with
          | true =>
            intro hfails
            exact (hfails () rfl).elim
          | false =>
            obtain ⟨hmay, hne, hmemory⟩ :=
              AttachCall.allocateMemoryBlock_eq_false_iff.mp hallocate
            exact absurd ⟨d, itemSize, hd, hmay, hsize, hne, hnew, hmemory⟩ h
    · simp only [if_neg hsource]
      by_cases hblock : call.memoryBlock = none
      · rw [if_pos hblock]
        intro _
        rfl
      · rw [if_neg hblock]
        cases call.newBlock with
        | false => intro _; rfl
        | true =>
          intro hfails
          exact (hfails () rfl).elim

/-- A failed `AttachMetaData` is as if it had not been called exactly where no
source of memory refused: for any list and any call. -/
theorem failedAttach_asIfNotCalled_iff (m : BufferManager) (listOfMetaData : List MetaDataBlock)
    (call : AttachCall) :
    ((∀ u, (attachMetaData m listOfMetaData call).1 ≠ .ok u) →
      AsIfNotCalled m listOfMetaData call) ↔ ¬ RefusedMemory m call := by
  rw [asIfNotCalled_iff]
  constructor
  · intro h hrefused
    obtain ⟨d, size, hd, hsource, hsize, hne, hnew, hmemory⟩ := hrefused
    rw [attachMetaData_of_refused hd hsource hsize hne hnew hmemory] at h
    have hlist := h (by rintro u ⟨⟩)
    exact absurd (congrArg List.length hlist) (Nat.succ_ne_self _)
  · intro h hfails
    exact attachMetaData_of_not_refused h hfails

/-- A manager with one type of meta data, as `InitializeMetaDataDescriptor` has it. -/
def oneMetaDataType : BufferManager where
  typeDescriptors _ := ⟨metaDataTypeBase, .allocateFromOSMemory, 0, true, false, 64⟩
  typeDescriptorCount := 1

/-- `new` refuses the memory: the call fails, and afterwards the type is attached. -/
theorem failedAttach_stays :
    (attachMetaData oneMetaDataType [] ⟨0x8000, 64, none, false, true, none⟩).1 =
        .error .bufferInsufficientMemoryGeneral ∧
      (attachMetaData oneMetaDataType [] ⟨0x8000, 64, none, false, true, none⟩).2 ≠ [] ∧
      obtainMetaDataReference [] 0x8000 = .error .bufferMetaDataTypeNotFound ∧
      obtainMetaDataReference
        (attachMetaData oneMetaDataType [] ⟨0x8000, 64, none, false, true, none⟩).2 0x8000 =
          .ok none := by
  refine ⟨by rfl, ?_, by rfl, by rfl⟩
  intro h
  cases h

end Duckbox.BufferPool
