import Duckbox.Lib.Extent
import Duckbox.Lib.Loop
import Duckbox.Lib.Table
import Mathlib.Algebra.Order.Ring.Int

/-!
# The simple allocator

`AllocatorSimple_c` hands out ranges of a buffer from a table of
`ALLOCATOR_SIMPLE_MAX_BLOCKS` free-block records, none of which it lets cross a
64MB boundary of the physical address space. The translation follows the
source function by function: `allocate` takes the front of the first record
that is large enough, `allocateLargest` takes a whole record, `extendToLargest`
grows an allocation by the record that touches it, and `free` scans the table
once, swallowing the records that touch the range being freed.

Offsets and sizes are `Nat`: no range reaches past `BufferSize`, a 32-bit
number, so the sums the source forms never wrap. Physical addresses do wrap,
and `on64MBBoundary` says so.

An allocation that has to wait is not an event here: it is the same call made
again after the next `free`, so `allocate` is one pass of the source's loop.
-/

namespace Duckbox.Infrastructure

open Duckbox.Lib

/-- `ALLOCATOR_SIMPLE_MAX_BLOCKS`. -/
abbrev maxBlocks : Nat := 256

/-- `AllocatorSimpleBlock_t`. -/
structure Block where
  inUse : Bool
  size : Nat
  base : Nat
deriving DecidableEq, Repr

/-- What `memset( Blocks, 0x00, … )` leaves. -/
def Block.zero : Block := ⟨false, 0, 0⟩

abbrev Blocks := Vector Block maxBlocks

/-- `Blocks[i]`, the zero record past the end of the table. -/
def Blocks.at (bs : Blocks) (i : Nat) : Block := Table.read Block.zero bs i

/-- `Blocks[i] = b`. -/
def Blocks.put (bs : Blocks) (i : Nat) (b : Block) : Blocks := Table.write bs i b

/-- The data members of `AllocatorSimple_c`, its lock and event aside. -/
structure AllocatorSimple where
  bufferSize : Nat
  segmentSize : Nat
  physicalAddress : Nat
  highestUsedBlockIndex : Nat
  blocks : Blocks

/-- `On64MBBoundary( O )`. -/
def on64MBBoundary (physicalAddress o : Nat) : Bool :=
  ((o + physicalAddress) % 2 ^ 32) &&& 0x03ffffff == 0

/-- `((Size + SegmentSize - 1) / SegmentSize) * SegmentSize`. -/
def AllocatorSimple.roundUp (a : AllocatorSimple) (size : Nat) : Nat :=
  (size + a.segmentSize - 1) / a.segmentSize * a.segmentSize

/-! ## Freeing the whole buffer -/

/-- The locals of the whole-buffer `Free`. -/
structure FreeAll where
  blocks : Blocks
  localBufferSize : Nat
  localOffset : Nat
  maxBlockSize : Nat
  highestUsedBlockIndex : Nat

/-- One pass of the partitioning loop, idle once the buffer is used up. -/
def freeAllStep (f : FreeAll) (i : Nat) : FreeAll :=
  if f.localBufferSize ≠ 0 then
    let size := min f.localBufferSize f.maxBlockSize
    { blocks := f.blocks.put i ⟨true, size, f.localOffset⟩
      localBufferSize := f.localBufferSize - size
      localOffset := f.localOffset + size
      maxBlockSize := 0x4000000
      highestUsedBlockIndex := i }
  else f

/-- The locals before the first pass. -/
def freeAllInit (bufferSize physicalAddress : Nat) : FreeAll where
  blocks := Vector.replicate maxBlocks Block.zero
  localBufferSize := bufferSize
  localOffset := 0
  maxBlockSize := 0x4000000 - (physicalAddress &&& 0x03ffffff)
  highestUsedBlockIndex := 0

/-- `Free( void )`. -/
def AllocatorSimple.freeAll (a : AllocatorSimple) : AllocatorSimple :=
  let f := forUpTo freeAllStep (freeAllInit a.bufferSize a.physicalAddress) maxBlocks
  { a with blocks := f.blocks, highestUsedBlockIndex := f.highestUsedBlockIndex }

/-- The constructor. -/
def AllocatorSimple.new (bufferSize segmentSize physicalAddress : UInt32) : AllocatorSimple :=
  AllocatorSimple.freeAll
    { bufferSize := bufferSize.toNat
      segmentSize := segmentSize.toNat
      physicalAddress := physicalAddress.toNat
      highestUsedBlockIndex := 0
      blocks := Vector.replicate maxBlocks Block.zero }

/-! ## Allocating -/

/-- The first `i < HighestUsedBlockIndex + 1` with an in-use record that satisfies `p`. -/
def AllocatorSimple.findBlock (a : AllocatorSimple) (p : Block → Bool) : Option Nat :=
  (List.range (a.highestUsedBlockIndex + 1)).find? fun i =>
    (a.blocks.at i).inUse && p (a.blocks.at i)

/-- `Blocks[i].Size = 0; Blocks[i].InUse = false`. -/
def AllocatorSimple.takeBlock (a : AllocatorSimple) (i : Nat) : AllocatorSimple :=
  { a with blocks := a.blocks.put i { a.blocks.at i with size := 0, inUse := false } }

/-- `Allocate`, one pass of its loop: the range handed out and the allocator
after, `none` for nothing large enough. -/
def AllocatorSimple.allocate (a : AllocatorSimple) (size : Nat) :
    Option (Extent × AllocatorSimple) :=
  let size := a.roundUp size
  match a.findBlock (fun b => decide (size ≤ b.size)) with
  | none => none
  | some i =>
    let b := a.blocks.at i
    let b' : Block := ⟨b.inUse && (b.size - size != 0), b.size - size, b.base + size⟩
    some (⟨b.base, size⟩, { a with blocks := a.blocks.put i b' })

/-- One pass of the private `LargestFreeBlock`; `none` is its index `-1`. -/
def AllocatorSimple.largestStep (a : AllocatorSimple) (index : Option Nat) (i : Nat) :
    Option Nat :=
  if (a.blocks.at i).inUse then
    match index with
    | none => some i
    | some j => if (a.blocks.at j).size < (a.blocks.at i).size then some i else some j
  else index

/-- `LargestFreeBlock`. -/
def AllocatorSimple.largestFreeBlock (a : AllocatorSimple) : Option Nat :=
  forUpTo a.largestStep none (a.highestUsedBlockIndex + 1)

/-- `AllocateLargest`, one pass of its loop. -/
def AllocatorSimple.allocateLargest (a : AllocatorSimple) (size : Nat) :
    Option (Extent × AllocatorSimple) :=
  match a.largestFreeBlock with
  | none => none
  | some i =>
    let b := a.blocks.at i
    if size ≤ b.size then some (⟨b.base, b.size⟩, a.takeBlock i) else none

/-- `ExtendToLargest` on an allocation, `none` for `AllocatorNoMemory` and
`AllocatorUnableToAllocate`. -/
def AllocatorSimple.extendToLargest (a : AllocatorSimple) (e : Extent) (extendUpwards : Bool) :
    Option (Extent × AllocatorSimple) :=
  if extendUpwards then
    let boundaryToExtend := e.base + e.size
    if on64MBBoundary a.physicalAddress boundaryToExtend
        || decide ((a.physicalAddress + a.bufferSize) % 2 ^ 32 ≤ boundaryToExtend) then none
    else
      match a.findBlock (fun b => boundaryToExtend == b.base) with
      | none => none
      | some i => some (⟨e.base, e.size + (a.blocks.at i).size⟩, a.takeBlock i)
  else
    let boundaryToExtend := e.base
    if on64MBBoundary a.physicalAddress boundaryToExtend
        || boundaryToExtend == a.physicalAddress then none
    else
      match a.findBlock (fun b => boundaryToExtend == b.base + b.size) with
      | none => none
      | some i =>
        some (⟨(a.blocks.at i).base, e.size + (a.blocks.at i).size⟩, a.takeBlock i)

/-! ## Freeing a range -/

/-- The locals of `Free( Size, Block )`, the table among them. -/
structure FreeScan where
  blocks : Blocks
  size : Nat
  block : Nat
  lowestFreeBlock : Nat
  nextHighestUsedBlockIndex : Nat

/-- `if( !Blocks[i].InUse ) LowestFreeBlock = min( LowestFreeBlock, i )`. -/
def FreeScan.noteFree (s : FreeScan) (i : Nat) : FreeScan :=
  if (s.blocks.at i).inUse then s else { s with lowestFreeBlock := min s.lowestFreeBlock i }

/-- The first half of a pass: swallow record `i` if it touches the range. -/
def FreeScan.concatenate (physicalAddress : Nat) (s : FreeScan) (i : Nat) : FreeScan :=
  let b := s.blocks.at i
  if b.inUse then
    if s.block + s.size == b.base && !on64MBBoundary physicalAddress b.base then
      { s with size := s.size + b.size, blocks := s.blocks.put i { b with inUse := false } }
    else if s.block == b.base + b.size && !on64MBBoundary physicalAddress s.block then
      { s with
        size := s.size + b.size
        block := b.base
        blocks := s.blocks.put i { b with inUse := false } }
    else { s with nextHighestUsedBlockIndex := i }
  else s

/-- One pass of the scan. -/
def freeScanStep (physicalAddress : Nat) (s : FreeScan) (i : Nat) : FreeScan :=
  (s.concatenate physicalAddress i).noteFree i

/-- The locals before the scan. -/
def AllocatorSimple.freeScanInit (a : AllocatorSimple) (e : Extent) : FreeScan where
  blocks := a.blocks
  size := a.roundUp e.size
  block := e.base
  lowestFreeBlock := a.highestUsedBlockIndex + 1
  nextHighestUsedBlockIndex := 0

/-- The locals after the scan. -/
def AllocatorSimple.freeScan (a : AllocatorSimple) (e : Extent) : FreeScan :=
  forUpTo (freeScanStep a.physicalAddress) (a.freeScanInit e) (a.highestUsedBlockIndex + 1)

/-- `Free( Size, Block )`, `none` for `AllocatorError`. -/
def AllocatorSimple.free (a : AllocatorSimple) (e : Extent) : Option AllocatorSimple :=
  let s := a.freeScan e
  if s.lowestFreeBlock = maxBlocks then none
  else some
    { a with
      blocks := s.blocks.put s.lowestFreeBlock ⟨true, s.size, s.block⟩
      highestUsedBlockIndex := max s.lowestFreeBlock s.nextHighestUsedBlockIndex }

/-! ## The allocator and its callers -/

/-- The allocator together with the ranges it has handed out and not got back. -/
structure System where
  allocator : AllocatorSimple
  outstanding : List Extent

/-- The calls a caller makes; a range it names is one it holds. -/
inductive Op where
  | allocate (size : Nat)
  | allocateLargest (size : Nat)
  | extendToLargest (e : Extent) (extendUpwards : Bool)
  | free (e : Extent)

/-- One call. A call that gets nothing leaves the system as it was; `none` is a
call outside the contract (an empty allocation, a range that is not
outstanding) or a `Free` that returned `AllocatorError`. -/
def System.step (s : System) : Op → Option System
  | .allocate size =>
    if 0 < size then
      match s.allocator.allocate size with
      | none => some s
      | some (e, a) => some ⟨a, e :: s.outstanding⟩
    else none
  | .allocateLargest size =>
    match s.allocator.allocateLargest size with
    | none => some s
    | some (e, a) => some ⟨a, e :: s.outstanding⟩
  | .extendToLargest e up =>
    if e ∈ s.outstanding then
      match s.allocator.extendToLargest e up with
      | none => some s
      | some (e', a) => some ⟨a, e' :: s.outstanding.erase e⟩
    else none
  | .free e =>
    if e ∈ s.outstanding then
      match s.allocator.free e with
      | none => none
      | some a => some ⟨a, s.outstanding.erase e⟩
    else none

/-- A new allocator, nothing handed out. -/
def System.start (bufferSize physicalAddress : UInt32) : System :=
  ⟨AllocatorSimple.new bufferSize 1 physicalAddress, []⟩

end Duckbox.Infrastructure
