import Duckbox.Infrastructure.AllocatorRuns

/-!
# Extending an allocation

`ExtendToLargest` grows an allocation by the free record that touches it, above or
below. Its scan of the table and its boundary test are right, and it takes exactly
the record it joins. What goes wrong comes before the scan: "is there anything above
at all" is asked as `BoundaryToExtend >= PhysicalAddress + BufferSize` and "anything
below" as `BoundaryToExtend == PhysicalAddress`, and `BoundaryToExtend` is an offset
into the buffer while the other side is a physical address. Offsets start at zero,
so the ends of the buffer are never what these tests find:

> an extension is turned down although a record could be joined exactly where the
> number of the offset meets that of the address (`extendToLargest_complete_iff`).

The states are those of any sequence of calls. Beside the calls of `Op` a caller
gives back the tail of a range (`ShrinkMemoryBlock`), and it sees `Free` refuse a
range when no record is left for it.
-/

namespace Duckbox.Infrastructure

open Duckbox.Lib
open Duckbox.Lib.Extent

/-! ## The calls, with partial and refused frees -/

/-- The calls of the callers. -/
inductive Call where
  | op (o : Op)
  | shrink (e : Extent) (newSize : Nat)

/-- The table `Free( Size, Block )` leaves when it returns `AllocatorError`. -/
def AllocatorSimple.freeRefused (a : AllocatorSimple) (e : Extent) : AllocatorSimple :=
  { a with blocks := (a.freeScan e).blocks }

/-- One call. A range that `Free` refuses stays with its caller; `none` is a call
outside the contract only. -/
def System.call (s : System) : Call → Option System
  | .op (.free e) =>
    if e ∈ s.outstanding then
      match s.allocator.free e with
      | none => some ⟨s.allocator.freeRefused e, s.outstanding⟩
      | some a => some ⟨a, s.outstanding.erase e⟩
    else none
  | .op o => s.step o
  | .shrink e newSize =>
    let tail : Extent := ⟨e.base + newSize, e.size - newSize⟩
    if e ∈ s.outstanding ∧ 0 < newSize ∧ newSize < e.size then
      match s.allocator.free tail with
      | none => some ⟨s.allocator.freeRefused tail, ⟨e.base, newSize⟩ :: tail :: s.outstanding.erase e⟩
      | some a => some ⟨a, ⟨e.base, newSize⟩ :: s.outstanding.erase e⟩
    else none

/-! ## What the calls keep -/

variable {p n : Nat} {a a' : AllocatorSimple} {s s' : System} {e e' : Extent}

theorem freeScanStep_full {i : Nat} {bs : Blocks} {t : FreeScan}
    (h : t.lowestFreeBlock < maxBlocks ∨ t.blocks = bs) :
    (freeScanStep p t i).lowestFreeBlock < maxBlocks ∨ (freeScanStep p t i).blocks = bs := by
  have hnote : ∀ u : FreeScan, u.lowestFreeBlock < maxBlocks ∨ u.blocks = bs →
      (u.noteFree i).lowestFreeBlock < maxBlocks ∨ (u.noteFree i).blocks = bs := by
    intro u hu
    unfold FreeScan.noteFree
    split
    · exact hu
    · exact hu.imp_left (fun hlt => Nat.lt_of_le_of_lt (Nat.min_le_left _ _) hlt)
  have hswallow : ∀ u : FreeScan, i < maxBlocks → (u.blocks.at i).inUse = false →
      (u.noteFree i).lowestFreeBlock < maxBlocks := by
    intro u hi hidle
    unfold FreeScan.noteFree
    rw [hidle]
    exact Nat.lt_of_le_of_lt (Nat.min_le_right _ _) hi
  unfold freeScanStep FreeScan.concatenate
  by_cases huse : (t.blocks.at i).inUse = true
  · have hi := Blocks.lt_of_inUse huse
    simp only [if_pos huse]
    split
    · exact .inl (hswallow _ hi (by rw [Blocks.at_put_eq hi]))
    · split
      · exact .inl (hswallow _ hi (by rw [Blocks.at_put_eq hi]))
      · exact hnote _ h
  · simp only [if_neg huse]
    exact hnote _ h

theorem AllocatorSimple.freeRefused_eq (h : a.free e = none) : a.freeRefused e = a := by
  have hscan := forUpTo_inv (f := freeScanStep a.physicalAddress) (s := a.freeScanInit e)
    (n := a.highestUsedBlockIndex + 1)
    (P := fun _ t => t.lowestFreeBlock < maxBlocks ∨ t.blocks = a.blocks)
    (.inr rfl) (fun _ _ _ ht => freeScanStep_full ht)
  have hfull : (a.freeScan e).lowestFreeBlock = maxBlocks := by
    unfold AllocatorSimple.free at h
    simp only at h
    split at h
    · assumption
    · cases h
  rcases hscan with hlt | heq
  · unfold AllocatorSimple.freeScan at hfull
    omega
  · unfold AllocatorSimple.freeRefused AllocatorSimple.freeScan
    rw [heq]

theorem SysInv.split {k : Nat} (h : SysInv p n s) (he : e ∈ s.outstanding) (hpos : 0 < k)
    (hlt : k < e.size) :
    SysInv p n
      ⟨s.allocator, ⟨e.base + k, e.size - k⟩ :: ⟨e.base, k⟩ :: s.outstanding.erase e⟩ := by
  have hmem : e ∈ s.allocator.blocks.free ++ s.outstanding := List.mem_append_right _ he
  have hpart : Partition p n s.allocator.blocks
      (⟨e.base + k, e.size - k⟩ :: ⟨e.base, k⟩ :: s.outstanding.erase e) := by
    refine h.partition.move ?_ ?_ h.partition.apart
    · intro x
      have herase := cover_erase he x
      have hcut : cover [e] x
          = cover [⟨e.base, k⟩] x + cover [⟨e.base + k, e.size - k⟩] x := by
        rw [← cover_cut, Nat.add_sub_cancel' (Nat.le_of_lt hlt)]
      rw [cover_cons ⟨e.base + k, e.size - k⟩, cover_cons ⟨e.base, k⟩]
      omega
    · intro x hx
      have huncut := h.partition.uncut e hmem
      rcases List.mem_append.mp hx with hf | ho
      · exact .inl (List.mem_append_left _ hf)
      · rcases List.mem_cons.mp ho with rfl | ho
        · exact .inr ⟨Nat.sub_pos_of_lt hlt,
            huncut.sub (Nat.le_add_right _ _) (by simp only [stop]; omega)⟩
        · rcases List.mem_cons.mp ho with rfl | ho
          · exact .inr ⟨hpos, huncut.sub (Nat.le_refl _) (by simp only [stop]; omega)⟩
          · exact .inl (List.mem_append_right _ (List.mem_of_mem_erase ho))
  exact { h with partition := hpart }

theorem SysInv.swap {x y : Extent} {out : List Extent} (h : SysInv p n ⟨a, x :: y :: out⟩) :
    SysInv p n ⟨a, y :: x :: out⟩ := by
  have hmem : ∀ z, z ∈ a.blocks.free ++ y :: x :: out → z ∈ a.blocks.free ++ x :: y :: out := by
    intro z hz
    simp only [List.mem_append, List.mem_cons] at hz ⊢
    rcases hz with hz | hz | hz | hz
    · exact .inl hz
    · exact .inr (.inr (.inl hz))
    · exact .inr (.inl hz)
    · exact .inr (.inr (.inr hz))
  have hpart : Partition p n a.blocks (y :: x :: out) := by
    refine h.partition.move ?_ (fun z hz => .inl (hmem z hz)) h.partition.apart
    intro z
    show cover a.blocks.free z + _ = cover a.blocks.free z + _
    rw [cover_cons y (x :: out), cover_cons x out, cover_cons x (y :: out), cover_cons y out,
      Nat.add_right_comm]
  exact { h with partition := hpart }

theorem System.call_inv {c : Call} (h : s.call c = some s') (hi : SysInv p n s) :
    SysInv p n s' := by
  cases c with
  | op o =>
    cases o with
    | free e =>
      simp only [System.call] at h
      split at h
      · next he =>
        cases hfree : s.allocator.free e with
        | none =>
          rw [hfree] at h
          obtain rfl := Option.some.inj h
          rw [AllocatorSimple.freeRefused_eq hfree]
          exact hi
        | some a =>
          rw [hfree] at h
          obtain rfl := Option.some.inj h
          exact hi.free he hfree
      · cases h
    | allocate size =>
      simp only [System.call] at h
      exact System.step_inv h hi
    | allocateLargest size =>
      simp only [System.call] at h
      exact System.step_inv h hi
    | extendToLargest e up =>
      simp only [System.call] at h
      exact System.step_inv h hi
  | shrink e newSize =>
    simp only [System.call] at h
    split at h
    · next hheld =>
      obtain ⟨he, hpos, hlt⟩ := hheld
      have hsplit := hi.split he hpos hlt
      cases hfree : s.allocator.free ⟨e.base + newSize, e.size - newSize⟩ with
      | none =>
        rw [hfree] at h
        obtain rfl := Option.some.inj h
        rw [AllocatorSimple.freeRefused_eq hfree]
        exact hsplit.swap
      | some a =>
        rw [hfree] at h
        obtain rfl := Option.some.inj h
        have hdone := hsplit.free (List.mem_cons_self) hfree
        rw [List.erase_cons_head] at hdone
        exact hdone
    · cases h

/-- What a range is extended to is no smaller and lies in the buffer. -/
theorem extendToLargest_size {bufferSize physicalAddress : UInt32} {calls : List Call}
    {s : System} (hrun : run System.call (System.start bufferSize physicalAddress) calls = some s)
    {e : Extent} (he : e ∈ s.outstanding) {up : Bool} {extended : Extent × AllocatorSimple}
    (h : s.allocator.extendToLargest e up = some extended) :
    e.size ≤ extended.1.size ∧ extended.1.size < 2 ^ 32 := by
  have hinv := run_inv System.call_inv hrun (System.start_inv bufferSize physicalAddress)
  constructor
  · unfold AllocatorSimple.extendToLargest at h
    dsimp only at h
    split at h <;> split at h
    case isTrue.isFalse | isFalse.isFalse =>
      split at h
      · exact absurd h (by simp)
      · rw [← Option.some.inj h]
        exact Nat.le_add_right _ _
    all_goals exact absurd h (by simp)
  · have hextended := (hinv.extendToLargest he h).partition
    have hmem : extended.1 ∈ extended.2.blocks.free ++ extended.1 :: s.outstanding.erase e :=
      List.mem_append_right _ List.mem_cons_self
    have hstop := hextended.tiles.stop_le hmem (hextended.pos _ hmem)
    have hbuffer := bufferSize.toNat_lt
    have hle : extended.1.size ≤ extended.1.stop := Nat.le_add_left _ _
    omega

/-! ## What can be joined -/

/-- The free range `f` touches `e` on the side asked for, and no 64MB boundary of the
physical address space lies between them. -/
def Joinable (a : AllocatorSimple) (e : Extent) (up : Bool) (f : Extent) : Prop :=
  f ∈ a.blocks.free ∧
    if up then e.stop = f.base ∧ ¬ Boundary a.physicalAddress e.stop
    else f.stop = e.base ∧ ¬ Boundary a.physicalAddress e.base

/-- `ExtendToLargest` does on `e` what it is for: with nothing to join it fails, else
it returns the union of `e` and a range that can be joined, which has left the free
list; the rest of that list is as it was. -/
def ExtendsFully (a : AllocatorSimple) (e : Extent) (up : Bool) : Prop :=
  (a.extendToLargest e up = none ∧ ∀ f, ¬ Joinable a e up f) ∨
  ∃ e' a' f, a.extendToLargest e up = some (e', a') ∧ Joinable a e up f ∧
    (∀ x, e'.has x = (e.has x || f.has x)) ∧ a.blocks.free.Perm (f :: a'.blocks.free)

/-- The tests made before the scan let the call through: the offset where `e` ends is
numerically below the physical end of the buffer, or the offset where it starts is
not the number of the physical address. -/
def OffsetPasses (a : AllocatorSimple) (e : Extent) (up : Bool) : Prop :=
  if up then e.stop < (a.physicalAddress + a.bufferSize) % 2 ^ 32
  else e.base ≠ a.physicalAddress

theorem SysInv.findBlock_none {q : Block → Bool} (h : SysInv p n s)
    (hfind : s.allocator.findBlock q = none) {f : Extent} (hf : f ∈ s.allocator.blocks.free) :
    ∃ b : Block, f = ⟨b.base, b.size⟩ ∧ q b = false := by
  obtain ⟨i, hi, rfl⟩ := Blocks.mem_free.mp hf
  have hle := h.inUse_le i hi
  have hnot := List.find?_eq_none.mp hfind i (List.mem_range.mpr (by omega))
  rw [hi, Bool.true_and, Bool.not_eq_true] at hnot
  exact ⟨s.allocator.blocks.at i, rfl, hnot⟩

theorem AllocatorSimple.free_takeBlock {i : Nat} (hi : (a.blocks.at i).inUse = true) :
    a.blocks.free.Perm
      (⟨(a.blocks.at i).base, (a.blocks.at i).size⟩ :: (a.takeBlock i).blocks.free) := by
  have hget := Blocks.getElem?_toList_at a.blocks (Blocks.lt_of_inUse hi)
  unfold AllocatorSimple.takeBlock Blocks.free Blocks.put Table.write
  rw [Vector.toList_setIfInBounds]
  exact filterMap_set_none hget (by unfold Block.extent?; rw [if_pos hi]) rfl

theorem has_join (b s t x : Nat) :
    (⟨b, s + t⟩ : Extent).has x = ((⟨b, s⟩ : Extent).has x || (⟨b + s, t⟩ : Extent).has x) := by
  rw [Bool.eq_iff_iff, Bool.or_eq_true, has_iff, has_iff, has_iff]
  simp only [stop]
  omega

theorem SysInv.extend_up (h : SysInv p n s) (hpass : OffsetPasses s.allocator e true) :
    ExtendsFully s.allocator e true := by
  have hoff : decide ((s.allocator.physicalAddress + s.allocator.bufferSize) % 2 ^ 32
      ≤ e.base + e.size) = false := decide_eq_false (Nat.not_le.mpr hpass)
  by_cases hb : Boundary s.allocator.physicalAddress (e.base + e.size)
  · refine .inl ⟨?_, fun f hf => hf.2.2 hb⟩
    simp [AllocatorSimple.extendToLargest, on64MBBoundary_iff.mpr hb]
  · have hb' : on64MBBoundary s.allocator.physicalAddress (e.base + e.size) = false := by
      rw [Bool.eq_false_iff]
      exact fun hc => hb (on64MBBoundary_iff.mp hc)
    cases hfind : s.allocator.findBlock (fun b => e.base + e.size == b.base) with
    | none =>
      refine .inl ⟨?_, ?_⟩
      · simp only [AllocatorSimple.extendToLargest, if_true, hb', hoff, hfind, Bool.or_self,
          Bool.false_eq_true, if_false]
      · intro f hf
        obtain ⟨b, rfl, hq⟩ := h.findBlock_none hfind hf.1
        exact beq_eq_false_iff_ne.mp hq hf.2.1
    | some i =>
      obtain ⟨-, hi, htouch⟩ := AllocatorSimple.findBlock_some hfind
      have htouch : e.base + e.size = (s.allocator.blocks.at i).base := by simpa using htouch
      refine .inr ⟨⟨e.base, e.size + (s.allocator.blocks.at i).size⟩, s.allocator.takeBlock i,
        ⟨(s.allocator.blocks.at i).base, (s.allocator.blocks.at i).size⟩, ?_,
        ⟨Blocks.mem_free.mpr ⟨i, hi, rfl⟩, htouch, hb⟩, ?_, AllocatorSimple.free_takeBlock hi⟩
      · simp only [AllocatorSimple.extendToLargest, if_true, hb', hoff, hfind, Bool.or_self,
          Bool.false_eq_true, if_false]
      · intro x
        rw [← htouch]
        exact has_join e.base e.size _ x

theorem SysInv.extend_down (h : SysInv p n s) (hpass : OffsetPasses s.allocator e false) :
    ExtendsFully s.allocator e false := by
  have hoff : (e.base == s.allocator.physicalAddress) = false := beq_eq_false_iff_ne.mpr hpass
  by_cases hb : Boundary s.allocator.physicalAddress e.base
  · refine .inl ⟨?_, fun f hf => hf.2.2 hb⟩
    simp [AllocatorSimple.extendToLargest, on64MBBoundary_iff.mpr hb]
  · have hb' : on64MBBoundary s.allocator.physicalAddress e.base = false := by
      rw [Bool.eq_false_iff]
      exact fun hc => hb (on64MBBoundary_iff.mp hc)
    cases hfind : s.allocator.findBlock (fun b => e.base == b.base + b.size) with
    | none =>
      refine .inl ⟨?_, ?_⟩
      · simp only [AllocatorSimple.extendToLargest, hb', hoff, hfind, Bool.or_self,
          Bool.false_eq_true, if_false]
      · intro f hf
        obtain ⟨b, rfl, hq⟩ := h.findBlock_none hfind hf.1
        exact beq_eq_false_iff_ne.mp hq hf.2.1.symm
    | some i =>
      obtain ⟨-, hi, htouch⟩ := AllocatorSimple.findBlock_some hfind
      have htouch : e.base = (s.allocator.blocks.at i).base + (s.allocator.blocks.at i).size := by
        simpa using htouch
      refine .inr ⟨⟨(s.allocator.blocks.at i).base, e.size + (s.allocator.blocks.at i).size⟩,
        s.allocator.takeBlock i,
        ⟨(s.allocator.blocks.at i).base, (s.allocator.blocks.at i).size⟩, ?_,
        ⟨Blocks.mem_free.mpr ⟨i, hi, rfl⟩, htouch.symm, hb⟩, ?_,
        AllocatorSimple.free_takeBlock hi⟩
      · simp only [AllocatorSimple.extendToLargest, hb', hoff, hfind, Bool.or_self,
          Bool.false_eq_true, if_false]
      · intro x
        rw [Nat.add_comm e.size, has_join, ← htouch, Bool.or_comm]

theorem extendToLargest_of_not_passes {up : Bool} (h : ¬ OffsetPasses a e up) :
    a.extendToLargest e up = none := by
  unfold OffsetPasses stop at h
  cases up with
  | true =>
    have hoff : decide ((a.physicalAddress + a.bufferSize) % 2 ^ 32 ≤ e.base + e.size) = true :=
      decide_eq_true (Nat.not_lt.mp h)
    simp only [AllocatorSimple.extendToLargest, if_true, hoff, Bool.or_true]
  | false =>
    have hoff : (e.base == a.physicalAddress) = true := beq_iff_eq.mpr (Decidable.not_not.mp h)
    simp only [AllocatorSimple.extendToLargest, Bool.false_eq_true, if_false, hoff, Bool.or_true,
      if_true]

/-- After any sequence of calls `ExtendToLargest` does on a range what it is for just
where, with something to join, the offset passes for a physical address. -/
theorem extendToLargest_complete_iff (bufferSize physicalAddress : UInt32) {calls : List Call}
    {s : System} (hrun : run System.call (System.start bufferSize physicalAddress) calls = some s)
    {e : Extent} (_ : e ∈ s.outstanding) (up : Bool) :
    ExtendsFully s.allocator e up ↔
      ((∃ f, Joinable s.allocator e up f) → OffsetPasses s.allocator e up) := by
  have hinv := run_inv System.call_inv hrun (System.start_inv bufferSize physicalAddress)
  constructor
  · intro hfull hjoin
    by_cases hpass : OffsetPasses s.allocator e up
    · exact hpass
    · have hnone := extendToLargest_of_not_passes hpass
      rcases hfull with ⟨-, hnothing⟩ | ⟨e', a', f, hsome, -⟩
      · obtain ⟨f, hf⟩ := hjoin
        exact absurd hf (hnothing f)
      · rw [hnone] at hsome
        cases hsome
  · intro hcond
    by_cases hpass : OffsetPasses s.allocator e up
    · cases up with
      | true => exact hinv.extend_up hpass
      | false => exact hinv.extend_down hpass
    · exact .inl ⟨extendToLargest_of_not_passes hpass, fun f hf => hpass (hcond ⟨f, hf⟩)⟩

/-- A range grown again by the tail it gave back. -/
theorem extendToLargest_complete_after_shrink :
    ∃ s, run System.call (System.start 8 64) [.op (.allocate 8), .shrink ⟨0, 8⟩ 4] = some s ∧
      s.outstanding = [⟨0, 4⟩] ∧ s.allocator.blocks.free = [⟨4, 4⟩] ∧
      ExtendsFully s.allocator ⟨0, 4⟩ true := by
  have hrun : (run System.call (System.start 8 64) [.op (.allocate 8), .shrink ⟨0, 8⟩ 4]).map
      (fun s => (s.outstanding, s.allocator.blocks.free,
        s.allocator.physicalAddress, s.allocator.bufferSize))
      = some ([⟨0, 4⟩], [⟨4, 4⟩], 64, 8) := by decide +kernel
  obtain ⟨s, hs, hview⟩ := Option.map_eq_some_iff.mp hrun
  simp only [Prod.mk.injEq] at hview
  obtain ⟨hout, hfree, hphysical, hsize⟩ := hview
  refine ⟨s, hs, hout, hfree, (extendToLargest_complete_iff 8 64 hs ?_ true).mpr ?_⟩
  · rw [hout]
    exact List.mem_singleton_self _
  · intro _
    show 0 + 4 < (s.allocator.physicalAddress + s.allocator.bufferSize) % 2 ^ 32
    rw [hphysical, hsize]
    decide

/-- 96MB at physical address `0x5000000`: the range at offset `0x5000000` is not grown
by the free 32MB below it, though the next 64MB boundary is at offset `0x3000000`. -/
theorem extendToLargest_refuses_offset :
    ∃ s e f, run System.call (System.start 0x6000000 0x5000000)
        [.op (.allocate 0x3000000), .op (.allocate 0x2000000), .op (.allocate 0x1000000),
          .op (.free ⟨0x3000000, 0x2000000⟩)] = some s ∧
      e ∈ s.outstanding ∧ Joinable s.allocator e false f ∧
      s.allocator.extendToLargest e false = none ∧ ¬ ExtendsFully s.allocator e false := by
  have hrun : (run System.call (System.start 0x6000000 0x5000000)
        [.op (.allocate 0x3000000), .op (.allocate 0x2000000), .op (.allocate 0x1000000),
          .op (.free ⟨0x3000000, 0x2000000⟩)]).map
      (fun s => (s.outstanding, s.allocator.blocks.free, s.allocator.physicalAddress,
        (s.allocator.extendToLargest ⟨0x5000000, 0x1000000⟩ false).isNone))
      = some ([⟨0x5000000, 0x1000000⟩, ⟨0, 0x3000000⟩], [⟨0x3000000, 0x2000000⟩],
        0x5000000, true) := by decide +kernel
  obtain ⟨s, hs, hview⟩ := Option.map_eq_some_iff.mp hrun
  simp only [Prod.mk.injEq, Option.isNone_iff_eq_none] at hview
  obtain ⟨hout, hfree, hphysical, hnone⟩ := hview
  have hjoin : Joinable s.allocator ⟨0x5000000, 0x1000000⟩ false ⟨0x3000000, 0x2000000⟩ := by
    refine ⟨by rw [hfree]; exact List.mem_singleton_self _, rfl, ?_⟩
    rw [hphysical]
    unfold Boundary
    decide
  refine ⟨s, ⟨0x5000000, 0x1000000⟩, ⟨0x3000000, 0x2000000⟩, hs, ?_, hjoin, hnone, ?_⟩
  · rw [hout]
    exact List.mem_cons_self
  · rintro (⟨-, hnothing⟩ | ⟨e', a', f, hsome, -⟩)
    · exact hnothing _ hjoin
    · rw [hnone] at hsome
      cases hsome

end Duckbox.Infrastructure
