import Duckbox.Infrastructure.AllocatorSimple

/-!
# The simple allocator partitions its buffer

The free records and the ranges handed out tile `[0, BufferSize)`, no range
crosses a 64MB physical boundary, and two free records touch only across one:

> `Partition`: what holds of the table and the outstanding ranges after any run.

Allocation moves a summand of the cover count from the free list to the
outstanding ranges, whole (`Blocks.cover_put`) or cut (`Extent.cover_cut`).
`Free` is the harder direction. Its scan visits each record once, and the range
it frees grows as it goes, so a record passed over early might be expected to
touch the grown range later. It cannot: a record that touches the range's new
end touched the record just swallowed, and two free records only touch at a
boundary (`ScanInv.concatenate`).
-/

namespace Duckbox.Infrastructure

open Duckbox.Lib
open Duckbox.Lib.Extent

/-! ## The table as a list of free ranges -/

variable {bs : Blocks} {i : Nat} {b : Block}

theorem Blocks.at_put_eq (h : i < maxBlocks) : (bs.put i b).at i = b := Table.read_write_eq h

theorem Blocks.at_put_ne {j : Nat} (h : i ≠ j) :
    (bs.put i b).at j = bs.at j := Table.read_write_ne h

theorem Blocks.lt_of_inUse (h : (bs.at i).inUse = true) : i < maxBlocks := by
  by_cases hlt : i < maxBlocks
  · exact hlt
  · unfold Blocks.at at h
    rw [Table.read_of_le (Nat.le_of_not_lt hlt)] at h
    cases h

/-- The range a record stands for, if it is in use. -/
def Block.extent? (b : Block) : Option Extent := if b.inUse then some ⟨b.base, b.size⟩ else none

/-- The free ranges. -/
def Blocks.free (bs : Blocks) : List Extent := bs.toList.filterMap Block.extent?

theorem Blocks.getElem?_toList_at (bs : Blocks) (h : i < maxBlocks) :
    bs.toList[i]? = some (bs.at i) := by
  rw [Vector.getElem?_toList, Vector.getElem?_eq_getElem h]
  simp [Blocks.at, Table.read, Vector.getElem?_eq_getElem h]

theorem Blocks.mem_free {e : Extent} :
    e ∈ bs.free ↔ ∃ i, (bs.at i).inUse = true ∧ e = ⟨(bs.at i).base, (bs.at i).size⟩ := by
  unfold Blocks.free
  rw [List.mem_filterMap]
  constructor
  · rintro ⟨b, hb, he⟩
    obtain ⟨i, hi⟩ := List.mem_iff_getElem?.mp hb
    have hlt : i < maxBlocks := by
      have := (List.getElem?_eq_some_iff.mp hi).1
      simpa using this
    rw [Blocks.getElem?_toList_at bs hlt] at hi
    obtain rfl : bs.at i = b := by simpa using hi
    unfold Block.extent? at he
    split at he
    · next h => exact ⟨i, h, (Option.some.inj he).symm⟩
    · cases he
  · rintro ⟨i, hi, rfl⟩
    have hget := Blocks.getElem?_toList_at bs (Blocks.lt_of_inUse hi)
    exact ⟨bs.at i, List.mem_of_getElem? hget, by simp [Block.extent?, hi]⟩

theorem Blocks.mem_free_put {e : Extent} (h : e ∈ (bs.put i b).free) :
    e ∈ bs.free ∨ (b.inUse = true ∧ e = ⟨b.base, b.size⟩) := by
  obtain ⟨j, hj, rfl⟩ := Blocks.mem_free.mp h
  by_cases hij : i = j
  · subst hij
    have hlt := Blocks.lt_of_inUse hj
    rw [Blocks.at_put_eq hlt] at hj ⊢
    exact .inr ⟨hj, rfl⟩
  · rw [Blocks.at_put_ne hij] at hj ⊢
    exact .inl (Blocks.mem_free.mpr ⟨j, hj, rfl⟩)

theorem Blocks.cover_put (bs : Blocks) (b : Block) (h : i < maxBlocks) (a : Nat) :
    cover (bs.put i b).free a + cover (bs.at i).extent?.toList a
      = cover bs.free a + cover b.extent?.toList a := by
  unfold Blocks.free Blocks.put Table.write
  rw [Vector.toList_setIfInBounds]
  exact cover_filterMap_set Block.extent? b a _ _ _ (Blocks.getElem?_toList_at bs h)

theorem Blocks.cover_put_idle (h : (bs.at i).inUse = true) (hb : b.inUse = false) (a : Nat) :
    cover (bs.put i b).free a + cover [⟨(bs.at i).base, (bs.at i).size⟩] a
      = cover bs.free a := by
  have hput := Blocks.cover_put bs b (Blocks.lt_of_inUse h) a
  simpa [Block.extent?, h, hb] using hput

/-! ## 64MB boundaries -/

/-- The offsets at which the physical address is a multiple of 64MB. -/
def Boundary (physicalAddress o : Nat) : Prop := (o + physicalAddress) % 0x4000000 = 0

theorem on64MBBoundary_iff {p o : Nat} : on64MBBoundary p o = true ↔ Boundary p o := by
  unfold on64MBBoundary Boundary
  rw [show (0x03ffffff : Nat) = 2 ^ 26 - 1 from rfl, Nat.and_two_pow_sub_one_eq_mod,
    Nat.mod_mod_of_dvd _ (by decide : 2 ^ 26 ∣ 2 ^ 32)]
  exact beq_iff_eq

theorem not_on64MBBoundary_iff {p o : Nat} :
    (!on64MBBoundary p o) = true ↔ ¬ Boundary p o := by
  rw [← on64MBBoundary_iff]
  simp

/-! ## The partition -/

/-- The free records of `bs` and the ranges `out` partition `[0, n)`, free
records touch only across a boundary, and no range crosses one. -/
structure Partition (physicalAddress n : Nat) (bs : Blocks) (out : List Extent) : Prop where
  tiles : Tiles (bs.free ++ out) n
  pos : ∀ e ∈ bs.free ++ out, 0 < e.size
  apart : ∀ x ∈ bs.free, ∀ y ∈ bs.free, Apart (Boundary physicalAddress) x y
  uncut : ∀ e ∈ bs.free ++ out, Uncut (Boundary physicalAddress) e

variable {p n : Nat} {bs bs' : Blocks} {out out' : List Extent}

theorem Partition.move (h : Partition p n bs out)
    (hcover : ∀ a, cover bs'.free a + cover out' a = cover bs.free a + cover out a)
    (hnew : ∀ e ∈ bs'.free ++ out', e ∈ bs.free ++ out ∨ (0 < e.size ∧ Uncut (Boundary p) e))
    (hapart : ∀ x ∈ bs'.free, ∀ y ∈ bs'.free, Apart (Boundary p) x y) :
    Partition p n bs' out' := by
  refine ⟨?_, ?_, hapart, ?_⟩
  · intro a
    rw [cover_append, hcover a, ← cover_append]
    exact h.tiles a
  · intro e he
    rcases hnew e he with hold | hok
    · exact h.pos e hold
    · exact hok.1
  · intro e he
    rcases hnew e he with hold | hok
    · exact h.uncut e hold
    · exact hok.2

theorem Partition.mem_at (out : List Extent) (hi : (bs.at i).inUse = true) :
    (⟨(bs.at i).base, (bs.at i).size⟩ : Extent) ∈ bs.free ++ out :=
  List.mem_append_left _ (Blocks.mem_free.mpr ⟨i, hi, rfl⟩)

/-! ## Allocation -/

theorem AllocatorSimple.findBlock_some {a : AllocatorSimple} {q : Block → Bool}
    (h : a.findBlock q = some i) :
    i ≤ a.highestUsedBlockIndex ∧ (a.blocks.at i).inUse = true ∧ q (a.blocks.at i) = true := by
  unfold AllocatorSimple.findBlock at h
  have hmem := List.mem_of_find?_eq_some h
  have hsat := List.find?_some h
  rw [List.mem_range] at hmem
  rw [Bool.and_eq_true] at hsat
  exact ⟨by omega, hsat.1, hsat.2⟩

theorem Partition.carve {size : Nat} (h : Partition p n bs out) (hi : (bs.at i).inUse = true)
    (hpos : 0 < size) (hle : size ≤ (bs.at i).size) :
    Partition p n
      (bs.put i ⟨(bs.at i).inUse && ((bs.at i).size - size != 0), (bs.at i).size - size,
        (bs.at i).base + size⟩)
      (⟨(bs.at i).base, size⟩ :: out) := by
  generalize hb : bs.at i = b at hi hle ⊢
  have hlt : i < maxBlocks := Blocks.lt_of_inUse (by rw [hb]; exact hi)
  have hold : (⟨b.base, b.size⟩ : Extent) ∈ bs.free := Blocks.mem_free.mpr ⟨i, by rw [hb]; exact ⟨hi, rfl⟩⟩
  have hsize : b.size = size + (b.size - size) := by omega
  have huncut : ∀ e : Extent, b.base ≤ e.base → e.stop ≤ b.base + b.size →
      Uncut (Boundary p) e :=
    fun e h1 h2 => (h.uncut _ (List.mem_append_left _ hold)).sub h1 h2
  -- the shrunk record starts strictly inside the old one, where nothing else is free
  have hinside : ∀ x ∈ bs.free, x.stop ≠ b.base + size ∨ size = b.size := by
    intro x hx
    by_cases hstop : x.stop = b.base + size
    · right
      have hxpos := h.pos x (List.mem_append_left _ hx)
      have hxa : x.has (b.base + size - 1) = true :=
        has_iff.mpr (by simp only [stop] at hstop ⊢; omega)
      have hba : (⟨b.base, b.size⟩ : Extent).has (b.base + size - 1) = true :=
        has_iff.mpr (by simp only [stop]; omega)
      have heq := h.tiles.eq_of_has (List.mem_append_left _ hx) (List.mem_append_left _ hold)
        hxa hba
      subst heq
      simp only [stop] at hstop
      omega
    · exact .inl hstop
  refine h.move ?_ ?_ ?_
  · intro a
    have hput := Blocks.cover_put bs
      ⟨b.inUse && (b.size - size != 0), b.size - size, b.base + size⟩ hlt a
    have hcut := cover_cut b.base size (b.size - size) a
    rw [← hsize] at hcut
    rw [cover_cons _ out]
    by_cases hzero : b.size - size = 0
    · have hempty := cover_empty (b.base + size) a
      simp only [hb, Block.extent?, hi, hzero, Option.toList] at hput hcut ⊢
      simp only [bne_self_eq_false, Bool.and_false, Bool.false_eq_true, if_false,
        if_true, cover_nil] at hput ⊢
      omega
    · have hne : (b.size - size != 0) = true := by simpa using hzero
      simp only [hb, Block.extent?, hi, hne, Option.toList, Bool.and_true, if_true] at hput ⊢
      omega
  · intro e he
    rcases List.mem_append.mp he with hfree | hout
    · rcases Blocks.mem_free_put hfree with hf | ⟨huse, rfl⟩
      · exact .inl (List.mem_append_left _ hf)
      · have hne : b.size - size ≠ 0 := by simpa [hi] using huse
        exact .inr ⟨by show 0 < b.size - size; omega,
          huncut _ (by show b.base ≤ b.base + size; omega) (by simp only [stop]; omega)⟩
    · rcases List.mem_cons.mp hout with rfl | ho
      · exact .inr ⟨hpos, huncut _ (Nat.le_refl _) (by simp only [stop]; omega)⟩
      · exact .inl (List.mem_append_right _ ho)
  · intro x hx y hy
    rcases Blocks.mem_free_put hx with hxf | ⟨hxuse, rfl⟩ <;>
      rcases Blocks.mem_free_put hy with hyf | ⟨hyuse, rfl⟩
    · exact h.apart x hxf y hyf
    · intro hstop
      have hne : b.size - size ≠ 0 := by simpa [hi] using hyuse
      rcases hinside x hxf with hbad | heq
      · exact absurd hstop hbad
      · omega
    · intro hstop
      refine h.apart _ hold y hyf (Eq.trans ?_ hstop)
      simp only [stop]
      omega
    · intro hstop
      have hne : b.size - size ≠ 0 := by simpa [hi] using hxuse
      simp only [stop] at hstop
      omega

theorem Partition.retire (h : Partition p n bs out) (hi : (bs.at i).inUse = true)
    (hb : b.inUse = false)
    (hcover : ∀ a, cover out' a = cover out a + cover [⟨(bs.at i).base, (bs.at i).size⟩] a)
    (hnew : ∀ e ∈ out', e ∈ bs.free ++ out ∨ (0 < e.size ∧ Uncut (Boundary p) e)) :
    Partition p n (bs.put i b) out' := by
  have hsub : ∀ e ∈ (bs.put i b).free, e ∈ bs.free := by
    intro e he
    rcases Blocks.mem_free_put he with hf | ⟨huse, -⟩
    · exact hf
    · rw [hb] at huse
      cases huse
  refine h.move ?_ ?_ ?_
  · intro a
    have hput := Blocks.cover_put_idle hi hb a
    rw [hcover a]
    omega
  · intro e he
    rcases List.mem_append.mp he with hfree | hout
    · exact .inl (List.mem_append_left _ (hsub e hfree))
    · exact hnew e hout
  · exact fun x hx y hy => h.apart x (hsub x hx) y (hsub y hy)

theorem Partition.grow {b s t : Nat} {e : Extent} (h : Partition p n bs out)
    (hi : (bs.at i).inUse = true) (he : e ∈ out) (hc : ¬ Boundary p (b + s))
    (hparts : (e = ⟨b, s⟩ ∧ (⟨(bs.at i).base, (bs.at i).size⟩ : Extent) = ⟨b + s, t⟩) ∨
      ((⟨(bs.at i).base, (bs.at i).size⟩ : Extent) = ⟨b, s⟩ ∧ e = ⟨b + s, t⟩))
    {r : Block} (hr : r.inUse = false) :
    Partition p n (bs.put i r) (⟨b, s + t⟩ :: out.erase e) := by
  have hfm := Partition.mem_at out hi
  have hem : e ∈ bs.free ++ out := List.mem_append_right _ he
  refine h.retire hi hr ?_ ?_
  · intro a
    have herase := cover_erase he a
    have hcut := cover_cut b s t a
    rw [cover_cons _ (out.erase e)]
    rcases hparts with ⟨h1, h2⟩ | ⟨h1, h2⟩
    · rw [h1] at herase ⊢
      rw [h2]
      omega
    · rw [h2] at herase ⊢
      rw [h1]
      omega
  · intro x hx
    rcases List.mem_cons.mp hx with rfl | hx
    · right
      rcases hparts with ⟨h1, h2⟩ | ⟨h1, h2⟩
      · have hpos := h.pos e hem
        rw [h1] at hpos hem
        rw [h2] at hfm
        exact ⟨Nat.lt_add_right t hpos, (h.uncut _ hem).join (h.uncut _ hfm) hc⟩
      · have hpos := h.pos e hem
        rw [h2] at hpos hem
        rw [h1] at hfm
        exact ⟨Nat.add_pos_right s hpos, (h.uncut _ hfm).join (h.uncut _ hem) hc⟩
    · exact .inl (List.mem_append_right _ (List.mem_of_mem_erase hx))

/-! ## The scan of `Free` -/

/-- What holds after `k` passes of the scan that frees `e`: `bs` is the table
before it, `top` its highest used index. -/
structure ScanInv (p : Nat) (bs : Blocks) (out : List Extent) (e : Extent) (top k : Nat)
    (s : FreeScan) : Prop where
  cover_eq : ∀ a, cover s.blocks.free a + cover [⟨s.block, s.size⟩] a
    = cover bs.free a + cover [e] a
  still : ∀ i, (s.blocks.at i).inUse = true → s.blocks.at i = bs.at i
  pos : 0 < s.size
  uncut : Uncut (Boundary p) ⟨s.block, s.size⟩
  apart : ∀ i, i < k → (s.blocks.at i).inUse = true →
    Apart (Boundary p) ⟨s.block, s.size⟩ ⟨(s.blocks.at i).base, (s.blocks.at i).size⟩ ∧
    Apart (Boundary p) ⟨(s.blocks.at i).base, (s.blocks.at i).size⟩ ⟨s.block, s.size⟩
  next : ∀ i, i < k → (s.blocks.at i).inUse = true → i ≤ s.nextHighestUsedBlockIndex
  next_le : s.nextHighestUsedBlockIndex ≤ top
  lowest_le : s.lowestFreeBlock ≤ top + 1
  lowest : s.lowestFreeBlock ≤ top → (s.blocks.at s.lowestFreeBlock).inUse = false

variable {e : Extent} {top k : Nat} {s : FreeScan}

theorem ScanInv.mem_free (h : ScanInv p bs out e top k s) (hi : (s.blocks.at i).inUse = true) :
    (⟨(s.blocks.at i).base, (s.blocks.at i).size⟩ : Extent) ∈ bs.free := by
  have hst := h.still i hi
  rw [hst] at hi ⊢
  exact Blocks.mem_free.mpr ⟨i, hi, rfl⟩

theorem ScanInv.swallow {b t : Nat} (h : ScanInv p bs out e top i s) (hk : k = i + 1)
    (hi : (s.blocks.at i).inUse = true)
    (hcover : ∀ a, cover [⟨b, t⟩] a = cover [⟨s.block, s.size⟩] a
      + cover [⟨(s.blocks.at i).base, (s.blocks.at i).size⟩] a)
    (hpos : 0 < t) (huncut : Uncut (Boundary p) ⟨b, t⟩)
    (happart : ∀ j, j < i → (s.blocks.at j).inUse = true →
      Apart (Boundary p) ⟨b, t⟩ ⟨(s.blocks.at j).base, (s.blocks.at j).size⟩ ∧
      Apart (Boundary p) ⟨(s.blocks.at j).base, (s.blocks.at j).size⟩ ⟨b, t⟩) :
    ScanInv p bs out e top k
      { s with
        size := t
        block := b
        blocks := s.blocks.put i { s.blocks.at i with inUse := false } } := by
  subst hk
  have hlt := Blocks.lt_of_inUse hi
  have hidle : ∀ j, ((s.blocks.put i { s.blocks.at i with inUse := false }).at j).inUse = true →
      i ≠ j ∧ (s.blocks.put i { s.blocks.at i with inUse := false }).at j = s.blocks.at j := by
    intro j hj
    by_cases hij : i = j
    · subst hij
      rw [Blocks.at_put_eq hlt] at hj
      cases hj
    · exact ⟨hij, Blocks.at_put_ne hij⟩
  constructor
  case cover_eq =>
    intro a
    have hput := Blocks.cover_put_idle (b := { s.blocks.at i with inUse := false }) hi rfl a
    have hold := h.cover_eq a
    show cover (Blocks.free (s.blocks.put i _)) a + cover [⟨b, t⟩] a = _
    rw [hcover a]
    omega
  case still =>
    intro j hj
    obtain ⟨_, heq⟩ := hidle j hj
    rw [heq] at hj
    exact heq.trans (h.still j hj)
  case pos => exact hpos
  case uncut => exact huncut
  case apart =>
    intro j hjk hj
    obtain ⟨hne, heq⟩ := hidle j hj
    show Apart _ _ ⟨((s.blocks.put i _).at j).base, ((s.blocks.put i _).at j).size⟩ ∧ _
    simp only [heq] at hj ⊢
    exact happart j (by omega) hj
  case next =>
    intro j hjk hj
    obtain ⟨hne, heq⟩ := hidle j hj
    rw [heq] at hj
    exact h.next j (by omega) hj
  case next_le => exact h.next_le
  case lowest_le => exact h.lowest_le
  case lowest =>
    intro hlow
    by_cases hij : i = s.lowestFreeBlock
    · show ((s.blocks.put i _).at s.lowestFreeBlock).inUse = false
      rw [← hij, Blocks.at_put_eq hlt]
    · show ((s.blocks.put i _).at s.lowestFreeBlock).inUse = false
      rw [Blocks.at_put_ne hij]
      exact h.lowest hlow

theorem ScanInv.concatenate (hpart : Partition p n bs out) (h : ScanInv p bs out e top i s)
    (hle : i ≤ top) : ScanInv p bs out e top (i + 1) (s.concatenate p i) := by
  unfold FreeScan.concatenate
  by_cases hi : (s.blocks.at i).inUse = true
  · have hmem := h.mem_free hi
    have hiu : Uncut (Boundary p) ⟨(s.blocks.at i).base, (s.blocks.at i).size⟩ :=
      hpart.uncut _ (List.mem_append_left _ hmem)
    simp only [if_pos hi]
    split
    · -- the record starts where the range stops
      next hup =>
      obtain ⟨htouch, hoff⟩ := (Bool.and_eq_true _ _).mp hup
      have htouch : s.block + s.size = (s.blocks.at i).base := by simpa using htouch
      have hoff := not_on64MBBoundary_iff.mp hoff
      refine h.swallow rfl hi ?_ (Nat.lt_add_right _ h.pos) ?_ ?_
      · intro a
        rw [cover_cut, htouch]
      · refine h.uncut.join ?_ ?_
        · rw [htouch]; exact hiu
        · rw [htouch]; exact hoff
      · intro j hj hju
        obtain ⟨_, hbelow⟩ := h.apart j hj hju
        refine ⟨?_, hbelow⟩
        intro hstop
        refine hpart.apart _ hmem _ (h.mem_free hju) (Eq.trans ?_ hstop)
        simp only [stop]
        omega
    · split
      · -- the record stops where the range starts
        next _ hdown =>
        obtain ⟨htouch, hoff⟩ := (Bool.and_eq_true _ _).mp hdown
        have htouch : s.block = (s.blocks.at i).base + (s.blocks.at i).size := by simpa using htouch
        have hoff := not_on64MBBoundary_iff.mp hoff
        have hswap : s.size + (s.blocks.at i).size = (s.blocks.at i).size + s.size :=
          Nat.add_comm _ _
        refine h.swallow rfl hi ?_ (Nat.lt_add_right _ h.pos) ?_ ?_
        · intro a
          rw [hswap, cover_cut, ← htouch]
          exact Nat.add_comm _ _
        · rw [hswap]
          refine hiu.join ?_ ?_
          · rw [← htouch]; exact h.uncut
          · rw [← htouch]; exact hoff
        · intro j hj hju
          obtain ⟨habove, _⟩ := h.apart j hj hju
          constructor
          · intro hstop
            refine habove (Eq.trans ?_ hstop)
            simp only [stop]
            omega
          · intro hstop
            have hb := hpart.apart _ (h.mem_free hju) _ hmem hstop
            exact hb
      · -- the record does not touch the range, or touches it across a boundary
        next hup hdown =>
        refine { h with apart := ?_, next := ?_, next_le := hle }
        · intro j hj hju
          rcases Nat.lt_succ_iff_lt_or_eq.mp hj with hlt | rfl
          · exact h.apart j hlt hju
          · constructor
            · intro hstop
              by_cases hb : Boundary p (s.blocks.at j).base
              · exact hb
              · refine absurd ?_ hup
                rw [Bool.and_eq_true, not_on64MBBoundary_iff]
                exact ⟨by simpa [stop] using hstop, hb⟩
            · intro hstop
              by_cases hb : Boundary p s.block
              · exact hb
              · refine absurd ?_ hdown
                rw [Bool.and_eq_true, not_on64MBBoundary_iff]
                exact ⟨by simpa [stop] using hstop.symm, hb⟩
        · intro j hj hju
          exact Nat.le_of_lt_succ hj
  · simp only [if_neg hi]
    refine { h with apart := ?_, next := ?_ }
    · intro j hj hju
      rcases Nat.lt_succ_iff_lt_or_eq.mp hj with hlt | rfl
      · exact h.apart j hlt hju
      · exact absurd hju hi
    · intro j hj hju
      rcases Nat.lt_succ_iff_lt_or_eq.mp hj with hlt | rfl
      · exact h.next j hlt hju
      · exact absurd hju hi

theorem ScanInv.noteFree (h : ScanInv p bs out e top k s) :
    ScanInv p bs out e top k (s.noteFree i) := by
  unfold FreeScan.noteFree
  split
  · exact h
  · next hi =>
    refine { h with lowest_le := ?_, lowest := ?_ }
    · exact Nat.le_trans (Nat.min_le_left _ _) h.lowest_le
    · intro hlow
      show (s.blocks.at (min s.lowestFreeBlock i)).inUse = false
      rcases Nat.le_total s.lowestFreeBlock i with hle | hle
      · rw [Nat.min_eq_left hle] at hlow ⊢
        exact h.lowest hlow
      · rw [Nat.min_eq_right hle]
        exact Bool.eq_false_iff.mpr hi

theorem AllocatorSimple.freeScan_inv {a : AllocatorSimple} (hpart : Partition
      a.physicalAddress n a.blocks out) (hseg : a.segmentSize = 1) (he : e ∈ out) :
    ScanInv a.physicalAddress a.blocks out e a.highestUsedBlockIndex
      (a.highestUsedBlockIndex + 1) (a.freeScan e) := by
  have hround : a.roundUp e.size = e.size := by
    unfold AllocatorSimple.roundUp
    rw [hseg]
    simp
  have hem : e ∈ a.blocks.free ++ out := List.mem_append_right _ he
  refine forUpTo_inv (P := ScanInv a.physicalAddress a.blocks out e a.highestUsedBlockIndex)
    ?_ ?_
  · unfold AllocatorSimple.freeScanInit
    rw [hround]
    exact
      { cover_eq := fun _ => rfl
        still := fun _ _ => rfl
        pos := hpart.pos e hem
        uncut := hpart.uncut e hem
        apart := fun i hi => absurd hi (Nat.not_lt_zero i)
        next := fun i hi => absurd hi (Nat.not_lt_zero i)
        next_le := Nat.zero_le _
        lowest_le := Nat.le_refl _
        lowest := fun hlow => absurd hlow (Nat.not_succ_le_self _) }
  · intro k t hk ht
    exact (ht.concatenate hpart (Nat.le_of_lt_succ hk)).noteFree

end Duckbox.Infrastructure
