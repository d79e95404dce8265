import Mathlib.Data.List.Perm.Subperm
import Duckbox.Codec.BufferAccounts

/-!
# The descriptors of reference pictures

`FillOutDecodeCommandRefPicList` and `FillOutNewDescriptor` of
`Codec_MmeVideoH264_c`: each entry of the three reference lists is given a
descriptor, and entries that reference the same slot in the same way are given
the same one. What there is is looked up in `DescriptorIndices` under
`ReferenceId`, three times the slot plus the usage.

A buffer whose request for a slot is outstanding has `INVALID_INDEX` for a slot,
and its reference id is one of the last three numbers of 32 bits. The loop over
the frame addresses asks for that, the loops over the lists do not. Where every
listed buffer has a slot, all indices are in range and descriptors are shared
exactly as they should be (`descriptorsSound_iff`).

The sizes of the arrays that are in the parameters of the firmware are given.
Not modelled: the addresses of the buffers, and the rest of the host data.
-/

namespace Duckbox.Codec

open Duckbox.Lib

/-- The `REF_PIC_USE_` constants. -/
inductive UsageCode where
  | frame
  | fieldTop
  | fieldBot
deriving DecidableEq, Repr

def UsageCode.toWord : UsageCode → BitVec 32
  | .frame => 0
  | .fieldTop => 1
  | .fieldBot => 2

/-- The `H264_PIC_DESCRIPTOR_` constants. -/
inductive DescriptorType where
  | frame
  | aframe
  | fieldTop
  | fieldBottom
deriving DecidableEq, Repr

/-- `H264_UNUSED_FOR_REFERENCE` and its siblings. -/
inductive ReferenceType where
  | unused
  | shortTerm
  | longTerm
deriving DecidableEq, Repr

/-- `H264_HostData_t`, as far as a descriptor changes it. -/
structure HostData where
  pictureNumber : Int
  picOrderCnt : Int
  picOrderCntTop : Int
  picOrderCntBot : Int
  descriptorType : DescriptorType
  referenceType : ReferenceType
deriving DecidableEq, Repr

/-- `H264ReferenceDetails_t`. -/
structure ReferenceDetails where
  pictureNumber : Int
  picOrderCnt : Int
  picOrderCntTop : Int
  picOrderCntBot : Int
  usageCode : UsageCode
  longTermReference : Bool
deriving DecidableEq, Repr

/-- An entry of a reference frame list, translated to a buffer. -/
structure ListedReference where
  bufferIndex : Nat
  details : ReferenceDetails
deriving DecidableEq, Repr

/-- One for each of `P_REF_PIC_LIST`, `B_REF_PIC_LIST_0` and `B_REF_PIC_LIST_1`. -/
structure RefPicList (α : Type) where
  p : List α
  b0 : List α
  b1 : List α
deriving DecidableEq, Repr

def RefPicList.toList {α : Type} (l : RefPicList α) : List α := l.p ++ l.b0 ++ l.b1

/-- `H264_PictureDescriptor_t`. -/
structure PictureDescriptor where
  frameIndex : BitVec 32
  hostData : HostData
deriving DecidableEq, Repr

/-- An index into one of the three arrays. -/
inductive ArrayUse where
  | descriptorIndices (i : BitVec 32)
  | pictureDescriptor (i : BitVec 32)
  | referenceFrameAddress (i : BitVec 32)
deriving DecidableEq, Repr

/-- The sizes of the arrays in the parameters of the firmware. -/
structure FirmwareSizes where
  pictureDescriptor : Nat
  referenceFrameAddress : Nat

/-- A descriptor for every slot and usage, and an address for every slot. -/
def FirmwareSizes.Roomy (sizes : FirmwareSizes) : Prop :=
  48 ≤ sizes.pictureDescriptor ∧ 16 ≤ sizes.referenceFrameAddress

/-- `DescriptorIndices` has three places for each of 16 slots. -/
def ArrayUse.InRange (sizes : FirmwareSizes) : ArrayUse → Prop
  | .descriptorIndices i => i.toNat < 48
  | .pictureDescriptor i => i.toNat < sizes.pictureDescriptor
  | .referenceFrameAddress i => i.toNat < sizes.referenceFrameAddress

/-- What the two functions write, with the indices they have used. -/
structure RefPicLists where
  numberOfUsedDescriptors : BitVec 32
  /-- The bytes from the array on, behind its end those of other variables. -/
  descriptorIndices : BitVec 32 → BitVec 8
  pictureDescriptor : BitVec 32 → PictureDescriptor
  referenceDescriptorsBitsField : BitVec 32
  uses : List ArrayUse

namespace MmeVideo

/-- `BufferState[i].ReferenceFrameSlot`. -/
def slotIndex (s : MmeVideo) (i : Nat) : BitVec 32 :=
  match (s.bufferState i).referenceFrameSlot with
  | none => 0xffffffff
  | some slot => BitVec.ofNat 32 slot

def referenceId (s : MmeVideo) (e : ListedReference) : BitVec 32 :=
  3 * s.slotIndex e.bufferIndex + e.details.usageCode.toWord

end MmeVideo

/-- The host data of a descriptor: the picture's, with the details of this reference. -/
def HostData.referenced (recorded : HostData) (details : ReferenceDetails) : HostData where
  pictureNumber := details.pictureNumber
  picOrderCnt := details.picOrderCnt
  picOrderCntTop := details.picOrderCntTop
  picOrderCntBot := details.picOrderCntBot
  referenceType := if details.longTermReference then .longTerm else .shortTerm
  descriptorType :=
    match details.usageCode with
    | .frame =>
      if recorded.descriptorType ≠ .aframe ∧ recorded.descriptorType ≠ .frame then .frame
      else recorded.descriptorType
    | .fieldTop => .fieldTop
    | .fieldBot => .fieldBottom

namespace RefPicLists

/-- `FillOutNewDescriptor`: the index of the descriptor, and what it leaves. -/
def fillOutNewDescriptor (s : MmeVideo) (recordedHostData : Nat → HostData) (r : RefPicLists)
    (referenceId : BitVec 32) (e : ListedReference) : BitVec 32 × RefPicLists :=
  let descriptorIndex := r.numberOfUsedDescriptors
  let slotIndex := s.slotIndex e.bufferIndex
  let recorded := recordedHostData e.bufferIndex
  (descriptorIndex,
    { numberOfUsedDescriptors := r.numberOfUsedDescriptors + 1
      descriptorIndices :=
        Function.update r.descriptorIndices referenceId (descriptorIndex.setWidth 8)
      pictureDescriptor :=
        Function.update r.pictureDescriptor descriptorIndex
          ⟨slotIndex, recorded.referenced e.details⟩
      referenceDescriptorsBitsField :=
        -- "the nature of the frame being referenced is in its original descriptor type"
        if recorded.descriptorType ≠ .frame ∧ recorded.descriptorType ≠ .aframe then
          r.referenceDescriptorsBitsField ||| (1 <<< slotIndex.toNat)
        else r.referenceDescriptorsBitsField
      uses :=
        r.uses ++ [.descriptorIndices referenceId, .pictureDescriptor descriptorIndex] })

/-- One pass of the loop over a list. -/
def fillOutEntry (s : MmeVideo) (recordedHostData : Nat → HostData) (r : RefPicLists)
    (e : ListedReference) : BitVec 32 × RefPicLists :=
  let referenceId := s.referenceId e
  let descriptorIndex := r.descriptorIndices referenceId
  let r := { r with uses := r.uses ++ [.descriptorIndices referenceId] }
  if descriptorIndex = 0xff then r.fillOutNewDescriptor s recordedHostData referenceId e
  else (descriptorIndex.setWidth 32, r)

/-- The loop over a list. -/
def fillOutList (s : MmeVideo) (recordedHostData : Nat → HostData) :
    RefPicLists → List ListedReference → List (BitVec 32) × RefPicLists
  | r, [] => ([], r)
  | r, e :: entries =>
    let (descriptorIndex, r) := r.fillOutEntry s recordedHostData e
    let (descriptors, r) := fillOutList s recordedHostData r entries
    (descriptorIndex :: descriptors, r)

/-- The frame address array: the slots of reference frames that have one. -/
def frameAddresses (c : Configuration) (s : MmeVideo) : List ArrayUse :=
  ((List.range c.decodeBufferCount).filter fun i =>
    (s.bufferState i).referenceFrameCount != 0 && (s.bufferState i).referenceFrameSlot.isSome).map
      fun i => .referenceFrameAddress (s.slotIndex i)

/-- The state in front of the first list; all bytes of `DescriptorIndices` are `0xff`. -/
def start (c : Configuration) (s : MmeVideo) (r : RefPicLists) : RefPicLists where
  numberOfUsedDescriptors := 0
  descriptorIndices i := if i.toNat < 48 then 0xff else r.descriptorIndices i
  pictureDescriptor := r.pictureDescriptor
  referenceDescriptorsBitsField := 0
  uses := frameAddresses c s

/-- `FillOutDecodeCommandRefPicList`: the descriptors of the entries of the lists. -/
def fillOutDecodeCommandRefPicList (c : Configuration) (s : MmeVideo)
    (recordedHostData : Nat → HostData) (r : RefPicLists) (lists : RefPicList ListedReference) :
    RefPicList (BitVec 32) × RefPicLists :=
  let (p, r) := (r.start c s).fillOutList s recordedHostData lists.p
  let (b0, r) := r.fillOutList s recordedHostData lists.b0
  let (b1, r) := r.fillOutList s recordedHostData lists.b1
  (⟨p, b0, b1⟩, r)

end RefPicLists

/-! ## Reference ids -/

section

variable {c : Configuration} {s : MmeVideo} {recordedHostData : Nat → HostData}
  {r : RefPicLists} {e e' : ListedReference} {entries : List ListedReference}
  {sizes : FirmwareSizes} {ids ids' : List (BitVec 32)} {id : BitVec 32} {use : ArrayUse}

/-- The slot of the buffer of an entry. -/
def ListedReference.slot (s : MmeVideo) (e : ListedReference) : Option (Fin 16) :=
  (s.bufferState e.bufferIndex).referenceFrameSlot

theorem UsageCode.toNat_toWord_lt (usage : UsageCode) : usage.toWord.toNat < 3 := by
  cases usage <;> decide

theorem UsageCode.toWord_injective {usage usage' : UsageCode}
    (h : usage.toWord.toNat = usage'.toWord.toNat) : usage = usage' := by
  cases usage <;> cases usage' <;> first | rfl | exact absurd h (by decide)

theorem toNat_referenceId {slot : Fin 16} (h : e.slot s = some slot) :
    (s.referenceId e).toNat = 3 * slot + e.details.usageCode.toWord.toNat := by
  have hthree : (3 : BitVec 32).toNat = 3 := rfl
  have hslot := slot.isLt
  have husage := e.details.usageCode.toNat_toWord_lt
  unfold MmeVideo.referenceId MmeVideo.slotIndex
  unfold ListedReference.slot at h
  rw [h]
  simp only [BitVec.toNat_add, BitVec.toNat_mul, BitVec.toNat_ofNat, hthree]
  omega

theorem le_toNat_referenceId (h : e.slot s = none) : 48 ≤ (s.referenceId e).toNat := by
  have hthree : (3 * 0xffffffff : BitVec 32).toNat = 0xfffffffd := by decide
  have husage := e.details.usageCode.toNat_toWord_lt
  unfold MmeVideo.referenceId MmeVideo.slotIndex
  unfold ListedReference.slot at h
  rw [h, BitVec.toNat_add, hthree]
  omega

theorem referenceId_lt_iff : (s.referenceId e).toNat < 48 ↔ e.slot s ≠ none := by
  cases h : e.slot s with
  | none => simpa using le_toNat_referenceId h
  | some slot =>
    have hslot := slot.isLt
    have husage := e.details.usageCode.toNat_toWord_lt
    have hid := toNat_referenceId h
    simp only [ne_eq, reduceCtorEq, not_false_eq_true, iff_true]
    omega

theorem referenceId_eq_iff (h : e.slot s ≠ none) (h' : e'.slot s ≠ none) :
    s.referenceId e = s.referenceId e' ↔
      e.slot s = e'.slot s ∧ e.details.usageCode = e'.details.usageCode := by
  obtain ⟨slot, hslot⟩ := Option.ne_none_iff_exists'.mp h
  obtain ⟨slot', hslot'⟩ := Option.ne_none_iff_exists'.mp h'
  have hid := toNat_referenceId hslot
  have hid' := toNat_referenceId hslot'
  have husage := e.details.usageCode.toNat_toWord_lt
  have husage' := e'.details.usageCode.toNat_toWord_lt
  rw [hslot, hslot', ← BitVec.toNat_inj]
  constructor
  · intro heq
    have hslots : slot = slot' := Fin.ext (by omega)
    exact ⟨congrArg some hslots, UsageCode.toWord_injective (by omega)⟩
  · rintro ⟨hslots, husages⟩
    rw [hid, hid', Option.some.inj hslots, husages]

/-! ## What is used -/

namespace RefPicLists

theorem mem_uses_fillOutEntry (h : use ∈ r.uses ∨ use = .descriptorIndices (s.referenceId e)) :
    use ∈ (r.fillOutEntry s recordedHostData e).2.uses := by
  have hmem : use ∈ r.uses ++ [.descriptorIndices (s.referenceId e)] := by simpa using h
  unfold fillOutEntry fillOutNewDescriptor
  dsimp only
  split
  · exact List.mem_append_left _ hmem
  · exact hmem

theorem mem_uses_fillOutList
    (h : use ∈ r.uses ∨ ∃ e ∈ entries, use = .descriptorIndices (s.referenceId e)) :
    use ∈ (r.fillOutList s recordedHostData entries).2.uses := by
  induction entries generalizing r with
  | nil => simpa [fillOutList] using h
  | cons e entries ih =>
    unfold fillOutList
    refine ih ?_
    rcases h with h | ⟨e', he', huse⟩
    · exact .inl (mem_uses_fillOutEntry (.inl h))
    · rcases List.mem_cons.mp he' with rfl | he'
      · exact .inl (mem_uses_fillOutEntry (.inr huse))
      · exact .inr ⟨e', he', huse⟩

theorem exists_use_not_inRange {lists : RefPicList ListedReference} (he : e ∈ lists.toList)
    (hslot : e.slot s = none) :
    ∃ use ∈ (r.fillOutDecodeCommandRefPicList c s recordedHostData lists).2.uses,
      ¬ use.InRange sizes := by
  refine ⟨.descriptorIndices (s.referenceId e), ?_, ?_⟩
  · unfold fillOutDecodeCommandRefPicList
    unfold RefPicList.toList at he
    rcases List.mem_append.mp he with he | he
    · rcases List.mem_append.mp he with he | he
      · exact mem_uses_fillOutList (.inl (mem_uses_fillOutList
          (.inl (mem_uses_fillOutList (.inr ⟨e, he, rfl⟩)))))
      · exact mem_uses_fillOutList (.inl (mem_uses_fillOutList (.inr ⟨e, he, rfl⟩)))
    · exact mem_uses_fillOutList (.inr ⟨e, he, rfl⟩)
  · exact Nat.not_lt.mpr (le_toNat_referenceId hslot)

/-! ## Descriptors in the order of the references -/

/-- The descriptors given out so far are those of `ids`, in this order. -/
structure Numbered (sizes : FirmwareSizes) (r : RefPicLists) (ids : List (BitVec 32)) : Prop where
  number : r.numberOfUsedDescriptors = BitVec.ofNat 32 ids.length
  nodup : ids.Nodup
  lt : ∀ id ∈ ids, id.toNat < 48
  known : ∀ id ∈ ids, r.descriptorIndices id = BitVec.ofNat 8 (ids.idxOf id)
  fresh : ∀ id, id.toNat < 48 → id ∉ ids → r.descriptorIndices id = 0xff
  inRange : ∀ use ∈ r.uses, use.InRange sizes

theorem length_le_of_nodup (hnodup : ids.Nodup) (hlt : ∀ id ∈ ids, id.toNat < 48) :
    ids.length ≤ 48 := by
  have hmap : (ids.map BitVec.toNat).Nodup := hnodup.map fun _ _ => BitVec.eq_of_toNat_eq
  have hsub : ids.map BitVec.toNat ⊆ List.range 48 := by
    intro n hn
    obtain ⟨id, hid, rfl⟩ := List.mem_map.mp hn
    exact List.mem_range.mpr (hlt id hid)
  simpa using (List.subperm_of_subset hmap hsub).length_le

theorem Numbered.length_le (h : r.Numbered sizes ids) : ids.length ≤ 48 :=
  length_le_of_nodup h.nodup h.lt

theorem Numbered.idxOf_lt (h : r.Numbered sizes ids) (hid : id ∈ ids) : ids.idxOf id < 48 :=
  lt_of_lt_of_le (List.idxOf_lt_length_of_mem hid) h.length_le

theorem Numbered.fillOutEntry_of_mem (h : r.Numbered sizes ids)
    (hmem : s.referenceId e ∈ ids) :
    (r.fillOutEntry s recordedHostData e).1 = BitVec.ofNat 32 (ids.idxOf (s.referenceId e)) ∧
      (r.fillOutEntry s recordedHostData e).2.Numbered sizes ids := by
  have hlt := h.idxOf_lt hmem
  have hread := h.known _ hmem
  have hne : r.descriptorIndices (s.referenceId e) ≠ 0xff := by
    rw [hread]
    intro heq
    have hnat := congrArg BitVec.toNat heq
    rw [BitVec.toNat_ofNat, show (0xff : BitVec 8).toNat = 255 from rfl] at hnat
    omega
  unfold fillOutEntry
  dsimp only
  rw [if_neg hne]
  refine ⟨?_, { h with inRange := ?_ }⟩
  · rw [hread]
    apply BitVec.eq_of_toNat_eq
    simp only [BitVec.toNat_setWidth, BitVec.toNat_ofNat]
    omega
  · intro use huse
    rcases List.mem_append.mp huse with huse | huse
    · exact h.inRange use huse
    · rw [List.mem_singleton] at huse
      subst huse
      exact h.lt _ hmem

theorem Numbered.fillOutEntry_of_notMem (h : r.Numbered sizes ids)
    (recordedHostData : Nat → HostData) (hsizes : sizes.Roomy)
    (hlt : (s.referenceId e).toNat < 48) (hmem : s.referenceId e ∉ ids) :
    (r.fillOutEntry s recordedHostData e).1 = BitVec.ofNat 32 ids.length ∧
      (r.fillOutEntry s recordedHostData e).2.Numbered sizes (ids ++ [s.referenceId e]) := by
  have hnodup : (ids ++ [s.referenceId e]).Nodup := by
    rw [List.nodup_append]
    refine ⟨h.nodup, List.nodup_singleton _, ?_⟩
    rintro id hid id' hid' rfl
    exact hmem (List.mem_singleton.mp hid' ▸ hid)
  have hlts : ∀ id ∈ ids ++ [s.referenceId e], id.toNat < 48 := by
    intro id hid
    rcases List.mem_append.mp hid with hid | hid
    · exact h.lt id hid
    · rw [List.mem_singleton.mp hid]
      exact hlt
  have hlength : ids.length < 48 := by
    have hle := length_le_of_nodup hnodup hlts
    rw [List.length_append, List.length_singleton] at hle
    exact hle
  unfold fillOutEntry
  dsimp only
  rw [if_pos (h.fresh _ hlt hmem)]
  refine ⟨h.number, ⟨?_, hnodup, hlts, ?_, ?_, ?_⟩⟩
  · unfold fillOutNewDescriptor
    dsimp only
    rw [h.number, List.length_append, List.length_singleton, BitVec.ofNat_add]
    rfl
  · intro id hid
    unfold fillOutNewDescriptor
    dsimp only
    by_cases heq : id = s.referenceId e
    · subst heq
      rw [Function.update_self, h.number, List.idxOf_append_of_notMem hmem, List.idxOf_cons_self]
      apply BitVec.eq_of_toNat_eq
      simp only [BitVec.toNat_setWidth, BitVec.toNat_ofNat]
      omega
    · have hold : id ∈ ids := by
        rcases List.mem_append.mp hid with hid | hid
        · exact hid
        · exact absurd (List.mem_singleton.mp hid) heq
      rw [Function.update_of_ne heq, List.idxOf_append_of_mem hold]
      exact h.known id hold
  · intro id hid hnot
    unfold fillOutNewDescriptor
    dsimp only
    rw [List.mem_append, List.mem_singleton, not_or] at hnot
    rw [Function.update_of_ne hnot.2]
    exact h.fresh id hid hnot.1
  · intro use huse
    unfold fillOutNewDescriptor at huse
    simp only [List.mem_append, List.mem_cons, List.not_mem_nil, or_false] at huse
    rcases huse with (huse | huse) | huse | huse
    · exact h.inRange use huse
    · rw [huse]
      exact hlt
    · rw [huse]
      exact hlt
    · rw [huse]
      show r.numberOfUsedDescriptors.toNat < sizes.pictureDescriptor
      rw [h.number, BitVec.toNat_ofNat]
      have hroom := hsizes.1
      omega

theorem Numbered.fillOutEntry (h : r.Numbered sizes ids)
    (recordedHostData : Nat → HostData) (hsizes : sizes.Roomy)
    (hlt : (s.referenceId e).toNat < 48) :
    ∃ ids', ids <+: ids' ∧ s.referenceId e ∈ ids' ∧
      (r.fillOutEntry s recordedHostData e).1 = BitVec.ofNat 32 (ids'.idxOf (s.referenceId e)) ∧
      (r.fillOutEntry s recordedHostData e).2.Numbered sizes ids' := by
  by_cases hmem : s.referenceId e ∈ ids
  · exact ⟨ids, List.prefix_rfl, hmem, h.fillOutEntry_of_mem hmem⟩
  · obtain ⟨hindex, hnext⟩ := h.fillOutEntry_of_notMem recordedHostData hsizes hlt hmem
    refine ⟨ids ++ [s.referenceId e], List.prefix_append _ _, by simp, ?_, hnext⟩
    rw [hindex, List.idxOf_append_of_notMem hmem, List.idxOf_cons_self, Nat.add_zero]

theorem idxOf_of_begins (h : ids <+: ids') (hid : id ∈ ids) : ids'.idxOf id = ids.idxOf id := by
  obtain ⟨rest, rfl⟩ := h
  exact List.idxOf_append_of_mem hid

theorem Numbered.fillOutList (h : r.Numbered sizes ids)
    (recordedHostData : Nat → HostData) (hsizes : sizes.Roomy)
    (hlt : ∀ e ∈ entries, (s.referenceId e).toNat < 48) :
    ∃ ids', ids <+: ids' ∧ (∀ e ∈ entries, s.referenceId e ∈ ids') ∧
      (r.fillOutList s recordedHostData entries).1 =
        entries.map (fun e => BitVec.ofNat 32 (ids'.idxOf (s.referenceId e))) ∧
      (r.fillOutList s recordedHostData entries).2.Numbered sizes ids' := by
  induction entries generalizing r ids with
  | nil => exact ⟨ids, List.prefix_rfl, by rintro e ⟨⟩, rfl, h⟩
  | cons e entries ih =>
    obtain ⟨ids₁, hbegins₁, hmem₁, hindex, hnext⟩ :=
      h.fillOutEntry recordedHostData hsizes (hlt e List.mem_cons_self)
    obtain ⟨ids₂, hbegins₂, hmem₂, hlist, hlast⟩ :=
      ih hnext fun e' he' => hlt e' (List.mem_cons_of_mem _ he')
    refine ⟨ids₂, hbegins₁.trans hbegins₂, ?_, ?_, hlast⟩
    · intro e' he'
      rcases List.mem_cons.mp he' with rfl | he'
      · exact hbegins₂.subset hmem₁
      · exact hmem₂ e' he'
    · unfold RefPicLists.fillOutList
      rw [List.map_cons, idxOf_of_begins hbegins₂ hmem₁]
      exact congrArg₂ List.cons hindex hlist

theorem inRange_of_mem_frameAddresses (hsizes : sizes.Roomy) (h : use ∈ frameAddresses c s) :
    use.InRange sizes := by
  unfold frameAddresses at h
  obtain ⟨i, hi, rfl⟩ := List.mem_map.mp h
  rw [List.mem_filter, Bool.and_eq_true] at hi
  obtain ⟨slot, hslot⟩ := Option.isSome_iff_exists.mp hi.2.2
  have hlt := slot.isLt
  have hroom := hsizes.2
  show (s.slotIndex i).toNat < sizes.referenceFrameAddress
  unfold MmeVideo.slotIndex
  rw [hslot]
  simp only [BitVec.toNat_ofNat]
  omega

theorem numbered_start (hsizes : sizes.Roomy) :
    (r.start c s).Numbered sizes [] where
  number := rfl
  nodup := List.nodup_nil
  lt := by rintro id ⟨⟩
  known := by rintro id ⟨⟩
  fresh := by
    intro id hid _
    unfold start
    exact if_pos hid
  inRange := by
    intro use huse
    exact inRange_of_mem_frameAddresses hsizes huse

theorem numbered_fillOutDecodeCommandRefPicList (hsizes : sizes.Roomy)
    {lists : RefPicList ListedReference} (hslot : ∀ e ∈ lists.toList, e.slot s ≠ none) :
    ∃ ids, (∀ e ∈ lists.toList, s.referenceId e ∈ ids) ∧
      (r.fillOutDecodeCommandRefPicList c s recordedHostData lists).1.toList =
        lists.toList.map (fun e => BitVec.ofNat 32 (ids.idxOf (s.referenceId e))) ∧
      (r.fillOutDecodeCommandRefPicList c s recordedHostData lists).2.Numbered sizes ids := by
  have hlt : ∀ e ∈ lists.toList, (s.referenceId e).toNat < 48 :=
    fun e he => referenceId_lt_iff.mpr (hslot e he)
  unfold RefPicList.toList at hlt
  simp only [List.forall_mem_append] at hlt
  obtain ⟨⟨hp, hb0⟩, hb1⟩ := hlt
  have hstart := numbered_start (c := c) (s := s) (r := r) hsizes
  obtain ⟨ids₁, -, hmem₁, hlist₁, hn₁⟩ :=
    hstart.fillOutList recordedHostData hsizes hp
  obtain ⟨ids₂, hbegins₂, hmem₂, hlist₂, hn₂⟩ :=
    hn₁.fillOutList recordedHostData hsizes hb0
  obtain ⟨ids₃, hbegins₃, hmem₃, hlist₃, hn₃⟩ :=
    hn₂.fillOutList recordedHostData hsizes hb1
  refine ⟨ids₃, ?_, ?_, hn₃⟩
  · unfold RefPicList.toList
    simp only [List.forall_mem_append]
    exact ⟨⟨fun e he => (hbegins₂.trans hbegins₃).subset (hmem₁ e he),
      fun e he => hbegins₃.subset (hmem₂ e he)⟩, hmem₃⟩
  · unfold RefPicList.toList fillOutDecodeCommandRefPicList
    dsimp only
    rw [hlist₁, hlist₂, hlist₃, List.map_append, List.map_append]
    congr 2
    · apply List.map_congr_left
      intro e he
      rw [idxOf_of_begins (hbegins₂.trans hbegins₃) (hmem₁ e he)]
    · apply List.map_congr_left
      intro e he
      rw [idxOf_of_begins hbegins₃ (hmem₂ e he)]

/-! ## Soundness -/

/-- All indices are in range, and two entries share a descriptor exactly when they
name the same slot and usage. -/
structure DescriptorsSound (sizes : FirmwareSizes) (c : Configuration) (s : MmeVideo)
    (recordedHostData : Nat → HostData) (r : RefPicLists)
    (lists : RefPicList ListedReference) : Prop where
  inRange : ∀ use ∈ (r.fillOutDecodeCommandRefPicList c s recordedHostData lists).2.uses,
    use.InRange sizes
  shared : ∀ x ∈ lists.toList.zip
      (r.fillOutDecodeCommandRefPicList c s recordedHostData lists).1.toList,
    ∀ y ∈ lists.toList.zip
      (r.fillOutDecodeCommandRefPicList c s recordedHostData lists).1.toList,
    x.2 = y.2 ↔ x.1.slot s = y.1.slot s ∧ x.1.details.usageCode = y.1.details.usageCode

theorem Numbered.descriptor_eq_iff {id' : BitVec 32} (h : r.Numbered sizes ids) (hid : id ∈ ids)
    (hid' : id' ∈ ids) :
    BitVec.ofNat 32 (ids.idxOf id) = BitVec.ofNat 32 (ids.idxOf id') ↔ id = id' := by
  have hlt := h.idxOf_lt hid
  have hlt' := h.idxOf_lt hid'
  rw [← BitVec.toNat_inj, BitVec.toNat_ofNat, BitVec.toNat_ofNat,
    Nat.mod_eq_of_lt (by omega), Nat.mod_eq_of_lt (by omega)]
  exact List.idxOf_inj hid

/-- The descriptors are sound exactly where every listed buffer has a slot: for any
state of the codec, any lists and whatever was in the parameters before. -/
theorem descriptorsSound_iff (hsizes : sizes.Roomy) (c : Configuration) (s : MmeVideo)
    (recordedHostData : Nat → HostData) (r : RefPicLists)
    (lists : RefPicList ListedReference) :
    DescriptorsSound sizes c s recordedHostData r lists ↔
      ∀ e ∈ lists.toList, e.slot s ≠ none := by
  constructor
  · intro hsound e he hnone
    obtain ⟨use, huse, hout⟩ := exists_use_not_inRange (c := c) (r := r) he hnone
    exact hout (hsound.inRange use huse)
  · intro hslot
    obtain ⟨ids, hmem, hlist, hnumbered⟩ :=
      numbered_fillOutDecodeCommandRefPicList (c := c) (r := r) hsizes hslot
    refine ⟨hnumbered.inRange, ?_⟩
    rw [hlist]
    have hzip : ∀ x ∈ lists.toList.zip
        (lists.toList.map fun e => BitVec.ofNat 32 (ids.idxOf (s.referenceId e))),
        x.1 ∈ lists.toList ∧ x.2 = BitVec.ofNat 32 (ids.idxOf (s.referenceId x.1)) := by
      intro x hx
      rw [← List.map_prod_left_eq_zip] at hx
      obtain ⟨e, he, rfl⟩ := List.mem_map.mp hx
      exact ⟨he, rfl⟩
    intro x hx y hy
    obtain ⟨hxmem, hxid⟩ := hzip x hx
    obtain ⟨hymem, hyid⟩ := hzip y hy
    rw [hxid, hyid, hnumbered.descriptor_eq_iff (hmem x.1 hxmem) (hmem y.1 hymem)]
    exact referenceId_eq_iff (hslot x.1 hxmem) (hslot y.1 hymem)

/-- H.264 with 32 decode buffers. -/
def descriptorsConfiguration : Configuration := ⟨false, true, false, 32⟩

/-- The codec after a number of reference frames, none of them released. -/
def afterReferenceFrames (n : Nat) : MmeVideo :=
  ((List.range n).map fun k =>
    .input (MmeVideo.frameOf k false true []) (MmeVideo.withoutFailure k k)).foldl
      (MmeVideo.step descriptorsConfiguration) (MmeVideo.registered 64)

/-- A reference to a buffer, with a usage. -/
def referenceTo (bufferIndex : Nat) (usageCode : UsageCode) : ListedReference :=
  ⟨bufferIndex, ⟨0, 0, 0, 0, usageCode, false⟩⟩

/-- The host data of a frame. -/
def frameHostData : HostData := ⟨0, 0, 0, 0, .frame, .shortTerm⟩

/-- Zeros. -/
def clearedLists : RefPicLists :=
  ⟨0, fun _ => 0, fun _ => ⟨0, frameHostData⟩, 0, []⟩

/-- Two reference frames: their descriptors are shared between the lists. -/
theorem descriptors_sound_two_frames :
    DescriptorsSound ⟨48, 16⟩ descriptorsConfiguration (afterReferenceFrames 2)
      (fun _ => frameHostData) clearedLists
      ⟨[referenceTo 1 .frame, referenceTo 0 .frame], [referenceTo 0 .fieldTop],
        [referenceTo 0 .frame]⟩ :=
  (descriptorsSound_iff ⟨by decide, by decide⟩ _ _ _ _ _).mpr (by decide +kernel)

/-- Seventeen reference frames: the last waits for a slot, and is listed. -/
theorem descriptors_not_sound_waiting :
    (afterReferenceFrames 17).outstandingSlotAllocationRequest = some 16 ∧
      ¬ DescriptorsSound ⟨48, 16⟩ descriptorsConfiguration (afterReferenceFrames 17)
        (fun _ => frameHostData) clearedLists ⟨[referenceTo 16 .frame], [], []⟩ := by
  refine ⟨by decide +kernel, ?_⟩
  intro hsound
  have hlisted : referenceTo 16 .frame ∈
      (⟨[referenceTo 16 .frame], [], []⟩ : RefPicList ListedReference).toList :=
    List.mem_cons_self
  have hwaits : (referenceTo 16 .frame).slot (afterReferenceFrames 17) = none := by
    decide +kernel
  obtain ⟨use, huse, hout⟩ := exists_use_not_inRange hlisted hwaits
  exact hout (hsound.inRange use huse)

end RefPicLists

end

end Duckbox.Codec
