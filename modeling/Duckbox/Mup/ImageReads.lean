import Duckbox.Lib.Word
import Duckbox.Mup.Image

/-!
# What parsing reads of an image

A pack, its inventories and their unities are laid over the image one in the other, each
with an offset and a size from the file. `SwInventory::parse` hands on what it finds there,
and `SwUnity::parse` takes the header from a size that may be less, before it bounds the
length of the data by it. Of the unity's header parsing reads that length only.

> `reads_inside_iff`: parsing and verifying read in the image only, and each partition that
> is taken lies in it, exactly if each slot that is come to is in the image, and so is what
> its inventory gives (`SlotHeld`, `SlotFits`).

What the unity gives for its length makes no difference then.
-/

namespace Duckbox.Mup

open Duckbox.Lib

section

variable (bytes : Nat → Byte)

/-- Where the inventory of a slot is. -/
def slotPosition (i : Nat) : Nat := headerSize + i * inventorySize

/-- The `mImageOffset` of a slot. -/
def slotOffset (i : Nat) : Nat := (wordAt bytes (slotPosition i + 12)).toNat

/-- The `mImageSize` of a slot. -/
def slotSize (i : Nat) : Nat := (wordAt bytes (slotPosition i + 16)).toNat

/-- Where the unity of a slot is. -/
def slotUnity (i : Nat) : Nat := slotOffset bytes i + headerSize + maxInventoryCount * inventorySize

/-- The inventory of a slot is valid, and the next slot is looked at. -/
def SlotValid (i : Nat) : Prop :=
  load bytes (slotPosition i) magic.length = magic ∧ wordAt bytes (slotPosition i + 8) = 100

/-- The length of the data of a unity, "after subtracting" its header. -/
def dataLength (size : Nat) : Nat := (BitVec.ofNat 32 size - BitVec.ofNat 32 headerSize).toNat

variable (length : Word)

/-- The inventory of a slot is in the image, and so is what is read of the header of the unity
it gives, if any. -/
def SlotHeld (i : Nat) : Prop :=
  slotPosition i + inventoryHeaderSize ≤ length.toNat ∧
    (unityHeaderSize ≤ slotSize bytes i → slotUnity bytes i + dataLengthEnd ≤ length.toNat)

/-- The partition of a slot has a header, and is in the image. -/
def SlotFits (i : Nat) : Prop :=
  headerSize ≤ slotSize bytes i ∧ slotUnity bytes i + slotSize bytes i ≤ length.toNat

/-- An inventory that is taken gives an offset and a size in the image, the length of the
data of its unity is in it, and so is what its checksum is made of. -/
structure InImage (x : ParsedInventory) : Prop where
  inventory : x.unity.position + (wordAt bytes (x.position + 16)).toNat ≤ length.toNat
  unity : x.unity.position + headerSize + dataLength (wordAt bytes (x.position + 16)).toNat ≤
    length.toNat
  checksum : (x.unity.childData bytes length.toNat).isSome

/-- Parsing and verifying read in the image only, and what is taken lies in it. -/
def ReadsInside (hash : Hash) : Prop :=
  ∃ inventories, parse bytes length.toNat = some inventories ∧
    (verify bytes length.toNat hash inventories).isSome ∧ ∀ x ∈ inventories, InImage bytes length x

end

section

variable {bytes : Nat → Byte} {length : Word} {i : Nat}

/-- What is parsed of a slot. -/
def parsedSlot (bytes : Nat → Byte) (i : Nat) : ParsedInventory where
  position := slotPosition i
  unity :=
    { position := slotUnity bytes i
      childDataLength :=
        if unityHeaderSize ≤ slotSize bytes i then
          let said := (wordAt bytes (slotUnity bytes i + 28)).toNat
          some (if said < dataLength (slotSize bytes i) then said else dataLength (slotSize bytes i))
        else none }

/-- The length that is left from a slot on. -/
def slotRest (length : Word) (i : Nat) : Nat :=
  (BitVec.ofNat 32 length.toNat - BitVec.ofNat 32 headerSize - BitVec.ofNat 32 (i * inventorySize)).toNat

theorem slotRest_eq (h : slotPosition i ≤ length.toNat) :
    slotRest length i = length.toNat - slotPosition i := by
  unfold slotPosition at h ⊢
  have hleft : (length - BitVec.ofNat 32 headerSize).toNat = length.toNat - headerSize :=
    toNat_sub_ofNat (by omega)
  unfold slotRest
  rw [BitVec.ofNat_toNat, BitVec.setWidth_eq, toNat_sub_ofNat (by omega), hleft]
  omega

theorem parseInventory_held (h : SlotHeld bytes length i) :
    parseInventory bytes length.toNat (slotPosition i) (slotRest length i) =
      some (parsedSlot bytes i) := by
  obtain ⟨hslot, hunity⟩ := h
  have hrest : slotRest length i = length.toNat - slotPosition i := slotRest_eq (by omega)
  unfold parseInventory
  rw [if_neg (by omega)]
  show (parseUnity bytes length.toNat (slotUnity bytes i) (slotSize bytes i)).map _ = _
  unfold parseUnity parsedSlot
  by_cases hsize : unityHeaderSize ≤ slotSize bytes i
  · rw [if_pos hsize, if_pos hsize, if_neg (Nat.not_lt.mpr (hunity hsize))]
    rfl
  · rw [if_neg hsize, if_neg hsize]
    rfl

theorem parseInventory_outside (h : ¬ SlotHeld bytes length i) :
    parseInventory bytes length.toNat (slotPosition i) (slotRest length i) = none := by
  unfold parseInventory
  split
  · rfl
  · next hslot =>
    push Not at hslot
    have houtside : unityHeaderSize ≤ slotSize bytes i ∧
        length.toNat < slotUnity bytes i + dataLengthEnd := by
      by_contra hno
      exact h ⟨hslot.2, fun hsize => Nat.not_lt.mp fun hlt => hno ⟨hsize, hlt⟩⟩
    show (parseUnity bytes length.toNat (slotUnity bytes i) (slotSize bytes i)).map _ = _
    unfold parseUnity
    rw [if_pos houtside.1, if_pos houtside.2]
    rfl

theorem isValid_parsedSlot : isValid bytes (parsedSlot bytes i) = true ↔ SlotValid bytes i := by
  unfold isValid SlotValid
  rw [Bool.and_eq_true, beq_iff_eq, beq_iff_eq]
  rfl

theorem inImage_iff : InImage bytes length (parsedSlot bytes i) ↔ SlotFits bytes length i := by
  have hlt := length.isLt
  have hsize : slotSize bytes i < 2 ^ 32 := (wordAt bytes (slotPosition i + 16)).isLt
  have hheader : (BitVec.ofNat 32 headerSize).toNat = headerSize := rfl
  have hword : (BitVec.ofNat 32 (slotSize bytes i)).toNat = slotSize bytes i := by
    rw [BitVec.toNat_ofNat]
    omega
  have hdata : (headerSize ≤ slotSize bytes i → dataLength (slotSize bytes i) =
      slotSize bytes i - headerSize) ∧ (slotSize bytes i < headerSize →
        dataLength (slotSize bytes i) = 2 ^ 32 + slotSize bytes i - headerSize) := by
    unfold dataLength
    refine ⟨fun hle => ?_, fun hshort => ?_⟩
    · rw [toNat_sub_ofNat (by omega), hword]
    · rw [BitVec.toNat_sub, hword, hheader]
      omega
  constructor
  · rintro ⟨hinventory, hunity, -⟩
    have hin : slotUnity bytes i + slotSize bytes i ≤ length.toNat := hinventory
    have hrest : slotUnity bytes i + headerSize + dataLength (slotSize bytes i) ≤ length.toNat := hunity
    refine ⟨?_, hin⟩
    by_contra hshort
    rw [hdata.2 (Nat.not_le.mp hshort)] at hrest
    omega
  · rintro ⟨hle, hin⟩
    have hunity : slotUnity bytes i + headerSize + dataLength (slotSize bytes i) ≤ length.toNat := by
      rw [hdata.1 hle]
      omega
    refine ⟨hin, hunity, ?_⟩
    have hhas : unityHeaderSize ≤ slotSize bytes i := Nat.le_trans (by decide) hle
    unfold ParsedUnity.childData parsedSlot
    dsimp only
    rw [if_pos hhas, Option.bind_some, if_neg]
    · rfl
    · split <;> omega

theorem verify_isSome {hash : Hash} {inventories : List ParsedInventory}
    (h : ∀ x ∈ inventories, InImage bytes length x) :
    (verify bytes length.toNat hash inventories).isSome := by
  unfold verify
  rw [Option.isSome_map]
  induction inventories with
  | nil => rfl
  | cons x inventories ih =>
    obtain ⟨hx, hrest⟩ := List.forall_mem_cons.mp h
    obtain ⟨data, hdata⟩ := Option.isSome_iff_exists.mp hx.checksum
    obtain ⟨all, hall⟩ := Option.isSome_iff_exists.mp (ih hrest)
    rw [List.mapM_cons, hall]
    unfold ParsedUnity.verify
    rw [hdata]
    rfl

theorem parseSlots_held {slots : Nat} (h : SlotHeld bytes length i) :
    parseSlots bytes length.toNat (slots + 1) i =
      if isValid bytes (parsedSlot bytes i) then
        (parseSlots bytes length.toNat slots (i + 1)).map (parsedSlot bytes i :: ·)
      else some [] := by
  have hparsed := parseInventory_held h
  unfold slotPosition slotRest at hparsed
  rw [parseSlots, hparsed]

theorem parseSlots_outside {slots : Nat} (h : ¬ SlotHeld bytes length i) :
    parseSlots bytes length.toNat (slots + 1) i = none := by
  have hparsed := parseInventory_outside h
  unfold slotPosition slotRest at hparsed
  rw [parseSlots, hparsed]

/-- From a slot on, parsing reads in the image only, and what is taken lies in it. -/
def ParsedInside (bytes : Nat → Byte) (length : Word) (slots i : Nat) : Prop :=
  ∃ inventories, parseSlots bytes length.toNat slots i = some inventories ∧
    ∀ x ∈ inventories, InImage bytes length x

theorem parsedInside_step {slots : Nat} : ParsedInside bytes length (slots + 1) i ↔
    SlotHeld bytes length i ∧ (SlotValid bytes i → SlotFits bytes length i ∧
      ParsedInside bytes length slots (i + 1)) := by
  unfold ParsedInside
  by_cases hheld : SlotHeld bytes length i
  · rw [parseSlots_held hheld]
    by_cases hvalid : SlotValid bytes i
    · rw [if_pos (isValid_parsedSlot.mpr hvalid)]
      constructor
      · rintro ⟨inventories, hparsed, hinside⟩
        obtain ⟨rest, hrest, rfl⟩ := Option.map_eq_some_iff.mp hparsed
        obtain ⟨hfirst, hlater⟩ := List.forall_mem_cons.mp hinside
        exact ⟨hheld, fun _ => ⟨inImage_iff.mp hfirst, rest, hrest, hlater⟩⟩
      · rintro ⟨-, hgoes⟩
        obtain ⟨hfits, rest, hrest, hlater⟩ := hgoes hvalid
        exact ⟨_, congrArg (Option.map _) hrest,
          List.forall_mem_cons.mpr ⟨inImage_iff.mpr hfits, hlater⟩⟩
    · rw [if_neg (mt isValid_parsedSlot.mp hvalid)]
      exact ⟨fun _ => ⟨hheld, fun h => absurd h hvalid⟩,
        fun _ => ⟨[], rfl, fun x hx => absurd hx List.not_mem_nil⟩⟩
  · rw [parseSlots_outside hheld]
    constructor
    · rintro ⟨_, hparsed, _⟩
      cases hparsed
    · rintro ⟨h, _⟩
      exact absurd h hheld

theorem parsedInside_iff {slots : Nat} : ParsedInside bytes length slots i ↔
    ∀ k < slots, (∀ j < k, SlotValid bytes (i + j)) → SlotHeld bytes length (i + k) ∧
      (SlotValid bytes (i + k) → SlotFits bytes length (i + k)) := by
  induction slots generalizing i with
  | zero =>
    exact ⟨fun _ k hk => absurd hk (Nat.not_lt_zero k),
      fun _ => ⟨[], rfl, fun x hx => absurd hx List.not_mem_nil⟩⟩
  | succ slots ih =>
    rw [parsedInside_step, ih]
    constructor
    · rintro ⟨hheld, hrest⟩ k hk hbefore
      cases k with
      | zero => exact ⟨hheld, fun hvalid => (hrest hvalid).1⟩
      | succ k =>
        have hvalid : SlotValid bytes i := hbefore 0 (Nat.succ_pos k)
        have hlater := (hrest hvalid).2 k (Nat.lt_of_succ_lt_succ hk) fun j hj => by
          have hj' := hbefore (j + 1) (Nat.succ_lt_succ hj)
          rwa [Nat.add_comm j 1, ← Nat.add_assoc] at hj'
        rwa [Nat.add_comm k 1, ← Nat.add_assoc]
    · intro hall
      obtain ⟨hheld, hfits⟩ := hall 0 (Nat.succ_pos slots) fun j hj => absurd hj (Nat.not_lt_zero j)
      refine ⟨hheld, fun hvalid => ⟨hfits hvalid, fun k hk hbefore => ?_⟩⟩
      have hlater := hall (k + 1) (Nat.succ_lt_succ hk) fun j hj => by
        cases j with
        | zero => exact hvalid
        | succ j =>
          rw [Nat.add_comm j 1, ← Nat.add_assoc]
          exact hbefore j (Nat.lt_of_succ_lt_succ hj)
      rwa [Nat.add_comm k 1, ← Nat.add_assoc] at hlater

/-- An image is read inside exactly if each slot up to the first that is not valid is held,
and each of the valid ones fits. -/
theorem reads_inside_iff (bytes : Nat → Byte) (length : Word) (hash : Hash) :
    ReadsInside bytes length hash ↔
      ∀ i < maxInventoryCount, (∀ j < i, SlotValid bytes j) →
        SlotHeld bytes length i ∧ (SlotValid bytes i → SlotFits bytes length i) := by
  have hparsed := @parsedInside_iff bytes length 0 maxInventoryCount
  simp only [Nat.zero_add] at hparsed
  rw [← hparsed]
  constructor
  · rintro ⟨inventories, hparse, -, hinside⟩
    exact ⟨inventories, hparse, hinside⟩
  · rintro ⟨inventories, hparse, hinside⟩
    exact ⟨inventories, hparse, verify_isSome hinside, hinside⟩

/-- The bytes of a file that is zero but for a valid inventory, which gives the size of a
header and an offset behind the file. -/
def farInventory : Nat → Byte :=
  store (fun _ => 0) headerSize (InventoryHeader.mk 100 0xfffff000 216 0 0 0).bytes

/-- The length in its unity is read outside of the file, whatever the hash. -/
theorem farInventory_outside : ∃ length : Word, ∀ hash, ¬ ReadsInside farInventory length hash := by
  refine ⟨1024, fun hash => ?_⟩
  rintro ⟨inventories, hparse, -, hinside⟩
  have hparsed : ParsedInside farInventory 1024 8 0 := ⟨inventories, hparse, hinside⟩
  have hunity := (parsedInside_step.mp hparsed).1.2
  exact absurd (hunity (by decide)) (by decide)

end

end Duckbox.Mup
