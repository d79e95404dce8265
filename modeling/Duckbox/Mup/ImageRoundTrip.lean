import Duckbox.Mup.ImageReads

/-!
# What an image is parsed to

The cells of an image that are written are enough for the way back: whatever stands in
those that are not, the image is parsed to the partitions it was made of, and verified
(`create_roundTrips`). Only the slot behind the last partition is one that nobody has
written, so it is asked of it that it is not taken for an inventory.

> `Packed`: the inventories of a pack are those of the partitions, each at the end of the
> one before, and `Held`: that is what the bytes of an image say.
-/

namespace Duckbox.Mup

open Duckbox.Lib

/-! ## Words and cells -/

theorem word_of_bytes (w : Word) : w.extractLsb' 24 8 ++ (w.extractLsb' 16 8 ++
    (w.extractLsb' 8 8 ++ w.extractLsb' 0 8)) = w := by
  rw [BitVec.extractLsb'_append_extractLsb'_eq_extractLsb' (by rfl),
    BitVec.extractLsb'_append_extractLsb'_eq_extractLsb' (by rfl),
    BitVec.extractLsb'_append_extractLsb'_eq_extractLsb' (by rfl)]
  exact BitVec.extractLsb'_eq_self

/-- Bytes are those of the cells at an address that are written. -/
def Reads (bytes : Nat → Byte) (pos : Nat) (l : List Cell) : Prop :=
  ∀ i b, l[i]? = some (some b) → bytes (pos + i) = b

section

variable {bytes : Nat → Byte} {pos k : Nat} {l rest : List Cell}

theorem Reads.byte {data : List Byte} (h : Reads bytes pos l)
    (hl : l.drop k = data.map some ++ rest) {j : Nat} (hj : j < data.length) :
    bytes (pos + k + j) = data[j] := by
  rw [Nat.add_assoc]
  refine h (k + j) _ ?_
  rw [← List.getElem?_drop, hl, List.getElem?_append_left (by rwa [List.length_map]),
    List.getElem?_map, List.getElem?_eq_getElem hj]
  rfl

theorem Reads.word {w : Word} (h : Reads bytes pos l)
    (hl : l.drop k = (wordBytes w).map some ++ rest) : wordAt bytes (pos + k) = w := by
  have hlength : (wordBytes w).length = 4 := rfl
  have h₀ : bytes (pos + k) = w.extractLsb' 0 8 := h.byte hl (j := 0) (by omega)
  have h₁ : bytes (pos + k + 1) = w.extractLsb' 8 8 := h.byte hl (j := 1) (by omega)
  have h₂ : bytes (pos + k + 2) = w.extractLsb' 16 8 := h.byte hl (j := 2) (by omega)
  have h₃ : bytes (pos + k + 3) = w.extractLsb' 24 8 := h.byte hl (j := 3) (by omega)
  unfold wordAt
  rw [h₀, h₁, h₂, h₃]
  exact word_of_bytes w

theorem Reads.load {data : List Byte} (h : Reads bytes pos l)
    (hl : l.drop k = data.map some ++ rest) : load bytes (pos + k) data.length = data := by
  refine List.ext_getElem (load_length _ _ _) fun j hj hj' => ?_
  have hload : (Lib.load bytes (pos + k) data.length)[j] = bytes (pos + k + j) := by
    simp only [Lib.load, List.getElem_map, List.getElem_range]
  rw [hload]
  exact h.byte hl hj'

end

/-! ## The partitions of a pack -/

/-- Where a partition is, counted from the first. -/
def offsetOf (parts : List PartitionInput) (i : Nat) : Nat :=
  ((parts.take i).map fun part => paddedLength part.data).sum

variable {parts : List PartitionInput}

theorem offsetOf_succ {i : Nat} (hi : i < parts.length) :
    offsetOf parts (i + 1) = offsetOf parts i + paddedLength parts[i].data := by
  unfold offsetOf
  rw [List.take_succ_eq_append_getElem hi, List.map_append, List.sum_append, List.map_singleton,
    List.sum_singleton]

theorem offsetOf_mono (parts : List PartitionInput) {i j : Nat} (h : i ≤ j) :
    offsetOf parts i ≤ offsetOf parts j := by
  obtain ⟨k, rfl⟩ := Nat.exists_eq_add_of_le h
  unfold offsetOf
  rw [List.take_add, List.map_append, List.sum_append]
  exact Nat.le_add_right _ _

/-- The cells in front of the hash of a unity, and what is behind its checksum. -/
structure UnityCells (hash : Hash) (part : PartitionInput) (cells : List Cell) : Prop where
  split : ∃ version code sw date rest, cells =
      (magic ++ wordBytes version ++ wordBytes code ++ wordBytes sw ++ wordBytes date
        ++ wordBytes part.flashOffset ++ wordBytes (BitVec.ofNat 32 part.data.length)).map some
      ++ ((hash part.data).toList.map some ++ ((wordBytes (crc32 part.data)).map some
      ++ (rest ++ part.data.map some))) ∧ rest.length = 456

variable {hash : Hash} {part : PartitionInput}

theorem UnityCells.length {cells : List Cell} (h : UnityCells hash part cells) :
    cells.length = part.data.length + headerSize := by
  obtain ⟨version, code, sw, date, rest, rfl, hrest⟩ := h.split
  simp only [List.length_append, List.length_map, Vector.length_toList, hrest]
  show 8 + 4 + 4 + 4 + 4 + 4 + 4 + (20 + (4 + (456 + part.data.length))) = part.data.length + 512
  omega

theorem SwUnity.new_text (now : Word) :
    (SwUnity.new now).header.text.length = filenameLength + infoLength := by
  show (List.replicate filenameLength none ++ updateInfo).length = _
  rw [List.length_append, List.length_replicate]
  unfold updateInfo
  rw [List.length_append, List.length_map, List.length_replicate]
  rfl

theorem SwUnity.setPartition_cells {u v : SwUnity}
    (htext : u.header.text.length = filenameLength + infoLength)
    (h : u.setPartition hash part.flashOffset part.filename part.data = some v) :
    UnityCells hash part v.data := by
  unfold SwUnity.setPartition at h
  dsimp only at h
  by_cases hname : filenameLength + infoLength < (cString part.filename ++ [0]).length
  · rw [if_pos hname] at h
    cases h
  · rw [if_neg hname] at h
    obtain rfl := Option.some.inj h
    refine ⟨⟨u.header.headerVersion, u.header.productCode, u.header.swVersion, u.header.date,
      (cString part.filename ++ [0]).map some ++
        u.header.text.drop (cString part.filename ++ [0]).length ++
          List.replicate (headerSize - unityHeaderSize) none, ?_, ?_⟩⟩
    · unfold UnityHeader.cells
      simp only [List.append_assoc]
    · have hend : headerSize - unityHeaderSize = 296 := rfl
      have hwhole : filenameLength + infoLength = 160 := rfl
      rw [List.length_append, List.length_append, List.length_map, List.length_drop, htext,
        List.length_replicate]
      omega

/-- An inventory with the unity of a partition. -/
structure Made (hash : Hash) (offset : Nat) (part : PartitionInput) (x : SwInventory) : Prop where
  header : x.header =
    ⟨100, BitVec.ofNat 32 offset, BitVec.ofNat 32 (paddedLength part.data), part.flashOffset, 0, 0⟩
  data : x.data = x.header.bytes
  childDataLength : x.childDataLength = paddedLength part.data
  childData : UnityCells hash part x.childData

variable {x : SwInventory} {offset : Nat}

theorem SwInventory.setPartition_made {new : SwInventory}
    (hheader : new.header = ⟨100, 0, 0, 0, 0, 0⟩)
    (htext : new.unity.header.text.length = filenameLength + infoLength)
    (h : new.setPartition hash part.flashOffset part.filename part.data (BitVec.ofNat 32 offset) =
      some x) :
    Made hash offset part x := by
  obtain ⟨u, hu, rfl⟩ := Option.map_eq_some_iff.mp h
  have hcells := SwUnity.setPartition_cells htext hu
  have hlength := hcells.length
  dsimp only
  rw [hlength, hheader]
  by_cases hwhole : (part.data.length + headerSize) % 0x200 ≠ 0
  · rw [if_pos hwhole]
    have hpadded : part.data.length + headerSize +
        (0x200 - (part.data.length + headerSize) % 0x200) = paddedLength part.data := by
      unfold paddedLength
      omega
    rw [hpadded]
    exact ⟨rfl, rfl, rfl, hcells⟩
  · rw [if_neg hwhole]
    have hpadded : part.data.length + headerSize = paddedLength part.data := by
      unfold paddedLength
      omega
    rw [hpadded]
    exact ⟨rfl, rfl, rfl, hcells⟩

theorem paddedLength_ge (data : List Byte) : data.length + headerSize ≤ paddedLength data := by
  unfold paddedLength
  omega

/-- What is copied of it: its unity, and behind that what nobody has written. -/
theorem Made.getChildData (h : Made hash offset part x) :
    ∃ rest, x.getChildData = x.childData ++ rest ∧
      x.getChildData.length = paddedLength part.data := by
  have hge : x.childData.length ≤ paddedLength part.data := by
    rw [h.childData.length]
    exact paddedLength_ge part.data
  unfold SwInventory.getChildData
  rw [h.childDataLength, List.take_of_length_le hge]
  refine ⟨_, rfl, ?_⟩
  rw [List.length_append, List.length_replicate]
  omega

/-- The inventories of a pack are those of the partitions. -/
structure Packed (hash : Hash) (parts : List PartitionInput) (x : SwPack) : Prop where
  count : x.mInventoryCount = parts.length
  most : parts.length ≤ maxInventoryCount
  offset : x.curInventoryOffset = offsetOf parts parts.length
  made : ∀ i (hi : i < parts.length), ∃ inventory, x.inventory i = some inventory ∧
    Made hash (offsetOf parts i) parts[i] inventory

theorem offsetOf_append {more : List PartitionInput} {i : Nat} (hi : i ≤ parts.length) :
    offsetOf (parts ++ more) i = offsetOf parts i := by
  unfold offsetOf
  rw [List.take_append_of_le_length hi]

theorem Packed.append {now : Word} {x y : SwPack} (h : Packed hash parts x)
    (hy : x.appendPartition hash now part = some y) : Packed hash (parts ++ [part]) y := by
  unfold SwPack.appendPartition at hy
  by_cases hfull : maxInventoryCount ≤ x.mInventoryCount
  · rw [if_pos hfull] at hy
    cases hy
  · rw [if_neg hfull] at hy
    obtain ⟨inventory, hinventory, rfl⟩ := Option.map_eq_some_iff.mp hy
    have hmade := SwInventory.setPartition_made rfl (SwUnity.new_text now) hinventory
    rw [h.offset] at hmade
    have hcount := h.count
    have hlength : (parts ++ [part]).length = parts.length + 1 := List.length_append
    have hlast : parts.length < (parts ++ [part]).length := by omega
    have hat : (parts ++ [part])[parts.length] = part := List.getElem_concat_length rfl _
    refine ⟨?_, by omega, ?_, fun i hi => ?_⟩
    · show x.mInventoryCount + 1 = _
      omega
    · show x.curInventoryOffset + inventory.childDataLength = _
      rw [hlength, offsetOf_succ (by omega), hat, offsetOf_append (Nat.le_refl _), h.offset,
        hmade.childDataLength]
    · dsimp only
      rcases Nat.lt_or_ge i parts.length with hlt | hge
      · obtain ⟨before, hbefore, hkept⟩ := h.made i hlt
        rw [Function.update_of_ne (by omega), offsetOf_append (Nat.le_of_lt hlt),
          List.getElem_append_left hlt]
        exact ⟨before, hbefore, hkept⟩
      · obtain rfl : i = parts.length := by omega
        rw [hcount, Function.update_self, offsetOf_append (Nat.le_refl _), hat]
        exact ⟨inventory, rfl, hmade⟩

theorem Packed.foldlM {now : Word} {more : List PartitionInput} :
    ∀ {parts : List PartitionInput} {x y : SwPack}, Packed hash parts x →
      more.foldlM (SwPack.appendPartition hash now) x = some y → Packed hash (parts ++ more) y := by
  induction more with
  | nil =>
    intro parts x y h hy
    obtain rfl := Option.some.inj hy
    rwa [List.append_nil]
  | cons part more ih =>
    intro parts x y h hy
    rw [List.foldlM_cons] at hy
    obtain ⟨next, hnext, hrest⟩ := Option.bind_eq_some_iff.mp hy
    have hkept := ih (h.append hnext) hrest
    rwa [List.append_assoc, List.singleton_append] at hkept

theorem Packed.imageLength {x : SwPack} (h : Packed hash parts x) :
    x.imageLength = 1024 + offsetOf parts parts.length := by
  have hfold : ∀ k, k ≤ parts.length → (List.range k).foldl
      (fun length i => length + ((x.inventory i).map (·.childDataLength)).getD 0) 1024 =
        1024 + offsetOf parts k := by
    intro k hk
    induction k with
    | zero => rfl
    | succ k ih =>
      obtain ⟨inventory, hinventory, hmade⟩ := h.made k hk
      rw [List.range_succ, List.foldl_append, ih (Nat.le_of_lt hk), offsetOf_succ hk,
        ← Nat.add_assoc, ← hmade.childDataLength, List.foldl_cons, hinventory]
      rfl
  unfold SwPack.imageLength
  rw [h.count]
  exact hfold _ (Nat.le_refl _)

/-! ## The cells of an image -/

/-- The cells from an address on. -/
def CellsAt (image : Nat → Cell) (pos : Nat) (l : List Cell) : Prop :=
  ∀ j (hj : j < l.length), image (pos + j) = l[j]

theorem CellsAt.store_self (image : Nat → Cell) (pos : Nat) (l : List Cell) :
    CellsAt (store image pos l) pos l := fun _ hj => store_add hj

theorem CellsAt.store {image : Nat → Cell} {pos at' : Nat} {l l' : List Cell}
    (h : CellsAt image pos l) (happart : at' + l'.length ≤ pos ∨ pos + l.length ≤ at') :
    CellsAt (store image at' l') pos l := by
  intro j hj
  rcases happart with hbefore | hbehind
  · rw [store_of_le (by omega)]
    exact h j hj
  · rw [store_of_lt (by omega)]
    exact h j hj

theorem CellsAt.reads {image : Nat → Cell} {bytes : Nat → Byte} {pos : Nat} {l : List Cell}
    (h : CellsAt image pos l) (hbytes : ∀ a b, image a = some b → bytes a = b) :
    Reads bytes pos l := by
  intro i b hi
  obtain ⟨hlt, heq⟩ := List.getElem?_eq_some_iff.mp hi
  exact hbytes _ _ ((h i hlt).trans heq)

/-- Where the data of the inventories starts. -/
abbrev dataStart : Nat := headerSize + maxInventoryCount * inventorySize

/-- The first inventories are in an image. -/
def Placed (x : SwPack) (parts : List PartitionInput) (k : Nat) (image : Nat → Cell) : Prop :=
  ∀ i < k, ∀ inventory, x.inventory i = some inventory →
    CellsAt image (slotPosition i) (inventory.data.map some) ∧
      CellsAt image (dataStart + offsetOf parts i) inventory.getChildData

theorem InventoryHeader.bytes_length (h : InventoryHeader) : h.bytes.length = inventoryHeaderSize :=
  rfl

theorem slotPosition_next {i k : Nat} (h : i < k) :
    slotPosition i + inventoryHeaderSize ≤ slotPosition k := by
  show 512 + i * 64 + 32 ≤ 512 + k * 64
  omega

theorem slotPosition_inside {i : Nat} (h : i < maxInventoryCount) :
    slotPosition i + inventoryHeaderSize ≤ dataStart := by
  have hi : i < 8 := h
  show 512 + i * 64 + 32 ≤ 1024
  omega

theorem Made.data_length (h : Made hash offset part x) :
    (x.data.map some).length = inventoryHeaderSize := by
  rw [List.length_map, h.data]
  exact InventoryHeader.bytes_length x.header

theorem Made.position (h : Made hash offset part x) (hfits : offset < 2 ^ 32) :
    x.header.imageOffset.toNat + headerSize + maxInventoryCount * inventorySize =
      dataStart + offset := by
  rw [h.header, BitVec.toNat_ofNat, Nat.mod_eq_of_lt hfits, Nat.add_assoc, Nat.add_comm]

theorem Packed.placeInventory {x : SwPack} {image image' : Nat → Cell} {k : Nat}
    (h : Packed hash parts x) (hk : k < parts.length) (hfits : offsetOf parts k < 2 ^ 32)
    (hplaced : Placed x parts k image) (himage : x.placeInventory image k = some image') :
    Placed x parts (k + 1) image' := by
  obtain ⟨new, hnew, hmade⟩ := h.made k hk
  obtain ⟨found, hfound, rfl⟩ := Option.map_eq_some_iff.mp himage
  obtain rfl := Option.some.inj (hnew.symm.trans hfound)
  have hnewSlot := slotPosition_inside (Nat.lt_of_lt_of_le hk h.most)
  have hnewLength := hmade.data_length
  intro i hi inventory hinventory
  dsimp only
  rw [hmade.position hfits]
  show CellsAt (store (store image (slotPosition k) _) _ _) _ _ ∧
    CellsAt (store (store image (slotPosition k) _) _ _) _ _
  rcases Nat.lt_or_ge i k with hlt | hge
  · -- one that is there already is apart from the new one
    obtain ⟨hdata, hchild⟩ := hplaced i hlt inventory hinventory
    obtain ⟨before, hbefore, hkept⟩ := h.made i (Nat.lt_trans hlt hk)
    obtain rfl := Option.some.inj (hbefore.symm.trans hinventory)
    obtain ⟨-, -, hlength⟩ := hkept.getChildData
    have hbeforeLength := hkept.data_length
    have hnext := slotPosition_next hlt
    have hmono := offsetOf_mono parts (Nat.succ_le_of_lt hlt)
    rw [offsetOf_succ (Nat.lt_trans hlt hk)] at hmono
    refine ⟨(hdata.store (.inr ?_)).store (.inr ?_), (hchild.store (.inl ?_)).store (.inr ?_)⟩
      <;> omega
  · obtain rfl : i = k := by omega
    obtain rfl := Option.some.inj (hnew.symm.trans hinventory)
    refine ⟨(CellsAt.store_self _ _ _).store (.inr ?_), CellsAt.store_self _ _ _⟩
    omega

theorem Packed.createImage {x : SwPack} {length : Nat} {cells : Nat → Cell}
    (h : Packed hash parts x) (hcreate : x.createImage = some (length, cells)) :
    length = dataStart + offsetOf parts parts.length ∧ length < 2 ^ 32 ∧
      Placed x parts parts.length cells := by
  unfold SwPack.createImage at hcreate
  by_cases hlarge : 2 ^ 32 ≤ x.imageLength
  · rw [if_pos hlarge] at hcreate
    cases hcreate
  · rw [if_neg hlarge] at hcreate
    obtain ⟨image, himage, heq⟩ := Option.map_eq_some_iff.mp hcreate
    obtain ⟨rfl, rfl⟩ := Prod.mk.inj heq
    have hlength := h.imageLength
    refine ⟨hlength, Nat.lt_of_not_le hlarge, ?_⟩
    rw [h.count] at himage
    have hrun : ∀ k, k ≤ parts.length → ∀ image, (List.range k).foldlM x.placeInventory
        (store (fun _ => none) 0 x.header.cells) = some image → Placed x parts k image := by
      intro k hk
      induction k with
      | zero => exact fun _ _ i hi => absurd hi (Nat.not_lt_zero i)
      | succ k ih =>
        intro image himage
        rw [List.range_succ, List.foldlM_append] at himage
        obtain ⟨before, hbefore, hlast⟩ := Option.bind_eq_some_iff.mp himage
        rw [List.foldlM_cons] at hlast
        obtain ⟨next, hnext, hend⟩ := Option.bind_eq_some_iff.mp hlast
        obtain rfl := Option.some.inj hend
        have hmono := offsetOf_mono parts (Nat.le_of_lt hk)
        exact h.placeInventory hk (by omega) (ih (Nat.le_of_lt hk) before hbefore) hnext
    exact hrun _ (Nat.le_refl _) _ himage

/-! ## What is read of a slot -/

/-- A slot says what its partition is, and the partition is there. -/
structure Found (hash : Hash) (bytes : Nat → Byte) (length : Word) (parts : List PartitionInput)
    (i : Nat) (part : PartitionInput) : Prop where
  held : SlotHeld bytes length i
  valid : SlotValid bytes i
  partition : (parsedSlot bytes i).partition bytes length.toNat =
    some ⟨offsetOf parts i, part.flashOffset, part.data⟩
  verify : (parsedSlot bytes i).unity.verify bytes length.toNat hash = some true

section

variable {hash : Hash} {bytes : Nat → Byte} {pos : Nat}

theorem InventoryHeader.reads {h : InventoryHeader} (hreads : Reads bytes pos (h.bytes.map some)) :
    load bytes pos magic.length = magic ∧ wordAt bytes (pos + 8) = h.headerVersion ∧
      wordAt bytes (pos + 12) = h.imageOffset ∧ wordAt bytes (pos + 16) = h.imageSize ∧
        wordAt bytes (pos + 20) = h.flashOffset :=
  ⟨hreads.load (k := 0) rfl, hreads.word rfl, hreads.word rfl, hreads.word rfl, hreads.word rfl⟩

theorem UnityCells.reads {cells rest : List Cell} (h : UnityCells hash part cells)
    (hreads : Reads bytes pos (cells ++ rest)) :
    wordAt bytes (pos + 24) = part.flashOffset ∧
      wordAt bytes (pos + 28) = BitVec.ofNat 32 part.data.length ∧
        load bytes (pos + 32) 20 = (hash part.data).toList ∧
          wordAt bytes (pos + 52) = crc32 part.data ∧
            load bytes (pos + headerSize) part.data.length = part.data := by
  obtain ⟨version, code, sw, date, text, rfl, htext⟩ := h.split
  have hhash : ((hash part.data).toList.map some).length = 20 := by
    rw [List.length_map, Vector.length_toList]
  rw [List.append_assoc] at hreads
  -- the hash, its checksum and the data are each behind what is in front
  have hbehind : ((hash part.data).toList.map some ++ ((wordBytes (crc32 part.data)).map some ++
      (text ++ part.data.map some)) ++ rest).drop 20 =
        (wordBytes (crc32 part.data)).map some ++ (text ++ (part.data.map some ++ rest)) := by
    rw [List.append_assoc, List.drop_left' hhash]
    simp only [List.append_assoc]
  have hdata : ((wordBytes (crc32 part.data)).map some ++
      (text ++ (part.data.map some ++ rest))).drop 460 = part.data.map some ++ rest := by
    rw [← List.append_assoc, List.drop_left']
    rw [List.length_append, htext]
    rfl
  have hload : load bytes (pos + 32) (hash part.data).toList.length = (hash part.data).toList :=
    hreads.load (List.append_assoc _ _ _)
  rw [Vector.length_toList] at hload
  refine ⟨hreads.word rfl, hreads.word rfl, hload,
    hreads.word (l := _ ++ _) hbehind, ?_⟩
  have hdrop := congrArg (List.drop 460) hbehind
  rw [List.drop_drop] at hdrop
  exact hreads.load (hdrop.trans hdata)

end

section

variable {hash : Hash} {bytes : Nat → Byte} {length : Word} {parts : List PartitionInput}

/-- A slot whose inventory and partition are there is found so. -/
theorem Made.found {i : Nat} (h : Made hash (offsetOf parts i) part x) (hi : i < maxInventoryCount)
    (hinside : dataStart + offsetOf parts i + paddedLength part.data ≤ length.toNat)
    (hslot : Reads bytes (slotPosition i) (x.data.map some))
    (hunity : Reads bytes (dataStart + offsetOf parts i) x.getChildData) :
    Found hash bytes length parts i part := by
  have hlt := length.isLt
  have hpadded := paddedLength_ge part.data
  obtain ⟨rest, hchild, -⟩ := h.getChildData
  rw [hchild] at hunity
  rw [h.data] at hslot
  obtain ⟨hmagic, hversion, hoffset, hsize, hflash⟩ := InventoryHeader.reads hslot
  obtain ⟨hunityFlash, hsaid, hhash, hcrc, hdata⟩ := h.childData.reads hunity
  rw [h.header] at hversion hoffset hsize hflash
  have hoffset' : slotOffset bytes i = offsetOf parts i := by
    unfold slotOffset
    rw [hoffset, BitVec.toNat_ofNat, Nat.mod_eq_of_lt (by omega)]
  have hsize' : slotSize bytes i = paddedLength part.data := by
    unfold slotSize
    rw [hsize, BitVec.toNat_ofNat, Nat.mod_eq_of_lt (by omega)]
  have hposition : slotUnity bytes i = dataStart + offsetOf parts i := by
    unfold slotUnity
    rw [hoffset', Nat.add_assoc, Nat.add_comm]
  have hstart := slotPosition_inside hi
  have hheader : headerSize = 512 := rfl
  have hread : dataLengthEnd = 32 := rfl
  have hunityHeader : unityHeaderSize ≤ paddedLength part.data :=
    Nat.le_trans (show 216 ≤ headerSize by omega) (by omega)
  have hchildLength : (parsedSlot bytes i).unity.childDataLength = some part.data.length := by
    have hrest : dataLength (paddedLength part.data) = paddedLength part.data - headerSize := by
      unfold dataLength
      rw [toNat_sub_ofNat (by rw [BitVec.toNat_ofNat]; omega), BitVec.toNat_ofNat,
        Nat.mod_eq_of_lt (by omega)]
    have hword : (wordAt bytes (dataStart + offsetOf parts i + 28)).toNat = part.data.length := by
      rw [hsaid, BitVec.toNat_ofNat, Nat.mod_eq_of_lt (by omega)]
    unfold parsedSlot
    dsimp only
    rw [hsize', hposition, hword, hrest, if_pos hunityHeader]
    refine congrArg some ?_
    split <;> omega
  have hchildData : (parsedSlot bytes i).unity.childData bytes length.toNat = some part.data := by
    unfold ParsedUnity.childData
    rw [hchildLength, Option.bind_some]
    show (if length.toNat < slotUnity bytes i + headerSize + part.data.length then none
      else some (load bytes (slotUnity bytes i + headerSize) part.data.length)) = _
    rw [hposition, if_neg (by omega), hdata]
  refine ⟨⟨by omega, fun _ => ?_⟩, ⟨hmagic, hversion⟩, ?_, ?_⟩
  · rw [hposition]
    omega
  · unfold ParsedInventory.partition
    rw [hchildData]
    show (if wordAt bytes (slotPosition i + 20) ≠ wordAt bytes (slotUnity bytes i + 24) then none
      else some (Partition.mk (slotOffset bytes i)
        (wordAt bytes (slotPosition i + 20)) part.data)) = _
    rw [hposition, hunityFlash, hflash, hoffset', if_neg (fun h => h rfl)]
  · unfold ParsedUnity.verify
    rw [hchildData]
    show some (load bytes (slotUnity bytes i + 32) 20 == (hash part.data).toList &&
      crc32 part.data == wordAt bytes (slotUnity bytes i + 52)) = _
    rw [hposition, hhash, hcrc, beq_self_eq_true, beq_self_eq_true, Bool.and_self]

/-- From a slot on the partitions that are left are found, if each slot is so and parsing
ends behind them. -/
theorem parseSlots_found
    (hfound : ∀ i (hi : i < parts.length), Found hash bytes length parts i parts[i])
    (hend : parts.length < maxInventoryCount →
      SlotHeld bytes length parts.length ∧ ¬ SlotValid bytes parts.length) {slots : Nat} :
    ∀ {i : Nat}, i + slots = maxInventoryCount → i ≤ parts.length →
      parts.length ≤ maxInventoryCount →
        ∃ inventories, parseSlots bytes length.toNat slots i = some inventories ∧
          inventories.mapM (ParsedInventory.partition bytes length.toNat) =
            some (placed (offsetOf parts i) (parts.drop i)) ∧
          verify bytes length.toNat hash inventories = some true := by
  induction slots with
  | zero =>
    intro i hslots hi hmost
    obtain rfl : i = parts.length := by omega
    refine ⟨[], rfl, ?_, rfl⟩
    rw [List.drop_length]
    rfl
  | succ slots ih =>
    intro i hslots hi hmost
    rcases Nat.lt_or_ge i parts.length with hlt | hge
    · have hslot := hfound i hlt
      obtain ⟨inventories, hparsed, hpartitions, hverified⟩ := ih (by omega) hlt hmost
      refine ⟨parsedSlot bytes i :: inventories, ?_, ?_, ?_⟩
      · rw [parseSlots_held hslot.held, if_pos (isValid_parsedSlot.mpr hslot.valid), hparsed]
        rfl
      · rw [List.mapM_cons, hslot.partition, hpartitions, List.drop_eq_getElem_cons hlt,
          offsetOf_succ hlt]
        rfl
      · unfold verify at hverified ⊢
        obtain ⟨all, hall, hid⟩ := Option.map_eq_some_iff.mp hverified
        rw [List.mapM_cons, hslot.verify, hall]
        show some (true && all.all id) = some true
        rw [hid, Bool.and_self]
    · obtain rfl : i = parts.length := by omega
      obtain ⟨hheld, hinvalid⟩ := hend (by omega)
      refine ⟨[], ?_, ?_, rfl⟩
      · rw [parseSlots_held hheld, if_neg (mt isValid_parsedSlot.mp hinvalid)]
      · rw [List.drop_length]
        rfl

/-- Where `mInventoryCount` is found 0: bytes that have what is written of an image are parsed
to its partitions and verified, if the slot behind the last is not taken for one. -/
theorem create_roundTrips {now productCode : Word} {size : Nat} {cells : Nat → Cell}
    (hcreate : create hash now productCode 0 parts = some (size, cells))
    (hbytes : ∀ a b, cells a = some b → bytes a = b)
    (hend : parts.length < maxInventoryCount →
      SlotHeld bytes (BitVec.ofNat 32 size) parts.length ∧ ¬ SlotValid bytes parts.length) :
    ∃ inventories, parse bytes size = some inventories ∧
      inventories.mapM (ParsedInventory.partition bytes size) = some (placed 0 parts) ∧
      verify bytes size hash inventories = some true := by
  obtain ⟨x, hfold, himage⟩ := Option.bind_eq_some_iff.mp hcreate
  have hnew : Packed hash [] ((SwPack.new now 0).setProductCode productCode) :=
    ⟨rfl, Nat.zero_le _, rfl, fun i hi => absurd hi (Nat.not_lt_zero i)⟩
  have hpacked := hnew.foldlM hfold
  rw [List.nil_append] at hpacked
  obtain ⟨hsize, hfits, hplaced⟩ := hpacked.createImage himage
  have hword : (BitVec.ofNat 32 size).toNat = size := by
    rw [BitVec.toNat_ofNat, Nat.mod_eq_of_lt hfits]
  have hfound : ∀ i (hi : i < parts.length),
      Found hash bytes (BitVec.ofNat 32 size) parts i parts[i] := by
    intro i hi
    obtain ⟨inventory, hinventory, hmade⟩ := hpacked.made i hi
    obtain ⟨hslot, hunity⟩ := hplaced i hi inventory hinventory
    have hmono := offsetOf_mono parts (Nat.succ_le_of_lt hi)
    rw [offsetOf_succ hi] at hmono
    refine hmade.found (Nat.lt_of_lt_of_le hi hpacked.most) ?_ (hslot.reads hbytes)
      (hunity.reads hbytes)
    omega
  have hparsed := parseSlots_found hfound hend (Nat.zero_add _) (Nat.zero_le _) hpacked.most
  rw [hword] at hparsed
  exact hparsed

end

end Duckbox.Mup
