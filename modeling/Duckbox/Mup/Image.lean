import Duckbox.Lib.Region
import Mathlib.Algebra.Order.Ring.Int
import Mathlib.Data.List.Induction

/-!
# mup makes and parses update images

`SwPack`, `SwInventory` and `SwUnity`: a pack header, eight slots of inventories and,
for each partition, a unity header with its hash and checksum in front of the data.
`createImage` puts the structures together, each in a block of its own first, and
`parse` lays them over the bytes again.

A cell of memory nobody has written is `none`, as is one behind the end of a block
that is read; so is a call that goes outside an array or a structure, or whose
lengths do not fit in 32 bits. `mInventoryCount` is not initialised: what is found
there is an argument of the constructor. The hash is an argument of all that uses
it, and so is the time.

Not modelled: printing, the files read and written, and freeing memory.
-/

namespace Duckbox.Mup

open Duckbox.Lib

/-- `uint8_t`. -/
abbrev Byte := BitVec 8

/-- `uint32_t`. -/
abbrev Word := BitVec 32

/-- A byte of memory, `none` where nobody has written. -/
abbrev Cell := Option Byte

/-- `SW_UPDATE_HEADER_SIZE`. -/
abbrev headerSize : Nat := 512

/-- `SW_INVENTORY_SIZE`. -/
abbrev inventorySize : Nat := 64

/-- `MAX_INVENTORY_COUNT`. -/
abbrev maxInventoryCount : Nat := 8

/-- `SW_UPDATE_FILENAME_LENGTH` and `SW_UPDATE_INFO_LENGTH`. -/
abbrev filenameLength : Nat := 32

abbrev infoLength : Nat := 128

/-- `SW_MAGIC_VALUE`, "MARUSWUP". -/
def magic : List Byte := [0x4D, 0x41, 0x52, 0x55, 0x53, 0x57, 0x55, 0x50]

/-- "Software Update", with its end. -/
def softwareUpdate : List Byte :=
  [0x53, 0x6F, 0x66, 0x74, 0x77, 0x61, 0x72, 0x65, 0x20, 0x55, 0x70, 0x64, 0x61, 0x74, 0x65, 0x00]

/-- What `mUpdateInfo` is set to: only the text. -/
def updateInfo : List Cell :=
  softwareUpdate.map some ++ List.replicate (infoLength - softwareUpdate.length) none

/-- A word in memory, of a little-endian machine. -/
def wordBytes (w : Word) : List Byte :=
  [w.extractLsb' 0 8, w.extractLsb' 8 8, w.extractLsb' 16 8, w.extractLsb' 24 8]

/-- The word at an address. -/
def wordAt (bytes : Nat → Byte) (pos : Nat) : Word :=
  bytes (pos + 3) ++ (bytes (pos + 2) ++ (bytes (pos + 1) ++ bytes pos))

/-- `crc_table`. -/
def crcTable : List Word :=
  [
    0x00000000, 0x04c11db7, 0x09823b6e, 0x0d4326d9, 0x130476dc,
    0x17c56b6b, 0x1a864db2, 0x1e475005, 0x2608edb8, 0x22c9f00f,
    0x2f8ad6d6, 0x2b4bcb61, 0x350c9b64, 0x31cd86d3, 0x3c8ea00a,
    0x384fbdbd, 0x4c11db70, 0x48d0c6c7, 0x4593e01e, 0x4152fda9,
    0x5f15adac, 0x5bd4b01b, 0x569796c2, 0x52568b75, 0x6a1936c8,
    0x6ed82b7f, 0x639b0da6, 0x675a1011, 0x791d4014, 0x7ddc5da3,
    0x709f7b7a, 0x745e66cd, 0x9823b6e0, 0x9ce2ab57, 0x91a18d8e,
    0x95609039, 0x8b27c03c, 0x8fe6dd8b, 0x82a5fb52, 0x8664e6e5,
    0xbe2b5b58, 0xbaea46ef, 0xb7a96036, 0xb3687d81, 0xad2f2d84,
    0xa9ee3033, 0xa4ad16ea, 0xa06c0b5d, 0xd4326d90, 0xd0f37027,
    0xddb056fe, 0xd9714b49, 0xc7361b4c, 0xc3f706fb, 0xceb42022,
    0xca753d95, 0xf23a8028, 0xf6fb9d9f, 0xfbb8bb46, 0xff79a6f1,
    0xe13ef6f4, 0xe5ffeb43, 0xe8bccd9a, 0xec7dd02d, 0x34867077,
    0x30476dc0, 0x3d044b19, 0x39c556ae, 0x278206ab, 0x23431b1c,
    0x2e003dc5, 0x2ac12072, 0x128e9dcf, 0x164f8078, 0x1b0ca6a1,
    0x1fcdbb16, 0x018aeb13, 0x054bf6a4, 0x0808d07d, 0x0cc9cdca,
    0x7897ab07, 0x7c56b6b0, 0x71159069, 0x75d48dde, 0x6b93dddb,
    0x6f52c06c, 0x6211e6b5, 0x66d0fb02, 0x5e9f46bf, 0x5a5e5b08,
    0x571d7dd1, 0x53dc6066, 0x4d9b3063, 0x495a2dd4, 0x44190b0d,
    0x40d816ba, 0xaca5c697, 0xa864db20, 0xa527fdf9, 0xa1e6e04e,
    0xbfa1b04b, 0xbb60adfc, 0xb6238b25, 0xb2e29692, 0x8aad2b2f,
    0x8e6c3698, 0x832f1041, 0x87ee0df6, 0x99a95df3, 0x9d684044,
    0x902b669d, 0x94ea7b2a, 0xe0b41de7, 0xe4750050, 0xe9362689,
    0xedf73b3e, 0xf3b06b3b, 0xf771768c, 0xfa325055, 0xfef34de2,
    0xc6bcf05f, 0xc27dede8, 0xcf3ecb31, 0xcbffd686, 0xd5b88683,
    0xd1799b34, 0xdc3abded, 0xd8fba05a, 0x690ce0ee, 0x6dcdfd59,
    0x608edb80, 0x644fc637, 0x7a089632, 0x7ec98b85, 0x738aad5c,
    0x774bb0eb, 0x4f040d56, 0x4bc510e1, 0x46863638, 0x42472b8f,
    0x5c007b8a, 0x58c1663d, 0x558240e4, 0x51435d53, 0x251d3b9e,
    0x21dc2629, 0x2c9f00f0, 0x285e1d47, 0x36194d42, 0x32d850f5,
    0x3f9b762c, 0x3b5a6b9b, 0x0315d626, 0x07d4cb91, 0x0a97ed48,
    0x0e56f0ff, 0x1011a0fa, 0x14d0bd4d, 0x19939b94, 0x1d528623,
    0xf12f560e, 0xf5ee4bb9, 0xf8ad6d60, 0xfc6c70d7, 0xe22b20d2,
    0xe6ea3d65, 0xeba91bbc, 0xef68060b, 0xd727bbb6, 0xd3e6a601,
    0xdea580d8, 0xda649d6f, 0xc423cd6a, 0xc0e2d0dd, 0xcda1f604,
    0xc960ebb3, 0xbd3e8d7e, 0xb9ff90c9, 0xb4bcb610, 0xb07daba7,
    0xae3afba2, 0xaafbe615, 0xa7b8c0cc, 0xa379dd7b, 0x9b3660c6,
    0x9ff77d71, 0x92b45ba8, 0x9675461f, 0x8832161a, 0x8cf30bad,
    0x81b02d74, 0x857130c3, 0x5d8a9099, 0x594b8d2e, 0x5408abf7,
    0x50c9b640, 0x4e8ee645, 0x4a4ffbf2, 0x470cdd2b, 0x43cdc09c,
    0x7b827d21, 0x7f436096, 0x7200464f, 0x76c15bf8, 0x68860bfd,
    0x6c47164a, 0x61043093, 0x65c52d24, 0x119b4be9, 0x155a565e,
    0x18197087, 0x1cd86d30, 0x029f3d35, 0x065e2082, 0x0b1d065b,
    0x0fdc1bec, 0x3793a651, 0x3352bbe6, 0x3e119d3f, 0x3ad08088,
    0x2497d08d, 0x2056cd3a, 0x2d15ebe3, 0x29d4f654, 0xc5a92679,
    0xc1683bce, 0xcc2b1d17, 0xc8ea00a0, 0xd6ad50a5, 0xd26c4d12,
    0xdf2f6bcb, 0xdbee767c, 0xe3a1cbc1, 0xe760d676, 0xea23f0af,
    0xeee2ed18, 0xf0a5bd1d, 0xf464a0aa, 0xf9278673, 0xfde69bc4,
    0x89b8fd09, 0x8d79e0be, 0x803ac667, 0x84fbdbd0, 0x9abc8bd5,
    0x9e7d9662, 0x933eb0bb, 0x97ffad0c, 0xafb010b1, 0xab710d06,
    0xa6322bdf, 0xa2f33668, 0xbcb4666d, 0xb8757bda, 0xb5365d03,
    0xb1f740b4]

/-- `crc32`. -/
def crc32 (data : List Byte) : Word :=
  data.foldl (fun crc b =>
    (crc <<< 8) ^^^ crcTable.getD (((crc >>> 24) ^^^ b.zeroExtend 32) &&& 0xff).toNat 0) 0xffffffff

/-- A hash of twenty bytes, as `SHA1Init`, `SHA1Update` and `SHA1Final` make of data. -/
abbrev Hash := List Byte → Vector Byte 20

/-! ## A unity -/

/-- `tSWUnity`; the text is `mFileName` and `mUpdateInfo`. -/
structure UnityHeader where
  headerVersion : Word
  productCode : Word
  swVersion : Word
  date : Word
  flashOffset : Word
  dataLength : Word
  hashValue : List Cell
  crc : List Cell
  text : List Cell

/-- The header in memory. -/
def UnityHeader.cells (h : UnityHeader) : List Cell :=
  (magic ++ wordBytes h.headerVersion ++ wordBytes h.productCode ++ wordBytes h.swVersion
    ++ wordBytes h.date ++ wordBytes h.flashOffset ++ wordBytes h.dataLength).map some
    ++ h.hashValue ++ h.crc ++ h.text

/-- `sizeof(tSWUnity)`. -/
abbrev unityHeaderSize : Nat := 216

/-- Where `mDataLength` ends in it, which is all that `SwUnity::parse` reads. -/
abbrev dataLengthEnd : Nat := 32

/-- `SwUnity`, its data as far as it is set. -/
structure SwUnity where
  header : UnityHeader
  data : List Cell

/-- `SwUnity()`. -/
def SwUnity.new (now : Word) : SwUnity where
  header :=
    { headerVersion := 100
      productCode := 0x11321000
      swVersion := 101
      date := now
      flashOffset := 0
      dataLength := 0
      hashValue := List.replicate 20 none
      crc := List.replicate 4 none
      text := List.replicate filenameLength none ++ updateInfo }
  data := []

/-- The bytes of a C string, its end not counted. -/
def cString (name : List Byte) : List Byte := name.takeWhile (· != 0)

/-- `setPartition`; `none` where the name runs over the end of the header. -/
def SwUnity.setPartition (hash : Hash) (u : SwUnity) (flashOffset : Word)
    (filename data : List Byte) : Option SwUnity :=
  let name := cString filename ++ [0]
  if filenameLength + infoLength < name.length then none
  else
    let header :=
      { u.header with
        flashOffset := flashOffset
        text := name.map some ++ u.header.text.drop name.length
        dataLength := BitVec.ofNat 32 data.length
        hashValue := (hash data).toList.map some
        crc := (wordBytes (crc32 data)).map some }
    -- the header, what is left of its 512 bytes, and the data
    some
      { header := header
        data := header.cells ++ List.replicate (headerSize - unityHeaderSize) none
          ++ data.map some }

/-! ## An inventory -/

/-- `tSWInventory`. -/
structure InventoryHeader where
  headerVersion : Word
  imageOffset : Word
  imageSize : Word
  flashOffset : Word
  swVersion : Word
  imageNumber : Word
deriving DecidableEq, Repr

/-- The header in memory. -/
def InventoryHeader.bytes (h : InventoryHeader) : List Byte :=
  magic ++ wordBytes h.headerVersion ++ wordBytes h.imageOffset ++ wordBytes h.imageSize
    ++ wordBytes h.flashOffset ++ wordBytes h.swVersion ++ wordBytes h.imageNumber

/-- `sizeof(tSWInventory)`. -/
abbrev inventoryHeaderSize : Nat := 32

/-- `SwInventory`: `childData` is the block allocated, `childDataLength` what is taken
to be its length. -/
structure SwInventory where
  header : InventoryHeader
  data : List Byte
  childData : List Cell
  childDataLength : Nat
  unity : SwUnity

/-- `SwInventory()`. -/
def SwInventory.new (now : Word) : SwInventory where
  header := ⟨100, 0, 0, 0, 0, 0⟩
  data := []
  childData := []
  childDataLength := 0
  unity := SwUnity.new now

/-- `setPartition`. -/
def SwInventory.setPartition (hash : Hash) (x : SwInventory) (flashOffset : Word)
    (filename data : List Byte) (imageOffset : Word) : Option SwInventory :=
  let header :=
    { x.header with
      flashOffset := flashOffset
      imageOffset := imageOffset
      imageSize := BitVec.ofNat 32 (data.length + headerSize) }
  (x.unity.setPartition hash flashOffset filename data).map fun unity =>
    let childDataLength := unity.data.length
    if childDataLength % 0x200 ≠ 0 then
      -- up to a multiple, in a block that stays as it is
      let childDataLength := childDataLength + (0x200 - childDataLength % 0x200)
      let header := { header with imageSize := BitVec.ofNat 32 childDataLength }
      ⟨header, header.bytes, unity.data, childDataLength, unity⟩
    else ⟨header, header.bytes, unity.data, childDataLength, unity⟩

/-- `getChildData`: as many cells as the length says. -/
def SwInventory.getChildData (x : SwInventory) : List Cell :=
  x.childData.take x.childDataLength
    ++ List.replicate (x.childDataLength - x.childData.length) none

/-! ## A pack -/

/-- `tSWPack`. -/
structure PackHeader where
  headerVersion : Word
  productCode : Word
  swVersion : Word
  date : Word
  inventoryCount : Word
  invalidateFlag : Word

/-- The header in memory. -/
def PackHeader.cells (h : PackHeader) : List Cell :=
  (magic ++ wordBytes h.headerVersion ++ wordBytes h.productCode ++ wordBytes h.swVersion
    ++ wordBytes h.date ++ wordBytes h.inventoryCount ++ wordBytes h.invalidateFlag).map some
    ++ updateInfo

/-- `SwPack` while an image is made. -/
structure SwPack where
  header : PackHeader
  mInventoryCount : Nat
  inventory : Nat → Option SwInventory
  curInventoryOffset : Nat

/-- `SwPack()`, which leaves `mInventoryCount` as it finds it. -/
def SwPack.new (now : Word) (found : Nat) : SwPack where
  header := ⟨100, 0x11321000, 101, now, 0, 0⟩
  mInventoryCount := found
  inventory _ := none
  curInventoryOffset := 0

/-- `setProductCode`. -/
def SwPack.setProductCode (x : SwPack) (code : Word) : SwPack :=
  { x with header := { x.header with productCode := code } }

/-- A partition as it is given. -/
structure PartitionInput where
  flashOffset : Word
  filename : List Byte
  data : List Byte
deriving DecidableEq, Repr

/-- `appendPartition`. -/
def SwPack.appendPartition (hash : Hash) (now : Word) (x : SwPack) (part : PartitionInput) :
    Option SwPack :=
  if maxInventoryCount ≤ x.mInventoryCount then none
  else
    let new := SwInventory.new now
    let new :=
      { new with
        unity :=
          { new.unity with
            header := { new.unity.header with productCode := x.header.productCode } } }
    (new.setPartition hash part.flashOffset part.filename part.data
        (BitVec.ofNat 32 x.curInventoryOffset)).map fun inventory =>
      { x with
        inventory := Function.update x.inventory x.mInventoryCount (some inventory)
        curInventoryOffset := x.curInventoryOffset + inventory.childDataLength
        mInventoryCount := x.mInventoryCount + 1 }

/-- The length of an image. -/
def SwPack.imageLength (x : SwPack) : Nat :=
  (List.range x.mInventoryCount).foldl
    (fun length i => length + ((x.inventory i).map (·.childDataLength)).getD 0)
    (headerSize + maxInventoryCount * inventorySize)

/-- A pass of the loop that fills the image. -/
def SwPack.placeInventory (x : SwPack) (image : Nat → Cell) (i : Nat) : Option (Nat → Cell) :=
  (x.inventory i).map fun inventory =>
    let image := store image (headerSize + i * inventorySize) (inventory.data.map some)
    store image
      (inventory.header.imageOffset.toNat + headerSize + maxInventoryCount * inventorySize)
      inventory.getChildData

/-- `createImage`: its length, and its cells. -/
def SwPack.createImage (x : SwPack) : Option (Nat × (Nat → Cell)) :=
  if 2 ^ 32 ≤ x.imageLength then none
  else
    let image := store (fun _ => none) 0 x.header.cells
    ((List.range x.mInventoryCount).foldlM x.placeInventory image).map fun image =>
      (x.imageLength, image)

/-- An image of partitions: a pack made, its product code set, the partitions appended. -/
def create (hash : Hash) (now productCode : Word) (found : Nat) (parts : List PartitionInput) :
    Option (Nat × (Nat → Cell)) :=
  (parts.foldlM (SwPack.appendPartition hash now)
    ((SwPack.new now found).setProductCode productCode)).bind SwPack.createImage

/-! ## Parsing -/

/-- `SwUnity` over the bytes of an image: where its header is, and the length of its
data, `none` where it has not been parsed. -/
structure ParsedUnity where
  position : Nat
  childDataLength : Option Nat
deriving DecidableEq, Repr

/-- `SwInventory` over the bytes of an image. -/
structure ParsedInventory where
  position : Nat
  unity : ParsedUnity
deriving DecidableEq, Repr

section

variable (bytes : Nat → Byte) (length : Nat)

/-- `SwUnity::parse`. -/
def parseUnity (position dataLength : Nat) : Option ParsedUnity :=
  if unityHeaderSize ≤ dataLength then
    if length < position + dataLengthEnd then none
    else
      let rest := (BitVec.ofNat 32 dataLength - BitVec.ofNat 32 headerSize).toNat
      let said := (wordAt bytes (position + 28)).toNat
      some ⟨position, some (if said < rest then said else rest)⟩
  else some ⟨position, none⟩

/-- `SwInventory::parse`, with the length of the data from there on. -/
def parseInventory (position dataLength : Nat) : Option ParsedInventory :=
  if dataLength < inventoryHeaderSize ∨ length < position + inventoryHeaderSize then none
  else
    let imageOffset := (wordAt bytes (position + 12)).toNat
    let imageSize := (wordAt bytes (position + 16)).toNat
    (parseUnity bytes length (imageOffset + headerSize + maxInventoryCount * inventorySize)
      imageSize).map fun unity => ⟨position, unity⟩

/-- `isValid`. -/
def isValid (inventory : ParsedInventory) : Bool :=
  load bytes inventory.position magic.length == magic &&
    wordAt bytes (inventory.position + 8) == 100

/-- The loop of `SwPack::parse` over the slots from the `i`th. -/
def parseSlots : Nat → Nat → Option (List ParsedInventory)
  | 0, _ => some []
  | slots + 1, i =>
    let offset := i * inventorySize
    let childDataLength := BitVec.ofNat 32 length - BitVec.ofNat 32 headerSize
    match parseInventory bytes length (headerSize + offset)
        (childDataLength - BitVec.ofNat 32 offset).toNat with
    | none => none
    | some inventory =>
      if isValid bytes inventory then
        (parseSlots slots (i + 1)).map (inventory :: ·)
      else some []

/-- `SwPack::parse`. -/
def parse : Option (List ParsedInventory) := parseSlots bytes length maxInventoryCount 0

/-- The data of a unity. -/
def ParsedUnity.childData (u : ParsedUnity) : Option (List Byte) :=
  u.childDataLength.bind fun n =>
    if length < u.position + headerSize + n then none
    else some (load bytes (u.position + headerSize) n)

/-- `SwUnity::verify`. -/
def ParsedUnity.verify (hash : Hash) (u : ParsedUnity) : Option Bool :=
  (u.childData bytes length).map fun data =>
    load bytes (u.position + 32) 20 == (hash data).toList &&
      crc32 data == wordAt bytes (u.position + 52)

/-- `SwPack::verify`. -/
def verify (hash : Hash) (inventories : List ParsedInventory) : Option Bool :=
  (inventories.mapM fun (x : ParsedInventory) => x.unity.verify bytes length hash).map fun all => all.all id

/-- A partition as it is found: where it is in the image and in the flash, and its data. -/
structure Partition where
  imageOffset : Nat
  flashOffset : Word
  data : List Byte
deriving DecidableEq, Repr

/-- The partition of an inventory, whose unity says the same of the flash. -/
def ParsedInventory.partition (x : ParsedInventory) : Option Partition :=
  let flashOffset := wordAt bytes (x.position + 20)
  if flashOffset ≠ wordAt bytes (x.unity.position + 24) then none
  else
    (x.unity.childData bytes length).map fun data =>
      ⟨(wordAt bytes (x.position + 12)).toNat, flashOffset, data⟩

end

/-! ## What an image is for -/

/-- The length of a unity with its data, up to a multiple of 0x200. -/
def paddedLength (data : List Byte) : Nat := (data.length + headerSize + 0x1ff) / 0x200 * 0x200

/-- Where the partitions are in an image, the first at an offset. -/
def placed : Nat → List PartitionInput → List Partition
  | _, [] => []
  | offset, part :: parts =>
    ⟨offset, part.flashOffset, part.data⟩ :: placed (offset + paddedLength part.data) parts

/-- The bytes of an image are all determined, and it is parsed to the partitions it
was made of and verified. -/
def RoundTrips (hash : Hash) (now productCode : Word) (found : Nat)
    (parts : List PartitionInput) : Prop :=
  ∃ length cells bytes, create hash now productCode found parts = some (length, cells) ∧
    (∀ a, a < length → cells a = some (bytes a)) ∧
    ∃ inventories, parse bytes length = some inventories ∧
      inventories.mapM (ParsedInventory.partition bytes length) = some (placed 0 parts) ∧
      verify bytes length hash inventories = some true

end Duckbox.Mup

/-!
## The cells of an image that nobody has written

The header of a pack is copied with all of its `mUpdateInfo`, of which only the text
is set, and the loop over the inventories writes behind it (`createImage_header`). So
there is no image whose bytes are all determined (`create_undetermined`).
-/

namespace Duckbox.Mup

open Duckbox.Lib

/-- Where the text of the header of a pack ends. -/
abbrev updateInfoEnd : Nat := 48

theorem header_undetermined (h : PackHeader) :
    store (fun _ => none) 0 h.cells updateInfoEnd = none := by
  have hcells : h.cells[updateInfoEnd]? = some none := rfl
  unfold store
  rw [if_pos (Nat.zero_le _), Nat.sub_zero, hcells, Option.getD_some]

theorem placeInventory_header {x : SwPack} {image image' : Nat → Cell} {i a : Nat}
    (ha : a < headerSize) (h : x.placeInventory image i = some image') : image' a = image a := by
  obtain ⟨inventory, -, rfl⟩ := Option.map_eq_some_iff.mp h
  rw [store_of_lt (by omega), store_of_lt (by omega)]

theorem foldlM_header {x : SwPack} {a : Nat} (ha : a < headerSize) (l : List Nat) :
    ∀ {image image' : Nat → Cell}, l.foldlM x.placeInventory image = some image' →
      image' a = image a := by
  induction l with
  | nil =>
    intro image image' h
    obtain rfl := Option.some.inj h
    rfl
  | cons i l ih =>
    intro image image' h
    rw [List.foldlM_cons] at h
    obtain ⟨next, hnext, hrest⟩ := Option.bind_eq_some_iff.mp h
    rw [ih hrest, placeInventory_header ha hnext]

theorem imageLength_ge (x : SwPack) : updateInfoEnd < x.imageLength := by
  have hfold : ∀ (l : List Nat) (n : Nat), n ≤ l.foldl
      (fun length i => length + ((x.inventory i).map (·.childDataLength)).getD 0) n := by
    intro l
    induction l with
    | nil => intro n; exact Nat.le_refl n
    | cons i l ih => intro n; exact Nat.le_trans (Nat.le_add_right _ _) (ih _)
  exact Nat.lt_of_lt_of_le (by decide) (hfold _ _)

theorem createImage_header {x : SwPack} {length : Nat} {cells : Nat → Cell}
    (h : x.createImage = some (length, cells)) :
    updateInfoEnd < length ∧ cells updateInfoEnd = none := by
  unfold SwPack.createImage at h
  split at h
  · exact absurd h (by simp)
  · obtain ⟨image, himage, heq⟩ := Option.map_eq_some_iff.mp h
    obtain ⟨rfl, rfl⟩ := Prod.mk.inj heq
    refine ⟨imageLength_ge x, ?_⟩
    rw [foldlM_header (by decide) _ himage, header_undetermined]

theorem create_undetermined {hash : Hash} {now productCode : Word} {found : Nat}
    {parts : List PartitionInput} {length : Nat} {cells : Nat → Cell}
    (h : create hash now productCode found parts = some (length, cells)) :
    ∃ a, a < length ∧ cells a = none := by
  obtain ⟨x, -, hx⟩ := Option.bind_eq_some_iff.mp h
  exact ⟨updateInfoEnd, createImage_header hx⟩

/-- So no image round trips with all its bytes determined, whatever the partitions,
and whatever is found in the memory of the pack. -/
theorem roundTrips_never (hash : Hash) (now productCode : Word) (found : Nat)
    (parts : List PartitionInput) : ¬ RoundTrips hash now productCode found parts := by
  intro ⟨length, cells, bytes, hcreate, hbytes, _⟩
  obtain ⟨a, ha, hnone⟩ := create_undetermined hcreate
  rw [hbytes a ha] at hnone
  exact absurd hnone (by simp)

/-- An image without partitions: byte 48 is one that nobody has written. -/
theorem createImage_copies_unwritten :
    ¬ RoundTrips (fun _ => Vector.replicate 20 0) 0 0x11321000 0 [] := by
  intro ⟨length, cells, bytes, hcreate, hbytes, _⟩
  have hcell : (create (fun _ => Vector.replicate 20 0) 0 0x11321000 0 []).map
      (fun image => (image.1, image.2 48)) = some (1024, none) := by decide +kernel
  rw [hcreate] at hcell
  obtain ⟨rfl, hnone⟩ := Prod.mk.inj (Option.some.inj hcell)
  have hnone : cells 48 = none := hnone
  rw [hbytes 48 (by decide)] at hnone
  exact absurd hnone (by simp)

end Duckbox.Mup
