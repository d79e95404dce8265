import Duckbox.H264.References
import Duckbox.Lib.Ordered
import Mathlib.Order.Nat

/-!
# Initial reference picture lists

`InitializePSliceReferencePictureListFrame`, `…Field`,
`InitializeBSliceReferencePictureListsFrame`, `…Field` and
`InitializeReferencePictureListField`, compiled without
`REFERENCE_PICTURE_LIST_PROCESSING`: an entry is a table index with its
`LongTermReference` and `UsageCode`, a list is the first `EntryCount` of them.
Writing past the last of the `MAX_ENTRIES_IN_REFERENCE_FRAME_LIST` places of a
list is `none`; only a field list can get there, its frame lists have at most
`maxEntries` entries.

The bubble macros swap indices only. The details of the entries they sort are
the same, so whole entries are swapped here. The usage code of a frame list is
filled in by the caller, and `FrameNumWrap` is what the caller has just stored.
-/

namespace Duckbox.H264

open Duckbox.Lib

/-- `REF_PIC_USE_FRAME`, `REF_PIC_USE_FIELD_TOP`, `REF_PIC_USE_FIELD_BOT`. -/
inductive UsageCode where
  | frame
  | fieldTop
  | fieldBot
deriving DecidableEq, Repr

/-- `EntryIndicies[k]` with `H264ReferenceDetails[k]`. -/
structure ReferenceEntry where
  index : Nat
  longTermReference : Bool
  usageCode : UsageCode
deriving DecidableEq, Repr

/-- `MAX_ENTRIES_IN_REFERENCE_FRAME_LIST`: "16 frames - 32 fields". -/
def maxEntriesInReferenceFrameList : Nat := 32

/-- `ComplimentaryReferencePair`: both fields are references. -/
def Usage.complimentaryReferencePair (u : Usage) : Bool := (u ||| u >>> 1) &&& 5 == 5

/-- A short-term entry of a frame list. -/
def shortTermFrame (i : Nat) : ReferenceEntry := ⟨i, false, .frame⟩

/-- A long-term entry of a frame list. -/
def longTermFrame (i : Nat) : ReferenceEntry := ⟨i, true, .frame⟩

/-- A field and its codes: one side of the alternation. -/
structure FieldUse where
  short : Usage
  long : Usage
  code : UsageCode
deriving DecidableEq, Repr

def FieldUse.top : FieldUse :=
  ⟨usedForTopShortTermReference, usedForTopLongTermReference, .fieldTop⟩

def FieldUse.bottom : FieldUse :=
  ⟨usedForBotShortTermReference, usedForBotLongTermReference, .fieldBot⟩

/-- `SameParity…`. -/
def FieldUse.same (bottomFieldFlag : Bool) : FieldUse :=
  if bottomFieldFlag then FieldUse.bottom else FieldUse.top

/-- `AlternateParity…`. -/
def FieldUse.alternate (bottomFieldFlag : Bool) : FieldUse := FieldUse.same (!bottomFieldFlag)

/-- The code that marks the field in a list of one kind. -/
def FieldUse.mask (use : FieldUse) (longTerm : Bool) : Usage :=
  if longTerm then use.long else use.short

/-- The `memcmp` of the indices, for lists with more than one entry. -/
def identicalLists (list0 list1 : List ReferenceEntry) : Bool :=
  decide (1 < list1.length) && list1.length == list0.length
    && list0.map (·.index) == list1.map (·.index)

/-- "Then we swap the first two entries". -/
def swapFirstTwo : List ReferenceEntry → List ReferenceEntry
  | a :: b :: list => b :: a :: list
  | list => list

namespace References

/-- The indices a loop over the table collects. -/
def gather (s : References) (q : ReferenceFrame → Bool) : List Nat :=
  forUpTo (fun l i => if q (s.entry i) then l ++ [i] else l) [] (s.numReferenceFrames + 1)

section Sorting

variable {α β : Type} [LinearOrder β]

/-- Collect behind `list`, and sort what was collected, smallest first. -/
def appendUp (s : References) (index : α → Nat) (entry : Nat → α) (q : ReferenceFrame → Bool)
    (key : ReferenceFrame → β) (list : List α) : List α :=
  let found := s.gather q
  bubbleUp (fun e => key (s.entry (index e))) list.length found.length
    (list ++ found.map entry)

/-- Collect behind `list`, and sort what was collected, greatest first. -/
def appendDown (s : References) (index : α → Nat) (entry : Nat → α) (q : ReferenceFrame → Bool)
    (key : ReferenceFrame → β) (list : List α) : List α :=
  let found := s.gather q
  bubbleDown (fun e => key (s.entry (index e))) list.length found.length
    (list ++ found.map entry)

end Sorting

/-- Not above the current order count. -/
def notAbove (picOrderCnt : Word) (f : ReferenceFrame) : Bool :=
  decide (f.picOrderCnt.toInt ≤ picOrderCnt.toInt)

/-- The short-term part of list 0, "list of short term reference frames with
lower picnum" and the higher ones, and of list 1, a copy "in two portions". -/
def shortTermPortions {α : Type} (s : References) (index : α → Nat) (entry : Nat → α)
    (q : ReferenceFrame → Bool) (picOrderCnt : Word) : List α × List α :=
  let lower := s.appendDown index entry (fun f => q f && notAbove picOrderCnt f)
    (·.picOrderCnt.toInt) []
  let list0 := s.appendUp index entry (fun f => q f && !notAbove picOrderCnt f)
    (·.picOrderCnt.toInt) lower
  (list0, list0.drop lower.length ++ list0.take lower.length)

/-! ## Frames -/

/-- A frame that is a short-term reference. -/
def shortTermPair (f : ReferenceFrame) : Bool :=
  f.usage.complimentaryReferencePair && f.usage.has anyUsedForShortTermReference

/-- A frame that is a long-term reference. -/
def longTermPair (f : ReferenceFrame) : Bool :=
  f.usage.complimentaryReferencePair && f.usage.has anyUsedForLongTermReference

/-- The short-term part of `InitializePSliceReferencePictureListFrame`. -/
def pShortTermFrames (s : References) : List ReferenceEntry :=
  if s.numShortTerm != 0 then
    s.appendDown (·.index) shortTermFrame shortTermPair (·.picNum.toInt) []
  else []

/-- `InitializePSliceReferencePictureListFrame`. -/
def initializePSliceReferencePictureListFrame (s : References) : List ReferenceEntry :=
  let list := s.pShortTermFrames
  if s.numLongTerm != 0 then
    -- the count is limited here only
    (s.appendUp (·.index) longTermFrame longTermPair (·.longTermPicNum.toNat) list).take
      s.numReferenceFrames
  else list

/-- The short-term part of `InitializeBSliceReferencePictureListsFrame`. -/
def bShortTermFrames (s : References) (picOrderCnt : Word) :
    List ReferenceEntry × List ReferenceEntry :=
  if s.numShortTerm != 0 then
    s.shortTermPortions (·.index) shortTermFrame shortTermPair picOrderCnt
  else ([], [])

/-- `InitializeBSliceReferencePictureListsFrame`. -/
def initializeBSliceReferencePictureListsFrame (s : References) (picOrderCnt : Word) :
    List ReferenceEntry × List ReferenceEntry :=
  let short := s.bShortTermFrames picOrderCnt
  let list0 :=
    if s.numLongTerm != 0 then
      s.appendUp (·.index) longTermFrame longTermPair (·.longTermPicNum.toNat) short.1
    else short.1
  -- "and copy them to list 1"
  let list1 := short.2 ++ list0.drop short.1.length
  let list1 := list1.take s.numReferenceFrames
  let list0 := list0.take s.numReferenceFrames
  (list0, if identicalLists list0 list1 then swapFirstTwo list1 else list1)

/-! ## Fields -/

/-- "Append next reference field, if any exist", and the cursor behind it. -/
def appendNext (s : References) (use : FieldUse) (longTerm : Bool) (cursor : List Nat)
    (list : List ReferenceEntry) : Option (List Nat × List ReferenceEntry) :=
  match cursor.dropWhile fun i => !(s.entry i).usage.has (use.mask longTerm) with
  | [] => some ([], list)
  | i :: rest =>
    if list.length < maxEntriesInReferenceFrameList then
      some (rest, list ++ [⟨i, longTerm, use.code⟩])
    else none

/-- The loop over the two cursors. Every pass moves both that are not at the end,
so it is over after as many passes as the list has entries. -/
def insertFields (s : References) (bottomFieldFlag longTerm : Bool) :
    Nat → List Nat → List Nat → List ReferenceEntry → Option (List ReferenceEntry)
  | 0, _, _, list => some list
  | passes + 1, same, alternate, list =>
    if same.isEmpty && alternate.isEmpty then some list
    else do
      let (same, list) ← s.appendNext (FieldUse.same bottomFieldFlag) longTerm same list
      let (alternate, list) ←
        s.appendNext (FieldUse.alternate bottomFieldFlag) longTerm alternate list
      s.insertFields bottomFieldFlag longTerm passes same alternate list

/-- `InitializeReferencePictureListField`. -/
def initializeReferencePictureListField (s : References) (bottomFieldFlag : Bool)
    (shortTermList longTermList : List Nat) (maxListEntries : Nat) :
    Option (List ReferenceEntry) := do
  let list ← s.insertFields bottomFieldFlag false shortTermList.length shortTermList
    shortTermList []
  let list ← s.insertFields bottomFieldFlag true longTermList.length longTermList
    longTermList list
  some (list.take maxListEntries)

/-- An entry with a field that is a short-term reference. -/
def shortTermFields (f : ReferenceFrame) : Bool := f.usage.has anyUsedForShortTermReference

/-- An entry with a field that is a long-term reference. -/
def longTermFields (f : ReferenceFrame) : Bool := f.usage.has anyUsedForLongTermReference

/-- `ReferenceFrameListLongTerm`. -/
def referenceFrameListLongTerm (s : References) : List Nat :=
  if s.numLongTerm != 0 then s.appendUp id id longTermFields (·.longTermPicNum.toNat) []
  else []

/-- `ReferenceFrameListShortTerm[0]` for a P slice. -/
def pReferenceFrameListShortTerm (s : References) (h : SliceHeader) : List Nat :=
  if s.numShortTerm != 0 then s.appendDown id id shortTermFields (frameNumWrap h) [] else []

/-- `InitializePSliceReferencePictureListField`. -/
def initializePSliceReferencePictureListField (s : References) (h : SliceHeader) :
    Option (List ReferenceEntry) :=
  s.initializeReferencePictureListField h.bottomFieldFlag (s.pReferenceFrameListShortTerm h)
    s.referenceFrameListLongTerm (2 * s.numReferenceFrames + 1)

/-- `ReferenceFrameListShortTerm[0]` and `[1]` for a B slice. -/
def bReferenceFrameListsShortTerm (s : References) (picOrderCnt : Word) : List Nat × List Nat :=
  if s.numShortTerm != 0 then s.shortTermPortions id id shortTermFields picOrderCnt
  else ([], [])

/-- `InitializeBSliceReferencePictureListsField`. -/
def initializeBSliceReferencePictureListsField (s : References) (bottomFieldFlag : Bool)
    (picOrderCnt : Word) : Option (List ReferenceEntry × List ReferenceEntry) := do
  let short := s.bReferenceFrameListsShortTerm picOrderCnt
  let list0 ← s.initializeReferencePictureListField bottomFieldFlag short.1
    s.referenceFrameListLongTerm (2 * s.numReferenceFrames + 1)
  let list1 ← s.initializeReferencePictureListField bottomFieldFlag short.2
    s.referenceFrameListLongTerm (2 * s.numReferenceFrames + 1)
  some (list0, if identicalLists list0 list1 then swapFirstTwo list1 else list1)

end References

end Duckbox.H264
