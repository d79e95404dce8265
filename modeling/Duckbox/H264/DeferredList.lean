import Duckbox.FrameParser.Video
import Mathlib.Algebra.Order.Ring.Int

/-!
# The deferred list of H.264 display numbering

`DeferDFIandPTSGeneration` and the two functions that process the deferred list
of `FrameParser_VideoH264_c`, in the build with `__TDT__`, which has neither the
validation of presentation times nor the limit on what is deferred. A coded
frame buffer is its index in the pool, below `n` (`H264_CODED_FRAME_COUNT`), and
the slot of a buffer is `DeferredList[Index]`; `OrderedDeferredList` is the list
of its first `DeferredListEntries` members. What the functions do outside the
list is recorded in `calls`.

The frame rate deduced from presentation times, which both processing functions
may install at their end, feeds nothing back and is left out.
-/

namespace Duckbox.H264

open Duckbox.FrameParser

/-- `H264DeferredDFIandPTSList_t`; the parameters are the parsed frame and video
parameters of the buffer. -/
structure DeferredDFIandPTS (n : Nat) where
  buffer : Option (Fin n)
  parameters : CodedFrame
  extendedPicOrderCnt : BitVec 64
deriving DecidableEq, Repr

/-- What is called on a buffer, or for its parameters. -/
inductive DeferredCall (n : Nat) where
  | incrementReferenceCount (buffer : Fin n)
  | calculateFrameIndexAndPts (parameters : CodedFrame)
  | setupPanScanValues (parameters : CodedFrame)
  | decrementReferenceCount (buffer : Fin n)
deriving DecidableEq, Repr

/-- The members of `FrameParser_VideoH264_c` that hold what is deferred. -/
structure Deferral (n : Nat) where
  deferredList : Fin n → DeferredDFIandPTS n
  orderedDeferredList : List (Fin n)
  calls : List (DeferredCall n)

namespace Deferral

variable {n : Nat}

/-- After `Reset`. -/
def reset (n : Nat) : Deferral n where
  deferredList _ := ⟨none, ⟨0, ⟨0, false, 0, 0, false, false⟩⟩, 0⟩
  orderedDeferredList := []
  calls := []

/-- `ExtendedPicOrderCnt` of a slot. -/
def extendedPicOrderCnt (s : Deferral n) (index : Fin n) : BitVec 64 :=
  (s.deferredList index).extendedPicOrderCnt

/-- "Adjust pic order cnt for fields given same pic order cnt". -/
def adjust (parameters : CodedFrame) (extendedPicOrderCnt : BitVec 64)
    (displayOrderByDpbValues specialCaseDpb : Bool) : BitVec 64 :=
  let extendedPicOrderCnt := extendedPicOrderCnt <<< 1
  if !displayOrderByDpbValues then
    if parameters.picture.pictureStructure ≠ structureFrame ∧
        (parameters.picture.pictureStructure == structureTopField)
          ≠ parameters.picture.topFieldFirst
    then extendedPicOrderCnt + 1 else extendedPicOrderCnt
  else if parameters.picture.referenceFrame then
    if specialCaseDpb then extendedPicOrderCnt + 1 else extendedPicOrderCnt
  else extendedPicOrderCnt

/-- `DeferDFIandPTSGeneration`. -/
def deferDFIandPTSGeneration (s : Deferral n) (buffer : Fin n) (parameters : CodedFrame)
    (extendedPicOrderCnt : BitVec 64) (displayOrderByDpbValues specialCaseDpb : Bool) :
    Deferral n :=
  let extendedPicOrderCnt :=
    adjust parameters extendedPicOrderCnt displayOrderByDpbValues specialCaseDpb
  -- a slot that is in use is reported, and taken all the same
  let s := { s with
    calls := s.calls ++ [DeferredCall.incrementReferenceCount buffer]
    deferredList :=
      Function.update s.deferredList buffer ⟨some buffer, parameters, extendedPicOrderCnt⟩ }
  -- "Where do we sit"
  let i := s.orderedDeferredList.findIdx fun index =>
    decide (extendedPicOrderCnt < s.extendedPicOrderCnt index)
  { s with orderedDeferredList := s.orderedDeferredList.insertIdx i buffer }

/-- The body of both loops: number the slot, drop the reference, clear it. -/
def processEntry (s : Deferral n) (index : Fin n) : Deferral n :=
  let entry := s.deferredList index
  { s with
    calls := s.calls ++
      [.calculateFrameIndexAndPts entry.parameters, .setupPanScanValues entry.parameters] ++
      (entry.buffer.map DeferredCall.decrementReferenceCount).toList
    deferredList := Function.update s.deferredList index { entry with buffer := none } }

/-- Both loops: while there is a slot that `goes`, process it. What is left of
the list, and the state. -/
def processWhile (goes : BitVec 64 → Bool) : List (Fin n) → Deferral n → List (Fin n) × Deferral n
  | [], s => ([], s)
  | index :: rest, s =>
    if goes (s.extendedPicOrderCnt index) then processWhile goes rest (s.processEntry index)
    else (index :: rest, s)

/-- `ProcessDeferredDFIandPTSUpto`: from the front, then "shuffle up the ordered list". -/
def processDeferredDFIandPTSUpto (s : Deferral n) (extendedPicOrderCnt : BitVec 64) : Deferral n :=
  let limit := extendedPicOrderCnt <<< 1
  let (rest, s) := processWhile (fun count => decide (count < limit)) s.orderedDeferredList s
  { s with orderedDeferredList := rest }

/-- `ProcessDeferredDFIandPTSDownto`: from the back. -/
def processDeferredDFIandPTSDownto (s : Deferral n) (extendedPicOrderCnt : BitVec 64) :
    Deferral n :=
  let limit := extendedPicOrderCnt <<< 1 ||| 1
  let (rest, s) := processWhile (fun count => decide (limit < count))
    s.orderedDeferredList.reverse s
  { s with orderedDeferredList := rest.reverse }

end Deferral

/-! ## Runs -/

/-- The calls of the parser. -/
inductive DeferralOperation (n : Nat) where
  | deferDFIandPTSGeneration (buffer : Fin n) (parameters : CodedFrame)
      (extendedPicOrderCnt : BitVec 64) (displayOrderByDpbValues specialCaseDpb : Bool)
  | processDeferredDFIandPTSUpto (extendedPicOrderCnt : BitVec 64)
  | processDeferredDFIandPTSDownto (extendedPicOrderCnt : BitVec 64)

/-- A run of the calls, with what was deferred and the order count each buffer
was last deferred with. -/
structure DeferralRun (n : Nat) where
  deferral : Deferral n
  deferred : List (Fin n × CodedFrame)
  orderCount : Fin n → BitVec 64

namespace DeferralRun

variable {n : Nat}

def reset (n : Nat) : DeferralRun n := ⟨.reset n, [], fun _ => 0⟩

/-- One call. -/
def step (r : DeferralRun n) : DeferralOperation n → DeferralRun n
  | .deferDFIandPTSGeneration buffer parameters extendedPicOrderCnt dpb special =>
    { deferral :=
        r.deferral.deferDFIandPTSGeneration buffer parameters extendedPicOrderCnt dpb special
      deferred := r.deferred ++ [(buffer, parameters)]
      orderCount := Function.update r.orderCount buffer extendedPicOrderCnt }
  | .processDeferredDFIandPTSUpto limit =>
    { r with deferral := r.deferral.processDeferredDFIandPTSUpto limit }
  | .processDeferredDFIandPTSDownto limit =>
    { r with deferral := r.deferral.processDeferredDFIandPTSDownto limit }

/-- A limit is an order count, or beyond all of them (a purge processes up to
`0xffffffffffffffff`). -/
def Limit (extendedPicOrderCnt : BitVec 64) : Prop :=
  extendedPicOrderCnt.toNat < 2 ^ 63 ∨ 2 ^ 63 + 2 ^ 62 ≤ extendedPicOrderCnt.toNat

instance (extendedPicOrderCnt : BitVec 64) : Decidable (Limit extendedPicOrderCnt) :=
  inferInstanceAs (Decidable (_ ∨ _))

/-- A buffer is deferred once at a time, and order counts are small. -/
def Callable (r : DeferralRun n) : DeferralOperation n → Prop
  | .deferDFIandPTSGeneration buffer _ extendedPicOrderCnt _ _ =>
    (r.deferral.deferredList buffer).buffer = none ∧ extendedPicOrderCnt.toNat < 2 ^ 62
  | .processDeferredDFIandPTSUpto limit | .processDeferredDFIandPTSDownto limit => Limit limit

instance (r : DeferralRun n) : ∀ op, Decidable (r.Callable op)
  | .deferDFIandPTSGeneration .. => inferInstanceAs (Decidable (_ ∧ _))
  | .processDeferredDFIandPTSUpto _ | .processDeferredDFIandPTSDownto _ =>
    inferInstanceAs (Decidable (Limit _))

end DeferralRun

end Duckbox.H264
