import Duckbox.Lib.Loop
import Duckbox.Lib.Slots
import Mathlib.Algebra.Order.Ring.Int

/-!
# Decode to manifest

The buffer re-ordering loop of `ProcessDecodeToManifest`: decoded frames wait in
a table with holes until they are next in display order. Frames that will never
be decoded are recorded in a second table, which `CheckForNonDecodedFrame`
searches for the desired index. A marker frame empties the first table in
display order, whatever holes it has.

A scan of the table, a search for the desired index and an extraction from the
decoded frame ring are one step each. Between them the frame parser gives frames
their display indices and the decode stage records frames as not decoded, at any
time: a frame may be in either table before it has an index.

Not modelled: sequence numbers and control messages, which wait for the frames
and never the other way, timing and manifestation of a frame that left, and
buffers that lack their coded frame or meta data.
-/

namespace Duckbox.Player

open Duckbox.Lib

/-- `INVALID_INDEX`. -/
abbrev invalidIndex : Nat := 0xffffffff

/-- `PLAYER_MAX_DISCARDED_FRAMES`. -/
abbrev playerMaxDiscardedFrames : Nat := 64

/-- `PLAYER_MINIMUM_NUMBER_OF_WORKING_DECODE_BUFFERS`. -/
abbrev playerMinimumNumberOfWorkingDecodeBuffers : Nat := 3

/-- `PLAYER_LIMIT_ON_OUT_OF_ORDER_DECODES`. -/
abbrev playerLimitOnOutOfOrderDecodes : Nat := 13

/-- `PlayDirection_t`. -/
inductive PlayDirection where
  | playForward
  | playBackward
  deriving DecidableEq

/-- A used entry of `NonDecodedBuffers`: the union with `ReleasedBuffer` telling
its members apart. -/
inductive NonDecodedBuffer (φ : Type) where
  | released (displayFrameIndex : Nat)
  | unreleased (frame : φ)

/-- The members of `Stream` and the locals the loop works on, with the parsed
parameters of the frames. -/
structure Stream (φ : Type) (n : Nat) where
  displayFrameIndex : φ → Nat
  collapseHolesInDisplayIndices : φ → Bool
  accumulatedBufferTable : Fin n → Option φ
  accumulatedBufferTableOccupancy : Nat
  desiredFrameIndex : Nat
  /-- `MarkerFrameBuffer != NULL`. -/
  markerFrameBuffer : Bool
  nonDecodedBuffers : Fin playerMaxDiscardedFrames → Option (NonDecodedBuffer φ)
  insertionsIntoNonDecodedBuffers : Nat
  removalsFromNonDecodedBuffers : Nat
  displayIndicesCollapse : Nat
  discardingUntilMarkerFramePtoD : Bool
  discardingUntilMarkerFrameDtoM : Bool

/-- `MaxDecodesOutOfOrder`, in `unsigned int`. -/
def maxDecodesOutOfOrder (direction : PlayDirection) (possibleDecodeBuffers : Nat) : Nat :=
  let working :=
    (possibleDecodeBuffers + 2 ^ 32 - playerMinimumNumberOfWorkingDecodeBuffers) % 2 ^ 32
  match direction with
  | .playForward => min playerLimitOnOutOfOrderDecodes (min working (possibleDecodeBuffers / 2))
  | .playBackward => min working (3 * possibleDecodeBuffers % 2 ^ 32 / 4)

namespace Stream

variable {φ : Type} {n : Nat}

/-! ## The accumulated buffers -/

/-- One pass of the scan: the slot with the lowest display index so far. -/
def lowestOf (s : Stream φ n) (lowest : Option (Fin n × φ)) (i : Fin n) : Option (Fin n × φ) :=
  match s.accumulatedBufferTable i with
  | none => lowest
  | some f =>
    if s.displayFrameIndex f ≠ invalidIndex ∧
        ∀ low ∈ lowest, s.displayFrameIndex f < s.displayFrameIndex low.2 then
      some (i, f)
    else lowest

/-- `LowestIndex` and the frame there. -/
def lowestIndex (s : Stream φ n) : Option (Fin n × φ) :=
  (List.finRange n).foldl s.lowestOf none

/-- The scan: the buffer that leaves, if any does. -/
def nextDisplayFrame (s : Stream φ n) (direction : PlayDirection) (possibleDecodeBuffers : Nat) :
    Option (Fin n × φ) :=
  if s.accumulatedBufferTableOccupancy = 0 then none
  else s.lowestIndex.filter fun low =>
    decide (s.displayFrameIndex low.2 = s.desiredFrameIndex) ||
      decide (s.accumulatedBufferTableOccupancy
        ≥ maxDecodesOutOfOrder direction possibleDecodeBuffers) ||
      s.collapseHolesInDisplayIndices low.2 || s.markerFrameBuffer

/-- Take the buffer out of the table. -/
def remove (s : Stream φ n) (i : Fin n) : Stream φ n :=
  { s with
    accumulatedBufferTable := Function.update s.accumulatedBufferTable i none
    accumulatedBufferTableOccupancy := s.accumulatedBufferTableOccupancy - 1 }

/-- Put the buffer into the table. -/
def accumulate (s : Stream φ n) (i : Fin n) (f : φ) : Stream φ n :=
  { s with
    accumulatedBufferTable := Function.update s.accumulatedBufferTable i (some f)
    accumulatedBufferTableOccupancy := s.accumulatedBufferTableOccupancy + 1 }

/-! ## The non-decoded frames -/

/-- `RecordNonDecodedFrame`; the event that may follow wakes the loop. -/
def recordNonDecodedFrame (s : Stream φ n) (f : φ) : Stream φ n :=
  match firstFree s.nonDecodedBuffers with
  | none => s
  | some i =>
    let d := s.displayFrameIndex f
    let s :=
      { s with
        insertionsIntoNonDecodedBuffers := (s.insertionsIntoNonDecodedBuffers + 1) % 2 ^ 32 }
    if d ≠ invalidIndex then
      { s with
        nonDecodedBuffers := Function.update s.nonDecodedBuffers i (some (.released d))
        displayIndicesCollapse :=
          if s.discardingUntilMarkerFramePtoD || s.collapseHolesInDisplayIndices f then
            max s.displayIndicesCollapse d
          else s.displayIndicesCollapse }
    else
      { s with nonDecodedBuffers := Function.update s.nonDecodedBuffers i (some (.unreleased f)) }

/-- "Can we release the actual buffer": it has an index by now. -/
def releaseNonDecoded (s : Stream φ n) (i : Fin playerMaxDiscardedFrames) (f : φ) : Stream φ n :=
  let d := s.displayFrameIndex f
  { s with
    nonDecodedBuffers := Function.update s.nonDecodedBuffers i (some (.released d))
    displayIndicesCollapse :=
      if s.discardingUntilMarkerFrameDtoM || s.collapseHolesInDisplayIndices f then
        max s.displayIndicesCollapse d
      else s.displayIndicesCollapse }

/-- "Now check the index": an entry at or below the index is removed. -/
def checkIndex (s : Stream φ n) (displayFrameIndex : Nat) (i : Fin playerMaxDiscardedFrames)
    (d : Nat) : Bool × Stream φ n :=
  if d ≤ displayFrameIndex then
    (decide (d = displayFrameIndex),
      { s with
        nonDecodedBuffers := Function.update s.nonDecodedBuffers i none
        removalsFromNonDecodedBuffers := (s.removalsFromNonDecodedBuffers + 1) % 2 ^ 32 })
  else (false, s)

/-- One entry of the table. -/
def checkEntry (s : Stream φ n) (displayFrameIndex : Nat) (i : Fin playerMaxDiscardedFrames) :
    Bool × Stream φ n :=
  match s.nonDecodedBuffers i with
  | none => (false, s)
  | some (.released d) => s.checkIndex displayFrameIndex i d
  | some (.unreleased f) =>
    if s.displayFrameIndex f ≠ invalidIndex then
      (s.releaseNonDecoded i f).checkIndex displayFrameIndex i (s.displayFrameIndex f)
    else (false, s)

/-- The entries from some entry on, up to the one looked for. -/
def checkEntries (displayFrameIndex : Nat) :
    List (Fin playerMaxDiscardedFrames) → Stream φ n → Bool × Stream φ n
  | [], s => (decide (displayFrameIndex < s.displayIndicesCollapse), s)
  | i :: rest, s =>
    match s.checkEntry displayFrameIndex i with
    | (true, s) => (true, s)
    | (false, s) => checkEntries displayFrameIndex rest s

/-- `CheckForNonDecodedFrame`. -/
def checkForNonDecodedFrame (s : Stream φ n) (displayFrameIndex : Nat) : Bool × Stream φ n :=
  if s.insertionsIntoNonDecodedBuffers = s.removalsFromNonDecodedBuffers then (false, s)
  else checkEntries displayFrameIndex (List.finRange playerMaxDiscardedFrames) s

end Stream

/-! ## The loop -/

/-- Where the loop is. -/
inductive Point where
  | scan
  | check
  | extract
  deriving DecidableEq

/-- What `DecodedFrameRing` gives. -/
inductive Extracted (φ : Type) where
  | nothing
  | controlStructure
  | marker
  | frame (f : φ)
  deriving DecidableEq

/-- What the loop reads from outside. -/
structure Surroundings (φ : Type) where
  direction : PlayDirection
  possibleDecodeBuffers : Nat
  extracted : Extracted φ
  deriving DecidableEq

/-- What the loop did. -/
inductive Event (φ : Type) where
  /-- A frame left, with a marker pending or not. -/
  | left (frame : φ) (displayFrameIndex : Nat) (markerPending : Bool)
  /-- `CheckForNonDecodedFrame` was true of the index. -/
  | skipped (displayFrameIndex : Nat)
  /-- The marker was passed on. -/
  | marker

/-- The loop, with what happened, latest first, the frames that arrived and were
recorded, and how many indices were assigned. -/
structure Reordering (φ : Type) (n : Nat) where
  stream : Stream φ n
  point : Point
  events : List (Event φ)
  arrived : List φ
  recorded : List φ
  assigned : Nat

/-- What happens around the loop, and its next step. -/
inductive Operation (φ : Type) where
  | assign (f : φ)
  | record (f : φ)
  | drain
  | markerParsed
  | next (surroundings : Surroundings φ)
  deriving DecidableEq

namespace Reordering

variable {φ : Type} {n : Nat}

/-- The locals before the main loop, and a new stream. -/
def started (collapseHolesInDisplayIndices : φ → Bool) : Reordering φ n where
  stream :=
    { displayFrameIndex := fun _ => invalidIndex
      collapseHolesInDisplayIndices := collapseHolesInDisplayIndices
      accumulatedBufferTable := fun _ => none
      accumulatedBufferTableOccupancy := 0
      desiredFrameIndex := 0
      markerFrameBuffer := false
      nonDecodedBuffers := fun _ => none
      insertionsIntoNonDecodedBuffers := 0
      removalsFromNonDecodedBuffers := 0
      displayIndicesCollapse := 0
      discardingUntilMarkerFramePtoD := false
      discardingUntilMarkerFrameDtoM := false }
  point := .scan
  events := []
  arrived := []
  recorded := []
  assigned := 0

/-- A frame leaves: `DesiredFrameIndex = DisplayFrameIndex + 1`. -/
def leave (r : Reordering φ n) (f : φ) : Reordering φ n :=
  let d := r.stream.displayFrameIndex f
  { r with
    stream := { r.stream with desiredFrameIndex := (d + 1) % 2 ^ 32 }
    point := .scan
    events := .left f d r.stream.markerFrameBuffer :: r.events }

/-- "Do we want to insert this in the table". -/
def arrive (r : Reordering φ n) (f : φ) : Reordering φ n :=
  let r := { r with arrived := f :: r.arrived }
  if r.stream.displayFrameIndex f ≤ r.stream.desiredFrameIndex then r.leave f
  else
    match firstFree r.stream.accumulatedBufferTable with
    | some i => { r with stream := r.stream.accumulate i f, point := .scan }
    -- the table is full: assume it is immediate
    | none => r.leave f

/-- The loop goes on from where it is. -/
def next (r : Reordering φ n) (surroundings : Surroundings φ) : Reordering φ n :=
  match r.point with
  | .scan =>
    match r.stream.nextDisplayFrame surroundings.direction surroundings.possibleDecodeBuffers with
    | some (i, f) => { r with stream := r.stream.remove i }.leave f
    | none => { r with point := .check }
  | .check =>
    match r.stream.checkForNonDecodedFrame r.stream.desiredFrameIndex with
    | (true, s) =>
      { r with
        stream := { s with desiredFrameIndex := (s.desiredFrameIndex + 1) % 2 ^ 32 }
        events := .skipped r.stream.desiredFrameIndex :: r.events }
    | (false, s) => { r with stream := s, point := .extract }
  | .extract =>
    if r.stream.markerFrameBuffer then
      { r with
        stream :=
          { r.stream with markerFrameBuffer := false, discardingUntilMarkerFrameDtoM := false }
        point := .scan
        events := .marker :: r.events }
    else
      match surroundings.extracted with
      | .nothing => { r with point := .scan }
      | .controlStructure => { r with point := .scan }
      | .marker => { r with stream := { r.stream with markerFrameBuffer := true }, point := .scan }
      | .frame f => r.arrive f

/-- One step of the system. -/
def step [DecidableEq φ] (r : Reordering φ n) : Operation φ → Reordering φ n
  | .assign f =>
    { r with
      stream :=
        { r.stream with
          displayFrameIndex := Function.update r.stream.displayFrameIndex f r.assigned }
      assigned := r.assigned + 1 }
  | .record f =>
    { r with stream := r.stream.recordNonDecodedFrame f, recorded := f :: r.recorded }
  -- a drain that discards sets the flags, a marker clears them on its way
  | .drain =>
    { r with
      stream :=
        { r.stream with
          discardingUntilMarkerFramePtoD := true
          discardingUntilMarkerFrameDtoM := true } }
  | .markerParsed =>
    { r with stream := { r.stream with discardingUntilMarkerFramePtoD := false } }
  | .next surroundings => r.next surroundings

end Reordering

end Duckbox.Player
