import Duckbox.Lib.Loop
import Duckbox.Lib.Slots
import Mathlib.Algebra.Order.Ring.Int

/-!
# In sequence control messages

A control structure names the point of its stream at which it is to be performed,
a sequence number or a playback time, and whether before or after the frame
there. A process that receives one performs it at once, if the point has been
reached, or puts it into the first free slot of a table, and scans its two tables
in the order of the slots before and after every frame.

`Control` is what the processes have in common: the two tables, and the history
of what arrived and what became of it. Each message has its place in the order
of arrival, and each scan and each arrival is a moment of its own. When a message
is performed at once is for the process to say.
-/

namespace Duckbox.Player

open Duckbox.Lib

/-- `INVALID_SEQUENCE_VALUE`. -/
abbrev invalidSequenceValue : Nat := 0xfeedfacedeadbeef

/-- `INVALID_TIME`. -/
abbrev invalidTime : Nat := invalidSequenceValue

/-- `UNSPECIFIED_TIME`. -/
abbrev unspecifiedTime : Nat := invalidTime + 1

/-- `PlayerSequenceType_t`. -/
inductive SequenceType where
  | immediate
  | beforeSequenceNumber
  | afterSequenceNumber
  | beforePlaybackTime
  | afterPlaybackTime
  deriving DecidableEq

/-- `SequenceCheck`. -/
def SequenceType.sequenceCheck (t : SequenceType) : Bool :=
  t = .beforeSequenceNumber || t = .afterSequenceNumber

/-- It goes into the table of messages before a frame. -/
def SequenceType.isBefore (t : SequenceType) : Bool :=
  t = .beforeSequenceNumber || t = .beforePlaybackTime

/-- `PlayerControlStructure_t`, with its place in the order of arrival. -/
structure Message where
  issued : Nat
  sequenceType : SequenceType
  sequenceValue : Nat
  deriving DecidableEq

/-- `ProcessNow` of a scan. -/
def Message.processNow (m : Message) (sequenceNumber time : Nat) : Bool :=
  if m.sequenceType.sequenceCheck then
    sequenceNumber != invalidSequenceValue && decide (m.sequenceValue ≤ sequenceNumber)
  else time != invalidSequenceValue && decide (m.sequenceValue ≤ time)

/-! ## A table -/

/-- A table of `PlayerBufferRecord_t` and its `MessageCount`. -/
structure MessageTable (n : Nat) where
  messageCount : Nat
  entries : Fin n → Option Message

namespace MessageTable

variable {n : Nat}

def empty : MessageTable n := ⟨0, fun _ => none⟩

/-- `AccumulateControlMessage`, `none` where the table is full. -/
def accumulateControlMessage (t : MessageTable n) (m : Message) : Option (MessageTable n) :=
  (firstFree t.entries).map fun i =>
    ⟨t.messageCount + 1, Function.update t.entries i (some m)⟩

/-- One slot of a scan, with the messages that have been performed. -/
def scanSlot (sequenceNumber time : Nat) (s : List Message × MessageTable n) (i : Fin n) :
    List Message × MessageTable n :=
  match s.2.entries i with
  | none => s
  | some m =>
    if m.processNow sequenceNumber time then
      (s.1 ++ [m], ⟨s.2.messageCount - 1, Function.update s.2.entries i none⟩)
    else s

/-- `ProcessAccumulatedControlMessages`: what it performs, and the table. -/
def processAccumulatedControlMessages (t : MessageTable n) (sequenceNumber time : Nat) :
    List Message × MessageTable n :=
  if t.messageCount = 0 then ([], t)
  else (List.finRange n).foldl (scanSlot sequenceNumber time) ([], t)

/-- What waits in the table, in the order of the slots. -/
def waiting (t : MessageTable n) : List Message := contents t.entries

/-- The count is that of the messages. -/
def Counted (t : MessageTable n) : Prop := t.messageCount = t.waiting.length

/-- A message that is stored now is stored behind all that wait. -/
def Behind (t : MessageTable n) : Prop :=
  ∀ i, firstFree t.entries = some i → ∀ j, t.entries j ≠ none → j < i

instance Behind.decidable (t : MessageTable n) : Decidable t.Behind :=
  inferInstanceAs (Decidable (∀ i, _ → ∀ j, _ → j < i))

end MessageTable

/-! ## What the processes have in common -/

/-- How far a process has got: the last sequence number and playback time that applied. -/
structure Reached where
  sequenceNumber : Option Nat
  time : Option Nat
  deriving DecidableEq

/-- A sequence number and a time, if they are valid. -/
def Reached.of (sequenceNumber time : Nat) : Reached where
  sequenceNumber := if sequenceNumber = invalidSequenceValue then none else some sequenceNumber
  -- `ValidTime`
  time := if time = invalidTime ∨ time = unspecifiedTime then none else some time

/-- The point that the message names has been reached. -/
def Message.Due (m : Message) (r : Reached) : Prop :=
  match m.sequenceType with
  | .immediate => True
  | .beforeSequenceNumber | .afterSequenceNumber => ∃ s ∈ r.sequenceNumber, m.sequenceValue ≤ s
  | .beforePlaybackTime | .afterPlaybackTime => ∃ t ∈ r.time, m.sequenceValue ≤ t

/-- When a message is performed. -/
inductive Phase where
  | arrival
  | beforeFrame
  | afterFrame
  deriving DecidableEq

/-- A message that was performed, at which moment, and how far the process had got. -/
structure Performed where
  message : Message
  moment : Nat
  phase : Phase
  reached : Reached
  deriving DecidableEq

/-- A message for which there was no room, with how many its table held. -/
structure Dropped where
  message : Message
  held : Nat
  deriving DecidableEq

/-- The tables, and the history, latest first. -/
structure Control (n : Nat) where
  before : MessageTable n
  after : MessageTable n
  reached : Reached
  moments : Nat
  arrived : List Message
  performed : List Performed
  dropped : List Dropped

namespace Control

variable {n : Nat}

def started : Control n where
  before := .empty
  after := .empty
  reached := ⟨none, none⟩
  moments := 0
  arrived := []
  performed := []
  dropped := []

/-- `ProcessControlMessage` of some messages one after the other. -/
def perform (c : Control n) (phase : Phase) (messages : List Message) : Control n :=
  { c with
    moments := c.moments + 1
    performed := (messages.map fun m => ⟨m, c.moments, phase, c.reached⟩).reverse ++ c.performed }

/-- A frame, or a marker: the scan before it and the one after it. -/
def frame (c : Control n) (sequenceNumber time : Nat) : Control n :=
  let c := { c with reached := .of sequenceNumber time }
  let before := c.before.processAccumulatedControlMessages sequenceNumber time
  let c := { c with before := before.2 }.perform .beforeFrame before.1
  let after := c.after.processAccumulatedControlMessages sequenceNumber time
  { c with after := after.2 }.perform .afterFrame after.1

/-- The message that arrives next. -/
def next (c : Control n) (sequenceType : SequenceType) (sequenceValue : Nat) : Message :=
  ⟨c.arrived.length, sequenceType, sequenceValue⟩

/-- A control structure is received; `processNow` says whether it is performed at once. -/
def receive (c : Control n) (sequenceType : SequenceType) (sequenceValue : Nat)
    (processNow : Bool) : Control n :=
  let m := c.next sequenceType sequenceValue
  let c := { c with arrived := m :: c.arrived }
  if processNow then c.perform .arrival [m]
  else if sequenceType.isBefore then
    match c.before.accumulateControlMessage m with
    | some t => { c with before := t }
    -- "Message table full"
    | none => { c with dropped := ⟨m, c.before.waiting.length⟩ :: c.dropped }
  else
    match c.after.accumulateControlMessage m with
    | some t => { c with after := t }
    | none => { c with dropped := ⟨m, c.after.waiting.length⟩ :: c.dropped }

/-- The table that a message goes to. -/
def tableOf (c : Control n) (sequenceType : SequenceType) : MessageTable n :=
  if sequenceType.isBefore then c.before else c.after

/-- What waits. -/
def waiting (c : Control n) : List Message := c.before.waiting ++ c.after.waiting

end Control

/-- Two messages fall due at the same point: they are performed at the same
moment, or name the same number or time. -/
def Performed.SamePoint (p q : Performed) : Prop :=
  p.moment = q.moment ∨
    p.message.sequenceType = q.message.sequenceType ∧
      p.message.sequenceValue = q.message.sequenceValue

instance Performed.SamePoint.decidable (p q : Performed) : Decidable (p.SamePoint q) :=
  inferInstanceAs (Decidable (_ ∨ _ ∧ _))

/-- Every message is performed once, unless its table was full, as soon as its point
has been reached and no earlier; those of the same point as they were issued. -/
structure Control.InSequence {n : Nat} (c : Control n) : Prop where
  once : (c.performed.map (·.message) ++ c.waiting ++ c.dropped.map (·.message)).Perm c.arrived
  distinct : c.arrived.Nodup
  overflow : ∀ d ∈ c.dropped, d.held = n
  waiting : ∀ m ∈ c.waiting, ¬ m.Due c.reached
  reached : ∀ p ∈ c.performed, p.message.Due p.reached
  afterwards : ∀ p ∈ c.performed, p.phase = .beforeFrame →
    p.message.sequenceType.isBefore = true
  inOrder : c.performed.Pairwise fun later earlier =>
    later.SamePoint earlier → earlier.message.issued < later.message.issued

end Duckbox.Player
