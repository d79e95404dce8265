import Duckbox.Lib.Loop
import Mathlib.Algebra.Order.Ring.Int
import Mathlib.Data.List.Induction

/-!
# MME commands and their counts

The codec counts the commands it has prepared, those that have completed and
those it aborted, and never looks at a command to know whether it was before
another: a marker buffer waits until as many commands have finished as were
prepared before it, and `DiscardQueuedDecodes` discards the output of completions
until as many have finished as were prepared when it was called.

`Queue` says what that is for, with a number for each command: a marker is passed
on when no command before it is in flight, and the output of a command is
discarded if the command is before the discard.

> `Accounted s q`: the commands in flight are the last ones, and the counts add
> up to those before them.

A command that MME refuses is prepared and never finishes
(`commands_unaccounted`), and one that is suppressed on halt counts as finished
before those in flight; the counts are words; a second marker drops the first;
and `DiscardDecodesUntil` outlives the counts, which start again with each
transformer. A run without these does what the queue does
(`commands_accounted`).
-/

namespace Duckbox.Codec

open Duckbox.Lib

/-- A 32-bit machine integer. -/
abbrev Word := BitVec 32

/-- A command that is sent; a decode is into a buffer. -/
inductive Command where
  | streamParameters
  | decode (bufferIndex : Nat)
deriving DecidableEq

/-- What is put in the output ring. -/
inductive Output where
  | frame (bufferIndex : Nat)
  | marker (buffer : Nat)
deriving DecidableEq

/-- The members of a buffer's state that its decodes use. -/
structure DecodeProgress where
  decodesInProgress : Nat
  outputOnDecodesComplete : Bool
deriving DecidableEq

/-- What `GetDecodeBuffer` and `Reset` leave. -/
def DecodeProgress.cleared : DecodeProgress := ⟨0, false⟩

/-- The members of `Codec_MmeBase_c` that its commands use, and the commands that
the transformer has. -/
structure MmeBase where
  commandPreparedCount : Word
  commandCompletedCount : Word
  commandAbortedCount : Word
  discardDecodesUntil : Word
  passOnMarkerBufferAt : Word
  markerBuffer : Option Nat
  halted : Bool
  bufferState : Nat → DecodeProgress
  inFlight : List Command
  outputRing : List Output
  /-- The buffers that were released for a discard. -/
  discarded : List Nat

/-- What happens to a codec. -/
inductive MmeEvent where
  /-- `SendMMEStreamParameters`; MME may refuse the command. -/
  | streamParameters (refused : Bool)
  /-- `GetDecodeBuffer`. -/
  | getDecodeBuffer (bufferIndex : Nat)
  /-- The end of `Input`, for a decode that is the last into its buffer, or not. -/
  | decode (bufferIndex : Nat) (last refused : Bool)
  /-- `SetOutputOnDecodesComplete`, with the test for immediate output. -/
  | setOutputOnDecodesComplete (bufferIndex : Nat)
  /-- The callback for the first command in flight; a transform may be incomplete. -/
  | callback (completed : Bool)
  /-- A marker frame, with the buffer that is obtained for it. -/
  | marker (buffer : Nat)
  | discardQueuedDecodes
  | halt
  /-- The end of `Halt`, `Reset`, and `RegisterOutputBufferRing`. -/
  | restart

namespace MmeBase

def created : MmeBase where
  commandPreparedCount := 0
  commandCompletedCount := 0
  commandAbortedCount := 0
  discardDecodesUntil := 0
  passOnMarkerBufferAt := 0
  markerBuffer := none
  halted := false
  bufferState _ := .cleared
  inFlight := []
  outputRing := []
  discarded := []

/-- `MMECommandAbortedCount + MMECommandCompletedCount`. -/
def finishedCount (s : MmeBase) : Word := s.commandAbortedCount + s.commandCompletedCount

def setProgress (s : MmeBase) (b : Nat) (progress : DecodeProgress) : MmeBase :=
  { s with bufferState := Function.update s.bufferState b progress }

theorem finishedCount_setProgress (s : MmeBase) (b : Nat) (progress : DecodeProgress) :
    (s.setProgress b progress).finishedCount = s.finishedCount := rfl

theorem discardDecodesUntil_setProgress (s : MmeBase) (b : Nat) (progress : DecodeProgress) :
    (s.setProgress b progress).discardDecodesUntil = s.discardDecodesUntil := rfl

/-- `SendMMEStreamParameters` and `SendMMEDecodeCommand`, whether they return no
error. -/
def send (s : MmeBase) (command : Command) (refused : Bool) : Bool × MmeBase :=
  let s := { s with commandPreparedCount := s.commandPreparedCount + 1 }
  if s.halted then (true, { s with commandAbortedCount := s.commandAbortedCount + 1 })
  else if refused then (false, s)
  else (true, { s with inFlight := s.inFlight ++ [command] })

/-- `ReleaseDecodeContext`, its part in the output of a decode in progress. -/
def releaseDecodeContext (s : MmeBase) (b : Nat) : MmeBase :=
  let progress :=
    { s.bufferState b with decodesInProgress := (s.bufferState b).decodesInProgress - 1 }
  let s := s.setProgress b progress
  if progress.outputOnDecodesComplete && progress.decodesInProgress == 0 then
    if s.finishedCount < s.discardDecodesUntil then { s with discarded := s.discarded ++ [b] }
    else { s with outputRing := s.outputRing ++ [.frame b] }
  else s

/-- `TestMarkerFramePassOn`. -/
def testMarkerFramePassOn (s : MmeBase) : MmeBase :=
  match s.markerBuffer with
  | none => s
  | some marker =>
    if s.passOnMarkerBufferAt ≤ s.finishedCount then
      { s with
        markerBuffer := none
        outputRing := s.outputRing ++ [.marker marker] }
    else s

/-- `CallbackFromMME`. -/
def callbackFromMME (s : MmeBase) (completed : Bool) : MmeBase :=
  match s.inFlight with
  | [] => s
  | .streamParameters :: rest =>
    testMarkerFramePassOn { s with
      inFlight := rest
      commandCompletedCount := s.commandCompletedCount + 1 }
  | .decode b :: rest =>
    if completed then
      let s := s.releaseDecodeContext b
      testMarkerFramePassOn { s with
        inFlight := rest
        commandCompletedCount := s.commandCompletedCount + 1 }
    else s.testMarkerFramePassOn

/-- `Input`, from where it updates the ongoing decode count. -/
def decode (s : MmeBase) (b : Nat) (last refused : Bool) : MmeBase :=
  let s := s.setProgress b ⟨(s.bufferState b).decodesInProgress + 1, last⟩
  let (sent, s) := s.send (.decode b) refused
  if sent then s else s.releaseDecodeContext b

/-- `SetOutputOnDecodesComplete`. -/
def setOutputOnDecodesComplete (s : MmeBase) (b : Nat) : MmeBase :=
  let s := s.setProgress b { s.bufferState b with outputOnDecodesComplete := true }
  if (s.bufferState b).decodesInProgress == 0 then
    { s with outputRing := s.outputRing ++ [.frame b] }
  else s

/-- `Input` of a marker frame; a marker that is held is dropped. -/
def marker (s : MmeBase) (buffer : Nat) : MmeBase :=
  testMarkerFramePassOn { s with
    passOnMarkerBufferAt := s.commandPreparedCount
    markerBuffer := some buffer }

def step (s : MmeBase) : MmeEvent → MmeBase
  | .streamParameters refused => (s.send .streamParameters refused).2
  | .getDecodeBuffer b => s.setProgress b .cleared
  | .decode b last refused => s.decode b last refused
  | .setOutputOnDecodesComplete b => s.setOutputOnDecodesComplete b
  | .callback completed => s.callbackFromMME completed
  | .marker buffer => s.marker buffer
  | .discardQueuedDecodes => { s with discardDecodesUntil := s.commandPreparedCount }
  | .halt => { s with halted := true }
  | .restart =>
    { s with
      commandPreparedCount := 0
      commandCompletedCount := 0
      commandAbortedCount := 0
      markerBuffer := none
      halted := false
      bufferState := fun _ => .cleared
      inFlight := [] }

end MmeBase

/-! ## The queue -/

/-- The commands in flight with their numbers, and the markers with the number of
commands before them. -/
structure Queue where
  prepared : Nat
  inFlight : List (Command × Nat)
  markers : List (Nat × Nat)
  discardBefore : Nat
  halted : Bool
  bufferState : Nat → DecodeProgress
  outputRing : List Output
  discarded : List Nat

namespace Queue

def created : Queue := ⟨0, [], [], 0, false, fun _ => .cleared, [], []⟩

def setProgress (q : Queue) (b : Nat) (progress : DecodeProgress) : Queue :=
  { q with bufferState := Function.update q.bufferState b progress }

theorem discardBefore_setProgress (q : Queue) (b : Nat) (progress : DecodeProgress) :
    (q.setProgress b progress).discardBefore = q.discardBefore := rfl

/-- No command before the marker is in flight. -/
def Reached (q : Queue) (marker : Nat × Nat) : Prop := ∀ c ∈ q.inFlight, marker.2 ≤ c.2

instance (q : Queue) (marker : Nat × Nat) : Decidable (q.Reached marker) :=
  inferInstanceAs (Decidable (∀ c ∈ q.inFlight, marker.2 ≤ c.2))

/-- The markers that are reached are passed on. -/
def passOn (q : Queue) : Queue :=
  { q with
    markers := q.markers.filter fun m => ¬ q.Reached m
    outputRing := q.outputRing ++ (q.markers.filter fun m => q.Reached m).map fun m =>
      .marker m.1 }

/-- A command is in flight, unless it is suppressed or refused. -/
def send (q : Queue) (command : Command) (refused : Bool) : Queue :=
  { q with
    prepared := q.prepared + 1
    inFlight :=
      if q.halted || refused then q.inFlight else q.inFlight ++ [(command, q.prepared)] }

/-- The decode of number `k` into a buffer is done. -/
def releaseDecodeContext (q : Queue) (k b : Nat) : Queue :=
  let progress :=
    { q.bufferState b with decodesInProgress := (q.bufferState b).decodesInProgress - 1 }
  let q := q.setProgress b progress
  if progress.outputOnDecodesComplete && progress.decodesInProgress == 0 then
    if k < q.discardBefore then { q with discarded := q.discarded ++ [b] }
    else { q with outputRing := q.outputRing ++ [.frame b] }
  else q

def callback (q : Queue) (completed : Bool) : Queue :=
  match q.inFlight with
  | [] => q
  | (.streamParameters, _) :: rest => { q with inFlight := rest }
  | (.decode b, k) :: rest =>
    if completed then { q.releaseDecodeContext k b with inFlight := rest } else q

def decode (q : Queue) (b : Nat) (last refused : Bool) : Queue :=
  let sent := (q.setProgress b ⟨(q.bufferState b).decodesInProgress + 1, last⟩).send (.decode b)
    refused
  if !q.halted && refused then sent.releaseDecodeContext q.prepared b else sent

def setOutputOnDecodesComplete (q : Queue) (b : Nat) : Queue :=
  let q := q.setProgress b { q.bufferState b with outputOnDecodesComplete := true }
  if (q.bufferState b).decodesInProgress == 0 then
    { q with outputRing := q.outputRing ++ [.frame b] }
  else q

def act (q : Queue) : MmeEvent → Queue
  | .streamParameters refused => q.send .streamParameters refused
  | .getDecodeBuffer b => q.setProgress b .cleared
  | .decode b last refused => q.decode b last refused
  | .setOutputOnDecodesComplete b => q.setOutputOnDecodesComplete b
  | .callback completed => q.callback completed
  | .marker buffer => { q with markers := q.markers ++ [(buffer, q.prepared)] }
  | .discardQueuedDecodes => { q with discardBefore := q.prepared }
  | .halt => { q with halted := true }
  | .restart =>
    { created with
      outputRing := q.outputRing
      discarded := q.discarded }

/-- An event, and what it lets pass. -/
def step (q : Queue) (e : MmeEvent) : Queue := (q.act e).passOn

end Queue

/-! ## The counts are those of the queue -/

namespace MmeBase

/-- How many commands have finished. -/
def finished (s : MmeBase) : Nat :=
  s.commandCompletedCount.toNat + s.commandAbortedCount.toNat

/-- The counts add up to the number of the first command in flight. -/
structure Counted (s : MmeBase) (q : Queue) : Prop where
  prepared : s.commandPreparedCount = BitVec.ofNat 32 q.prepared
  prepared_lt : q.prepared < 2 ^ 32
  counts : s.finished + s.inFlight.length = q.prepared
  inFlight : q.inFlight = s.inFlight.zipIdx s.finished
  markers : q.markers = s.markerBuffer.toList.map fun m => (m, s.passOnMarkerBufferAt.toNat)
  marker_le : s.markerBuffer ≠ none → s.passOnMarkerBufferAt.toNat ≤ q.prepared
  discard : q.discardBefore = s.discardDecodesUntil.toNat
  halted : q.halted = s.halted
  bufferState : q.bufferState = s.bufferState
  outputRing : q.outputRing = s.outputRing
  discarded : q.discarded = s.discarded

/-- A marker that is held is held back. -/
def Waiting (s : MmeBase) : Prop :=
  s.markerBuffer ≠ none → s.finished < s.passOnMarkerBufferAt.toNat

/-- The codec between events. -/
structure Accounted (s : MmeBase) (q : Queue) : Prop where
  counted : s.Counted q
  waiting : s.Waiting

variable {s : MmeBase} {q : Queue} {b : Nat}

theorem Counted.finishedCount (h : s.Counted q) : s.finishedCount.toNat = s.finished := by
  have hcounts := h.counts
  have hlt := h.prepared_lt
  unfold MmeBase.finished at *
  unfold MmeBase.finishedCount
  rw [BitVec.toNat_add]
  omega

theorem Counted.reached_iff (h : s.Counted q) {m : Nat} (hm : s.markerBuffer = some m) :
    q.Reached (m, s.passOnMarkerBufferAt.toNat) ↔ s.passOnMarkerBufferAt.toNat ≤ s.finished := by
  have hcounts := h.counts
  have hle := h.marker_le (by rw [hm]; exact Option.some_ne_none m)
  unfold Queue.Reached
  rw [h.inFlight]
  constructor
  · intro hall
    cases hflight : s.inFlight with
    | nil =>
      rw [hflight, List.length_nil] at hcounts
      omega
    | cons c rest =>
      rw [hflight, List.zipIdx_cons] at hall
      exact hall (c, s.finished) List.mem_cons_self
  · intro hge c hc
    have hstart := List.le_snd_of_mem_zipIdx hc
    show s.passOnMarkerBufferAt.toNat ≤ c.2
    omega

theorem Accounted.passOn_eq (h : s.Accounted q) : q.passOn = q := by
  have hmarkers := h.counted.markers
  have hnone : ∀ m ∈ q.markers, ¬ q.Reached m := by
    intro m hm
    rw [hmarkers] at hm
    cases hheld : s.markerBuffer with
    | none => rw [hheld] at hm; cases hm
    | some held =>
      rw [hheld] at hm
      obtain rfl := List.mem_singleton.mp hm
      rw [h.counted.reached_iff hheld]
      have hwait := h.waiting (by rw [hheld]; exact Option.some_ne_none held)
      omega
  unfold Queue.passOn
  rw [List.filter_eq_self.mpr (by simpa using hnone), List.filter_eq_nil_iff.mpr (by simpa using hnone)]
  simp

theorem Accounted.passOn (h : s.Accounted q) : s.Accounted q.passOn := by
  rw [h.passOn_eq]
  exact h

theorem Counted.testMarkerFramePassOn (h : s.Counted q) :
    s.testMarkerFramePassOn.Accounted q.passOn := by
  cases hheld : s.markerBuffer with
  | none =>
    have hwaiting : s.Waiting := fun hne => absurd hheld hne
    have htest : s.testMarkerFramePassOn = s := by
      unfold MmeBase.testMarkerFramePassOn
      rw [hheld]
    rw [htest, Accounted.passOn_eq ⟨h, hwaiting⟩]
    exact ⟨h, hwaiting⟩
  | some m =>
    have hreached := h.reached_iff hheld
    have hfinished := h.finishedCount
    by_cases hle : s.passOnMarkerBufferAt ≤ s.finishedCount
    · have htest : s.testMarkerFramePassOn = { s with
          markerBuffer := none
          outputRing := s.outputRing ++ [.marker m] } := by
        unfold MmeBase.testMarkerFramePassOn
        rw [hheld]
        exact if_pos hle
      have hpassed : q.Reached (m, s.passOnMarkerBufferAt.toNat) := by
        rw [hreached, ← hfinished]
        exact hle
      have hqueue : q.passOn = { q with
          markers := []
          outputRing := s.outputRing ++ [.marker m] } := by
        unfold Queue.passOn
        rw [h.markers, hheld, h.outputRing]
        simp [hpassed]
      rw [htest, hqueue]
      exact ⟨⟨h.prepared, h.prepared_lt, h.counts, h.inFlight, rfl, (absurd rfl ·), h.discard,
        h.halted, h.bufferState, rfl, h.discarded⟩, (absurd rfl ·)⟩
    · have hwaiting : s.Waiting := by
        intro _
        rw [← hfinished]
        exact Nat.lt_of_not_le hle
      have htest : s.testMarkerFramePassOn = s := by
        unfold MmeBase.testMarkerFramePassOn
        rw [hheld]
        exact if_neg hle
      rw [htest, Accounted.passOn_eq ⟨h, hwaiting⟩]
      exact ⟨h, hwaiting⟩

theorem Counted.setProgress (h : s.Counted q) (progress : DecodeProgress) :
    (s.setProgress b progress).Counted (q.setProgress b progress) := by
  refine ⟨h.prepared, h.prepared_lt, h.counts, h.inFlight, h.markers, h.marker_le, h.discard,
    h.halted, ?_, h.outputRing, h.discarded⟩
  show Function.update q.bufferState b progress = Function.update s.bufferState b progress
  rw [h.bufferState]

theorem Counted.output (h : s.Counted q) (output : Output) :
    { s with outputRing := s.outputRing ++ [output] }.Counted
      { q with outputRing := q.outputRing ++ [output] } := by
  refine ⟨h.prepared, h.prepared_lt, h.counts, h.inFlight, h.markers, h.marker_le, h.discard,
    h.halted, h.bufferState, ?_, h.discarded⟩
  show q.outputRing ++ [output] = s.outputRing ++ [output]
  rw [h.outputRing]

theorem Counted.release (h : s.Counted q) :
    { s with discarded := s.discarded ++ [b] }.Counted
      { q with discarded := q.discarded ++ [b] } := by
  refine ⟨h.prepared, h.prepared_lt, h.counts, h.inFlight, h.markers, h.marker_le, h.discard,
    h.halted, h.bufferState, h.outputRing, ?_⟩
  show q.discarded ++ [b] = s.discarded ++ [b]
  rw [h.discarded]

theorem Counted.releaseDecodeContext (h : s.Counted q) :
    (s.releaseDecodeContext b).Counted (q.releaseDecodeContext s.finished b) := by
  have hdiscard : s.finishedCount < s.discardDecodesUntil ↔ s.finished < q.discardBefore := by
    rw [BitVec.lt_def, h.finishedCount, h.discard]
  unfold MmeBase.releaseDecodeContext Queue.releaseDecodeContext
  rw [h.bufferState]
  dsimp only
  have hset := h.setProgress (b := b)
    { s.bufferState b with decodesInProgress := (s.bufferState b).decodesInProgress - 1 }
  rw [finishedCount_setProgress, discardDecodesUntil_setProgress, Queue.discardBefore_setProgress]
  split
  · by_cases hlt : s.finished < q.discardBefore
    · rw [if_pos hlt, if_pos (hdiscard.mpr hlt)]
      exact hset.release
    · rw [if_neg hlt, if_neg (fun hc => hlt (hdiscard.mp hc))]
      exact hset.output (.frame b)
  · exact hset

/-- What the counts need of a command: that they do not wrap, that MME takes it,
and that none is in flight when it is suppressed. -/
def Sends (s : MmeBase) (refused : Bool) : Prop :=
  s.commandPreparedCount.toNat + 1 < 2 ^ 32 ∧
    if s.halted then s.inFlight = [] else refused = false

instance (s : MmeBase) (refused : Bool) : Decidable (s.Sends refused) :=
  inferInstanceAs (Decidable (_ ∧ if s.halted then s.inFlight = [] else refused = false))

theorem toNat_succ {x : Word} (h : x.toNat + 1 < 2 ^ 32) : (x + 1).toNat = x.toNat + 1 := by
  rw [BitVec.toNat_add]
  exact Nat.mod_eq_of_lt h

theorem Accounted.send (h : s.Accounted q) {refused : Bool} (hsends : s.Sends refused)
    (command : Command) : (s.send command refused).1 = true ∧
      (s.send command refused).2.Accounted (q.send command refused) := by
  obtain ⟨hroom, hsends⟩ := hsends
  obtain ⟨hc, hwaiting⟩ := h
  have hcounts := hc.counts
  have hlt := hc.prepared_lt
  have hprepared : s.commandPreparedCount.toNat = q.prepared := by
    rw [hc.prepared, BitVec.toNat_ofNat, Nat.mod_eq_of_lt hlt]
  have hnext : s.commandPreparedCount + 1 = BitVec.ofNat 32 (q.prepared + 1) := by
    rw [hc.prepared, BitVec.ofNat_add]
    rfl
  have hmarker : ∀ hne : s.markerBuffer ≠ none,
      s.passOnMarkerBufferAt.toNat ≤ q.prepared + 1 := fun hne =>
    Nat.le_succ_of_le (hc.marker_le hne)
  unfold MmeBase.send Queue.send
  rw [hc.halted]
  cases hhalted : s.halted with
  | true =>
    rw [hhalted, if_pos rfl] at hsends
    -- with nothing in flight no marker waits
    have hnone : s.markerBuffer = none := by
      by_contra hne
      have hle := hc.marker_le hne
      have hwait := hwaiting hne
      rw [hsends, List.length_nil] at hcounts
      omega
    have haborted : (s.commandAbortedCount + 1).toNat = s.commandAbortedCount.toNat + 1 := by
      refine toNat_succ ?_
      unfold finished at hcounts
      omega
    refine ⟨rfl, ⟨hnext, by show q.prepared + 1 < 2 ^ 32; omega, ?_, ?_, hc.markers, hmarker,
      hc.discard, rfl, hc.bufferState, hc.outputRing, hc.discarded⟩,
      fun hne => absurd hnone hne⟩
    · show s.commandCompletedCount.toNat + (s.commandAbortedCount + 1).toNat + s.inFlight.length
        = q.prepared + 1
      unfold finished at hcounts
      omega
    · simp [hc.inFlight, hsends]
  | false =>
    rw [hhalted] at hsends
    obtain rfl : refused = false := hsends
    refine ⟨rfl, ⟨hnext, by show q.prepared + 1 < 2 ^ 32; omega, ?_, ?_, hc.markers, hmarker,
      hc.discard, rfl, hc.bufferState, hc.outputRing, hc.discarded⟩, hwaiting⟩
    · show s.finished + (s.inFlight ++ [command]).length = q.prepared + 1
      rw [List.length_append, List.length_singleton]
      omega
    · show q.inFlight ++ [(command, q.prepared)] = (s.inFlight ++ [command]).zipIdx s.finished
      rw [List.zipIdx_append, hc.inFlight, ← hcounts]
      rfl

theorem Counted.complete {t : MmeBase} {r : Queue} (h : t.Counted r) {c : Command × Nat}
    {rest : List Command} (hflight : t.inFlight = c.1 :: rest) :
    { t with
      inFlight := rest
      commandCompletedCount := t.commandCompletedCount + 1 }.Counted
      { r with inFlight := r.inFlight.tail } := by
  have hcounts := h.counts
  have hlt := h.prepared_lt
  rw [hflight, List.length_cons] at hcounts
  have hcompleted : (t.commandCompletedCount + 1).toNat = t.commandCompletedCount.toNat + 1 := by
    refine toNat_succ ?_
    unfold finished at hcounts
    omega
  have hfinished : ∀ rest : List Command, ({ t with
      inFlight := rest
      commandCompletedCount := t.commandCompletedCount + 1 } : MmeBase).finished
        = t.finished + 1 := by
    intro rest
    unfold finished
    dsimp only
    omega
  refine ⟨h.prepared, hlt, ?_, ?_, h.markers, h.marker_le, h.discard, h.halted, h.bufferState,
    h.outputRing, h.discarded⟩
  · rw [hfinished]
    show t.finished + 1 + rest.length = r.prepared
    omega
  · rw [hfinished]
    show r.inFlight.tail = rest.zipIdx (t.finished + 1)
    rw [h.inFlight, hflight, List.zipIdx_cons]
    rfl

theorem inFlight_releaseDecodeContext (s : MmeBase) (b : Nat) :
    (s.releaseDecodeContext b).inFlight = s.inFlight := by
  unfold MmeBase.releaseDecodeContext
  dsimp only
  split
  · split <;> rfl
  · rfl

theorem Queue.inFlight_releaseDecodeContext (q : Queue) (k b : Nat) :
    (q.releaseDecodeContext k b).inFlight = q.inFlight := by
  unfold Queue.releaseDecodeContext
  dsimp only
  split
  · split <;> rfl
  · rfl

theorem Accounted.callback (h : s.Accounted q) (completed : Bool) :
    (s.callbackFromMME completed).Accounted (q.callback completed).passOn := by
  have hc := h.counted
  unfold MmeBase.callbackFromMME Queue.callback
  rw [hc.inFlight]
  cases hflight : s.inFlight with
  | nil =>
    dsimp only [List.zipIdx_nil]
    rw [h.passOn_eq]
    exact h
  | cons c rest =>
    rw [List.zipIdx_cons]
    have htail : q.inFlight.tail = rest.zipIdx (s.finished + 1) := by
      rw [hc.inFlight, hflight, List.zipIdx_cons]
      rfl
    cases c with
    | streamParameters =>
      dsimp only
      rw [← htail]
      exact (hc.complete (c := (.streamParameters, s.finished)) hflight).testMarkerFramePassOn
    | decode b =>
      cases completed with
      | true =>
        dsimp only
        rw [if_pos rfl, if_pos rfl, ← htail,
          ← Queue.inFlight_releaseDecodeContext q s.finished b]
        refine (hc.releaseDecodeContext.complete (c := (.decode b, s.finished))
          ?_).testMarkerFramePassOn
        rw [inFlight_releaseDecodeContext]
        exact hflight
      | false =>
        dsimp only
        exact hc.testMarkerFramePassOn

theorem Accounted.decode (h : s.Accounted q) {refused : Bool} (hsends : s.Sends refused)
    (last : Bool) : (s.decode b last refused).Accounted (q.decode b last refused) := by
  have hset : (s.setProgress b ⟨(s.bufferState b).decodesInProgress + 1, last⟩).Accounted
      (q.setProgress b ⟨(q.bufferState b).decodesInProgress + 1, last⟩) := by
    rw [h.counted.bufferState]
    exact ⟨h.counted.setProgress _, h.waiting⟩
  obtain ⟨hsent, hnext⟩ := hset.send hsends (.decode b)
  have hnone : (!q.halted && refused) = false := by
    have hrefused := hsends.2
    rw [h.counted.halted]
    cases hhalted : s.halted with
    | true => rfl
    | false =>
      rw [hhalted] at hrefused
      exact hrefused
  unfold MmeBase.decode Queue.decode
  rw [hnone]
  dsimp only
  rw [hsent]
  exact hnext

theorem Accounted.setOutputOnDecodesComplete (h : s.Accounted q) :
    (s.setOutputOnDecodesComplete b).Accounted (q.setOutputOnDecodesComplete b) := by
  have hc := h.counted
  have hset := hc.setProgress (b := b) { s.bufferState b with outputOnDecodesComplete := true }
  have hsame : ((q.setProgress b
      { s.bufferState b with outputOnDecodesComplete := true }).bufferState b).decodesInProgress
      = ((s.setProgress b
        { s.bufferState b with outputOnDecodesComplete := true }).bufferState b).decodesInProgress := by
    rw [hset.bufferState]
  unfold MmeBase.setOutputOnDecodesComplete Queue.setOutputOnDecodesComplete
  rw [hc.bufferState]
  dsimp only
  rw [hsame]
  split
  · exact ⟨hset.output (.frame b), h.waiting⟩
  · exact ⟨hset, h.waiting⟩

/-! ## Runs -/

/-- What the counts need: of a command, that it is sent or suppressed with nothing
in flight; of a marker, that none is held; of a restart, that nothing was to be
discarded. -/
def Ok (s : MmeBase) : MmeEvent → Prop
  | .streamParameters refused => s.Sends refused
  | .decode _ _ refused => s.Sends refused
  | .marker _ => s.markerBuffer = none
  | .restart => s.discardDecodesUntil = 0
  | _ => True

theorem Accounted.step (h : s.Accounted q) {e : MmeEvent} (hok : s.Ok e) :
    (s.step e).Accounted (q.step e) := by
  have hc := h.counted
  cases e with
  | streamParameters refused => exact (h.send hok .streamParameters).2.passOn
  | getDecodeBuffer b =>
    exact Accounted.passOn (s := s.setProgress b .cleared) (q := q.setProgress b .cleared)
      ⟨hc.setProgress _, h.waiting⟩
  | decode b last refused => exact (h.decode hok last).passOn
  | setOutputOnDecodesComplete b => exact h.setOutputOnDecodesComplete.passOn
  | callback completed => exact h.callback completed
  | marker buffer =>
    have hprepared : s.commandPreparedCount.toNat = q.prepared := by
      rw [hc.prepared, BitVec.toNat_ofNat, Nat.mod_eq_of_lt hc.prepared_lt]
    have hnone : s.markerBuffer = none := hok
    have hmarkers : q.markers ++ [(buffer, q.prepared)]
        = [(buffer, s.commandPreparedCount.toNat)] := by
      rw [hc.markers, hnone, hprepared]
      rfl
    exact Counted.testMarkerFramePassOn
      (s := { s with
        passOnMarkerBufferAt := s.commandPreparedCount
        markerBuffer := some buffer })
      (q := { q with markers := q.markers ++ [(buffer, q.prepared)] })
      ⟨hc.prepared, hc.prepared_lt, hc.counts, hc.inFlight, hmarkers,
        fun _ => Nat.le_of_eq hprepared, hc.discard, hc.halted, hc.bufferState, hc.outputRing,
        hc.discarded⟩
  | discardQueuedDecodes =>
    have hprepared : q.prepared = s.commandPreparedCount.toNat := by
      rw [hc.prepared, BitVec.toNat_ofNat, Nat.mod_eq_of_lt hc.prepared_lt]
    exact Accounted.passOn
      (s := { s with discardDecodesUntil := s.commandPreparedCount })
      (q := { q with discardBefore := q.prepared })
      ⟨⟨hc.prepared, hc.prepared_lt, hc.counts, hc.inFlight, hc.markers, hc.marker_le, hprepared,
        hc.halted, hc.bufferState, hc.outputRing, hc.discarded⟩, h.waiting⟩
  | halt =>
    exact Accounted.passOn
      (s := { s with halted := true })
      (q := { q with halted := true })
      ⟨⟨hc.prepared, hc.prepared_lt, hc.counts, hc.inFlight, hc.markers, hc.marker_le, hc.discard,
        rfl, hc.bufferState, hc.outputRing, hc.discarded⟩, h.waiting⟩
  | restart =>
    have hzero : s.discardDecodesUntil = 0 := hok
    have hdiscard : 0 = s.discardDecodesUntil.toNat := by
      rw [hzero]
      rfl
    exact Accounted.passOn (s := s.step .restart) (q := q.act .restart)
      ⟨⟨rfl, Nat.two_pow_pos 32, rfl, rfl, rfl, (absurd rfl ·), hdiscard, rfl, rfl, hc.outputRing,
        hc.discarded⟩, (absurd rfl ·)⟩

theorem run_accounted (events : List MmeEvent) :
    ∀ {s : MmeBase} {q : Queue}, s.Accounted q → Along step Ok s events →
      (events.foldl step s).Accounted (events.foldl Queue.step q) := by
  induction events with
  | nil => intro s q h _; exact h
  | cons e events ih => intro s q h hok; exact ih (h.step hok.1) hok.2

/-- **The counts add up, and the codec does what the queue does**, in every run in
which MME takes every command that is not suppressed, none is suppressed while
others are in flight, no marker follows another that is held, nothing was to be
discarded before a restart, and the counts do not wrap. -/
theorem commands_accounted {events : List MmeEvent} (hok : Along step Ok created events) :
    let s := events.foldl step created
    let q := events.foldl Queue.step Queue.created
    s.commandPreparedCount.toNat
        = s.commandCompletedCount.toNat + s.commandAbortedCount.toNat + s.inFlight.length ∧
      s.inFlight = q.inFlight.map (·.1) ∧ s.markerBuffer.toList = q.markers.map (·.1) ∧
      s.outputRing = q.outputRing ∧ s.discarded = q.discarded := by
  have hcreated : created.Accounted Queue.created :=
    ⟨⟨rfl, Nat.two_pow_pos 32, rfl, rfl, rfl, (absurd rfl ·), rfl, rfl, rfl, rfl, rfl⟩,
      (absurd rfl ·)⟩
  obtain ⟨hc, -⟩ := run_accounted events hcreated hok
  refine ⟨?_, ?_, ?_, hc.outputRing.symm, hc.discarded.symm⟩
  · rw [hc.prepared, BitVec.toNat_ofNat, Nat.mod_eq_of_lt hc.prepared_lt]
    exact hc.counts.symm
  · rw [hc.inFlight, List.zipIdx_map_fst]
  · rw [hc.markers, List.map_map]
    exact (List.map_id _).symm

instance (s : MmeBase) : ∀ e, Decidable (s.Ok e)
  | .streamParameters refused => inferInstanceAs (Decidable (s.Sends refused))
  | .decode _ _ refused => inferInstanceAs (Decidable (s.Sends refused))
  | .marker _ => inferInstanceAs (Decidable (s.markerBuffer = none))
  | .restart => inferInstanceAs (Decidable (s.discardDecodesUntil = 0))
  | .getDecodeBuffer _ => inferInstanceAs (Decidable True)
  | .setOutputOnDecodesComplete _ => inferInstanceAs (Decidable True)
  | .callback _ => inferInstanceAs (Decidable True)
  | .discardQueuedDecodes => inferInstanceAs (Decidable True)
  | .halt => inferInstanceAs (Decidable True)

/-- Two frames, the first discarded, and a marker behind both. -/
theorem commands_accounted_frames :
    let events := [.streamParameters false, .getDecodeBuffer 0, .decode 0 true false,
      .discardQueuedDecodes, .getDecodeBuffer 1, .decode 1 true false, .marker 2,
      .callback true, .callback true, .callback true]
    let s := events.foldl step created
    let q := events.foldl Queue.step Queue.created
    s.commandPreparedCount.toNat
        = s.commandCompletedCount.toNat + s.commandAbortedCount.toNat + s.inFlight.length ∧
      s.inFlight = q.inFlight.map (·.1) ∧ s.markerBuffer.toList = q.markers.map (·.1) ∧
      s.outputRing = q.outputRing ∧ s.discarded = q.discarded :=
  commands_accounted (by decide)

/-- Stream parameters are refused, and the marker behind them is held though
nothing is in flight. -/
theorem commands_unaccounted :
    let events := [.streamParameters true, .marker 0]
    let s := events.foldl step created
    let q := events.foldl Queue.step Queue.created
    s.commandPreparedCount.toNat
        ≠ s.commandCompletedCount.toNat + s.commandAbortedCount.toNat + s.inFlight.length ∧
      s.markerBuffer = some 0 ∧ s.inFlight = [] ∧ q.outputRing = [.marker 0] := by
  decide

end MmeBase

end Duckbox.Codec
