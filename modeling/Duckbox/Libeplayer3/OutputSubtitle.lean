import Duckbox.Lib.Circular
import Duckbox.Lib.Fifo

/-!
# The subtitle queue

`addSub` and `getNextSub` of the player library's subtitle output: a ring of
`PUFFERSIZE` subtitles, where an entry is free if its text is `NULL`. The producer looks
at the entry it is to write without the mutex, and waits for it to be free no more than
20 times; then it frees the whole ring and begins at the front. What is between
`getMutex` and `releaseMutex` is one step, but for the consumer's: the producer may see
that it has taken the text before it has moved on.

Memory does not run out.

> `delivers_in_order`: each call of `addSub` adds its subtitle, or finds the ring full and no
> playback; what is returned was added, in that order, and none is lost but where the whole
> ring is given up.
-/

namespace Duckbox.Libeplayer3.OutputSubtitle

open Lib (FifoEvent Stored deliver nextCell run)
open Lib.FifoEvent (adds returns)

/-- `PUFFERSIZE`. -/
def pufferSize : Nat := 20

/-- What a text pointer points at. -/
abbrev Text := List (BitVec 8)

/-- `struct sub_t`. -/
structure Sub where
  text : Option Text
  pts : BitVec 64
  milliDuration : BitVec 32
deriving DecidableEq

/-- A subtitle that is added. -/
structure Subtitle where
  text : Text
  pts : BitVec 64
  milliDuration : BitVec 32
deriving DecidableEq

/-- An entry that is free. -/
def Sub.empty : Sub := ⟨none, 0, 0⟩

/-- The entry of a subtitle. -/
def Subtitle.entry (sub : Subtitle) : Sub := ⟨some sub.text, sub.pts, sub.milliDuration⟩

/-- The subtitle of an entry. -/
def Sub.subtitle (entry : Sub) : Option Subtitle :=
  entry.text.map fun text => ⟨text, entry.pts, entry.milliDuration⟩

/-- Where `addSub` is: in its loop, or in front of the mutex; with its `count`. -/
inductive Producer where
  | idle
  | waiting (sub : Subtitle) (count : Nat)
  | locking (sub : Subtitle) (count : Nat)

/-- Where `getNextSub` is: it may have the mutex, and have taken the text. -/
inductive Consumer where
  | idle
  | taken (text : Text)

structure Queue where
  subPuffer : Nat → Sub
  readPointer : Nat
  writePointer : Nat
  producer : Producer
  consumer : Consumer

namespace Queue

/-- "Reset all". -/
def resetAll (s : Queue) : Queue :=
  { s with subPuffer := fun _ => .empty, readPointer := 0, writePointer := 0 }

def init : Queue := ⟨fun _ => .empty, 0, 0, .idle, .idle⟩

/-- `addSub` up to its loop; `playing` is `isPlaying` where there is a playback. -/
def addSub (s : Queue) (playing : Bool) (text : Option Text) (pts : BitVec 64)
    (milliDuration : BitVec 32) : Queue :=
  if !playing then s
  else
    match text with
    | none => s
    | some text =>
      if pts = 0 ∨ milliDuration = 0 then s
      else { s with producer := .waiting ⟨text, pts, milliDuration⟩ 20 }

/-- The loop's test, and its body. -/
def poll (s : Queue) (playing : Bool) (sub : Subtitle) (count : Nat) : Queue :=
  if (s.subPuffer s.writePointer).text = none then { s with producer := .locking sub count }
  else if !playing then { s with producer := .idle }
  else if count - 1 = 0 then { s with producer := .locking sub 0 }
  else { s with producer := .waiting sub (count - 1) }

/-- The entry is written and the index moves on. -/
def write (s : Queue) (sub : Subtitle) : Queue :=
  { s with
    subPuffer := Function.update s.subPuffer s.writePointer sub.entry
    writePointer := nextCell pufferSize s.writePointer
    producer := .idle }

/-- `addSub` with the mutex. -/
def commit (s : Queue) (sub : Subtitle) (count : Nat) : Queue × List (FifoEvent Subtitle) :=
  if count = 0 then (s.resetAll.write sub, [.reset, .added sub])
  else (s.write sub, [.added sub])

/-- `getNextSub` up to where the text is taken. -/
def getNextSub (s : Queue) (text : Bool) : Queue :=
  if !text then s
  else
    match (s.subPuffer s.readPointer).text with
    | none => s
    | some text =>
      { s with
        subPuffer := Function.update s.subPuffer s.readPointer
          { s.subPuffer s.readPointer with text := none }
        consumer := .taken text }

/-- The rest of `getNextSub`. -/
def moveOn (s : Queue) (text : Text) : Queue × List (FifoEvent Subtitle) :=
  ({ s with
      subPuffer := Function.update s.subPuffer s.readPointer
        { s.subPuffer s.readPointer with pts := 0, milliDuration := 0 }
      readPointer := nextCell pufferSize s.readPointer
      consumer := .idle },
    [.returned ⟨text, (s.subPuffer s.readPointer).pts, (s.subPuffer s.readPointer).milliDuration⟩])

inductive Event where
  | addSub (playing : Bool) (text : Option Text) (pts : BitVec 64) (milliDuration : BitVec 32)
  | producer (playing : Bool)
  | getNextSub (text : Bool)
  | consumer
  | reset

/-- A step of the producer's call, which waits in front of the mutex while the consumer has it. -/
def produce (s : Queue) (playing : Bool) : Queue × List (FifoEvent Subtitle) :=
  match s.producer, s.consumer with
  | .waiting sub count, _ => (s.poll playing sub count, [])
  | .locking sub count, .idle => s.commit sub count
  | .locking _ _, .taken _ => (s, [])
  | .idle, _ => (s, [])

/-- One step. No call begins before the last one of that thread has ended; `reset` is what
`subtitle_Open`, `subtitle_Stop` and `subtitle_Close` do. -/
def step (s : Queue) : Event → Queue × List (FifoEvent Subtitle)
  | .addSub playing text pts milliDuration =>
    match s.producer with
    | .idle => (s.addSub playing text pts milliDuration, [])
    | .waiting _ _ | .locking _ _ => (s, [])
  | .producer playing => s.produce playing
  | .getNextSub text =>
    match s.consumer with
    | .idle => (s.getNextSub text, [])
    | .taken _ => (s, [])
  | .consumer =>
    match s.consumer with
    | .idle => (s, [])
    | .taken text => s.moveOn text
  | .reset =>
    match s.consumer with
    | .idle => (s.resetAll, [.reset])
    | .taken _ => (s, [])

/-- The state after a run, and what has been added and returned. -/
def steps (s : Queue) : List Event → Queue × List (FifoEvent Subtitle)
  | [] => (s, [])
  | event :: events =>
    let next := s.step event
    let last := next.1.steps events
    (last.1, next.2 ++ last.2)

/-! ## The calls of the producer -/

/-- What a call of `addSub` is to add: there are playback, a text, a time and a duration. -/
def Event.subtitle : Event → Option Subtitle
  | .addSub true (some text) pts milliDuration =>
    if pts = 0 ∨ milliDuration = 0 then none else some ⟨text, pts, milliDuration⟩
  | _ => none

/-- The subtitle of the call in progress. -/
def pending (s : Queue) : List Subtitle :=
  match s.producer with
  | .idle => []
  | .waiting sub _ | .locking sub _ => [sub]

/-- The subtitle of the call that begins. -/
def begun (s : Queue) (event : Event) : List Subtitle :=
  match s.producer with
  | .idle => event.subtitle.toList
  | .waiting _ _ | .locking _ _ => []

/-- The subtitle that is given up: the loop finds the entry in use, and no playback. -/
def givenUp (s : Queue) : Event → List Subtitle
  | .producer false =>
    match s.producer with
    | .waiting sub _ => if (s.subPuffer s.writePointer).text = none then [] else [sub]
    | .idle | .locking _ _ => []
  | _ => []

/-- What is found of each event of a run, in the state it comes in. -/
def along (find : Queue → Event → List Subtitle) : Queue → List Event → List Subtitle
  | _, [] => []
  | s, event :: events => find s event ++ along find (s.step event).1 events

/-! ## What waits to be read -/

/-- The ring with the text that the consumer has just taken. -/
def restored (s : Queue) : Nat → Sub :=
  match s.consumer with
  | .idle => s.subPuffer
  | .taken text =>
    Function.update s.subPuffer s.readPointer { s.subPuffer s.readPointer with text := some text }

/-- The subtitles that have not been returned, from the read pointer on. -/
def unread (s : Queue) : List Subtitle :=
  (List.range pufferSize).filterMap fun k =>
    (s.restored ((s.readPointer + k) % pufferSize)).subtitle

/-- The ring that holds these. -/
def entries (waiting : List Subtitle) : List Sub :=
  waiting.map Subtitle.entry ++ List.replicate (pufferSize - waiting.length) .empty

/-- The ring holds the subtitles that wait, and nothing else. -/
structure Holds (s : Queue) (waiting : List Subtitle) : Prop where
  room : waiting.length ≤ pufferSize
  first : s.readPointer < pufferSize
  last : s.writePointer = (s.readPointer + waiting.length) % pufferSize
  ring : Stored s.restored pufferSize s.readPointer (entries waiting)
  taken : ∀ text, s.consumer = .taken text → (s.subPuffer s.readPointer).text = none
  free : ∀ sub count, s.producer = .locking sub count → s.consumer = .idle → count ≠ 0 →
    waiting.length < pufferSize

section

variable {s : Queue} {waiting : List Subtitle}

theorem entries_length (h : waiting.length ≤ pufferSize) : (entries waiting).length = pufferSize := by
  unfold entries
  rw [List.length_append, List.length_map, List.length_replicate]
  omega

theorem stored_entries_nil (first : Nat) :
    Stored (fun _ => Sub.empty) pufferSize first (entries []) := by
  intro k hk
  exact (List.eq_of_mem_replicate (List.getElem_mem hk)).symm

theorem nextCell_eq_mod {limit i : Nat} (h : i < limit) : nextCell limit i = (i + 1) % limit := by
  unfold nextCell
  split
  · next heq => rw [heq, Nat.mod_self]
  · next hne => exact (Nat.mod_eq_of_lt (by omega)).symm

theorem entries_cons (sub : Subtitle) (rest : List Subtitle) :
    entries (sub :: rest) = sub.entry :: (rest.map Subtitle.entry ++
      List.replicate (pufferSize - (rest.length + 1)) .empty) := rfl

theorem entries_concat (h : waiting.length < pufferSize) (sub : Subtitle) :
    (entries waiting).set waiting.length sub.entry = entries (waiting ++ [sub]) := by
  unfold entries
  obtain ⟨left, hleft⟩ := Nat.exists_eq_add_of_lt h
  have hfree : pufferSize - waiting.length = left + 1 := by omega
  have hfree' : pufferSize - (waiting ++ [sub]).length = left := by
    rw [List.length_append, List.length_singleton]
    omega
  rw [hfree, hfree', List.set_append_right _ _ (by simp), List.map_append, List.append_assoc]
  simp [List.replicate_succ]

theorem entries_tail {sub : Subtitle} {rest : List Subtitle}
    (h : (sub :: rest).length ≤ pufferSize) :
    entries rest = (rest.map Subtitle.entry ++
      List.replicate (pufferSize - (rest.length + 1)) .empty) ++ [.empty] := by
  rw [List.length_cons] at h
  have hfree : pufferSize - rest.length = pufferSize - (rest.length + 1) + 1 := by omega
  unfold entries
  rw [hfree, List.replicate_succ', List.append_assoc]

theorem init_holds : init.Holds [] where
  room := Nat.zero_le _
  first := by decide
  last := rfl
  ring := stored_entries_nil 0
  taken := fun _ h => by cases h
  free := fun _ _ h => by cases h

theorem Holds.unread (h : s.Holds waiting) : s.unread = waiting := by
  have hlength := entries_length h.room
  have hread := h.ring.map_range
  rw [hlength] at hread
  have hall : s.unread = (entries waiting).filterMap Sub.subtitle := by
    rw [← hread, List.filterMap_map]
    rfl
  rw [hall]
  unfold entries
  have hentry : Sub.subtitle ∘ Subtitle.entry = some := rfl
  have hempty : ∀ n, (List.replicate n Sub.empty).filterMap Sub.subtitle = [] := by
    intro n
    exact List.filterMap_eq_nil_iff.mpr fun a ha => by rw [List.eq_of_mem_replicate ha]; rfl
  rw [List.filterMap_append, List.filterMap_map, hentry, hempty, List.filterMap_some, List.append_nil]

theorem Holds.room_of_free (h : s.Holds waiting) (hidle : s.consumer = .idle)
    (hfree : (s.subPuffer s.writePointer).text = none) : waiting.length < pufferSize := by
  refine Nat.lt_of_le_of_ne h.room fun hfull => ?_
  cases hwaiting : waiting with
  | nil =>
    rw [hwaiting] at hfull
    exact absurd hfull (by decide)
  | cons sub rest =>
    have hring := h.ring
    have hrestored : s.restored = s.subPuffer := by
      unfold restored
      rw [hidle]
    -- the write pointer is at the first that waits
    have hvalue := hring 0 (by rw [entries_length h.room]; decide)
    have hlast := h.last
    rw [hfull, Nat.add_mod_right] at hlast
    rw [Nat.add_zero, ← hlast, hrestored] at hvalue
    simp only [hwaiting, entries_cons, List.getElem_cons_zero] at hvalue
    rw [hvalue] at hfree
    cases hfree

end

/-! ## Steps -/

section

variable {s : Queue} {waiting : List Subtitle}

theorem Holds.setProducer (h : s.Holds waiting) {producer : Producer}
    (hfree : ∀ sub count, producer = .locking sub count → s.consumer = .idle → count ≠ 0 →
      waiting.length < pufferSize) : { s with producer := producer }.Holds waiting :=
  ⟨h.room, h.first, h.last, h.ring, h.taken, hfree⟩

theorem addSub_holds (h : s.Holds waiting) (playing : Bool) (text : Option Text) (pts : BitVec 64)
    (milliDuration : BitVec 32) : (s.addSub playing text pts milliDuration).Holds waiting := by
  unfold addSub
  split
  · exact h
  · split
    · exact h
    · split
      · exact h
      · exact h.setProducer fun _ _ heq => by cases heq

theorem poll_holds (h : s.Holds waiting) (playing : Bool) (sub : Subtitle) (count : Nat) :
    (s.poll playing sub count).Holds waiting := by
  unfold poll
  split
  · next hnull => exact h.setProducer fun _ _ _ hidle _ => h.room_of_free hidle hnull
  · split
    · exact h.setProducer fun _ _ heq => by cases heq
    · split
      · refine h.setProducer fun _ _ heq _ hne => ?_
        cases heq
        exact absurd rfl hne
      · exact h.setProducer fun _ _ heq => by cases heq

theorem resetAll_holds (hidle : s.consumer = .idle) : s.resetAll.Holds [] := by
  refine ⟨Nat.zero_le _, init_holds.first, rfl, ?_, fun _ htaken => ?_, fun _ _ _ _ _ => by decide⟩
  · unfold restored
    simp only [resetAll, hidle]
    exact stored_entries_nil 0
  · rw [show s.resetAll.consumer = s.consumer from rfl, hidle] at htaken
    cases htaken

theorem write_holds (h : s.Holds waiting) (hidle : s.consumer = .idle)
    (hroom : waiting.length < pufferSize) (sub : Subtitle) : (s.write sub).Holds (waiting ++ [sub]) := by
  have hrestored : s.restored = s.subPuffer := by
    unfold restored
    rw [hidle]
  have hring := h.ring.set (Nat.le_of_eq (entries_length h.room))
    (by rw [entries_length h.room]; exact hroom) sub.entry
  rw [entries_concat hroom, hrestored, ← h.last] at hring
  have hlast : s.writePointer < pufferSize := by
    rw [h.last]
    exact Nat.mod_lt _ (by decide)
  refine ⟨?_, h.first, ?_, ?_, fun _ htaken => ?_, fun _ _ heq => by cases heq⟩
  · rw [List.length_append, List.length_singleton]
    exact hroom
  · show nextCell pufferSize s.writePointer = _
    rw [nextCell_eq_mod hlast, h.last, Nat.mod_add_mod, List.length_append, List.length_singleton]
    rfl
  · unfold restored
    simp only [write, hidle]
    exact hring
  · rw [show (s.write sub).consumer = s.consumer from rfl, hidle] at htaken
    cases htaken

theorem commit_holds (h : s.Holds waiting) (hidle : s.consumer = .idle) {sub : Subtitle} {count : Nat}
    (hlocking : s.producer = .locking sub count) :
    ∃ left, run deliver waiting (s.commit sub count).2 = some left ∧ (s.commit sub count).1.Holds left := by
  unfold commit
  split
  · exact ⟨[sub], rfl, write_holds (resetAll_holds hidle) hidle (by decide) sub⟩
  · next hne => exact ⟨waiting ++ [sub], rfl, write_holds h hidle (h.free sub count hlocking hidle hne) sub⟩

theorem getNextSub_holds (h : s.Holds waiting) (hidle : s.consumer = .idle) (text : Bool) :
    (s.getNextSub text).Holds waiting := by
  unfold getNextSub
  split
  · exact h
  · split
    · exact h
    · next taken htext =>
      refine ⟨h.room, h.first, h.last, ?_, fun _ _ => ?_, fun _ _ _ hnot => by cases hnot⟩
      · have hring := h.ring
        -- with the text put back, the ring is what it was
        have hsame : s.restored = s.subPuffer := by
          unfold restored
          rw [hidle]
        rw [hsame] at hring
        unfold restored
        simp only [Function.update_self, Function.update_idem]
        rw [← htext, Function.update_eq_self]
        exact hring
      · simp only [Function.update_self]

theorem moveOn_holds (h : s.Holds waiting) {text : Text} (htaken : s.consumer = .taken text) :
    ∃ left, run deliver waiting (s.moveOn text).2 = some left ∧ (s.moveOn text).1.Holds left := by
  have hlength := entries_length h.room
  have hfirst : s.restored s.readPointer
      = ⟨some text, (s.subPuffer s.readPointer).pts, (s.subPuffer s.readPointer).milliDuration⟩ := by
    unfold restored
    rw [htaken]
    exact Function.update_self _ _ _
  have hvalue := h.ring 0 (by rw [hlength]; decide)
  rw [Nat.add_zero, Nat.mod_eq_of_lt h.first, hfirst] at hvalue
  cases hwaiting : waiting with
  | nil =>
    subst hwaiting
    cases hvalue
  | cons sub rest =>
    subst hwaiting
    simp only [entries_cons, List.getElem_cons_zero] at hvalue
    obtain ⟨htext, hpts, hduration⟩ := Sub.mk.inj hvalue
    have hreturned : (⟨text, (s.subPuffer s.readPointer).pts,
        (s.subPuffer s.readPointer).milliDuration⟩ : Subtitle) = sub := by
      rw [Option.some.inj htext, hpts, hduration]
    refine ⟨rest, ?_, ?_⟩
    · unfold moveOn
      rw [hreturned, Lib.run_cons, Lib.deliver_returned.mpr rfl]
      rfl
    · have hroom := h.room
      rw [List.length_cons] at hroom
      have hset := h.ring.set (Nat.le_of_eq hlength) (i := 0) (by rw [hlength]; decide) Sub.empty
      rw [Nat.add_zero, Nat.mod_eq_of_lt h.first, entries_cons, List.set_cons_zero] at hset
      have hrotated := hset.rotate (by
        rw [entries_cons, List.length_cons] at hlength
        exact hlength)
      rw [← entries_tail h.room] at hrotated
      refine ⟨by omega, Lib.nextCell_lt h.first, ?_, ?_, fun _ hnot => (by cases hnot),
        fun _ _ _ _ _ => hroom⟩
      · show s.writePointer = (nextCell pufferSize s.readPointer + rest.length) % pufferSize
        rw [nextCell_eq_mod h.first, Nat.mod_add_mod, h.last, List.length_cons]
        congr 1
        omega
      · have hpuffer : (s.moveOn text).1.restored = Function.update s.restored s.readPointer .empty := by
          unfold restored
          simp only [moveOn, htaken, Function.update_idem]
          rw [h.taken text htaken]
          rfl
        rw [hpuffer]
        refine hrotated.of_mod ?_
        show nextCell pufferSize s.readPointer % pufferSize = _
        rw [nextCell_eq_mod h.first, Nat.mod_mod]

theorem produce_holds (h : s.Holds waiting) (playing : Bool) :
    ∃ left, run deliver waiting (s.produce playing).2 = some left ∧ (s.produce playing).1.Holds left := by
  unfold produce
  split
  · exact ⟨waiting, rfl, poll_holds h playing _ _⟩
  · next hlocking hidle => exact commit_holds h hidle hlocking
  · exact ⟨waiting, rfl, h⟩
  · exact ⟨waiting, rfl, h⟩

theorem step_holds (h : s.Holds waiting) (event : Event) :
    ∃ left, run deliver waiting (s.step event).2 = some left ∧ (s.step event).1.Holds left := by
  cases event with
  | addSub playing text pts milliDuration =>
    cases hproducer : s.producer with
    | idle =>
      have hstep : s.step (.addSub playing text pts milliDuration)
          = (s.addSub playing text pts milliDuration, []) := by
        simp only [step, hproducer]
      rw [hstep]
      exact ⟨waiting, rfl, addSub_holds h playing text pts milliDuration⟩
    | waiting sub count =>
      have hstep : s.step (.addSub playing text pts milliDuration) = (s, []) := by
        simp only [step, hproducer]
      rw [hstep]
      exact ⟨waiting, rfl, h⟩
    | locking sub count =>
      have hstep : s.step (.addSub playing text pts milliDuration) = (s, []) := by
        simp only [step, hproducer]
      rw [hstep]
      exact ⟨waiting, rfl, h⟩
  | producer playing => exact produce_holds h playing
  | getNextSub text =>
    cases hconsumer : s.consumer with
    | idle =>
      have hstep : s.step (.getNextSub text) = (s.getNextSub text, []) := by
        simp only [step, hconsumer]
      rw [hstep]
      exact ⟨waiting, rfl, getNextSub_holds h hconsumer text⟩
    | taken taken =>
      have hstep : s.step (.getNextSub text) = (s, []) := by
        simp only [step, hconsumer]
      rw [hstep]
      exact ⟨waiting, rfl, h⟩
  | consumer =>
    cases hconsumer : s.consumer with
    | idle =>
      have hstep : s.step .consumer = (s, []) := by
        simp only [step, hconsumer]
      rw [hstep]
      exact ⟨waiting, rfl, h⟩
    | taken text =>
      have hstep : s.step .consumer = s.moveOn text := by
        simp only [step, hconsumer]
      rw [hstep]
      exact moveOn_holds h hconsumer
  | reset =>
    cases hconsumer : s.consumer with
    | idle =>
      have hstep : s.step .reset = (s.resetAll, [.reset]) := by
        simp only [step, hconsumer]
      rw [hstep]
      exact ⟨[], rfl, resetAll_holds hconsumer⟩
    | taken text =>
      have hstep : s.step .reset = (s, []) := by
        simp only [step, hconsumer]
      rw [hstep]
      exact ⟨waiting, rfl, h⟩

theorem steps_cons (s : Queue) (event : Event) (events : List Event) :
    s.steps (event :: events) = (((s.step event).1.steps events).1,
      (s.step event).2 ++ ((s.step event).1.steps events).2) := rfl

theorem steps_holds (events : List Event) : ∀ {s : Queue} {waiting : List Subtitle},
    s.Holds waiting →
      ∃ left, run deliver waiting (s.steps events).2 = some left ∧ (s.steps events).1.Holds left := by
  induction events with
  | nil => exact fun h => ⟨_, rfl, h⟩
  | cons event events ih =>
    intro s waiting h
    obtain ⟨next, hnext, hholds⟩ := step_holds h event
    obtain ⟨left, hleft, hlast⟩ := ih hholds
    refine ⟨left, ?_, hlast⟩
    rw [steps_cons, Lib.run_append, hnext]
    exact hleft

theorem steps_append (before after : List Event) : ∀ s : Queue,
    s.steps (before ++ after) = (((s.steps before).1.steps after).1,
      (s.steps before).2 ++ ((s.steps before).1.steps after).2) := by
  induction before with
  | nil => exact fun _ => rfl
  | cons event before ih =>
    intro s
    rw [List.cons_append, steps_cons, steps_cons, ih, List.append_assoc]

theorem addSub_pending (hidle : s.producer = .idle) (playing : Bool) (text : Option Text)
    (pts : BitVec 64) (milliDuration : BitVec 32) :
    (s.addSub playing text pts milliDuration).pending =
      (Event.addSub playing text pts milliDuration).subtitle.toList := by
  have hnone : s.pending = [] := by
    unfold pending
    rw [hidle]
  unfold addSub
  cases playing with
  | false => exact hnone
  | true =>
    cases text with
    | none => exact hnone
    | some text =>
      simp only [Event.subtitle, Bool.not_true, Bool.false_eq_true, if_false]
      split
      · exact hnone
      · rfl

/-- The call in progress, or the one that begins, is still in progress behind a step, or it
has ended with its subtitle added or given up. -/
theorem step_outcomes (s : Queue) (event : Event) : ∃ outcomes : List (Subtitle × Bool),
    outcomes.map Prod.fst ++ (s.step event).1.pending = s.pending ++ s.begun event ∧
      adds (s.step event).2 = (outcomes.filter Prod.snd).map Prod.fst ∧
      s.givenUp event = (outcomes.filter fun outcome => !outcome.2).map Prod.fst := by
  cases event with
  | addSub playing text pts milliDuration =>
    refine ⟨[], ?_, ?_, rfl⟩
    · cases hproducer : s.producer with
      | idle =>
        have hnone : s.pending = [] := by simp only [pending, hproducer]
        simp only [step, begun, hproducer, hnone]
        exact addSub_pending hproducer playing text pts milliDuration
      | waiting | locking => simp [step, begun, pending, hproducer]
    · cases hproducer : s.producer <;> simp [step, hproducer, adds]
  | producer playing =>
    cases hproducer : s.producer with
    | idle =>
      refine ⟨[], ?_, ?_, ?_⟩
      · simp [step, produce, pending, begun, hproducer, Event.subtitle]
      · simp [step, produce, hproducer, adds]
      · cases playing <;> simp [givenUp, hproducer]
    | waiting sub count =>
      have hstep : s.step (.producer playing) = (s.poll playing sub count, []) := by
        simp only [step, produce, hproducer]
      have hpending : s.pending ++ s.begun (.producer playing) = [sub] := by
        simp only [pending, begun, hproducer, List.append_nil]
      rw [hstep, hpending]
      unfold poll
      split
      · next hfree =>
        exact ⟨[], rfl, rfl, by cases playing <;> simp [givenUp, hproducer, hfree]⟩
      · next hused =>
        cases playing with
        | false => exact ⟨[(sub, false)], rfl, rfl, by simp [givenUp, hproducer, hused]⟩
        | true =>
          refine ⟨[], ?_, rfl, rfl⟩
          show Queue.pending (if count - 1 = 0 then _ else _) = _
          split <;> rfl
    | locking sub count =>
      have hpending : s.pending ++ s.begun (.producer playing) = [sub] := by
        simp only [pending, begun, hproducer, List.append_nil]
      have hgivenUp : s.givenUp (.producer playing) = [] := by
        cases playing <;> simp [givenUp, hproducer]
      rw [hpending, hgivenUp]
      cases hconsumer : s.consumer with
      | idle =>
        have hstep : s.step (.producer playing) = s.commit sub count := by
          simp only [step, produce, hproducer, hconsumer]
        rw [hstep]
        unfold commit
        refine ⟨[(sub, true)], ?_, ?_, rfl⟩ <;> split <;> rfl
      | taken text =>
        refine ⟨[], ?_, ?_, rfl⟩
        · simp only [step, produce, hproducer, hconsumer, pending, List.map_nil, List.nil_append]
        · simp [step, produce, hproducer, hconsumer, adds]
  | getNextSub text =>
    refine ⟨[], ?_, ?_, rfl⟩
    · have hkept : (s.getNextSub text).producer = s.producer := by
        unfold getNextSub
        split
        · rfl
        · split <;> rfl
      cases hconsumer : s.consumer <;>
        cases hproducer : s.producer <;>
          simp [step, hconsumer, pending, begun, hkept, hproducer, Event.subtitle]
    · cases hconsumer : s.consumer <;> simp [step, hconsumer, adds]
  | consumer | reset =>
    refine ⟨[], ?_, ?_, rfl⟩
    · cases hconsumer : s.consumer <;>
        cases hproducer : s.producer <;>
          simp [step, hconsumer, moveOn, resetAll, pending, begun, hproducer, Event.subtitle]
    · cases hconsumer : s.consumer <;> simp [step, hconsumer, moveOn, adds]

theorem adds_append (before after : List (FifoEvent Subtitle)) :
    adds (before ++ after) = adds before ++ adds after := by
  induction before with
  | nil => rfl
  | cons event before ih => cases event <;> simp [adds, ih]

theorem steps_outcomes (events : List Event) : ∀ s : Queue, ∃ outcomes : List (Subtitle × Bool),
    outcomes.map Prod.fst ++ (s.steps events).1.pending = s.pending ++ along begun s events ∧
      adds (s.steps events).2 = (outcomes.filter Prod.snd).map Prod.fst ∧
      along givenUp s events = (outcomes.filter fun outcome => !outcome.2).map Prod.fst := by
  induction events with
  | nil => exact fun s => ⟨[], (List.append_nil _).symm, rfl, rfl⟩
  | cons event events ih =>
    intro s
    obtain ⟨first, hfirst, hadded, hgivenUp⟩ := step_outcomes s event
    obtain ⟨rest, hrest, haddedRest, hgivenUpRest⟩ := ih (s.step event).1
    refine ⟨first ++ rest, ?_, ?_, ?_⟩
    · rw [steps_cons, along, List.map_append, List.append_assoc, hrest, ← List.append_assoc,
        hfirst, List.append_assoc]
    · rw [steps_cons, adds_append, hadded, haddedRest, List.filter_append, List.map_append]
    · rw [along, hgivenUp, hgivenUpRest, List.filter_append, List.map_append]

/-- In every run the calls of `addSub`, but for the one in progress, have each added their
subtitle, in their order, or given it up, with the ring full and no playback; what is
returned and what waits to be was added in that order, and as long as the whole ring is
not given up all that waits or is added is returned or waits. -/
theorem delivers_in_order (events : List Event) :
    (∃ outcomes : List (Subtitle × Bool),
      outcomes.map Prod.fst ++ (init.steps events).1.pending = along begun init events ∧
        adds (init.steps events).2 = (outcomes.filter Prod.snd).map Prod.fst ∧
        along givenUp init events = (outcomes.filter fun outcome => !outcome.2).map Prod.fst) ∧
    (returns (init.steps events).2 ++ (init.steps events).1.unread).Sublist
        (adds (init.steps events).2) ∧
      ∀ before after, before ++ after = events →
        FifoEvent.reset ∉ ((init.steps before).1.steps after).2 →
          (init.steps before).1.unread ++ adds ((init.steps before).1.steps after).2
            = returns ((init.steps before).1.steps after).2 ++ (init.steps events).1.unread := by
  refine ⟨steps_outcomes events init, ?_, ?_⟩
  · obtain ⟨left, hrun, hholds⟩ := steps_holds events init_holds
    rw [hholds.unread]
    exact Lib.returned_sublist hrun
  · rintro before after rfl hreset
    obtain ⟨waiting, -, hbefore⟩ := steps_holds before init_holds
    obtain ⟨left, hrun, hafter⟩ := steps_holds after hbefore
    rw [steps_append, hbefore.unread, hafter.unread]
    exact Lib.deliver_lossless hrun hreset

end

end Queue

end Duckbox.Libeplayer3.OutputSubtitle
