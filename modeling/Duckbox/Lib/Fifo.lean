import Duckbox.Lib.Loop

/-!
# First in, first out

A queue seen from outside: things are added at the end, returned from the front, and
the whole of it may be given up (`FifoEvent.reset`). `deliver` says which sequences of
this are those of a queue.

What has been returned and what is left has been added in that order
(`returned_sublist`), and between two resets nothing is lost (`deliver_lossless`).
-/

namespace Duckbox.Lib

variable {α : Type}

/-- What is seen of a queue. -/
inductive FifoEvent (α : Type) where
  | added (a : α)
  | returned (a : α)
  | reset
deriving DecidableEq

namespace FifoEvent

/-- What has been added. -/
def adds : List (FifoEvent α) → List α
  | [] => []
  | added a :: events => a :: adds events
  | returned _ :: events => adds events
  | reset :: events => adds events

/-- What has been returned. -/
def returns : List (FifoEvent α) → List α
  | [] => []
  | added _ :: events => returns events
  | returned a :: events => a :: returns events
  | reset :: events => returns events

end FifoEvent

open FifoEvent

variable [DecidableEq α]

/-- The queue after an event, none where it cannot be one of a queue. -/
def deliver (queue : List α) : FifoEvent α → Option (List α)
  | .added a => some (queue ++ [a])
  | .returned a => if queue.head? = some a then some queue.tail else none
  | .reset => some []

theorem deliver_returned {queue rest : List α} {a : α} :
    deliver queue (.returned a) = some rest ↔ queue = a :: rest := by
  show (if queue.head? = some a then some queue.tail else none) = some rest ↔ _
  cases queue with
  | nil => simp
  | cons b queue =>
    by_cases hab : b = a
    · simp [hab]
    · simp [hab]

/-- What is returned and what is left was there or was added, in that order. -/
theorem returned_sublist {events : List (FifoEvent α)} : ∀ {queue left : List α},
    run deliver queue events = some left →
      (returns events ++ left).Sublist (queue ++ adds events) := by
  induction events with
  | nil =>
    intro queue left h
    obtain rfl := Option.some.inj h
    simp [returns, adds]
  | cons event events ih =>
    intro queue left h
    obtain ⟨next, hnext, hrest⟩ := Option.bind_eq_some_iff.mp h
    have hsub := ih hrest
    cases event with
    | added a =>
      obtain rfl := Option.some.inj hnext
      rw [List.append_assoc] at hsub
      exact hsub
    | returned a =>
      rw [deliver_returned.mp hnext]
      exact hsub.cons_cons a
    | reset =>
      obtain rfl := Option.some.inj hnext
      exact hsub.trans (List.sublist_append_right queue _)

/-- Where the queue is not given up, nothing is lost. -/
theorem deliver_lossless {events : List (FifoEvent α)} : ∀ {queue left : List α},
    run deliver queue events = some left → FifoEvent.reset ∉ events →
      queue ++ adds events = returns events ++ left := by
  induction events with
  | nil =>
    intro queue left h _
    obtain rfl := Option.some.inj h
    simp [returns, adds]
  | cons event events ih =>
    intro queue left h hreset
    obtain ⟨next, hnext, hrest⟩ := Option.bind_eq_some_iff.mp h
    have hkept := ih hrest fun hmem => hreset (List.mem_cons_of_mem _ hmem)
    cases event with
    | added a =>
      obtain rfl := Option.some.inj hnext
      rw [List.append_assoc] at hkept
      exact hkept
    | returned a =>
      rw [deliver_returned.mp hnext]
      exact congrArg (a :: ·) hkept
    | reset => exact absurd List.mem_cons_self hreset

end Duckbox.Lib
