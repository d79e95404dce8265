/-!
# The generic stack

`StackGeneric_c`, which holds at most the number of values it was made for: a
push onto a full stack is refused with `StackTooManyEntries`, a pop from an
empty one leaves the caller's variable alone. A stack is read from the top down,
and that it is never over its limit goes with it.
-/

namespace Duckbox.Infrastructure

/-- `StackGeneric_c( MaxEntries )`. -/
structure StackGeneric (limit : Nat) (α : Type) where
  /-- `Storage[Level-1]` first. -/
  entries : List α
  level_le : entries.length ≤ limit

namespace StackGeneric

variable {limit : Nat} {α : Type}

/-- As constructed, and after `Flush`. -/
def empty : StackGeneric limit α := ⟨[], Nat.zero_le limit⟩

def level (s : StackGeneric limit α) : Nat := s.entries.length

def nonEmpty (s : StackGeneric limit α) : Bool := s.level != 0

/-- `Push`; `StackTooManyEntries` leaves the stack as it was. -/
def push (s : StackGeneric limit α) (value : α) : StackGeneric limit α :=
  if h : s.entries.length = limit then s
  else ⟨value :: s.entries, Nat.lt_of_le_of_ne s.level_le h⟩

/-- `Pop`; `none` is `StackNothingToGet`. -/
def pop (s : StackGeneric limit α) : Option (α × StackGeneric limit α) :=
  match h : s.entries with
  | [] => none
  | value :: rest =>
    some (value, ⟨rest, Nat.le_of_succ_le (by simpa [h] using s.level_le)⟩)

@[simp] theorem empty_entries : (empty : StackGeneric limit α).entries = [] := rfl

theorem push_entries {s : StackGeneric limit α} (h : s.entries.length < limit) (value : α) :
    (s.push value).entries = value :: s.entries := by
  unfold push
  rw [dif_neg (Nat.ne_of_lt h)]

theorem pop_of_entries {s : StackGeneric limit α} {value : α} {rest : List α}
    (h : s.entries = value :: rest) :
    ∃ t : StackGeneric limit α, s.pop = some (value, t) ∧ t.entries = rest := by
  obtain ⟨entries, hle⟩ := s
  obtain rfl : entries = value :: rest := h
  exact ⟨_, rfl, rfl⟩

end StackGeneric

end Duckbox.Infrastructure
