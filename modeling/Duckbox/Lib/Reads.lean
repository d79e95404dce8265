import Mathlib.Tactic.Common

/-!
# Reads that may fail

A program that reads a memory of which only a part is its own, at places of any kind: a
read outside has no result. Comparisons joined by `&&` are made in their order up to the
first that fails (`areValues`), so that what stands behind is not read.
-/

namespace Duckbox.Lib

variable {ι β : Type} [DecidableEq β]

/-- The values are there, looked at one after the other. -/
def areValues (read : ι → Option β) : List (ι × β) → Option Bool
  | [] => some true
  | (i, b) :: rest => (read i).bind fun x => if x = b then areValues read rest else some false

variable {read : ι → Option β}

@[simp] theorem areValues_nil : areValues read [] = some true := rfl

theorem areValues_cons {i : ι} {b x : β} {rest : List (ι × β)} (h : read i = some x) :
    areValues read ((i, b) :: rest) = if x = b then areValues read rest else some false := by
  simp only [areValues, h, Option.bind_some]

variable (read) in
theorem areValues_two {i j : ι} {a b x y : β} (hi : read i = some x) (hj : read j = some y) :
    areValues read [(i, a), (j, b)] = some (decide (x = a ∧ y = b)) := by
  rw [areValues_cons hi, areValues_cons hj, areValues_nil]
  by_cases ha : x = a
  · by_cases hb : y = b
    · rw [if_pos ha, if_pos hb, decide_eq_true ⟨ha, hb⟩]
    · rw [if_pos ha, if_neg hb, decide_eq_false fun h => hb h.2]
  · rw [if_neg ha, decide_eq_false fun h => ha h.1]

theorem areValues_three {i j k : ι} {a b c x y z : β} (hi : read i = some x) (hj : read j = some y)
    (hk : read k = some z) :
    areValues read [(i, a), (j, b), (k, c)] = some (decide (x = a ∧ y = b ∧ z = c)) := by
  rw [areValues_cons hi, areValues_two read hj hk]
  by_cases ha : x = a
  · simp only [ha, if_true, true_and]
  · rw [if_neg ha, decide_eq_false fun h => ha h.1]

end Duckbox.Lib
