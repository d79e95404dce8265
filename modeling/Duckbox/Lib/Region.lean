import Mathlib.Tactic.Common

/-!
# Regions of a memory

A memory is a function of the address. `store` puts a list down at an address and
`load` takes so many cells up.
-/

namespace Duckbox.Lib

variable {α : Type}

/-- `memcpy( m + pos, l, length )`. -/
def store (m : Nat → α) (pos : Nat) (l : List α) : Nat → α :=
  fun a => if pos ≤ a then (l[a - pos]?).getD (m a) else m a

/-- The `n` cells from an address. -/
def load (m : Nat → α) (pos n : Nat) : List α := (List.range n).map fun i => m (pos + i)

@[simp] theorem load_length (m : Nat → α) (pos n : Nat) : (load m pos n).length = n := by
  simp [load]

theorem store_of_lt {m : Nat → α} {pos a : Nat} {l : List α} (h : a < pos) :
    store m pos l a = m a := by
  unfold store
  rw [if_neg (Nat.not_le.mpr h)]

theorem store_of_le {m : Nat → α} {pos a : Nat} {l : List α} (h : pos + l.length ≤ a) :
    store m pos l a = m a := by
  unfold store
  rw [if_pos (by omega), List.getElem?_eq_none (by omega), Option.getD_none]

theorem store_add {m : Nat → α} {pos i : Nat} {l : List α} (h : i < l.length) :
    store m pos l (pos + i) = l[i] := by
  unfold store
  rw [if_pos (Nat.le_add_right _ _), Nat.add_sub_cancel_left, List.getElem?_eq_getElem h,
    Option.getD_some]

theorem load_add (m : Nat → α) (pos n k : Nat) :
    load m pos (n + k) = load m pos n ++ load m (pos + n) k := by
  unfold load
  rw [List.range_add, List.map_append, List.map_map]
  refine congrArg (_ ++ ·) (List.map_congr_left fun i _ => ?_)
  show m (pos + (n + i)) = m (pos + n + i)
  rw [Nat.add_assoc]

theorem load_eq_of_append {m : Nat → α} {pos : Nat} {a b : List α}
    (h : load m pos (a.length + b.length) = a ++ b) :
    load m pos a.length = a ∧ load m (pos + a.length) b.length = b := by
  rw [load_add] at h
  exact List.append_inj h (load_length _ _ _)

end Duckbox.Lib
