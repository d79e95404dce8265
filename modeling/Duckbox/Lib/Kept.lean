import Mathlib.Data.List.Basic

/-!
# What a filter keeps of a sequence

`kept p g n` are those of the first `n` elements of the sequence `g` whose places
pass `p`. More of the sequence adds to the end (`kept_mono`), all of it where
every place passes (`kept_add`).
-/

namespace Duckbox.Lib

variable {α : Type}

def kept (p : Nat → Bool) (g : Nat → α) (n : Nat) : List α := ((List.range n).filter p).map g

variable {p : Nat → Bool} {g : Nat → α} {n m k : Nat}

theorem kept_succ (p : Nat → Bool) (g : Nat → α) (n : Nat) :
    kept p g (n + 1) = kept p g n ++ if p n then [g n] else [] := by
  unfold kept
  rw [List.range_succ, List.filter_append, List.map_append]
  cases hp : p n with
  | true => rw [List.filter_cons_of_pos hp]; rfl
  | false => rw [List.filter_cons_of_neg (by rw [hp]; exact Bool.false_ne_true)]; rfl

theorem kept_add (h : ∀ i, n ≤ i → i < n + k → p i = true) :
    kept p g (n + k) = kept p g n ++ (List.range k).map (fun i => g (n + i)) := by
  induction k with
  | zero => simp
  | succ k ih =>
    rw [← Nat.add_assoc, kept_succ, ih fun i hi hlt => h i hi (by omega),
      h (n + k) (Nat.le_add_right n k) (by omega), if_pos rfl, List.range_succ, List.map_append,
      List.append_assoc]
    rfl

theorem kept_mono (h : n ≤ m) : kept p g n <+: kept p g m := by
  induction h with
  | refl => exact List.prefix_rfl
  | step _ ih =>
    rw [kept_succ]
    exact ih.trans (List.prefix_append _ _)

theorem kept_getElem {i : Nat} (hn : i < (kept p g n).length) (hm : i < (kept p g m).length) :
    (kept p g n)[i] = (kept p g m)[i] := by
  rcases Nat.le_total n m with h | h
  · exact (kept_mono h).getElem hn
  · exact ((kept_mono h).getElem hm).symm

end Duckbox.Lib
