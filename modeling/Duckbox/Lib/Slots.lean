import Mathlib.Data.List.FinRange

/-!
# Tables with holes

A fixed table whose entries come and go in any slot. What it holds, as a list
up to order, gains an entry when an empty slot is filled (`contents_fill`) and
loses it when the slot is cleared (`contents_clear`); a table that holds fewer
entries than it has slots has an empty one (`firstFree_isSome`). The same where the slots
in use are listed (`find?_free`).
-/

namespace Duckbox.Lib

variable {α : Type} {n : Nat} {t : Fin n → Option α} {i : Fin n} {x : α}

/-! ## Slots by number

The tables have 2, 4, 6 or 16 slots, and each has a slot 0. -/

instance (priority := 2000) neZero_two : @NeZero Nat .ofOfNat0 2 := ⟨by decide⟩

instance (priority := 2000) neZero_four : @NeZero Nat .ofOfNat0 4 := ⟨by decide⟩

instance (priority := 2000) neZero_six : @NeZero Nat .ofOfNat0 6 := ⟨by decide⟩

instance (priority := 2000) neZero_sixteen : @NeZero Nat .ofOfNat0 16 := ⟨by decide⟩

/-! ## What a table holds -/

/-- What is in the table, in the order of its slots. -/
def contents (t : Fin n → Option α) : List α := (List.finRange n).filterMap t

/-- The first empty slot. -/
def firstFree (t : Fin n → Option α) : Option (Fin n) :=
  (List.finRange n).find? fun i => (t i).isNone

theorem mem_contents : x ∈ contents t ↔ ∃ i, t i = some x := by
  unfold contents
  rw [List.mem_filterMap]
  exact exists_congr fun i => and_iff_right (List.mem_finRange i)

theorem contents_empty : contents (fun _ : Fin n => (none : Option α)) = [] :=
  List.filterMap_eq_nil_iff.mpr fun _ _ => rfl

theorem filterMap_update (l : List (Fin n)) (v : Option α) (h : i ∉ l) :
    l.filterMap (Function.update t i v) = l.filterMap t := by
  apply List.filterMap_congr
  intro j hj
  have hne : j ≠ i := fun he => h (he ▸ hj)
  exact Function.update_of_ne hne v t

theorem contents_fill (h : t i = none) (x : α) :
    (contents (Function.update t i (some x))).Perm (x :: contents t) := by
  obtain ⟨l₁, l₂, hl⟩ := List.append_of_mem (List.mem_finRange i)
  have hnodup : (l₁ ++ i :: l₂).Nodup := hl ▸ List.nodup_finRange n
  have hout : i ∉ l₁ ++ l₂ := (List.nodup_middle.mp hnodup).notMem
  rw [List.mem_append, not_or] at hout
  unfold contents
  rw [hl, List.filterMap_append, List.filterMap_append, List.filterMap_cons, List.filterMap_cons,
    Function.update_self, h, filterMap_update l₁ _ hout.1, filterMap_update l₂ _ hout.2]
  exact List.perm_middle

theorem contents_fill_last (hlast : ∀ j, t j ≠ none → j < i) (x : α) :
    contents (Function.update t i (some x)) = contents t ++ [x] := by
  obtain ⟨l₁, l₂, hl⟩ := List.append_of_mem (List.mem_finRange i)
  have hsorted : (l₁ ++ i :: l₂).Pairwise (· < ·) := hl ▸ List.pairwise_lt_finRange n
  have hnodup : (l₁ ++ i :: l₂).Nodup := hl ▸ List.nodup_finRange n
  have hout : i ∉ l₁ ++ l₂ := (List.nodup_middle.mp hnodup).notMem
  rw [List.mem_append, not_or] at hout
  have hempty : ∀ j, i ≤ j → t j = none := by
    intro j hj
    by_contra hne
    exact absurd (hlast j hne) (not_lt.mpr hj)
  have htail : l₂.filterMap t = [] := by
    refine List.filterMap_eq_nil_iff.mpr fun j hj => hempty j (le_of_lt ?_)
    exact (List.pairwise_cons.mp (List.pairwise_append.mp hsorted).2.1).1 j hj
  unfold contents
  rw [hl, List.filterMap_append, List.filterMap_append, List.filterMap_cons, List.filterMap_cons,
    Function.update_self, hempty i (le_refl i), filterMap_update l₁ _ hout.1,
    filterMap_update l₂ _ hout.2, htail]
  simp

theorem contents_clear (h : t i = some x) :
    (contents t).Perm (x :: contents (Function.update t i none)) := by
  have hfill := contents_fill (t := Function.update t i none) (Function.update_self i none t) x
  rwa [Function.update_idem, ← h, Function.update_eq_self] at hfill

theorem firstFree_eq_some (h : firstFree t = some i) : t i = none := by
  have hi := List.find?_some h
  exact Option.isNone_iff_eq_none.mp hi

theorem firstFree_isSome (h : (contents t).length < n) : ∃ i, firstFree t = some i := by
  cases hfree : firstFree t with
  | some i => exact ⟨i, rfl⟩
  | none =>
    -- no slot is empty, so the table holds as many entries as it has slots
    have hfull : ∀ i ∈ List.finRange n, (t i).isSome := by
      intro i hi
      have hnot := List.find?_eq_none.mp hfree i hi
      rw [Option.isSome_iff_ne_none, ne_eq, ← Option.isNone_iff_eq_none]
      exact hnot
    have hlength := List.filterMap_length_eq_length.mpr hfull
    rw [List.length_finRange] at hlength
    exact absurd h (by
      unfold contents
      omega)

theorem contents_length_le (t : Fin n → Option α) : (contents t).length ≤ n := by
  have hle := List.length_filterMap_le t (List.finRange n)
  rwa [List.length_finRange] at hle

theorem contents_length_lt (h : t i = none) (x : α) : (contents t).length < n := by
  have hfill := (contents_fill h x).length_eq
  have hle := contents_length_le (Function.update t i (some x))
  rw [hfill, List.length_cons] at hle
  exact hle

theorem contents_filter (p : α → Bool) (t : Fin n → Option α) :
    contents (fun i => (t i).filter p) = (contents t).filter p := by
  unfold contents
  rw [List.filter_filterMap]

/-! ## Slots in use -/

theorem slots_length_le {l : List (Fin n)} (h : l.Nodup) : l.length ≤ n := by
  have hle := (List.subperm_of_subset h fun i _ => List.mem_finRange i).length_le
  rwa [List.length_finRange] at hle

/-- The first free slot is none of those in use, or all are in use. -/
theorem find?_free {p : Fin n → Bool} {l : List (Fin n)} (h : l.Nodup)
    (hfree : ∀ i, p i = true ↔ i ∉ l) :
    ((List.finRange n).find? p = none ∧ l.length = n) ∨
      ∃ i, (List.finRange n).find? p = some i ∧ i ∉ l ∧ l.length < n := by
  cases hfind : (List.finRange n).find? p with
  | none =>
    have hall : List.finRange n ⊆ l := by
      intro i hi
      by_contra hout
      exact List.find?_eq_none.mp hfind i hi ((hfree i).mpr hout)
    have hle := (List.subperm_of_subset (List.nodup_finRange n) hall).length_le
    rw [List.length_finRange] at hle
    exact .inl ⟨rfl, Nat.le_antisymm (slots_length_le h) hle⟩
  | some i =>
    have hi := (hfree i).mp (List.find?_some hfind)
    exact .inr ⟨i, rfl, hi, slots_length_le (List.nodup_cons.mpr ⟨hi, h⟩)⟩

end Duckbox.Lib
