import Mathlib.Tactic.Common

/-!
# Records that say how long they are

`extent` reads the length of a record off its beginning. Where it is right for each
record of a list, whatever is behind it, walking their concatenation by these
lengths finds the records again (`records_flatten`).
-/

namespace Duckbox.Lib

variable {α : Type}

/-- The records of a list, from length to length; `none` where a record has no bytes or
runs over the end. The number is that of the records there can be. -/
def records (extent : List α → Nat) : Nat → List α → Option (List (List α))
  | _, [] => some []
  | 0, _ :: _ => none
  | limit + 1, a :: l =>
    let n := extent (a :: l)
    if n = 0 ∨ (a :: l).length < n then none
    else (records extent limit ((a :: l).drop n)).map ((a :: l).take n :: ·)

theorem records_cons {extent : List α → Nat} {limit : Nat} {r rest : List α}
    (hne : r ≠ []) (h : extent (r ++ rest) = r.length) :
    records extent (limit + 1) (r ++ rest) = (records extent limit rest).map (r :: ·) := by
  have hpos : 0 < r.length := List.length_pos_iff.mpr hne
  obtain ⟨a, l, hl⟩ : ∃ a l, r ++ rest = a :: l := by
    cases r with
    | nil => exact absurd rfl hne
    | cons a r => exact ⟨a, r ++ rest, rfl⟩
  have hn : extent (a :: l) = r.length := hl ▸ h
  have hlong : r.length ≤ (a :: l).length := by
    rw [← hl, List.length_append]
    exact Nat.le_add_right _ _
  rw [hl, records]
  rw [hn, if_neg (by omega), ← hl, List.drop_left, List.take_left]

/-- Records whose lengths are right are found again. -/
theorem records_flatten {extent : List α → Nat} {rs : List (List α)}
    (h : ∀ r ∈ rs, r ≠ [] ∧ ∀ rest, extent (r ++ rest) = r.length) :
    ∀ {limit : Nat}, rs.length ≤ limit → records extent limit rs.flatten = some rs := by
  induction rs with
  | nil =>
    intro limit _
    cases limit <;> rfl
  | cons r rs ih =>
    intro limit hlimit
    obtain ⟨hne, hextent⟩ := h r List.mem_cons_self
    obtain ⟨limit, rfl⟩ := Nat.exists_eq_add_of_lt hlimit
    rw [List.flatten_cons, records_cons hne (hextent _),
      ih (fun r' hr' => h r' (List.mem_cons_of_mem r hr')) (Nat.le_add_right _ _), Option.map_some]

end Duckbox.Lib
