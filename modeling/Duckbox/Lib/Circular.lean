import Mathlib.Logic.Function.Basic

/-!
# A list in a circular storage

Entries stored one after the other in `limit` cells that are used in a circle: the
entry `k` places from the first is in the cell of the running index `first + k`
(`Stored`). One is replaced where it is (`Stored.set`), and in a full circle the first
gives its cell to one behind the last (`Stored.rotate`).
-/

namespace Duckbox.Lib

variable {α : Type}

/-- The entries are in the cells from an index on. -/
def Stored (storage : Nat → α) (limit first : Nat) (entries : List α) : Prop :=
  ∀ k (h : k < entries.length), storage ((first + k) % limit) = entries[k]

namespace Stored

variable {storage : Nat → α} {limit first : Nat} {a b entries : List α}

theorem of_mod {first' : Nat} (h : Stored storage limit first entries)
    (hfirst : first' % limit = first % limit) : Stored storage limit first' entries := by
  intro k hk
  rw [← h k hk, Nat.add_mod, hfirst, ← Nat.add_mod]

theorem mod_ne {i j : Nat} (hij : i < j) (hj : j < i + limit) : i % limit ≠ j % limit := by
  intro h
  have hi := Nat.div_add_mod i limit
  have hj' := Nat.div_add_mod j limit
  have hlt : i / limit < j / limit := by
    by_contra hle
    have hmul := Nat.mul_le_mul_left limit (Nat.le_of_not_lt hle)
    omega
  have hmul := Nat.mul_le_mul_left limit hlt
  rw [Nat.mul_succ] at hmul
  omega

/-- Another value in the cell of an entry. -/
theorem set (h : Stored storage limit first entries) (hroom : entries.length ≤ limit) {i : Nat}
    (hi : i < entries.length) (value : α) :
    Stored (Function.update storage ((first + i) % limit) value) limit first (entries.set i value) := by
  intro k hk
  rw [List.length_set] at hk
  rw [List.getElem_set]
  split
  · next heq => rw [heq, Function.update_self]
  · next hne =>
    have hapart : (first + k) % limit ≠ (first + i) % limit := by
      rcases Nat.lt_or_gt_of_ne hne with hlt | hgt
      · exact (mod_ne (by omega) (by omega)).symm
      · exact mod_ne (by omega) (by omega)
    rw [Function.update_of_ne hapart, h k hk]

/-- Where every cell has an entry, the first is behind the last as well. -/
theorem rotate {value : α} {rest : List α} (h : Stored storage limit first (value :: rest))
    (hall : rest.length + 1 = limit) : Stored storage limit (first + 1) (rest ++ [value]) := by
  intro k hk
  rw [List.length_append, List.length_singleton] at hk
  rcases Nat.lt_or_eq_of_le (Nat.le_of_lt_succ hk) with hlt | heq
  · have hnext := h (k + 1) (Nat.succ_lt_succ hlt)
    rw [Nat.add_assoc, Nat.add_comm 1 k, hnext, List.getElem_append_left hlt]
    rfl
  · subst heq
    have hfirst := h 0 (Nat.zero_lt_succ _)
    have hround : first + 1 + rest.length = first + limit := by omega
    rw [hround, Nat.add_mod_right, List.getElem_append_right (Nat.le_refl _)]
    simpa using hfirst

theorem map_range (h : Stored storage limit first entries) :
    (List.range entries.length).map (fun k => storage ((first + k) % limit)) = entries := by
  refine List.ext_getElem (by simp) fun k hk hk' => ?_
  rw [List.getElem_map, List.getElem_range, h k hk']

end Stored

end Duckbox.Lib

/-!
## A window on a circular storage

Cells `0 .. limit - 1` that follow each other in a circle, and a window of them:
it begins at one index, ends before another, and holds at most `limit - 1` cells,
so that a window that begins where it ends is empty and not full (`Window`).

A value written where the window ends is the window's last (`Window.push`), as long
as that does not close the circle (`Window.full_iff`); one taken where it begins was
its first (`Window.pop`).
-/

namespace Duckbox.Lib

variable {α : Type}

/-- The cell after one. -/
def nextCell (limit i : Nat) : Nat := if i + 1 = limit then 0 else i + 1

theorem nextCell_lt {limit i : Nat} (h : i < limit) : nextCell limit i < limit := by
  unfold nextCell
  split <;> omega

/-- The values of so many cells from one on. -/
def cells (storage : Nat → α) (limit : Nat) : Nat → Nat → List α
  | _, 0 => []
  | i, n + 1 => storage i :: cells storage limit (nextCell limit i) n

/-- The cell so many after one. -/
def cellAfter (limit i n : Nat) : Nat := if i + n < limit then i + n else i + n - limit

section

variable {limit i n : Nat} {storage : Nat → α}

theorem cellAfter_lt (hi : i < limit) (hn : n ≤ limit) : cellAfter limit i n < limit := by
  unfold cellAfter
  split <;> omega

theorem cellAfter_next (hn : n < limit) :
    cellAfter limit (nextCell limit i) n = cellAfter limit i (n + 1) := by
  unfold cellAfter nextCell
  split <;> split <;> split <;> omega

theorem nextCell_cellAfter (hi : i < limit) (hn : n < limit) :
    nextCell limit (cellAfter limit i n) = cellAfter limit i (n + 1) := by
  unfold cellAfter nextCell
  split <;> split <;> split <;> omega

@[simp] theorem cells_length : ∀ {n i : Nat}, (cells storage limit i n).length = n
  | 0, _ => rfl
  | _ + 1, _ => congrArg (· + 1) cells_length

theorem cells_update (value : α) :
    ∀ {n i m : Nat}, i < limit → n ≤ m → m < limit →
      cells (Function.update storage (cellAfter limit i m) value) limit i n =
        cells storage limit i n := by
  intro n
  induction n with
  | zero => intros; rfl
  | succ n ih =>
    intro i m hi hn hm
    have hne : i ≠ cellAfter limit i m := by
      unfold cellAfter
      split <;> omega
    obtain ⟨k, rfl⟩ := Nat.exists_eq_succ_of_ne_zero (Nat.ne_of_gt (Nat.lt_of_lt_of_le n.succ_pos hn))
    have hrest := ih (nextCell_lt hi) (Nat.le_of_succ_le_succ hn) (Nat.lt_of_succ_lt hm)
    rw [cellAfter_next (Nat.lt_of_succ_lt hm)] at hrest
    simp only [cells, Function.update_of_ne hne, hrest]

theorem cells_succ : ∀ {n i : Nat}, i < limit → n < limit →
    cells storage limit i (n + 1) = cells storage limit i n ++ [storage (cellAfter limit i n)] := by
  intro n
  induction n with
  | zero =>
    intro i hi _
    have hsame : cellAfter limit i 0 = i := if_pos hi
    simp only [cells, hsame, List.nil_append]
  | succ n ih =>
    intro i hi hn
    rw [cells, ih (nextCell_lt hi) (Nat.lt_of_succ_lt hn), cellAfter_next (Nat.lt_of_succ_lt hn)]
    rfl

end

/-- The entries from one index up to another. -/
structure Window (storage : Nat → α) (limit first last : Nat) (entries : List α) : Prop where
  first_lt : first < limit
  room : entries.length < limit
  last_eq : last = cellAfter limit first entries.length
  values : cells storage limit first entries.length = entries

namespace Window

variable {storage : Nat → α} {limit first last : Nat} {entries : List α}

theorem empty (h : 0 < limit) : Window storage limit 0 0 [] :=
  ⟨h, h, (if_pos h).symm, rfl⟩

theorem last_lt (h : Window storage limit first last entries) : last < limit := by
  rw [h.last_eq]
  exact cellAfter_lt h.first_lt (Nat.le_of_lt h.room)

theorem empty_iff (h : Window storage limit first last entries) : first = last ↔ entries = [] := by
  have hfirst := h.first_lt
  have hroom := h.room
  rw [h.last_eq, ← List.length_eq_zero_iff]
  unfold cellAfter
  split <;> omega

/-- One more cell would close the circle only where the window is full. -/
theorem full_iff (h : Window storage limit first last entries) :
    nextCell limit last = first ↔ entries.length + 1 = limit := by
  have hfirst := h.first_lt
  have hroom := h.room
  rw [h.last_eq, nextCell_cellAfter h.first_lt h.room]
  unfold cellAfter
  split <;> omega

theorem write (h : Window storage limit first last entries) (value : α) :
    Window (Function.update storage last value) limit first last entries := by
  refine ⟨h.first_lt, h.room, h.last_eq, ?_⟩
  rw [h.last_eq, cells_update value h.first_lt (Nat.le_refl _) h.room]
  exact h.values

theorem push (h : Window storage limit first last entries) (value : α)
    (hroom : entries.length + 1 < limit) :
    Window (Function.update storage last value) limit first (nextCell limit last)
      (entries ++ [value]) := by
  have hlength : (entries ++ [value]).length = entries.length + 1 := by simp
  refine ⟨h.first_lt, by omega, ?_, ?_⟩
  · rw [hlength, h.last_eq, nextCell_cellAfter h.first_lt h.room]
  · rw [hlength, cells_succ h.first_lt h.room, (h.write value).values, ← h.last_eq,
      Function.update_self]

theorem pop {value : α} {rest : List α} (h : Window storage limit first last (value :: rest)) :
    storage first = value ∧ Window storage limit (nextCell limit first) last rest := by
  have hvalues := h.values
  rw [List.length_cons, cells] at hvalues
  obtain ⟨hvalue, hrest⟩ := List.cons.inj hvalues
  have hroom := h.room
  rw [List.length_cons] at hroom
  refine ⟨hvalue, nextCell_lt h.first_lt, Nat.lt_of_succ_lt hroom, ?_, hrest⟩
  rw [cellAfter_next (Nat.lt_of_succ_lt hroom)]
  exact h.last_eq

end Window

end Duckbox.Lib
