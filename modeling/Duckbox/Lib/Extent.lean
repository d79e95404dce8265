/-!
# Extents: address ranges counted by cover

A range allocator is right when its free ranges and the ranges it handed out
tile the arena: every address of `[0, n)` lies in exactly one range, no other
address in any. Here that is a statement about one function: `cover l a` counts
the extents of `l` that contain `a`, and `Tiles l n` says it is the indicator
of `[0, n)`. Cover is additive (`cover_append`) and an extent may be cut at any
inner point without changing it (`cover_cut`), so "split", "merge" and "hand
over" all reduce to moving a summand from one list to the other.

Cut points (a bank boundary no range may cross) are a predicate `B`:
`Uncut B e` says no point of `B` lies strictly inside `e`, `Apart B x y` that
`x` and `y` touch in at most a point of `B`. Both survive joining two extents
that meet off the boundary (`Uncut.join`, `Apart.join`).
-/

namespace Duckbox.Lib

/-- The half-open address range `[base, base + size)`. -/
structure Extent where
  base : Nat
  size : Nat
deriving DecidableEq, Repr

namespace Extent

/-- One past the last address. -/
def stop (e : Extent) : Nat := e.base + e.size

/-- `a` lies in `e`. -/
def has (e : Extent) (a : Nat) : Bool := decide (e.base ≤ a) && decide (a < e.stop)

variable {e : Extent}

theorem has_iff {a : Nat} : e.has a = true ↔ e.base ≤ a ∧ a < e.stop := by
  simp [has]

/-- How many extents of `l` contain the address `a`. -/
def cover (l : List Extent) (a : Nat) : Nat := l.countP (·.has a)

/-- `l` tiles `[0, n)`: exactly one extent over each address of it, none
elsewhere. -/
def Tiles (l : List Extent) (n : Nat) : Prop :=
  ∀ a, cover l a = if a < n then 1 else 0

@[simp] theorem cover_nil (a : Nat) : cover [] a = 0 := rfl

theorem cover_cons (e : Extent) (l : List Extent) (a : Nat) :
    cover (e :: l) a = cover l a + cover [e] a := by
  simp [cover, List.countP_cons]

theorem cover_append (l m : List Extent) (a : Nat) :
    cover (l ++ m) a = cover l a + cover m a := by
  simp [cover, List.countP_append]

theorem cover_singleton (e : Extent) (a : Nat) :
    cover [e] a = if e.base ≤ a ∧ a < e.stop then 1 else 0 := by
  simp [cover, List.countP_cons, has_iff]

theorem cover_one {b s a : Nat} (h : b ≤ a ∧ a < b + s) : cover [⟨b, s⟩] a = 1 := by
  rw [cover_singleton]
  exact if_pos h

theorem cover_zero {b s a : Nat} (h : ¬ (b ≤ a ∧ a < b + s)) : cover [⟨b, s⟩] a = 0 := by
  rw [cover_singleton]
  exact if_neg h

theorem cover_empty (b a : Nat) : cover [⟨b, 0⟩] a = 0 := cover_zero (by omega)

/-- `l` has no address from `n` on. -/
def Below (l : List Extent) (n : Nat) : Prop := ∀ a, n ≤ a → cover l a = 0

theorem below_nil (n : Nat) : Below [] n := fun _ _ => rfl

theorem below_singleton {b s n : Nat} (h : b + s ≤ n) : Below [⟨b, s⟩] n :=
  fun _ ha => cover_zero (by omega)

variable {l : List Extent}

theorem Below.append {m : List Extent} {n : Nat} (hl : Below l n) (hm : Below m n) :
    Below (l ++ m) n := by
  intro a ha
  rw [cover_append, hl a ha, hm a ha]

/-- Cutting an extent at `base + s` leaves every cover count as it was. -/
theorem cover_cut (b s t a : Nat) :
    cover [⟨b, s + t⟩] a = cover [⟨b, s⟩] a + cover [⟨b + s, t⟩] a := by
  by_cases hl : b ≤ a ∧ a < b + s
  · rw [cover_one hl, cover_one (by omega), cover_zero (by omega)]
  · by_cases hr : b + s ≤ a ∧ a < b + s + t
    · rw [cover_zero hl, cover_one hr, cover_one (by omega)]
    · rw [cover_zero hl, cover_zero hr, cover_zero (by omega)]

theorem cover_erase (h : e ∈ l) (a : Nat) : cover (l.erase e) a + cover [e] a = cover l a := by
  have hp : l.Perm (e :: l.erase e) := List.perm_cons_erase h
  rw [show cover l a = cover (e :: l.erase e) a from hp.countP_eq _, cover_cons e (l.erase e)]

theorem two_le_cover {x y : Extent} {a : Nat} (hx : x ∈ l) (hy : y ∈ l) (hne : x ≠ y)
    (hxa : x.has a = true) (hya : y.has a = true) : 2 ≤ cover l a := by
  have hsplit := cover_erase hx a
  have hone : cover [x] a = 1 := by rw [cover_singleton, if_pos (has_iff.mp hxa)]
  have hrest : 0 < cover (l.erase x) a :=
    List.countP_pos_iff.mpr ⟨y, (List.mem_erase_of_ne (Ne.symm hne)).mpr hy, hya⟩
  omega

theorem Tiles.eq_of_has {n : Nat} (h : Tiles l n) {x y : Extent} {a : Nat} (hx : x ∈ l) (hy : y ∈ l)
    (hxa : x.has a = true) (hya : y.has a = true) : x = y := by
  by_cases hne : x = y
  · exact hne
  · have htwo := two_le_cover hx hy hne hxa hya
    have hone := h a
    split at hone <;> omega

theorem Tiles.stop_le {n : Nat} (h : Tiles l n) (he : e ∈ l) (hpos : 0 < e.size) : e.stop ≤ n := by
  have hlast : e.has (e.stop - 1) = true := has_iff.mpr (by simp only [stop]; omega)
  have hcov : 0 < cover l (e.stop - 1) := List.countP_pos_iff.mpr ⟨e, he, hlast⟩
  have hn := h (e.stop - 1)
  by_cases hlt : e.stop - 1 < n
  · omega
  · rw [if_neg hlt] at hn
    omega

theorem Tiles.extend {l' : List Extent} {n s : Nat} (h : Tiles l n)
    (hc : ∀ a, cover l' a = cover l a + cover [⟨n, s⟩] a) : Tiles l' (n + s) := by
  intro a
  rw [hc a, h a]
  by_cases h1 : a < n
  · rw [if_pos h1, if_pos (by omega), cover_zero (by omega)]
  · by_cases h2 : a < n + s
    · rw [if_neg h1, if_pos h2, cover_one (by omega)]
    · rw [if_neg h1, if_neg h2, cover_zero (by omega)]

/-! ## Cover of a list of optional extents -/

private theorem cover_filterMap_cons {α : Type} (f : α → Option Extent) (w : α) (l : List α)
    (a : Nat) : cover ((w :: l).filterMap f) a
      = cover (f w).toList a + cover (l.filterMap f) a := by
  cases hw : f w with
  | none => simp [hw]
  | some e =>
    rw [List.filterMap_cons_some hw, cover_cons e (l.filterMap f)]
    exact Nat.add_comm _ _

/-- Writing one cell of a table of optional extents exchanges the old cell's
cover for the new one's. -/
theorem cover_filterMap_set {α : Type} (f : α → Option Extent) (y : α) (a : Nat) :
    ∀ (l : List α) (i : Nat) (x : α), l[i]? = some x →
      cover ((l.set i y).filterMap f) a + cover (f x).toList a
        = cover (l.filterMap f) a + cover (f y).toList a
  | [], i, x, h => by simp at h
  | z :: l, 0, x, h => by
    obtain rfl : z = x := by simpa using h
    rw [List.set_cons_zero, cover_filterMap_cons f y, cover_filterMap_cons f z]
    omega
  | z :: l, i + 1, x, h => by
    have ih := cover_filterMap_set f y a l i x (by simpa using h)
    rw [List.set_cons_succ, cover_filterMap_cons f z, cover_filterMap_cons f z]
    omega

theorem filterMap_set_none {α : Type} {f : α → Option Extent} {x y : α} :
    ∀ {l : List α} {i : Nat}, l[i]? = some x → f x = some e → f y = none →
      (l.filterMap f).Perm (e :: (l.set i y).filterMap f)
  | [], i, h, _, _ => by simp at h
  | z :: l, 0, h, hx, hy => by
    obtain rfl : z = x := by simpa using h
    rw [List.set_cons_zero, List.filterMap_cons_some hx, List.filterMap_cons_none hy]
  | z :: l, i + 1, h, hx, hy => by
    have ih := filterMap_set_none (l := l) (i := i) (by simpa using h) hx hy
    rw [List.set_cons_succ]
    cases hz : f z with
    | none => rw [List.filterMap_cons_none hz, List.filterMap_cons_none hz]; exact ih
    | some d =>
      rw [List.filterMap_cons_some hz, List.filterMap_cons_some hz]
      exact (ih.cons d).trans (List.Perm.swap e d _)

/-! ## Cut points -/

/-- No cut point of `B` lies strictly inside `e`. -/
def Uncut (B : Nat → Prop) (e : Extent) : Prop :=
  ∀ c, B c → ¬ (e.base < c ∧ c < e.stop)

/-- If `y` starts where `x` stops, it does so at a cut point. -/
def Apart (B : Nat → Prop) (x y : Extent) : Prop := x.stop = y.base → B y.base

variable {B : Nat → Prop}

theorem Uncut.sub {e' : Extent} (h : Uncut B e) (hb : e.base ≤ e'.base) (hs : e'.stop ≤ e.stop) :
    Uncut B e' := by
  intro c hc hin
  exact h c hc (by omega)

/-- Two uncut extents that meet off the cut points join to an uncut one. -/
theorem Uncut.join {b s t : Nat} (h1 : Uncut B ⟨b, s⟩) (h2 : Uncut B ⟨b + s, t⟩)
    (hb : ¬ B (b + s)) : Uncut B ⟨b, s + t⟩ := by
  intro c hc hin
  simp only [stop] at hin
  rcases Nat.lt_trichotomy c (b + s) with hlt | heq | hgt
  · exact h1 c hc (by simp only [stop]; omega)
  · exact hb (heq ▸ hc)
  · exact h2 c hc (by simp only [stop]; omega)

end Extent

end Duckbox.Lib
