import Mathlib.Tactic.Common

/-!
# Loops over chunks

A component that is given its input chunk by chunk and loops over each, taking
what it can from the front of what remains, until nothing does
(`loopWithin`, with the number of passes as fuel) or a pass stops for good.

What every pass keeps holds when the loop ends (`loopWithin_inv`). `overPieces` takes a
list in pieces of one length.
-/

namespace Duckbox.Lib

variable {σ β ε : Type}

/-- What a pass over what remains comes to. -/
inductive Pass (σ β ε : Type) where
  | again (s : σ) (rest : List β)
  | stop (e : ε)

/-- The loop in a number of passes, `none` if they are too few. -/
def loopWithin (pass : σ → List β → Pass σ β ε) : Nat → σ → List β → Option (Except ε σ)
  | _, s, [] => some (.ok s)
  | 0, _, _ :: _ => none
  | fuel + 1, s, b :: rest =>
    match pass s (b :: rest) with
    | .again s rest => loopWithin pass fuel s rest
    | .stop e => some (.error e)

section

variable {pass : σ → List β → Pass σ β ε}

theorem loopWithin_again {fuel : Nat} {s s' : σ} {bs rest : List β} (hbs : bs ≠ [])
    (h : pass s bs = .again s' rest) :
    loopWithin pass (fuel + 1) s bs = loopWithin pass fuel s' rest := by
  cases bs with
  | nil => exact absurd rfl hbs
  | cons b bs => simp only [loopWithin, h]

/-- The rule of the loop: every pass that does not stop makes what remains shorter
and keeps the invariant. -/
theorem loopWithin_inv {P : σ → List β → Prop} {E : Prop}
    (hpass : ∀ {s bs}, bs ≠ [] → P s bs →
      (∃ s' rest, pass s bs = .again s' rest ∧ rest.length < bs.length ∧ P s' rest) ∨
        (∃ e, pass s bs = .stop e) ∧ E) :
    ∀ {fuel : Nat} {s : σ} {bs : List β}, bs.length ≤ fuel → P s bs →
      (∃ t, loopWithin pass fuel s bs = some (.ok t) ∧ P t []) ∨
        (∃ e, loopWithin pass fuel s bs = some (.error e)) ∧ E := by
  intro fuel
  induction fuel with
  | zero =>
    intro s bs hlen h
    obtain rfl := List.eq_nil_of_length_eq_zero (Nat.le_zero.mp hlen)
    exact .inl ⟨s, rfl, h⟩
  | succ fuel ih =>
    intro s bs hlen h
    cases bs with
    | nil => exact .inl ⟨s, rfl, h⟩
    | cons b bs =>
      rcases hpass (by simp) h with ⟨s', rest, hagain, hshort, hrest⟩ | ⟨⟨e, hstop⟩, hE⟩
      · rw [loopWithin_again (by simp) hagain]
        exact ih (by omega) hrest
      · exact .inr ⟨⟨e, by simp only [loopWithin, hstop]⟩, hE⟩

end

/-! ## Cutting a list -/

theorem piece_induction {n : Nat} (hn : 0 < n) {P : List β → Prop}
    (hshort : ∀ rest, rest.length < n → P rest)
    (hfull : ∀ rest, n ≤ rest.length → P (rest.drop n) → P rest) (rest : List β) : P rest := by
  by_cases h : rest.length < n
  · exact hshort rest h
  · exact hfull rest (Nat.not_lt.mp h) (piece_induction hn hshort hfull (rest.drop n))
termination_by rest.length
decreasing_by
  rw [List.length_drop]
  omega

/-- A loop that takes a list from the front, in pieces of `n` as long as there are so many. -/
def overPieces (n : Nat) (f : σ → List β → σ) (s : σ) (l : List β) : σ :=
  if l = [] ∨ n = 0 then s else overPieces n f (f s (l.take n)) (l.drop n)
termination_by l.length
decreasing_by
  rename_i h
  have hne : l.length ≠ 0 := fun h0 => h (.inl (List.eq_nil_of_length_eq_zero h0))
  have hn : n ≠ 0 := fun h0 => h (.inr h0)
  rw [List.length_drop]
  omega

theorem overPieces_step {n : Nat} (hn : n ≠ 0) {f : σ → List β → σ} (s : σ) {l : List β}
    (hl : l ≠ []) : overPieces n f s l = overPieces n f (f s (l.take n)) (l.drop n) := by
  rw [overPieces, if_neg (not_or_intro hl hn)]

theorem overPieces_inv {n : Nat} {f : σ → List β → σ} {P : σ → Prop}
    (hf : ∀ s piece, piece ≠ [] → piece.length ≤ n → P s → P (f s piece)) (s : σ) (l : List β)
    (h : P s) : P (overPieces n f s l) := by
  rw [overPieces]
  split
  · exact h
  · next hne =>
    have hpos : l.length ≠ 0 := fun h0 => hne (.inl (List.eq_nil_of_length_eq_zero h0))
    have hn : n ≠ 0 := fun h0 => hne (.inr h0)
    refine overPieces_inv hf _ _ (hf s _ ?_ ?_ h)
    · intro hnil
      have hlen := congrArg List.length hnil
      rw [List.length_take, List.length_nil] at hlen
      omega
    · rw [List.length_take]
      exact Nat.min_le_left _ _
termination_by l.length
decreasing_by
  rw [List.length_drop]
  omega

end Duckbox.Lib
