import Mathlib.Algebra.Order.BigOperators.Group.Finset
import Mathlib.Data.Fintype.BigOperators

/-!
# Counted graphs

What reference counting rests on. A count kept beside a finite table changes,
when one entry does, by what that entry contributes (`sum_change`). And when a
node is live for its own sake or because a live node holds it, and no node holds
itself through others, the live nodes are those reached from the ones live for
their own sake (`live_iff_reached`): without a cycle a count of zero and being
out of reach are the same.
-/

namespace Duckbox.Lib

variable {α : Type}

section Sums

variable [Fintype α]

/-! ## Sums that change at one index -/

theorem sum_change [DecidableEq α] {f g : α → Nat} {x : α} (h : ∀ y, y ≠ x → g y = f y) :
    ∑ y, g y + f x = ∑ y, f y + g x := by
  have hrest : ∑ y ∈ Finset.univ.erase x, g y = ∑ y ∈ Finset.univ.erase x, f y := by
    apply Finset.sum_congr rfl
    intro y hy
    exact h y (Finset.ne_of_mem_erase hy)
  rw [← Finset.add_sum_erase _ g (Finset.mem_univ x),
    ← Finset.add_sum_erase _ f (Finset.mem_univ x), hrest]
  omega

/-- How many indices satisfy `q`. -/
def count (q : α → Prop) [DecidablePred q] : Nat := ∑ x, if q x then 1 else 0

theorem count_congr {q r : α → Prop} [DecidablePred q] [DecidablePred r] (h : ∀ x, r x ↔ q x) :
    count r = count q := by
  apply Finset.sum_congr rfl
  intro x _
  exact if_congr (h x) rfl rfl

theorem count_change [DecidableEq α] {q r : α → Prop} [DecidablePred q] [DecidablePred r] {x : α}
    (h : ∀ y, y ≠ x → (r y ↔ q y)) :
    count r + (if q x then 1 else 0) = count q + (if r x then 1 else 0) :=
  sum_change (f := fun y => if q y then 1 else 0) (g := fun y => if r y then 1 else 0)
    fun y hy => if_congr (h y hy) rfl rfl

theorem count_le {q r : α → Prop} [DecidablePred q] [DecidablePred r] (h : ∀ x, r x → q x) :
    count r ≤ count q := by
  apply Finset.sum_le_sum
  intro x _
  by_cases hr : r x
  · rw [if_pos hr, if_pos (h x hr)]
  · rw [if_neg hr]
    exact Nat.zero_le _

theorem count_lt {q r : α → Prop} [DecidablePred q] [DecidablePred r] {x : α}
    (h : ∀ y, r y → q y) (hq : q x) (hr : ¬ r x) : count r < count q := by
  refine Finset.sum_lt_sum ?_ ⟨x, Finset.mem_univ x, ?_⟩
  · intro y _
    by_cases hy : r y
    · rw [if_pos hy, if_pos (h y hy)]
    · rw [if_neg hy]
      exact Nat.zero_le _
  · rw [if_pos hq, if_neg hr]
    exact Nat.one_pos

theorem length_eq_sum_count [DecidableEq α] (l : List α) : l.length = ∑ x, l.count x := by
  have hcard := Multiset.sum_count_eq_card (s := Finset.univ) (m := (l : Multiset α))
    fun a _ => Finset.mem_univ a
  simp only [Multiset.coe_count, Multiset.coe_card] at hcard
  exact hcard.symm

theorem count_pos_iff {q : α → Prop} [DecidablePred q] : 0 < count q ↔ ∃ x, q x := by
  constructor
  · intro h
    obtain ⟨x, _, hx⟩ := Finset.exists_ne_zero_of_sum_ne_zero (Nat.ne_of_gt h)
    exact ⟨x, Decidable.byContradiction fun hq => hx (if_neg hq)⟩
  · rintro ⟨x, hx⟩
    have hle := Finset.single_le_sum (f := fun y => if q y then 1 else 0)
      (fun y _ => Nat.zero_le _) (Finset.mem_univ x)
    simp only [hx, if_true] at hle
    exact hle

end Sums

/-! ## Live nodes -/

theorem acyclic_of_edge {edge edge' : α → α → Prop} {a b : α}
    (hacyclic : ∀ x, ¬ Relation.TransGen edge x x) (hnot : ¬ Relation.ReflTransGen edge b a)
    (hsub : ∀ x y, edge' x y → edge x y ∨ (x = a ∧ y = b)) (x : α) :
    ¬ Relation.TransGen edge' x x := by
  -- a path with the new edge comes to its origin and leaves from its end
  have hpath : ∀ y, Relation.TransGen edge' x y → Relation.TransGen edge x y ∨
      (Relation.ReflTransGen edge x a ∧ Relation.ReflTransGen edge b y) := by
    intro y h
    induction h with
    | single hxy =>
      rcases hsub _ _ hxy with hold | ⟨rfl, rfl⟩
      · exact .inl (.single hold)
      · exact .inr ⟨.refl, .refl⟩
    | tail _ hyz ih =>
      rcases hsub _ _ hyz with hold | ⟨rfl, rfl⟩
      · rcases ih with hxy | ⟨hxa, hby⟩
        · exact .inl (hxy.tail hold)
        · exact .inr ⟨hxa, hby.tail hold⟩
      · rcases ih with hxy | ⟨hxa, _⟩
        · exact .inr ⟨hxy.to_reflTransGen, .refl⟩
        · exact .inr ⟨hxa, .refl⟩
  intro h
  rcases hpath x h with hxx | ⟨hxa, hbx⟩
  · exact hacyclic x hxx
  · exact hnot (hbx.trans hxa)

/-- Live nodes of a finite graph without cycles. -/
theorem live_iff_reached [Finite α] {edge : α → α → Prop} {live root : α → Prop}
    (hacyclic : ∀ a, ¬ Relation.TransGen edge a a)
    (hlive : ∀ b, live b ↔ root b ∨ ∃ a, live a ∧ edge a b) (b : α) :
    live b ↔ ∃ r, root r ∧ Relation.ReflTransGen edge r b := by
  constructor
  · -- up the edges, which ends because the graph is finite and has no cycle
    have hirrefl : Std.Irrefl (Relation.TransGen edge) := ⟨hacyclic⟩
    have hwf : WellFounded (Relation.TransGen edge) := Finite.wellFounded_of_trans_of_irrefl _
    induction b using hwf.induction with
    | _ b ih =>
      intro hb
      rcases (hlive b).mp hb with hroot | ⟨a, ha, hab⟩
      · exact ⟨b, hroot, .refl⟩
      · obtain ⟨r, hr, hra⟩ := ih a (.single hab) ha
        exact ⟨r, hr, hra.tail hab⟩
  · rintro ⟨r, hr, hrb⟩
    induction hrb with
    | refl => exact (hlive r).mpr (.inl hr)
    | tail _ hab ih => exact (hlive _).mpr (.inr ⟨_, ih, hab⟩)

end Duckbox.Lib
