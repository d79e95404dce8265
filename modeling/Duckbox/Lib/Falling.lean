import Duckbox.Lib.Loop
import Mathlib

/-!
# What is put out from a height that falls

Every state has a height, and a step may put out one thing. Where what it puts out lies
below the height before the step and no lower than that after it (`Falls`), a run puts
out things that lie ever lower: a step's are its own (`count_emitted`).
-/

namespace Duckbox.Lib

variable {σ α β : Type}

/-- What a run puts out. -/
def emitted (step : σ → α → σ) (emit : σ → α → Option β) : σ → List α → List β
  | _, [] => []
  | s, a :: as => (emit s a).toList ++ emitted step emit (step s a) as

theorem emitted_append (step : σ → α → σ) (emit : σ → α → Option β) (pre post : List α) (s : σ) :
    emitted step emit s (pre ++ post) =
      emitted step emit s pre ++ emitted step emit (pre.foldl step s) post := by
  induction pre generalizing s with
  | nil => rfl
  | cons a pre ih => simp only [List.cons_append, emitted, ih, List.append_assoc, List.foldl_cons]

theorem Along.split {step : σ → α → σ} {ok : σ → α → Prop} {pre post : List α} :
    ∀ {s : σ}, Along step ok s (pre ++ post) →
      Along step ok s pre ∧ Along step ok (pre.foldl step s) post := by
  induction pre with
  | nil => intro s h; exact ⟨trivial, h⟩
  | cons a pre ih =>
    intro s h
    obtain ⟨hpre, hpost⟩ := ih h.2
    exact ⟨⟨h.1, hpre⟩, hpost⟩

variable [LinearOrder β]

/-- The height does not rise, and what is put out lies between. -/
structure Falls (step : σ → α → σ) (emit : σ → α → Option β) (height : σ → β) (s : σ) (a : α) :
    Prop where
  falls : height (step s a) ≤ height s
  between : ∀ x ∈ emit s a, height (step s a) ≤ x ∧ x < height s

section

variable {step : σ → α → σ} {emit : σ → α → Option β} {height : σ → β}

theorem emitted_between {as : List α} : ∀ {s : σ}, Along step (Falls step emit height) s as →
    height (as.foldl step s) ≤ height s ∧
      ∀ x ∈ emitted step emit s as, height (as.foldl step s) ≤ x ∧ x < height s := by
  induction as with
  | nil => intro s _; exact ⟨le_refl _, fun x hx => absurd hx List.not_mem_nil⟩
  | cons a as ih =>
    intro s h
    obtain ⟨hfalls, hrest⟩ := ih h.2
    refine ⟨le_trans hfalls h.1.falls, fun x hx => ?_⟩
    rcases List.mem_append.mp hx with hnow | hlater
    · obtain ⟨hlow, hhigh⟩ := h.1.between x (Option.mem_toList.mp hnow)
      exact ⟨le_trans hfalls hlow, hhigh⟩
    · obtain ⟨hlow, hhigh⟩ := hrest x hlater
      exact ⟨hlow, lt_of_lt_of_le hhigh h.1.falls⟩

/-- Of what lies in reach of one step, a run puts out once what this step does, and the
rest not at all. -/
theorem count_emitted {pre post : List α} {s : σ} {a : α} {x : β}
    (h : Along step (Falls step emit height) s (pre ++ a :: post))
    (hlow : height (step (pre.foldl step s) a) ≤ x ∨ x ∈ emit (pre.foldl step s) a)
    (hhigh : x < height (pre.foldl step s)) :
    (emitted step emit s (pre ++ a :: post)).count x =
      if x ∈ emit (pre.foldl step s) a then 1 else 0 := by
  obtain ⟨hpre, hnow, hpost⟩ := h.split
  -- what came before lies no lower, what comes after lies below
  have hbefore : (emitted step emit s pre).count x = 0 :=
    List.count_eq_zero.mpr fun hx => not_lt.mpr ((emitted_between hpre).2 x hx).1 hhigh
  have hlow' : height (step (pre.foldl step s) a) ≤ x := hlow.elim id fun hx => (hnow.between x hx).1
  have hafter : (emitted step emit (step (pre.foldl step s) a) post).count x = 0 :=
    List.count_eq_zero.mpr fun hx => not_lt.mpr hlow' ((emitted_between hpost).2 x hx).2
  rw [emitted_append, List.count_append, hbefore]
  have hcons : emitted step emit (pre.foldl step s) (a :: post) =
      (emit (pre.foldl step s) a).toList ++ emitted step emit (step (pre.foldl step s) a) post := rfl
  rw [hcons, List.count_append, hafter]
  cases hemit : emit (pre.foldl step s) a with
  | none => simp
  | some y =>
    by_cases hxy : x = y
    · simp [hxy]
    · simp [Ne.symm hxy]

end

end Duckbox.Lib
