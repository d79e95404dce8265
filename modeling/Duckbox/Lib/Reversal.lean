import Mathlib.Data.List.DropRight

/-!
# Groups given back in reverse

Things come one at a time and wait. One that confirms releases, as a group, those
that wait up to the last marked one; those behind the mark wait on. Each group is
given out last first.

Whatever comes is in a group or waits, in the order of arrival (`arrivals_all`),
so what is given out and what waits are together what came (`output_perm`).
-/

namespace Duckbox.Lib

variable {α : Type}

/-- The groups released and what waits, all in the order of arrival. -/
structure Groups (α : Type) where
  released : List (List α)
  waiting : List α

namespace Groups

/-- Nothing has come. -/
def empty : Groups α := ⟨[], []⟩

variable (marked confirms : α → Bool)

/-- One more comes. -/
def arrive (g : Groups α) (a : α) : Groups α :=
  let waiting := g.waiting ++ [a]
  if confirms a = true ∧ waiting.rdropWhile (!marked ·) ≠ [] then
    ⟨g.released ++ [waiting.rdropWhile (!marked ·)], waiting.rtakeWhile (!marked ·)⟩
  else ⟨g.released, waiting⟩

/-- All that is given out, each group last first. -/
def output (g : Groups α) : List α := (g.released.map List.reverse).flatten

@[simp] theorem empty_output : (empty : Groups α).output = [] := rfl

variable {marked confirms}

theorem output_concat (released : List (List α)) (group waiting waiting' : List α) :
    output ⟨released ++ [group], waiting⟩ = output ⟨released, waiting'⟩ ++ group.reverse := by
  unfold output
  rw [List.map_append, List.flatten_append, List.map_singleton, List.flatten_singleton]

theorem arrive_all (g : Groups α) (a : α) :
    (g.arrive marked confirms a).released.flatten ++ (g.arrive marked confirms a).waiting =
      g.released.flatten ++ g.waiting ++ [a] := by
  unfold arrive
  simp only
  split
  · rw [List.flatten_append, List.flatten_singleton, List.append_assoc,
      List.rdropWhile_append_rtakeWhile, List.append_assoc]
  · rw [List.append_assoc]

/-- Each that came is in one group or waits. -/
theorem arrivals_all (l : List α) : ∀ g : Groups α,
    (l.foldl (arrive marked confirms) g).released.flatten ++
        (l.foldl (arrive marked confirms) g).waiting =
      g.released.flatten ++ g.waiting ++ l := by
  induction l with
  | nil => intro g; exact (List.append_nil _).symm
  | cons a l ih =>
    intro g
    rw [List.foldl_cons, ih, arrive_all, List.append_assoc _ [a]]
    rfl

/-- Last first or not, the same is given out. -/
theorem output_perm (g : Groups α) : g.output.Perm g.released.flatten := by
  unfold output
  induction g.released with
  | nil => exact .refl _
  | cons group rest ih => exact (List.reverse_perm group).append ih

end Groups

end Duckbox.Lib
