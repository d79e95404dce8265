import Mathlib.Data.List.Nodup

/-!
# Lists linked through a table

A list whose elements are slots of a table, each with the slot of the next. `Path` says
what is come to between two places; the last of a path may be pointed elsewhere
(`Path.retarget`). A search keeps the slot before the one it looks at, or none at the head.
-/

namespace Duckbox.Lib

variable {ι : Type} {next next' : ι → Option ι} {s t : Option ι} {a b l : List ι} {i k : ι}

/-- From `s` on these slots are come to, and then `t`. -/
def Path (next : ι → Option ι) : Option ι → List ι → Option ι → Prop
  | s, [], t => s = t
  | s, i :: l, t => s = some i ∧ Path next (next i) l t

theorem Path.congr (h : ∀ i ∈ l, next i = next' i) : ∀ {s : Option ι}, Path next s l t →
    Path next' s l t := by
  induction l with
  | nil => intro s hl; exact hl
  | cons i l ih =>
    intro s hl
    rw [List.forall_mem_cons] at h
    exact ⟨hl.1, h.1 ▸ ih h.2 hl.2⟩

theorem path_append : ∀ {s : Option ι},
    Path next s (a ++ b) t ↔ ∃ m, Path next s a m ∧ Path next m b t := by
  induction a with
  | nil => simp [Path]
  | cons i a ih => simp [Path, ih, and_assoc]

section

variable [DecidableEq ι]

theorem Path.retarget (h : Path next s (a ++ [k]) t) (hk : k ∉ a) (t' : Option ι) :
    Path (Function.update next k t') s (a ++ [k]) t' := by
  obtain ⟨m, ha, rfl, -⟩ := path_append.mp h
  refine path_append.mpr ⟨some k, ha.congr fun j hj => ?_, rfl, Function.update_self ..⟩
  rw [Function.update_of_ne (ne_of_mem_of_not_mem hj hk)]

theorem Path.update_of_not_mem (h : Path next s l t) (hi : i ∉ l) (x : Option ι) :
    Path (Function.update next i x) s l t :=
  h.congr fun j hj => by rw [Function.update_of_ne (ne_of_mem_of_not_mem hj hi)]

end

/-- A search along the list, with the slot before what is found. -/
def search (p : ι → Bool) (next : ι → Option ι) : Nat → Option ι → Option ι → Option (Option ι × ι)
  | passes + 1, prev, some i =>
    if p i then some (prev, i) else search p next passes (some i) (next i)
  | _, _, _ => none

/-- The end of the list. -/
def lastSlot (next : ι → Option ι) : Nat → Option ι → Option ι
  | passes + 1, some i => if (next i).isNone then some i else lastSlot next passes (next i)
  | _, _ => none

theorem Path.lastSlot_eq {passes : Nat} : ∀ {s : Option ι} {l : List ι},
    Path next s l none → l.length ≤ passes → lastSlot next passes s = l.getLast? := by
  induction passes with
  | zero =>
    intro s l _ hle
    rw [List.eq_nil_of_length_eq_zero (Nat.le_zero.mp hle)]
    rfl
  | succ passes ih =>
    rintro s (_ | ⟨i, l⟩) hl hle
    · rw [show s = none from hl]
      rfl
    · obtain ⟨rfl, hl⟩ := hl
      have hrest := ih hl (Nat.le_of_succ_le_succ hle)
      cases l with
      | nil =>
        show (if (next i).isNone then _ else _) = _
        rw [show next i = none from hl]
        rfl
      | cons k l =>
        show (if (next i).isNone then _ else _) = _
        rw [hrest, hl.1]
        rfl

/-- The first that is wanted is found, if there is one. -/
theorem Path.search_eq {p : ι → Bool} {passes : Nat} : ∀ {s : Option ι} {l : List ι}
    (before : List ι), Path next s l none → l.length ≤ passes →
    (search p next passes before.getLast? s = none ∧ ∀ i ∈ l, p i = false) ∨
    ∃ a i b, l = a ++ i :: b ∧ (∀ j ∈ a, p j = false) ∧ p i = true ∧
      search p next passes before.getLast? s = some ((before ++ a).getLast?, i) := by
  induction passes with
  | zero =>
    intro s l before _ hle
    rw [List.eq_nil_of_length_eq_zero (Nat.le_zero.mp hle)]
    exact .inl ⟨rfl, by simp⟩
  | succ passes ih =>
    rintro s (_ | ⟨i, l⟩) before hl hle
    · rw [show s = none from hl]
      exact .inl ⟨rfl, by simp⟩
    · obtain ⟨rfl, hl⟩ := hl
      unfold search
      cases hp : p i with
      | true => exact .inr ⟨[], i, l, rfl, by simp, hp, by simp⟩
      | false =>
        rw [if_neg Bool.false_ne_true, show some i = (before ++ [i]).getLast? by simp]
        rcases ih (before ++ [i]) hl (Nat.le_of_succ_le_succ hle) with hnone | hfound
        · exact .inl ⟨hnone.1, List.forall_mem_cons.mpr ⟨hp, hnone.2⟩⟩
        · obtain ⟨a, j, b, rfl, ha, hj, heq⟩ := hfound
          rw [List.append_assoc] at heq
          exact .inr ⟨i :: a, j, b, rfl, List.forall_mem_cons.mpr ⟨hp, ha⟩, hj, heq⟩

end Duckbox.Lib
