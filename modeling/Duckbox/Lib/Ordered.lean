import Duckbox.Lib.Loop
import Mathlib.Algebra.Order.Ring.Int
import Mathlib.Data.List.Basic
import Mathlib.Data.List.InsertIdx
import Mathlib.Data.List.Pairwise

/-!
# Lists kept in order

A list sorted by a key, not strictly. A new element goes before the first one
with a greater key (`insertBy`), which keeps the list sorted and the elements of
one key in the order they came in. What lies below a limit is a first part of
such a list, so taking from the front while the keys are below it takes exactly
that (`takeWhile_lt`, `dropWhile_lt`); from the back, what lies above a limit
(`takeWhile_gt`, `dropWhile_gt`).
-/

namespace Duckbox.Lib

variable {α β : Type} [LinearOrder β] {key : α → β} {l : List α} {x : α}

/-- The keys do not fall along the list. -/
def SortedBy (key : α → β) (l : List α) : Prop := l.Pairwise fun a b => key a ≤ key b

/-- The place of a new element. -/
def insertBy (key : α → β) (x : α) (l : List α) : List α :=
  l.insertIdx (l.findIdx fun a => decide (key x < key a)) x

theorem insertBy_perm (key : α → β) (x : α) (l : List α) : (insertBy key x l).Perm (x :: l) :=
  List.perm_insertIdx x l List.findIdx_le_length

theorem mem_insertBy {a : α} : a ∈ insertBy key x l ↔ a = x ∨ a ∈ l := by
  rw [(insertBy_perm key x l).mem_iff, List.mem_cons]

theorem insertBy_cons_of_lt {a : α} (h : key x < key a) :
    insertBy key x (a :: l) = x :: a :: l := by
  unfold insertBy
  rw [List.findIdx_cons]
  simp [h]

theorem insertBy_cons_of_le {a : α} (h : key a ≤ key x) :
    insertBy key x (a :: l) = a :: insertBy key x l := by
  unfold insertBy
  rw [List.findIdx_cons]
  simp [not_lt.mpr h]

theorem SortedBy.insertBy (h : SortedBy key l) : SortedBy key (Lib.insertBy key x l) := by
  induction l with
  | nil => exact List.pairwise_singleton _ x
  | cons a l ih =>
    obtain ⟨hfirst, hrest⟩ := List.pairwise_cons.mp h
    rcases lt_or_ge (key x) (key a) with hlt | hle
    · rw [insertBy_cons_of_lt hlt]
      refine List.pairwise_cons.mpr ⟨fun b hb => ?_, h⟩
      rcases List.mem_cons.mp hb with rfl | hb
      · exact hlt.le
      · exact hlt.le.trans (hfirst b hb)
    · rw [insertBy_cons_of_le hle]
      refine List.pairwise_cons.mpr ⟨fun b hb => ?_, ih hrest⟩
      rcases mem_insertBy.mp hb with rfl | hb
      · exact hle
      · exact hfirst b hb

theorem SortedBy.congr {key' : α → β} (h : SortedBy key l) (hkey : ∀ a ∈ l, key' a = key a) :
    SortedBy key' l := by
  refine List.Pairwise.imp_of_mem (fun {a b} ha hb hab => ?_) h
  rw [hkey a ha, hkey b hb]
  exact hab

theorem SortedBy.filter (p : α → Bool) (h : SortedBy key l) : SortedBy key (l.filter p) :=
  List.Pairwise.filter p h

/-! ## From the front -/

theorem takeWhile_lt (h : SortedBy key l) (limit : β) :
    (l.takeWhile fun a => decide (key a < limit)) = l.filter fun a => decide (key a < limit) := by
  induction l with
  | nil => rfl
  | cons a l ih =>
    obtain ⟨hfirst, hrest⟩ := List.pairwise_cons.mp h
    rcases lt_or_ge (key a) limit with hlt | hle
    · simp only [List.takeWhile_cons, List.filter_cons, hlt, decide_true, if_true, ih hrest]
    · -- nothing that follows is below the limit
      have hnone : ∀ b ∈ a :: l, ¬ decide (key b < limit) = true := by
        intro b hb
        rw [decide_eq_true_eq, not_lt]
        rcases List.mem_cons.mp hb with rfl | hb
        · exact hle
        · exact hle.trans (hfirst b hb)
      rw [List.filter_eq_nil_iff.mpr hnone, List.takeWhile_cons,
        if_neg (hnone a List.mem_cons_self)]

theorem dropWhile_lt (h : SortedBy key l) (limit : β) :
    (l.dropWhile fun a => decide (key a < limit)) =
      l.filter fun a => !decide (key a < limit) := by
  induction l with
  | nil => rfl
  | cons a l ih =>
    obtain ⟨hfirst, hrest⟩ := List.pairwise_cons.mp h
    rcases lt_or_ge (key a) limit with hlt | hle
    · simp only [List.dropWhile_cons, List.filter_cons, hlt, decide_true, if_true, Bool.not_true,
        Bool.false_eq_true, if_false, ih hrest]
    · have hall : ∀ b ∈ a :: l, (!decide (key b < limit)) = true := by
        intro b hb
        rw [Bool.not_eq_true', decide_eq_false_iff_not, not_lt]
        rcases List.mem_cons.mp hb with rfl | hb
        · exact hle
        · exact hle.trans (hfirst b hb)
      rw [List.filter_eq_self.mpr hall, List.dropWhile_cons,
        if_neg (by simpa using hall a List.mem_cons_self)]

/-! ## From the back -/

theorem SortedBy.reverse (h : SortedBy key l) :
    SortedBy (fun a => OrderDual.toDual (key a)) l.reverse :=
  List.pairwise_reverse.mpr h

theorem takeWhile_gt (h : SortedBy key l) (limit : β) :
    (l.reverse.takeWhile fun a => decide (limit < key a)) =
      (l.filter fun a => decide (limit < key a)).reverse := by
  rw [← List.filter_reverse]
  exact takeWhile_lt h.reverse (OrderDual.toDual limit)

theorem dropWhile_gt (h : SortedBy key l) (limit : β) :
    (l.reverse.dropWhile fun a => decide (limit < key a)) =
      (l.filter fun a => !decide (limit < key a)).reverse := by
  rw [← List.filter_reverse]
  exact dropWhile_lt h.reverse (OrderDual.toDual limit)

end Duckbox.Lib

/-!
## Bubble sort of a part of a list

`bubbleUp key o n l` is the two counted loops that sort the `n` elements from
place `o` on by compare-and-swap of neighbours. A pass carries the greatest
element of what it has gone through along (`bubblePass_spec`), so after each
pass one more element is in its place at the end, and what comes out is a
sorted permutation of the part, between what was before and after it
(`bubbleUp_spec`). `bubbleDown` compares the other way.
-/

namespace Duckbox.Lib

variable {α β : Type} [LinearOrder β] {key : α → β}

/-- Compare and swap at places `j` and `j + 1`. -/
def compareSwap (key : α → β) (l : List α) (j : Nat) : List α :=
  match l[j]?, l[j + 1]? with
  | some a, some b => if key b < key a then (l.set j b).set (j + 1) a else l
  | _, _ => l

/-- The inner loop, over `n` pairs from place `o` on. -/
def bubblePass (key : α → β) (o : Nat) (l : List α) (n : Nat) : List α :=
  forUpTo (fun l j => compareSwap key l (o + j)) l n

/-- The smallest first. -/
def bubbleUp (key : α → β) (o n : Nat) (l : List α) : List α :=
  forUpTo (fun l i => bubblePass key o l (n - (i + 1))) l (n - 1)

/-- The greatest first. -/
def bubbleDown (key : α → β) (o n : Nat) (l : List α) : List α :=
  bubbleUp (fun a => OrderDual.toDual (key a)) o n l

theorem compareSwap_middle (pre : List α) (a b : α) (post : List α) :
    compareSwap key (pre ++ a :: b :: post) pre.length
      = pre ++ (if key b < key a then b :: a :: post else a :: b :: post) := by
  unfold compareSwap
  have hfirst : (pre ++ a :: b :: post)[pre.length]? = some a := by simp
  have hsecond : (pre ++ a :: b :: post)[pre.length + 1]? = some b := by
    rw [List.getElem?_append_right (Nat.le_succ _)]
    simp
  rw [hfirst, hsecond]
  show (if key b < key a then _ else _) = _
  split
  · rw [List.set_append_right _ _ (Nat.le_refl _), Nat.sub_self,
      List.set_append_right _ _ (Nat.le_add_right _ 1), Nat.add_sub_cancel_left]
    rfl
  · rfl

/-- A pass over a nonempty part: its greatest element goes to the end. -/
theorem bubblePass_spec (key : α → β) (pre part post : List α) {n : Nat}
    (hn : part.length = n + 1) :
    ∃ front top, bubblePass key pre.length (pre ++ part ++ post) n
        = pre ++ front ++ top :: post ∧
      (front ++ [top]).Perm part ∧ ∀ a ∈ front, key a ≤ key top := by
  -- after `k` pairs the greatest of the first `k + 1` elements is at place `k`
  have hpass : ∃ front top, bubblePass key pre.length (pre ++ part ++ post) n
        = pre ++ front ++ top :: (part.drop (n + 1) ++ post) ∧ front.length = n ∧
      (front ++ [top]).Perm (part.take (n + 1)) ∧ ∀ a ∈ front, key a ≤ key top := by
    refine forUpTo_inv (P := fun k l => ∃ front top,
      l = pre ++ front ++ top :: (part.drop (k + 1) ++ post) ∧ front.length = k ∧
      (front ++ [top]).Perm (part.take (k + 1)) ∧ ∀ a ∈ front, key a ≤ key top) ?_ ?_
    · obtain ⟨a, rest, rfl⟩ := List.exists_cons_of_length_pos (show 0 < part.length by omega)
      exact ⟨[], a, by simp, rfl, by simp, by simp⟩
    · rintro k l hk ⟨front, top, rfl, hlength, hperm, htop⟩
      have hlt : k + 1 < part.length := by omega
      have htake : part.take (k + 2) = part.take (k + 1) ++ [part[k + 1]] :=
        List.take_succ_eq_append_getElem hlt
      have hplace : pre.length + k = (pre ++ front).length := by
        rw [List.length_append, hlength]
      rw [List.drop_eq_getElem_cons hlt, List.cons_append, hplace, compareSwap_middle]
      split
      next hswap =>
        refine ⟨front ++ [part[k + 1]], top, by simp, by simp [hlength], ?_, ?_⟩
        · rw [htake, List.append_assoc]
          refine List.Perm.trans (List.Perm.append_left front (List.Perm.swap top _ [])) ?_
          rw [← List.singleton_append, ← List.append_assoc]
          exact hperm.append_right _
        · intro a ha
          rcases List.mem_append.mp ha with ha | ha
          · exact htop a ha
          · rw [List.mem_singleton.mp ha]
            exact hswap.le
      next hkeep =>
        refine ⟨front ++ [top], part[k + 1], by simp, by simp [hlength], ?_, ?_⟩
        · rw [htake]
          exact hperm.append_right _
        · intro a ha
          have hle : key top ≤ key part[k + 1] := not_lt.mp hkeep
          rcases List.mem_append.mp ha with ha | ha
          · exact (htop a ha).trans hle
          · rw [List.mem_singleton.mp ha]
            exact hle
  obtain ⟨front, top, heq, -, hperm, htop⟩ := hpass
  rw [List.drop_of_length_le (by omega), List.nil_append] at heq
  rw [List.take_of_length_le (by omega)] at hperm
  exact ⟨front, top, heq, hperm, htop⟩

/-- The part comes out sorted, what is around it is left alone. -/
theorem bubbleUp_spec (key : α → β) (pre part post : List α) :
    ∃ sorted, bubbleUp key pre.length part.length (pre ++ part ++ post) = pre ++ sorted ++ post ∧
      sorted.Perm part ∧ SortedBy key sorted := by
  -- after `i` passes the last `i` elements are in place, above all the others
  have hpasses : ∃ front back,
      bubbleUp key pre.length part.length (pre ++ part ++ post) = pre ++ front ++ (back ++ post) ∧
      back.length = part.length - 1 ∧ (front ++ back).Perm part ∧ SortedBy key back ∧
      ∀ a ∈ front, ∀ b ∈ back, key a ≤ key b := by
    refine forUpTo_inv (P := fun i l => ∃ front back, l = pre ++ front ++ (back ++ post) ∧
      back.length = i ∧ (front ++ back).Perm part ∧ SortedBy key back ∧
      ∀ a ∈ front, ∀ b ∈ back, key a ≤ key b) ?_ ?_
    · exact ⟨part, [], rfl, rfl, by simp, List.Pairwise.nil, by simp⟩
    · rintro i l hi ⟨front, back, rfl, hlength, hperm, hsorted, habove⟩
      have hfront : front.length = part.length - (i + 1) + 1 := by
        have := hperm.length_eq
        rw [List.length_append, hlength] at this
        omega
      obtain ⟨rest, top, heq, hrest, htop⟩ := bubblePass_spec key pre front (back ++ post) hfront
      have hmem : ∀ a, a ∈ rest ∨ a = top → a ∈ front := by
        intro a ha
        refine hrest.mem_iff.mp (List.mem_append.mpr ?_)
        exact ha.imp id List.mem_singleton.mpr
      refine ⟨rest, top :: back, heq, by rw [List.length_cons, hlength], ?_, ?_, ?_⟩
      · rw [← List.singleton_append, ← List.append_assoc]
        exact (hrest.append_right back).trans hperm
      · exact List.pairwise_cons.mpr ⟨habove top (hmem top (.inr rfl)), hsorted⟩
      · intro a ha b hb
        rcases List.mem_cons.mp hb with rfl | hb
        · exact htop a ha
        · exact habove a (hmem a (.inl ha)) b hb
  obtain ⟨front, back, heq, hlength, hperm, hsorted, habove⟩ := hpasses
  refine ⟨front ++ back, by rw [heq]; simp, hperm, ?_⟩
  have hone : front.length ≤ 1 := by
    have := hperm.length_eq
    rw [List.length_append, hlength] at this
    omega
  refine List.pairwise_append.mpr ⟨?_, hsorted, habove⟩
  match front, hone with
  | [], _ => exact List.Pairwise.nil
  | [a], _ => exact List.pairwise_singleton _ a

end Duckbox.Lib
