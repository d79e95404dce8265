import Duckbox.H264.ReferenceLists
import Duckbox.Lib.Alternation

/-!
# The order of the initial reference picture lists

A frame list is one or two sorted parts of the table, the short-term frames,
and a third, the long-term ones (`Listed`); the loops that gather and sort each
part give it (`sort_gathered`). A field list takes the fields of the sorted
entries by turns, the current parity first (`fieldsInOrder`), unless it has
more fields than places (`insertFields_spec`).

The index comparison that decides whether list 1 is swapped is a comparison of
whole entries: both lists have short-term and long-term entries, and both
parities, at the same places (`identicalLists_iff`).
-/

namespace Duckbox.H264

open Duckbox.Lib

/-! ## Sorted parts of the table -/

namespace References

variable {s : References} {β : Type} [LinearOrder β]

/-- The indices of the table entries that meet `q`. -/
def indices (s : References) (q : ReferenceFrame → Bool) : List Nat :=
  (List.range (s.numReferenceFrames + 1)).filter fun i => q (s.entry i)

theorem gather_eq (s : References) (q : ReferenceFrame → Bool) : s.gather q = s.indices q := by
  unfold gather indices
  refine forUpTo_inv
    (P := fun k l => l = (List.range k).filter fun i => q (s.entry i)) rfl ?_
  rintro k l - rfl
  rw [List.range_succ, List.filter_append]
  cases hq : q (s.entry k) with
  | true => simp [hq]
  | false => simp [hq]

/-- The entries that meet `q`, each once, in the order of a key. -/
structure Listed (s : References) (q : ReferenceFrame → Bool) (key : ReferenceFrame → β)
    (l : List Nat) : Prop where
  perm : l.Perm (s.indices q)
  sorted : SortedBy (fun i => key (s.entry i)) l

section Sorting

variable {α : Type} {index : α → Nat} {entry : Nat → α}

theorem appendUp_spec (s : References) (hindex : ∀ i, index (entry i) = i)
    (q : ReferenceFrame → Bool) (key : ReferenceFrame → β) (list : List α) :
    ∃ l, Listed s q key l ∧ s.appendUp index entry q key list = list ++ l.map entry := by
  obtain ⟨sorted, heq, hperm, hsorted⟩ :=
    bubbleUp_spec (fun e => key (s.entry (index e))) list ((s.gather q).map entry) []
  simp only [List.append_nil, List.length_map] at heq
  have hentry : ∀ e ∈ sorted, entry (index e) = e := by
    intro e he
    obtain ⟨i, -, rfl⟩ := List.mem_map.mp (hperm.mem_iff.mp he)
    rw [hindex]
  have hentries : (sorted.map index).map entry = sorted := by
    rw [List.map_map]
    exact (List.map_congr_left hentry).trans (List.map_id sorted)
  refine ⟨sorted.map index, ⟨?_, List.pairwise_map.mpr hsorted⟩, ?_⟩
  · have hmap : ((s.gather q).map entry).map index = s.gather q := by
      rw [List.map_map]
      exact (List.map_congr_left fun i _ => hindex i).trans (List.map_id _)
    rw [← gather_eq, ← hmap]
    exact hperm.map index
  · rw [hentries]
    exact heq

theorem appendDown_spec (s : References) (hindex : ∀ i, index (entry i) = i)
    (q : ReferenceFrame → Bool) (key : ReferenceFrame → β) (list : List α) :
    ∃ l, Listed s q (fun f => OrderDual.toDual (key f)) l ∧
      s.appendDown index entry q key list = list ++ l.map entry :=
  s.appendUp_spec hindex q (fun f => OrderDual.toDual (key f)) list

theorem shortTermPortions_spec (s : References) (hindex : ∀ i, index (entry i) = i)
    (q : ReferenceFrame → Bool) (picOrderCnt : Word) :
    ∃ lower upper,
      Listed s (fun f => q f && notAbove picOrderCnt f)
        (fun f => OrderDual.toDual f.picOrderCnt.toInt) lower ∧
      Listed s (fun f => q f && !notAbove picOrderCnt f) (fun f => f.picOrderCnt.toInt) upper ∧
      s.shortTermPortions index entry q picOrderCnt
        = ((lower ++ upper).map entry, (upper ++ lower).map entry) := by
  obtain ⟨lower, hlower, heq⟩ := s.appendDown_spec hindex (fun f => q f && notAbove picOrderCnt f)
    (fun f => f.picOrderCnt.toInt) []
  obtain ⟨upper, hupper, heq'⟩ := s.appendUp_spec hindex
    (fun f => q f && !notAbove picOrderCnt f) (fun f => f.picOrderCnt.toInt) (lower.map entry)
  refine ⟨lower, upper, hlower, hupper, ?_⟩
  rw [List.nil_append] at heq
  unfold shortTermPortions
  simp only [heq, heq', List.map_append, List.drop_left, List.take_left]

theorem Listed.guard (q : ReferenceFrame → Bool) (key : ReferenceFrame → β) {c : Bool}
    (h : c = false) : Listed s (fun f => c && q f) key [] := by
  subst h
  refine ⟨?_, List.Pairwise.nil⟩
  show List.Perm [] (s.indices fun f => false && q f)
  simp [indices]

end Sorting

theorem indices_append_perm {p q : ReferenceFrame → Bool}
    (h : ∀ i, i < s.numReferenceFrames + 1 → ¬ (p (s.entry i) = true ∧ q (s.entry i) = true)) :
    (s.indices p ++ s.indices q).Perm (s.indices fun f => p f || q f) := by
  have hall : ∀ l : List Nat, (∀ i ∈ l, ¬ (p (s.entry i) = true ∧ q (s.entry i) = true)) →
      ((l.filter fun i => p (s.entry i)) ++ l.filter fun i => q (s.entry i)).Perm
        (l.filter fun i => p (s.entry i) || q (s.entry i)) := by
    intro l
    induction l with
    | nil => intro _; exact List.Perm.refl _
    | cons i l ih =>
      intro hl
      have hi := hl i List.mem_cons_self
      have hrest := ih fun j hj => hl j (List.mem_cons_of_mem i hj)
      cases hp : p (s.entry i) with
      | true =>
        have hq : q (s.entry i) = false := by
          cases hq : q (s.entry i) with
          | true => exact absurd ⟨hp, hq⟩ hi
          | false => rfl
        simpa [hp, hq] using hrest
      | false =>
        cases hq : q (s.entry i) with
        | true =>
          simp only [List.filter_cons, hp, hq, Bool.false_or, if_true, Bool.false_eq_true,
            if_false]
          exact List.perm_middle.trans (hrest.cons i)
        | false => simpa [hp, hq] using hrest
  exact hall _ fun i hi => h i (List.mem_range.mp hi)

end References

/-! ## Equal indices, equal entries -/

/-- The details of an entry. -/
def ReferenceEntry.details (e : ReferenceEntry) : Bool × UsageCode :=
  (e.longTermReference, e.usageCode)

theorem eq_of_indices (list0 : List ReferenceEntry) :
    ∀ {list1 : List ReferenceEntry},
      list0.map ReferenceEntry.details = list1.map ReferenceEntry.details →
      list0.map (·.index) = list1.map (·.index) → list0 = list1 := by
  induction list0 with
  | nil => intro list1 h _; exact (List.map_eq_nil_iff.mp h.symm).symm
  | cons e list0 ih =>
    intro list1 hdetails hindices
    cases list1 with
    | nil => exact absurd hdetails (by simp)
    | cons e' list1 =>
      simp only [List.map_cons, List.cons.injEq] at hdetails hindices
      obtain rfl := ih hdetails.2 hindices.2
      obtain ⟨index, longTermReference, usageCode⟩ := e
      obtain ⟨index', longTermReference', usageCode'⟩ := e'
      obtain ⟨rfl, rfl⟩ := Prod.mk.inj hdetails.1
      obtain rfl : index = index' := hindices.1
      rfl

theorem identicalLists_iff {list0 list1 : List ReferenceEntry}
    (h : list0.map ReferenceEntry.details = list1.map ReferenceEntry.details) :
    identicalLists list0 list1 = true ↔ 1 < list1.length ∧ list0 = list1 := by
  unfold identicalLists
  rw [Bool.and_eq_true, Bool.and_eq_true, decide_eq_true_eq, beq_iff_eq, beq_iff_eq]
  constructor
  · rintro ⟨⟨hlength, -⟩, hindices⟩
    exact ⟨hlength, eq_of_indices list0 h hindices⟩
  · rintro ⟨hlength, rfl⟩
    exact ⟨⟨hlength, rfl⟩, rfl⟩

/-- The codes that are set. -/
def Usage.fieldCount (u : Usage) : Nat :=
  (u.has usedForTopShortTermReference).toNat + (u.has usedForTopLongTermReference).toNat
    + (u.has usedForBotShortTermReference).toNat + (u.has usedForBotLongTermReference).toNat

namespace References

variable {s : References}

/-! ## Fields by turns -/

/-- The entries for the fields of one parity that are marked, in list order. -/
def fieldsOf (s : References) (use : FieldUse) (longTerm : Bool) (l : List Nat) :
    List ReferenceEntry :=
  (l.filter fun i => (s.entry i).usage.has (use.mask longTerm)).map
    fun i => ⟨i, longTerm, use.code⟩

/-- The marked fields of a frame list by turns, the current parity first. -/
def fieldsByTurns (s : References) (bottomFieldFlag longTerm : Bool) (l : List Nat) :
    List ReferenceEntry :=
  alternate (s.fieldsOf (FieldUse.same bottomFieldFlag) longTerm l)
    (s.fieldsOf (FieldUse.alternate bottomFieldFlag) longTerm l)

/-- A field list before it is limited. -/
def fieldsInOrder (s : References) (bottomFieldFlag : Bool) (shortTermList longTermList : List Nat) :
    List ReferenceEntry :=
  s.fieldsByTurns bottomFieldFlag false shortTermList
    ++ s.fieldsByTurns bottomFieldFlag true longTermList

/-- A list that fits its places. -/
def fitting (list : List ReferenceEntry) : Option (List ReferenceEntry) :=
  if list.length ≤ maxEntriesInReferenceFrameList then some list else none

theorem appendNext_cases (s : References) (use : FieldUse) (longTerm : Bool) (cursor : List Nat)
    (list : List ReferenceEntry) :
    (s.fieldsOf use longTerm cursor = [] ∧
      s.appendNext use longTerm cursor list = some ([], list)) ∨
    ∃ e rest, rest.length < cursor.length ∧
      s.fieldsOf use longTerm cursor = e :: s.fieldsOf use longTerm rest ∧
      s.appendNext use longTerm cursor list =
        if list.length < maxEntriesInReferenceFrameList then some (rest, list ++ [e])
        else none := by
  induction cursor with
  | nil => exact .inl ⟨rfl, rfl⟩
  | cons i cursor ih =>
    cases hmarked : (s.entry i).usage.has (use.mask longTerm) with
    | true =>
      refine .inr ⟨⟨i, longTerm, use.code⟩, cursor, Nat.lt_succ_self _, ?_, ?_⟩
      · simp [fieldsOf, hmarked]
      · simp [appendNext, hmarked]
    | false =>
      have hfields : s.fieldsOf use longTerm (i :: cursor) = s.fieldsOf use longTerm cursor := by
        simp [fieldsOf, hmarked]
      have hnext : s.appendNext use longTerm (i :: cursor) list
          = s.appendNext use longTerm cursor list := by
        simp [appendNext, hmarked]
      rw [hfields, hnext]
      rcases ih with h | ⟨e, rest, hlt, h⟩
      · exact .inl h
      · exact .inr ⟨e, rest, Nat.lt_succ_of_lt hlt, h⟩

theorem fitting_of_lt {list : List ReferenceEntry} (e : ReferenceEntry)
    (rest : List ReferenceEntry) (h : ¬ list.length < maxEntriesInReferenceFrameList) :
    fitting (list ++ e :: rest) = none := by
  unfold fitting
  rw [if_neg]
  rw [List.length_append, List.length_cons]
  omega

theorem length_snoc_le {list : List ReferenceEntry} (e : ReferenceEntry)
    (h : list.length < maxEntriesInReferenceFrameList) :
    (list ++ [e]).length ≤ maxEntriesInReferenceFrameList := by
  rw [List.length_append]
  exact h

theorem insertFields_spec (s : References) (bottomFieldFlag longTerm : Bool) (passes : Nat) :
    ∀ (same alternating : List Nat) (list : List ReferenceEntry), same.length ≤ passes →
      alternating.length ≤ passes → list.length ≤ maxEntriesInReferenceFrameList →
      s.insertFields bottomFieldFlag longTerm passes same alternating list =
        fitting (list ++ alternate (s.fieldsOf (FieldUse.same bottomFieldFlag) longTerm same)
          (s.fieldsOf (FieldUse.alternate bottomFieldFlag) longTerm alternating)) := by
  induction passes with
  | zero =>
    intro same alternating list hsame halternating hlist
    obtain rfl := List.eq_nil_of_length_eq_zero (Nat.le_zero.mp hsame)
    obtain rfl := List.eq_nil_of_length_eq_zero (Nat.le_zero.mp halternating)
    show some list = fitting (list ++ [])
    rw [List.append_nil, fitting, if_pos hlist]
  | succ passes ih =>
    intro same alternating list hsame halternating hlist
    unfold insertFields
    split
    next hend =>
      rw [Bool.and_eq_true, List.isEmpty_iff, List.isEmpty_iff] at hend
      obtain ⟨rfl, rfl⟩ := hend
      show some list = fitting (list ++ [])
      rw [List.append_nil, fitting, if_pos hlist]
    next =>
      rcases s.appendNext_cases (FieldUse.same bottomFieldFlag) longTerm same list with
        ⟨hnone, heq⟩ | ⟨e, rest, hlt, hsome, heq⟩
      · -- the current parity has run out
        rw [heq, hnone, alternate_nil_left]
        rw [Option.bind_eq_bind, Option.bind_some]
        dsimp only
        rcases s.appendNext_cases (FieldUse.alternate bottomFieldFlag) longTerm alternating list
          with ⟨hnone', heq'⟩ | ⟨e', rest', hlt', hsome', heq'⟩
        · rw [heq', hnone']
          exact ih [] [] list (Nat.zero_le _) (Nat.zero_le _) hlist
        · rw [heq', hsome']
          split
          next hroom =>
            have hnext := ih [] rest' (list ++ [e'])
              (Nat.zero_le _) (by omega) (length_snoc_le e' hroom)
            exact hnext.trans (congrArg fitting (List.append_cons list e' _).symm)
          next hfull => exact (fitting_of_lt e' _ hfull).symm
      · rw [heq, hsome]
        split
        next hroom =>
          rw [Option.bind_eq_bind, Option.bind_some]
          dsimp only
          rcases s.appendNext_cases (FieldUse.alternate bottomFieldFlag) longTerm alternating
            (list ++ [e]) with ⟨hnone', heq'⟩ | ⟨e', rest', hlt', hsome', heq'⟩
          · -- the other parity has run out
            have hnext := ih rest [] (list ++ [e])
              (by omega) (Nat.zero_le _) (length_snoc_le e hroom)
            rw [heq', hnone', alternate_nil_right]
            refine Eq.trans ?_ (congrArg fitting (List.append_cons list e _).symm)
            exact hnext.trans (congrArg (fun l => fitting (list ++ [e] ++ l))
              (alternate_nil_right _))
          · rw [heq', hsome', alternate_cons_cons]
            refine Eq.trans ?_ (congrArg fitting (List.append_cons list e _).symm)
            split
            next hroom' =>
              have hnext := ih rest rest' (list ++ [e] ++ [e']) (by omega) (by omega) (length_snoc_le e' hroom')
              exact hnext.trans (congrArg fitting (List.append_cons (list ++ [e]) e' _).symm)
            next hfull => exact (fitting_of_lt e' _ hfull).symm
        next hfull =>
          cases s.fieldsOf (FieldUse.alternate bottomFieldFlag) longTerm alternating with
          | nil => exact (fitting_of_lt e _ hfull).symm
          | cons e' rest' => exact (fitting_of_lt e _ hfull).symm

theorem initializeReferencePictureListField_eq (s : References) (bottomFieldFlag : Bool)
    (shortTermList longTermList : List Nat) (maxListEntries : Nat) :
    s.initializeReferencePictureListField bottomFieldFlag shortTermList longTermList
        maxListEntries =
      (fitting (s.fieldsInOrder bottomFieldFlag shortTermList longTermList)).map
        (List.take maxListEntries) := by
  unfold initializeReferencePictureListField fieldsInOrder
  rw [s.insertFields_spec bottomFieldFlag false _ _ _ _ (Nat.le_refl _) (Nat.le_refl _)
      (Nat.zero_le _),
    List.nil_append]
  change (do
    let list ← fitting (s.fieldsByTurns bottomFieldFlag false shortTermList)
    let list ← s.insertFields bottomFieldFlag true longTermList.length longTermList
      longTermList list
    some (list.take maxListEntries)) = _
  generalize s.fieldsByTurns bottomFieldFlag false shortTermList = short
  by_cases hfits : short.length ≤ maxEntriesInReferenceFrameList
  · rw [show fitting short = some short from if_pos hfits]
    show (do
      let list ← s.insertFields bottomFieldFlag true longTermList.length longTermList
        longTermList short
      some (list.take maxListEntries)) = _
    rw [s.insertFields_spec bottomFieldFlag true _ _ _ _ (Nat.le_refl _) (Nat.le_refl _) hfits]
    change (fitting (short ++ s.fieldsByTurns bottomFieldFlag true longTermList)).bind _ = _
    cases fitting (short ++ s.fieldsByTurns bottomFieldFlag true longTermList) <;> rfl
  · have hnone : fitting short = none := if_neg hfits
    have hnone' : fitting (short ++ s.fieldsByTurns bottomFieldFlag true longTermList) = none := by
      refine if_neg ?_
      rw [List.length_append]
      omega
    rw [hnone, hnone']
    rfl

/-- The fields of the entries that are marked. -/
def markedFields (s : References) (longTerm : Bool) (l : List Nat) : List ReferenceEntry :=
  s.fieldsOf FieldUse.top longTerm l ++ s.fieldsOf FieldUse.bottom longTerm l

theorem fieldsByTurns_perm (s : References) (bottomFieldFlag longTerm : Bool) (l : List Nat) :
    (s.fieldsByTurns bottomFieldFlag longTerm l).Perm (s.markedFields longTerm l) := by
  refine (alternate_perm _ _).trans ?_
  cases bottomFieldFlag with
  | false => exact List.Perm.refl _
  | true => exact List.perm_append_comm

theorem fieldsInOrder_perm (s : References) (bottomFieldFlag : Bool)
    (shortTermList longTermList : List Nat) :
    (s.fieldsInOrder bottomFieldFlag shortTermList longTermList).Perm
      (s.markedFields false shortTermList ++ s.markedFields true longTermList) :=
  (s.fieldsByTurns_perm bottomFieldFlag false shortTermList).append
    (s.fieldsByTurns_perm bottomFieldFlag true longTermList)

/-! ## Room for the fields -/

/-- The fields of the table that are marked. -/
def fieldCount (s : References) : Nat :=
  ((List.range (s.numReferenceFrames + 1)).map fun i => (s.entry i).usage.fieldCount).sum

/-- The fields of one entry that are marked for one term. -/
def termCount (s : References) (longTerm : Bool) (i : Nat) : Nat :=
  ((s.entry i).usage.has (FieldUse.top.mask longTerm)).toNat
    + ((s.entry i).usage.has (FieldUse.bottom.mask longTerm)).toNat

theorem length_markedFields (s : References) (longTerm : Bool) (l : List Nat) :
    (s.markedFields longTerm l).length = (l.map (s.termCount longTerm)).sum := by
  unfold markedFields fieldsOf
  rw [List.length_append, List.length_map, List.length_map]
  induction l with
  | nil => rfl
  | cons i l ih =>
    rw [List.map_cons, List.sum_cons, ← ih, List.filter_cons, List.filter_cons, termCount]
    cases (s.entry i).usage.has (FieldUse.top.mask longTerm) <;>
      cases (s.entry i).usage.has (FieldUse.bottom.mask longTerm) <;>
      simp <;> omega

theorem sum_indices_le (s : References) (q : ReferenceFrame → Bool) (g : Nat → Nat) :
    ((s.indices q).map g).sum ≤ ((List.range (s.numReferenceFrames + 1)).map g).sum := by
  unfold indices
  induction List.range (s.numReferenceFrames + 1) with
  | nil => exact Nat.le_refl _
  | cons i l ih =>
    rw [List.filter_cons]
    split
    · rw [List.map_cons, List.map_cons, List.sum_cons, List.sum_cons]
      omega
    · rw [List.map_cons, List.sum_cons]
      omega

theorem length_fieldsInOrder_le {p q : ReferenceFrame → Bool} {short long : List Nat}
    (bottomFieldFlag : Bool) (hshort : short.Perm (s.indices p)) (hlong : long.Perm (s.indices q)) :
    (s.fieldsInOrder bottomFieldFlag short long).length ≤ s.fieldCount := by
  rw [(s.fieldsInOrder_perm bottomFieldFlag short long).length_eq, List.length_append,
    length_markedFields, length_markedFields, (hshort.map _).sum_nat, (hlong.map _).sum_nat]
  have hp := s.sum_indices_le p (s.termCount false)
  have hq := s.sum_indices_le q (s.termCount true)
  have hsum : s.fieldCount =
      ((List.range (s.numReferenceFrames + 1)).map (s.termCount false)).sum
        + ((List.range (s.numReferenceFrames + 1)).map (s.termCount true)).sum := by
    unfold fieldCount
    induction List.range (s.numReferenceFrames + 1) with
    | nil => rfl
    | cons i l ih =>
      have hi : (s.entry i).usage.fieldCount = s.termCount false i + s.termCount true i := by
        unfold Usage.fieldCount termCount FieldUse.mask
        simp only [FieldUse.top, FieldUse.bottom, Bool.false_eq_true, if_false, if_true]
        omega
      simp only [List.map_cons, List.sum_cons, ih, hi]
      omega
  omega

/-! ## The lists -/

/-- Each entry in use is wholly a short-term or wholly a long-term reference. -/
def Whole (s : References) : Prop :=
  ∀ i, i < s.numReferenceFrames + 1 →
    ¬ ((s.entry i).usage.has anyUsedForShortTermReference = true ∧
      (s.entry i).usage.has anyUsedForLongTermReference = true)

instance (s : References) : Decidable s.Whole := inferInstanceAs (Decidable (∀ _, _ < _ → _))

/-- An entry of the kind `q` that is listed: one of a term whose counter is not zero. -/
def eligible (s : References) (q : ReferenceFrame → Bool) (f : ReferenceFrame) : Bool :=
  q f && ((s.numShortTerm != 0 && f.usage.has anyUsedForShortTermReference)
    || (s.numLongTerm != 0 && f.usage.has anyUsedForLongTermReference))

/-- Short-term entries by `key`, greatest first, then long-term ones by
`LongTermPicNum`: each eligible entry once. -/
structure POrder (s : References) (q : ReferenceFrame → Bool) (key : ReferenceFrame → Int)
    (short long : List Nat) : Prop where
  shortOrder : Listed s
    (fun f => s.numShortTerm != 0 && (q f && f.usage.has anyUsedForShortTermReference))
    (fun f => OrderDual.toDual (key f)) short
  longOrder : Listed s
    (fun f => s.numLongTerm != 0 && (q f && f.usage.has anyUsedForLongTermReference))
    (fun f => f.longTermPicNum.toNat) long
  once : (short ++ long).Perm (s.indices (s.eligible q))

/-- Short-term entries not above the current order count, greatest first, those
above it, smallest first, and the long-term ones: each eligible entry once. -/
structure BOrder (s : References) (q : ReferenceFrame → Bool) (picOrderCnt : Word)
    (lower upper long : List Nat) : Prop where
  lowerOrder : Listed s
    (fun f => s.numShortTerm != 0 &&
      (q f && f.usage.has anyUsedForShortTermReference && notAbove picOrderCnt f))
    (fun f => OrderDual.toDual f.picOrderCnt.toInt) lower
  upperOrder : Listed s
    (fun f => s.numShortTerm != 0 &&
      (q f && f.usage.has anyUsedForShortTermReference && !notAbove picOrderCnt f))
    (fun f => f.picOrderCnt.toInt) upper
  longOrder : Listed s
    (fun f => s.numLongTerm != 0 && (q f && f.usage.has anyUsedForLongTermReference))
    (fun f => f.longTermPicNum.toNat) long
  once : (lower ++ upper ++ long).Perm (s.indices (s.eligible q))

/-- Two lists up to a limit, the first two entries of the second swapped where
they are equal and longer than one. -/
def limitedLists (limit : Nat) (list0 list1 : List ReferenceEntry) :
    List ReferenceEntry × List ReferenceEntry :=
  (list0.take limit,
    if 1 < (list1.take limit).length ∧ list0.take limit = list1.take limit then
      swapFirstTwo (list1.take limit)
    else list1.take limit)

theorem Whole.once (hwhole : s.Whole) (q : ReferenceFrame → Bool) {short long : List Nat}
    (hshort : short.Perm
      (s.indices fun f => s.numShortTerm != 0 && (q f && f.usage.has anyUsedForShortTermReference)))
    (hlong : long.Perm
      (s.indices fun f => s.numLongTerm != 0 && (q f && f.usage.has anyUsedForLongTermReference))) :
    (short ++ long).Perm (s.indices (s.eligible q)) := by
  refine (hshort.append hlong).trans ((indices_append_perm ?_).trans ?_)
  · rintro i hi ⟨hs, hl⟩
    rw [Bool.and_eq_true, Bool.and_eq_true] at hs hl
    exact hwhole i hi ⟨hs.2.2, hl.2.2⟩
  · have heq : (fun f : ReferenceFrame =>
        (s.numShortTerm != 0 && (q f && f.usage.has anyUsedForShortTermReference)) ||
          (s.numLongTerm != 0 && (q f && f.usage.has anyUsedForLongTermReference)))
        = s.eligible q := by
      funext f
      unfold eligible
      cases q f <;> simp
    rw [heq]

theorem short_perm {q : ReferenceFrame → Bool} {picOrderCnt : Word} {lower upper : List Nat}
    (c : Bool) (hlower : lower.Perm (s.indices fun f => c && (q f && notAbove picOrderCnt f)))
    (hupper : upper.Perm (s.indices fun f => c && (q f && !notAbove picOrderCnt f))) :
    (lower ++ upper).Perm (s.indices fun f => c && q f) := by
  refine (hlower.append hupper).trans ((indices_append_perm ?_).trans ?_)
  · rintro i - ⟨hl, hu⟩
    rw [Bool.and_eq_true, Bool.and_eq_true] at hl hu
    rw [hl.2.2] at hu
    exact Bool.false_ne_true hu.2.2
  · have heq : (fun f : ReferenceFrame => (c && (q f && notAbove picOrderCnt f)) ||
        (c && (q f && !notAbove picOrderCnt f))) = fun f => c && q f := by
      funext f
      cases notAbove picOrderCnt f <;> simp
    rw [heq]

theorem limitedLists_eq (limit : Nat) (list0 list1 : List ReferenceEntry)
    (h : list0.map ReferenceEntry.details = list1.map ReferenceEntry.details) :
    (list0.take limit,
      if identicalLists (list0.take limit) (list1.take limit) then
        swapFirstTwo (list1.take limit)
      else list1.take limit) = limitedLists limit list0 list1 := by
  have hdetails : (list0.take limit).map ReferenceEntry.details
      = (list1.take limit).map ReferenceEntry.details := by
    rw [List.map_take, List.map_take, h]
  have hiff := identicalLists_iff hdetails
  unfold limitedLists
  by_cases heq : 1 < (list1.take limit).length ∧ list0.take limit = list1.take limit
  · rw [if_pos heq, if_pos (hiff.mpr heq)]
  · rw [if_neg heq, if_neg (fun hid => heq (hiff.mp hid))]

/-! ## Frames -/

/-- A frame list of short-term and long-term entries. -/
def frameEntries (short long : List Nat) : List ReferenceEntry :=
  short.map shortTermFrame ++ long.map longTermFrame

theorem frameEntries_details (short long : List Nat) :
    (frameEntries short long).map ReferenceEntry.details =
      List.replicate short.length (false, .frame) ++ List.replicate long.length (true, .frame) := by
  unfold frameEntries
  rw [List.map_append, List.map_map, List.map_map, ← List.map_const', ← List.map_const']
  rfl

theorem longTermPart {α : Type} {index : α → Nat} {entry : Nat → α} (s : References)
    (hindex : ∀ i, index (entry i) = i) (q : ReferenceFrame → Bool) (list : List α) :
    ∃ long, Listed s (fun f => s.numLongTerm != 0 && q f) (fun f => f.longTermPicNum.toNat) long ∧
      (if s.numLongTerm != 0 then
        s.appendUp index entry q (fun f => f.longTermPicNum.toNat) list
      else list) = list ++ long.map entry := by
  cases hc : s.numLongTerm != 0 with
  | false => exact ⟨[], Listed.guard _ _ rfl, (List.append_nil list).symm⟩
  | true => exact s.appendUp_spec hindex q _ list

theorem pShortTermPart {α : Type} {index : α → Nat} {entry : Nat → α} (s : References)
    (hindex : ∀ i, index (entry i) = i) (q : ReferenceFrame → Bool) (key : ReferenceFrame → Int) :
    ∃ short, Listed s (fun f => s.numShortTerm != 0 && q f)
        (fun f => OrderDual.toDual (key f)) short ∧
      (if s.numShortTerm != 0 then s.appendDown index entry q key [] else []) =
        short.map entry := by
  cases hc : s.numShortTerm != 0 with
  | false => exact ⟨[], Listed.guard _ _ rfl, rfl⟩
  | true => exact s.appendDown_spec hindex q key []

theorem bShortTermParts {α : Type} {index : α → Nat} {entry : Nat → α} (s : References)
    (hindex : ∀ i, index (entry i) = i) (q : ReferenceFrame → Bool) (picOrderCnt : Word) :
    ∃ lower upper,
      Listed s (fun f => s.numShortTerm != 0 && (q f && notAbove picOrderCnt f))
        (fun f => OrderDual.toDual f.picOrderCnt.toInt) lower ∧
      Listed s (fun f => s.numShortTerm != 0 && (q f && !notAbove picOrderCnt f))
        (fun f => f.picOrderCnt.toInt) upper ∧
      (if s.numShortTerm != 0 then s.shortTermPortions index entry q picOrderCnt else ([], [])) =
        ((lower ++ upper).map entry, (upper ++ lower).map entry) := by
  cases hc : s.numShortTerm != 0 with
  | false => exact ⟨[], [], Listed.guard _ _ rfl, Listed.guard _ _ rfl, rfl⟩
  | true => exact s.shortTermPortions_spec hindex q picOrderCnt

/-- `InitializePSliceReferencePictureListFrame`: the order, limited where there
are long-term references. -/
def PFrameList (s : References) (list : List ReferenceEntry) : Prop :=
  ∃ short long, POrder s (·.usage.complimentaryReferencePair) (·.picNum.toInt) short long ∧
    list = if s.numLongTerm != 0 then (frameEntries short long).take s.numReferenceFrames
      else frameEntries short long

theorem pFrameList (hwhole : s.Whole) :
    PFrameList s s.initializePSliceReferencePictureListFrame := by
  obtain ⟨short, hshort, hlist⟩ := s.pShortTermPart (fun _ => rfl : ∀ i, (shortTermFrame i).index = i)
    shortTermPair (fun f => f.picNum.toInt)
  obtain ⟨long, hlong, hlist'⟩ := s.longTermPart (fun _ => rfl : ∀ i, (longTermFrame i).index = i)
    longTermPair (short.map shortTermFrame)
  refine ⟨short, long, ⟨hshort, hlong, hwhole.once _ hshort.perm hlong.perm⟩, ?_⟩
  have hpart : s.pShortTermFrames = short.map shortTermFrame := hlist
  unfold initializePSliceReferencePictureListFrame
  simp only [hpart]
  split
  next hc =>
    rw [if_pos hc] at hlist'
    rw [hlist']
    rfl
  next hc =>
    rw [if_neg hc] at hlist'
    exact hlist'

/-- `InitializeBSliceReferencePictureListsFrame`. -/
def BFrameLists (s : References) (picOrderCnt : Word)
    (lists : List ReferenceEntry × List ReferenceEntry) : Prop :=
  ∃ lower upper long,
    BOrder s (·.usage.complimentaryReferencePair) picOrderCnt lower upper long ∧
    lists = limitedLists s.numReferenceFrames (frameEntries (lower ++ upper) long)
      (frameEntries (upper ++ lower) long)

theorem bFrameLists (hwhole : s.Whole) (picOrderCnt : Word) :
    BFrameLists s picOrderCnt (s.initializeBSliceReferencePictureListsFrame picOrderCnt) := by
  obtain ⟨lower, upper, hlower, hupper, hlists⟩ := s.bShortTermParts
    (fun _ => rfl : ∀ i, (shortTermFrame i).index = i) shortTermPair picOrderCnt
  obtain ⟨long, hlong, hlist⟩ := s.longTermPart (fun _ => rfl : ∀ i, (longTermFrame i).index = i)
    longTermPair ((lower ++ upper).map shortTermFrame)
  refine ⟨lower, upper, long, ⟨hlower, hupper, hlong, ?_⟩, ?_⟩
  · exact hwhole.once _ (short_perm _ hlower.perm hupper.perm) hlong.perm
  · have hparts : s.bShortTermFrames picOrderCnt =
        ((lower ++ upper).map shortTermFrame, (upper ++ lower).map shortTermFrame) := hlists
    unfold initializeBSliceReferencePictureListsFrame
    simp only [hparts, hlist, List.drop_left]
    refine limitedLists_eq s.numReferenceFrames (frameEntries (lower ++ upper) long)
      (frameEntries (upper ++ lower) long) ?_
    rw [frameEntries_details, frameEntries_details, List.length_append, List.length_append,
      Nat.add_comm]

/-! ## Fields -/

theorem fieldsByTurns_details (s : References) (bottomFieldFlag longTerm : Bool) {l l' : List Nat}
    (h : l.Perm l') :
    (s.fieldsByTurns bottomFieldFlag longTerm l).map ReferenceEntry.details =
      (s.fieldsByTurns bottomFieldFlag longTerm l').map ReferenceEntry.details := by
  have hdetails : ∀ use : FieldUse,
      (s.fieldsOf use longTerm l).map ReferenceEntry.details =
        (s.fieldsOf use longTerm l').map ReferenceEntry.details := by
    intro use
    unfold fieldsOf
    rw [List.map_map, List.map_map]
    show List.map (fun _ => (longTerm, use.code)) _ = List.map (fun _ => (longTerm, use.code)) _
    rw [List.map_const', List.map_const', (h.filter _).length_eq]
  unfold fieldsByTurns
  rw [alternate_map, alternate_map, hdetails, hdetails]

theorem fieldList_fits (bottomFieldFlag : Bool) {shortTermList longTermList : List Nat}
    (maxListEntries : Nat)
    (h : (s.fieldsInOrder bottomFieldFlag shortTermList longTermList).length
      ≤ maxEntriesInReferenceFrameList) :
    s.initializeReferencePictureListField bottomFieldFlag shortTermList longTermList
        maxListEntries =
      some ((s.fieldsInOrder bottomFieldFlag shortTermList longTermList).take maxListEntries) := by
  rw [initializeReferencePictureListField_eq, fitting, if_pos h]
  rfl

/-- `InitializePSliceReferencePictureListField`. -/
def PFieldList (s : References) (h : SliceHeader) (list : List ReferenceEntry) : Prop :=
  ∃ short long, POrder s (fun _ => true) (frameNumWrap h) short long ∧
    list = (s.fieldsInOrder h.bottomFieldFlag short long).take (2 * s.numReferenceFrames + 1)

theorem pFieldList (hwhole : s.Whole) (h : SliceHeader)
    (hfits : s.fieldCount ≤ maxEntriesInReferenceFrameList) :
    ∃ list, s.initializePSliceReferencePictureListField h = some list ∧ PFieldList s h list := by
  obtain ⟨short, hshort, hlist⟩ := s.pShortTermPart (fun _ => rfl : ∀ i, id (id i) = i)
    shortTermFields (frameNumWrap h)
  obtain ⟨long, hlong, hlist'⟩ := s.longTermPart (fun _ => rfl : ∀ i, id (id i) = i)
    longTermFields []
  rw [List.map_id] at hlist
  rw [List.map_id, List.nil_append] at hlist'
  have hshortList : s.pReferenceFrameListShortTerm h = short := hlist
  have hlongList : s.referenceFrameListLongTerm = long := hlist'
  refine ⟨_, ?_, short, long, ⟨hshort, hlong, hwhole.once _ hshort.perm hlong.perm⟩, rfl⟩
  unfold initializePSliceReferencePictureListField
  rw [hshortList, hlongList]
  exact fieldList_fits _ _ ((length_fieldsInOrder_le _ hshort.perm hlong.perm).trans hfits)

/-- `InitializeBSliceReferencePictureListsField`. -/
def BFieldLists (s : References) (bottomFieldFlag : Bool) (picOrderCnt : Word)
    (lists : List ReferenceEntry × List ReferenceEntry) : Prop :=
  ∃ lower upper long, BOrder s (fun _ => true) picOrderCnt lower upper long ∧
    lists = limitedLists (2 * s.numReferenceFrames + 1)
      (s.fieldsInOrder bottomFieldFlag (lower ++ upper) long)
      (s.fieldsInOrder bottomFieldFlag (upper ++ lower) long)

theorem bFieldLists (hwhole : s.Whole) (bottomFieldFlag : Bool) (picOrderCnt : Word)
    (hfits : s.fieldCount ≤ maxEntriesInReferenceFrameList) :
    ∃ lists, s.initializeBSliceReferencePictureListsField bottomFieldFlag picOrderCnt = some lists ∧
      BFieldLists s bottomFieldFlag picOrderCnt lists := by
  obtain ⟨lower, upper, hlower, hupper, hlists⟩ := s.bShortTermParts
    (fun _ => rfl : ∀ i, id (id i) = i) shortTermFields picOrderCnt
  obtain ⟨long, hlong, hlist'⟩ := s.longTermPart (fun _ => rfl : ∀ i, id (id i) = i)
    longTermFields []
  rw [List.map_id, List.map_id] at hlists
  rw [List.map_id, List.nil_append] at hlist'
  have hshortLists : s.bReferenceFrameListsShortTerm picOrderCnt
      = (lower ++ upper, upper ++ lower) := hlists
  have hlongList : s.referenceFrameListLongTerm = long := hlist'
  have hshort := short_perm _ hlower.perm hupper.perm
  refine ⟨_, ?_, lower, upper, long,
    ⟨hlower, hupper, hlong, hwhole.once _ hshort hlong.perm⟩, rfl⟩
  have hlist0 := fieldList_fits bottomFieldFlag (2 * s.numReferenceFrames + 1)
    ((length_fieldsInOrder_le bottomFieldFlag hshort hlong.perm).trans hfits)
  have hlist1 := fieldList_fits bottomFieldFlag (2 * s.numReferenceFrames + 1)
    ((length_fieldsInOrder_le bottomFieldFlag (List.perm_append_comm.trans hshort)
      hlong.perm).trans hfits)
  unfold initializeBSliceReferencePictureListsField
  simp only [hshortLists, hlongList, hlist0, hlist1]
  refine congrArg some (limitedLists_eq _ _ _ ?_)
  unfold fieldsInOrder
  rw [List.map_append, List.map_append,
    s.fieldsByTurns_details bottomFieldFlag false List.perm_append_comm]

/-! ## All of them -/

/-- The initial lists of a table whose entries are each wholly of one term are
in order, frames and fields; a list of fields has each marked one once, by
turns, up to its limit. Fields are listed where they fit. -/
theorem initialReferenceLists_ordered (s : References) (h : SliceHeader) (picOrderCnt : Word)
    (hwhole : s.Whole) :
    PFrameList s s.initializePSliceReferencePictureListFrame ∧
    BFrameLists s picOrderCnt (s.initializeBSliceReferencePictureListsFrame picOrderCnt) ∧
    (s.fieldCount ≤ maxEntriesInReferenceFrameList →
      (∃ list, s.initializePSliceReferencePictureListField h = some list ∧
        PFieldList s h list) ∧
      ∃ lists, s.initializeBSliceReferencePictureListsField h.bottomFieldFlag picOrderCnt
          = some lists ∧
        BFieldLists s h.bottomFieldFlag picOrderCnt lists) ∧
    ∀ (shortTermList longTermList : List Nat) (maxListEntries : Nat),
      (s.fieldsInOrder h.bottomFieldFlag shortTermList longTermList).Perm
        (s.markedFields false shortTermList ++ s.markedFields true longTermList) ∧
      ((s.fieldsInOrder h.bottomFieldFlag shortTermList longTermList).length
          ≤ maxEntriesInReferenceFrameList →
        s.initializeReferencePictureListField h.bottomFieldFlag shortTermList longTermList
            maxListEntries =
          some ((s.fieldsInOrder h.bottomFieldFlag shortTermList longTermList).take
            maxListEntries)) := by
  refine ⟨pFrameList hwhole, bFrameLists hwhole picOrderCnt, fun hfits => ?_, ?_⟩
  · exact ⟨pFieldList hwhole h hfits, bFieldLists hwhole h.bottomFieldFlag picOrderCnt hfits⟩
  · intro shortTermList longTermList maxListEntries
    exact ⟨s.fieldsInOrder_perm h.bottomFieldFlag shortTermList longTermList,
      fieldList_fits h.bottomFieldFlag maxListEntries⟩

/-- A table with one reference frame allowed: the last one and, under a picture
that came with no command to release it, a long-term one. -/
def overfull : References :=
  { (reset.setUsage 0 anyUsedForShortTermReference).setUsage 1 anyUsedForLongTermReference with
    numReferenceFrames := 1
    numShortTerm := 1
    numLongTerm := 1 }

theorem initialReferenceLists_ordered_overfull :
    overfull.Whole ∧
      PFrameList overfull overfull.initializePSliceReferencePictureListFrame :=
  have hwhole : overfull.Whole := by decide
  ⟨hwhole, (initialReferenceLists_ordered overfull (shortHeader false 0 0 0 []) 0 hwhole).1⟩

/-- The limit leaves an entry of that table out. -/
theorem initialReferenceLists_cut_overfull :
    overfull.Whole ∧
      ¬ (overfull.initializePSliceReferencePictureListFrame.map (·.index)).Perm
        (overfull.indices (overfull.eligible (·.usage.complimentaryReferencePair))) := by
  decide

end References

end Duckbox.H264
