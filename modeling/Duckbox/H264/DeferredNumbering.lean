import Duckbox.H264.DeferredList
import Duckbox.Lib.Ordered

/-!
# Every deferred frame is numbered once, in order

`Inv` keeps the ordered list, the slots and the calls together; what one call of
the processing functions handles is read off the sorted list (`upto_eq`,
`downto_eq`), which gives `deferredNumbering` for every run.
-/

namespace Duckbox.H264

open Duckbox.FrameParser Duckbox.Lib

variable {n : Nat}

/-! ## Order counts, adjusted -/

theorem toNat_shiftLeft_one {c : BitVec 64} (h : c.toNat < 2 ^ 63) :
    (c <<< 1).toNat = 2 * c.toNat := by
  rw [BitVec.toNat_shiftLeft, Nat.shiftLeft_eq]
  omega

theorem toNat_shiftLeft_one_or_one (c : BitVec 64) :
    (c <<< 1 ||| 1).toNat = (c <<< 1).toNat + 1 := by
  have hdouble : (c <<< 1).toNat = (c.toNat % 2 ^ 63) <<< 1 := by
    rw [BitVec.toNat_shiftLeft, Nat.shiftLeft_eq, Nat.shiftLeft_eq]
    omega
  rw [BitVec.toNat_or, hdouble]
  exact (Nat.shiftLeft_add_eq_or_of_lt (show 1 < 2 ^ 1 by omega) _).symm

namespace Deferral

theorem adjust_div (parameters : CodedFrame) {c : BitVec 64} (h : c.toNat < 2 ^ 62)
    (dpb special : Bool) : (adjust parameters c dpb special).toNat / 2 = c.toNat := by
  have hshift := toNat_shiftLeft_one (c := c) (by omega)
  have hplus : (c <<< 1 + 1).toNat = 2 * c.toNat + 1 := by
    rw [BitVec.toNat_add, hshift]
    show (2 * c.toNat + 1) % 2 ^ 64 = _
    omega
  unfold adjust
  simp only
  split_ifs <;> omega

end Deferral

theorem lt_doubled_iff {c limit stored : BitVec 64} (hc : c.toNat < 2 ^ 62)
    (hstored : stored.toNat / 2 = c.toNat) (hlimit : DeferralRun.Limit limit) :
    stored < limit <<< 1 ↔ c < limit := by
  have hshift : (limit <<< 1).toNat = 2 * limit.toNat % 2 ^ 64 := by
    rw [BitVec.toNat_shiftLeft, Nat.shiftLeft_eq]
    omega
  have hbound := limit.isLt
  rw [BitVec.lt_def, BitVec.lt_def, hshift]
  rcases hlimit with hlow | hhigh <;> omega

theorem doubled_lt_iff {c limit stored : BitVec 64} (hc : c.toNat < 2 ^ 62)
    (hstored : stored.toNat / 2 = c.toNat) (hlimit : DeferralRun.Limit limit) :
    limit <<< 1 ||| 1 < stored ↔ limit < c := by
  have hshift : (limit <<< 1).toNat = 2 * limit.toNat % 2 ^ 64 := by
    rw [BitVec.toNat_shiftLeft, Nat.shiftLeft_eq]
    omega
  have hbound := limit.isLt
  rw [BitVec.lt_def, BitVec.lt_def, toNat_shiftLeft_one_or_one, hshift]
  rcases hlimit with hlow | hhigh <;> omega

/-! ## What the calls say -/

namespace DeferredCall

/-- The frame that is numbered. -/
def numbered : DeferredCall n → Option CodedFrame
  | calculateFrameIndexAndPts parameters => some parameters
  | _ => none

def referenced : DeferredCall n → Option (Fin n)
  | incrementReferenceCount buffer => some buffer
  | _ => none

def dereferenced : DeferredCall n → Option (Fin n)
  | decrementReferenceCount buffer => some buffer
  | _ => none

end DeferredCall

namespace Deferral

/-- What is called for a slot that is processed. -/
def entryCalls (s : Deferral n) (index : Fin n) : List (DeferredCall n) :=
  let parameters := (s.deferredList index).parameters
  [.calculateFrameIndexAndPts parameters, .setupPanScanValues parameters,
    .decrementReferenceCount index]

/-- The slots cleared. -/
def clear (s : Deferral n) (handled : List (Fin n)) (index : Fin n) : DeferredDFIandPTS n :=
  if index ∈ handled then { s.deferredList index with buffer := none } else s.deferredList index

/-- What it is to process a list of slots: they are cleared and called for one
after the other. -/
structure Processes (s s' : Deferral n) (handled : List (Fin n)) : Prop where
  deferredList : s'.deferredList = s.clear handled
  calls : s'.calls = s.calls ++ handled.flatMap s.entryCalls

/-- A slot whose buffer is there. -/
def Used (s : Deferral n) (index : Fin n) : Prop := (s.deferredList index).buffer = some index

theorem processEntry_calls {s : Deferral n} {index : Fin n} (h : s.Used index) :
    (s.processEntry index).calls = s.calls ++ s.entryCalls index := by
  unfold processEntry entryCalls
  simp only [show (s.deferredList index).buffer = some index from h, Option.map_some,
    Option.toList_some, List.append_assoc, List.cons_append, List.nil_append]

theorem processEntry_of_ne {s : Deferral n} {index other : Fin n} (h : other ≠ index) :
    (s.processEntry index).deferredList other = s.deferredList other :=
  Function.update_of_ne h _ _

theorem processEntry_count (s : Deferral n) (index other : Fin n) :
    (s.processEntry index).extendedPicOrderCnt other = s.extendedPicOrderCnt other := by
  by_cases h : other = index
  · subst h
    show (Function.update s.deferredList other _ other).extendedPicOrderCnt = _
    rw [Function.update_self]
    rfl
  · exact congrArg _ (processEntry_of_ne h)

theorem Processes.nil (s : Deferral n) : s.Processes s [] where
  deferredList := by
    funext index
    exact (if_neg List.not_mem_nil).symm
  calls := (List.append_nil _).symm

variable {handled : List (Fin n)}

theorem Processes.cons {s s' : Deferral n} {index : Fin n} (hused : s.Used index)
    (hnot : index ∉ handled) (h : (s.processEntry index).Processes s' handled) :
    s.Processes s' (index :: handled) where
  deferredList := by
    rw [h.deferredList]
    funext other
    unfold clear
    by_cases hother : other = index
    · subst hother
      rw [if_neg hnot, if_pos List.mem_cons_self]
      exact Function.update_self ..
    · rw [processEntry_of_ne hother]
      exact if_congr (by rw [List.mem_cons, or_iff_right hother]) rfl rfl
  calls := by
    have hsame : handled.flatMap (s.processEntry index).entryCalls
        = handled.flatMap s.entryCalls := by
      refine List.flatMap_congr fun other hother => ?_
      unfold entryCalls
      rw [processEntry_of_ne (ne_of_mem_of_not_mem hother hnot)]
    rw [h.calls, processEntry_calls hused, hsame, List.flatMap_cons, List.append_assoc]

theorem processWhile_processes (goes : BitVec 64 → Bool) (l : List (Fin n)) :
    ∀ {s : Deferral n}, l.Nodup → (∀ index ∈ l, s.Used index) →
      s.Processes (processWhile goes l s).2
          (l.takeWhile fun index => goes (s.extendedPicOrderCnt index)) ∧
        (processWhile goes l s).1
          = l.dropWhile fun index => goes (s.extendedPicOrderCnt index) := by
  induction l with
  | nil => intro s _ _; exact ⟨.nil s, rfl⟩
  | cons index l ih =>
    intro s hnodup hused
    obtain ⟨hnot, hnodup⟩ := List.nodup_cons.mp hnodup
    obtain ⟨hindex, hrest⟩ := List.forall_mem_cons.mp hused
    unfold processWhile
    rw [List.takeWhile_cons, List.dropWhile_cons]
    by_cases hgoes : goes (s.extendedPicOrderCnt index) = true
    · rw [if_pos hgoes, if_pos hgoes, if_pos hgoes]
      have hused' : ∀ other ∈ l, (s.processEntry index).Used other := by
        intro other hother
        unfold Used
        rw [processEntry_of_ne (ne_of_mem_of_not_mem hother hnot)]
        exact hrest other hother
      obtain ⟨hprocesses, hleft⟩ := ih hnodup hused'
      simp only [processEntry_count] at hprocesses hleft
      exact ⟨hprocesses.cons hindex fun hmem => hnot ((List.takeWhile_sublist _).mem hmem), hleft⟩
    · rw [if_neg hgoes, if_neg hgoes, if_neg hgoes]
      exact ⟨.nil s, rfl⟩

theorem Processes.count {s s' : Deferral n} (h : s.Processes s' handled) (index : Fin n) :
    s'.extendedPicOrderCnt index = s.extendedPicOrderCnt index := by
  unfold extendedPicOrderCnt
  rw [h.deferredList]
  unfold clear
  split <;> rfl

theorem Processes.parameters {s s' : Deferral n} (h : s.Processes s' handled) (index : Fin n) :
    (s'.deferredList index).parameters = (s.deferredList index).parameters := by
  rw [h.deferredList]
  unfold clear
  split <;> rfl

/-! ## What the calls of processed slots say -/

theorem referenced_entryCalls (s : Deferral n) (handled : List (Fin n)) :
    (handled.flatMap s.entryCalls).filterMap DeferredCall.referenced = [] := by
  induction handled with
  | nil => rfl
  | cons index handled ih =>
    rw [List.flatMap_cons, List.filterMap_append, ih]
    rfl

theorem numbered_entryCalls (s : Deferral n) (handled : List (Fin n)) :
    (handled.flatMap s.entryCalls).filterMap DeferredCall.numbered
      = handled.map fun index => (s.deferredList index).parameters := by
  induction handled with
  | nil => rfl
  | cons index handled ih =>
    rw [List.flatMap_cons, List.filterMap_append, ih]
    rfl

theorem dereferenced_entryCalls (s : Deferral n) (handled : List (Fin n)) :
    (handled.flatMap s.entryCalls).filterMap DeferredCall.dereferenced = handled := by
  induction handled with
  | nil => rfl
  | cons index handled ih =>
    rw [List.flatMap_cons, List.filterMap_append, ih]
    rfl

end Deferral

namespace DeferralRun

/-! ## What holds in every state -/

/-- The ordered list holds distinct slots, those with a buffer, in order. -/
structure Ordered (s : Deferral n) : Prop where
  distinct : s.orderedDeferredList.Nodup
  slots : ∀ index, index ∈ s.orderedDeferredList ↔ (s.deferredList index).buffer ≠ none
  sorted : SortedBy (fun index => (s.extendedPicOrderCnt index).toNat) s.orderedDeferredList

/-- Each deferral took one reference, and was numbered and gave the reference
back once, unless it waits in the list. -/
structure EachOnce (r : DeferralRun n) : Prop where
  referenced : r.deferral.calls.filterMap DeferredCall.referenced = r.deferred.map Prod.fst
  numbered : (r.deferral.calls.filterMap DeferredCall.numbered ++
    r.deferral.orderedDeferredList.map fun index => (r.deferral.deferredList index).parameters).Perm
      (r.deferred.map Prod.snd)
  dereferenced : (r.deferral.calls.filterMap DeferredCall.dereferenced ++
    r.deferral.orderedDeferredList).Perm (r.deferred.map Prod.fst)

/-- The slots in the list deferred with a count below a limit, in its order. -/
def slotsBelow (r : DeferralRun n) (limit : BitVec 64) : List (Fin n) :=
  r.deferral.orderedDeferredList.filter fun index => decide (r.orderCount index < limit)

/-- The slots deferred with a count above a limit, against the order of the list. -/
def slotsAbove (r : DeferralRun n) (limit : BitVec 64) : List (Fin n) :=
  (r.deferral.orderedDeferredList.filter fun index => decide (limit < r.orderCount index)).reverse

/-- `ProcessDeferredDFIandPTSUpto` handles what is below the limit, counts
ascending, and keeps the rest. -/
structure HandlesUpto (r : DeferralRun n) (limit : BitVec 64) : Prop where
  processes : r.deferral.Processes (r.deferral.processDeferredDFIandPTSUpto limit)
    (r.slotsBelow limit)
  ascending : SortedBy (fun index => (r.orderCount index).toNat) (r.slotsBelow limit)
  kept : (r.deferral.processDeferredDFIandPTSUpto limit).orderedDeferredList =
    r.deferral.orderedDeferredList.filter fun index => !decide (r.orderCount index < limit)

/-- `ProcessDeferredDFIandPTSDownto` handles what is above the limit, counts
descending, and keeps the rest. -/
structure HandlesDownto (r : DeferralRun n) (limit : BitVec 64) : Prop where
  processes : r.deferral.Processes (r.deferral.processDeferredDFIandPTSDownto limit)
    (r.slotsAbove limit)
  descending : SortedBy (fun index => OrderDual.toDual (r.orderCount index).toNat)
    (r.slotsAbove limit)
  kept : (r.deferral.processDeferredDFIandPTSDownto limit).orderedDeferredList =
    r.deferral.orderedDeferredList.filter fun index => !decide (limit < r.orderCount index)

structure Inv (r : DeferralRun n) : Prop where
  ordered : Ordered r.deferral
  eachOnce : r.EachOnce
  used : ∀ index ∈ r.deferral.orderedDeferredList, r.deferral.Used index
  small : ∀ index ∈ r.deferral.orderedDeferredList, (r.orderCount index).toNat < 2 ^ 62
  adjusted : ∀ index ∈ r.deferral.orderedDeferredList,
    (r.deferral.extendedPicOrderCnt index).toNat / 2 = (r.orderCount index).toNat

variable {r : DeferralRun n}

theorem Inv.reset : Inv (reset n) where
  ordered := ⟨List.nodup_nil, fun index => by simp [DeferralRun.reset, Deferral.reset],
    List.Pairwise.nil⟩
  eachOnce := ⟨rfl, .refl _, .refl _⟩
  used index h := absurd h (List.not_mem_nil)
  small index h := absurd h (List.not_mem_nil)
  adjusted index h := absurd h (List.not_mem_nil)

theorem Inv.sorted (h : Inv r) :
    SortedBy (fun index => (r.orderCount index).toNat) r.deferral.orderedDeferredList := by
  refine List.Pairwise.imp_of_mem (fun {i j} hi hj hle => ?_) h.ordered.sorted
  show (r.orderCount i).toNat ≤ (r.orderCount j).toNat
  rw [← h.adjusted i hi, ← h.adjusted j hj]
  exact Nat.div_le_div_right hle

/-! ## Deferring -/

/-- The list is in order, and the buffers are in their slots. -/
structure Held (s : Deferral n) : Prop where
  ordered : Ordered s
  used : ∀ index ∈ s.orderedDeferredList, s.Used index

section Defer

variable {s : Deferral n} {buffer : Fin n} {parameters : CodedFrame} {c : BitVec 64}
  {dpb special : Bool}

theorem orderedDeferredList_defer (s : Deferral n) (buffer : Fin n) (parameters : CodedFrame)
    (c : BitVec 64) (dpb special : Bool) :
    (s.deferDFIandPTSGeneration buffer parameters c dpb special).orderedDeferredList =
      insertBy (fun index => ((s.deferDFIandPTSGeneration buffer parameters c dpb
        special).extendedPicOrderCnt index).toNat) buffer s.orderedDeferredList := by
  have hkey : ((s.deferDFIandPTSGeneration buffer parameters c dpb
      special).extendedPicOrderCnt buffer) = Deferral.adjust parameters c dpb special := by
    unfold Deferral.extendedPicOrderCnt Deferral.deferDFIandPTSGeneration
    dsimp only
    rw [Function.update_self]
  unfold insertBy
  simp only [hkey]
  rfl

theorem perm_defer :
    (s.deferDFIandPTSGeneration buffer parameters c dpb special).orderedDeferredList.Perm
      (buffer :: s.orderedDeferredList) := by
  rw [orderedDeferredList_defer]
  exact insertBy_perm _ buffer _

theorem mem_defer {index : Fin n} :
    index ∈ (s.deferDFIandPTSGeneration buffer parameters c dpb special).orderedDeferredList ↔
      index = buffer ∨ index ∈ s.orderedDeferredList := by
  rw [perm_defer.mem_iff, List.mem_cons]

theorem deferredList_defer_self :
    (s.deferDFIandPTSGeneration buffer parameters c dpb special).deferredList buffer =
      ⟨some buffer, parameters, Deferral.adjust parameters c dpb special⟩ :=
  Function.update_self ..

theorem deferredList_defer_of_ne {index : Fin n} (h : index ≠ buffer) :
    (s.deferDFIandPTSGeneration buffer parameters c dpb special).deferredList index =
      s.deferredList index :=
  Function.update_of_ne h _ _

theorem Held.notMem (h : Held s) (hunused : (s.deferredList buffer).buffer = none) :
    buffer ∉ s.orderedDeferredList :=
  fun hmem => (h.ordered.slots buffer).mp hmem hunused

theorem Held.deferDFIandPTSGeneration (h : Held s)
    (hunused : (s.deferredList buffer).buffer = none) :
    Held (s.deferDFIandPTSGeneration buffer parameters c dpb special) := by
  have hnot := h.notMem hunused
  refine ⟨⟨?_, ?_, ?_⟩, ?_⟩
  · rw [perm_defer.nodup_iff]
    exact List.nodup_cons.mpr ⟨hnot, h.ordered.distinct⟩
  · intro index
    rw [mem_defer]
    by_cases hindex : index = buffer
    · subst hindex
      rw [deferredList_defer_self]
      simp
    · rw [or_iff_right hindex, h.ordered.slots index, deferredList_defer_of_ne hindex]
  · rw [orderedDeferredList_defer]
    refine SortedBy.insertBy (h.ordered.sorted.congr fun index hindex => ?_)
    unfold Deferral.extendedPicOrderCnt
    rw [deferredList_defer_of_ne (ne_of_mem_of_not_mem hindex hnot)]
  · intro index hindex
    unfold Deferral.Used
    by_cases hbuffer : index = buffer
    · subst hbuffer
      rw [deferredList_defer_self]
    · rw [deferredList_defer_of_ne hbuffer]
      exact h.used index ((mem_defer.mp hindex).resolve_left hbuffer)

end Defer

theorem Inv.held (h : Inv r) : Held r.deferral := ⟨h.ordered, h.used⟩

theorem Inv.deferDFIandPTSGeneration (h : Inv r) {buffer : Fin n} {parameters : CodedFrame}
    {c : BitVec 64} {dpb special : Bool}
    (hunused : (r.deferral.deferredList buffer).buffer = none) (hsmall : c.toNat < 2 ^ 62) :
    Inv (r.step (.deferDFIandPTSGeneration buffer parameters c dpb special)) := by
  have hnot := h.held.notMem hunused
  have hheld : Held (r.step (.deferDFIandPTSGeneration buffer parameters c dpb special)).deferral :=
    h.held.deferDFIandPTSGeneration hunused
  let entry : DeferredDFIandPTS n :=
    ⟨some buffer, parameters, Deferral.adjust parameters c dpb special⟩
  let list := Function.update r.deferral.deferredList buffer entry
  let r' := r.step (.deferDFIandPTSGeneration buffer parameters c dpb special)
  have hentry : list buffer = entry := Function.update_self ..
  have hother : ∀ index ∈ r.deferral.orderedDeferredList,
      list index = r.deferral.deferredList index :=
    fun index hindex => Function.update_of_ne (ne_of_mem_of_not_mem hindex hnot) _ _
  have hcount : ∀ index ∈ r.deferral.orderedDeferredList,
      Function.update r.orderCount buffer c index = r.orderCount index :=
    fun index hindex => Function.update_of_ne (ne_of_mem_of_not_mem hindex hnot) _ _
  have hperm : r'.deferral.orderedDeferredList.Perm (buffer :: r.deferral.orderedDeferredList) :=
    perm_defer
  have hmem : ∀ {index}, index ∈ r'.deferral.orderedDeferredList ↔
      index = buffer ∨ index ∈ r.deferral.orderedDeferredList := mem_defer
  refine ⟨hheld.ordered, ⟨?_, ?_, ?_⟩, hheld.used, ?_, ?_⟩
  · show (r.deferral.calls ++ [_]).filterMap _ = (r.deferred ++ [_]).map _
    rw [List.filterMap_append, List.map_append, h.eachOnce.referenced]
    rfl
  · have hcalls : r'.deferral.calls.filterMap DeferredCall.numbered
        = r.deferral.calls.filterMap DeferredCall.numbered := by
      show (r.deferral.calls ++ [_]).filterMap _ = _
      rw [List.filterMap_append]
      exact List.append_nil _
    have hwaiting : (r'.deferral.orderedDeferredList.map fun index => (list index).parameters).Perm
        (parameters :: r.deferral.orderedDeferredList.map fun index =>
          (r.deferral.deferredList index).parameters) := by
      refine (hperm.map _).trans ?_
      rw [List.map_cons, hentry]
      rw [List.map_congr_left fun index hindex =>
        congrArg DeferredDFIandPTS.parameters (hother index hindex)]
    rw [hcalls]
    show List.Perm _ ((r.deferred ++ [_]).map _)
    rw [List.map_append]
    exact ((hwaiting.append_left _).trans List.perm_middle).trans
      ((h.eachOnce.numbered.cons _).trans (List.perm_append_singleton _ _).symm)
  · have hcalls : r'.deferral.calls.filterMap DeferredCall.dereferenced
        = r.deferral.calls.filterMap DeferredCall.dereferenced := by
      show (r.deferral.calls ++ [_]).filterMap _ = _
      rw [List.filterMap_append]
      exact List.append_nil _
    rw [hcalls]
    show List.Perm _ ((r.deferred ++ [_]).map _)
    rw [List.map_append]
    exact ((hperm.append_left _).trans List.perm_middle).trans
      ((h.eachOnce.dereferenced.cons _).trans (List.perm_append_singleton _ _).symm)
  · intro index hindex
    show (Function.update r.orderCount buffer c index).toNat < _
    rcases hmem.mp hindex with rfl | hold
    · rw [Function.update_self]
      exact hsmall
    · rw [hcount index hold]
      exact h.small index hold
  · intro index hindex
    show (list index).extendedPicOrderCnt.toNat / 2
      = (Function.update r.orderCount buffer c index).toNat
    rcases hmem.mp hindex with rfl | hold
    · rw [hentry, Function.update_self]
      exact Deferral.adjust_div parameters hsmall dpb special
    · rw [hother index hold, hcount index hold]
      exact h.adjusted index hold

/-! ## Processing -/

theorem Held.processes {s s' : Deferral n} (h : Held s) {handled : List (Fin n)}
    (hprocesses : s.Processes s' handled)
    (hperm : (handled ++ s'.orderedDeferredList).Perm s.orderedDeferredList)
    (hsublist : s'.orderedDeferredList.Sublist s.orderedDeferredList) : Held s' := by
  have hnodup : (handled ++ s'.orderedDeferredList).Nodup :=
    hperm.nodup_iff.mpr h.ordered.distinct
  have hmem : ∀ {index}, index ∈ s'.orderedDeferredList ↔
      index ∈ s.orderedDeferredList ∧ index ∉ handled := by
    intro index
    rw [← hperm.mem_iff, List.mem_append]
    constructor
    · exact fun hkept => ⟨.inr hkept, fun hhandled => hnodup.disjoint hhandled hkept⟩
    · exact fun ⟨hor, hnot⟩ => hor.resolve_left hnot
  have hkept : ∀ {index}, index ∉ handled → s'.deferredList index = s.deferredList index := by
    intro index hnot
    rw [hprocesses.deferredList]
    exact if_neg hnot
  refine ⟨⟨hnodup.of_append_right, ?_, ?_⟩, ?_⟩
  · intro index
    rw [hmem, h.ordered.slots]
    by_cases hhandled : index ∈ handled
    · refine iff_of_false (fun hboth => hboth.2 hhandled) ?_
      rw [not_not, hprocesses.deferredList]
      unfold Deferral.clear
      rw [if_pos hhandled]
    · rw [and_iff_left hhandled, hkept hhandled]
  · simp only [hprocesses.count]
    exact h.ordered.sorted.sublist hsublist
  · intro index hindex
    obtain ⟨hold, hnot⟩ := hmem.mp hindex
    unfold Deferral.Used
    rw [hkept hnot]
    exact h.used index hold

theorem Inv.processes (h : Inv r) {s' : Deferral n} {handled : List (Fin n)}
    (hprocesses : r.deferral.Processes s' handled)
    (hperm : (handled ++ s'.orderedDeferredList).Perm r.deferral.orderedDeferredList)
    (hsublist : s'.orderedDeferredList.Sublist r.deferral.orderedDeferredList) :
    Inv { r with deferral := s' } := by
  have hheld := h.held.processes hprocesses hperm hsublist
  refine ⟨hheld.ordered, ⟨?_, ?_, ?_⟩, hheld.used, ?_, ?_⟩
  · show s'.calls.filterMap _ = _
    rw [hprocesses.calls, List.filterMap_append, Deferral.referenced_entryCalls, List.append_nil]
    exact h.eachOnce.referenced
  · show List.Perm (s'.calls.filterMap _ ++ s'.orderedDeferredList.map _) _
    simp only [hprocesses.calls, List.filterMap_append, Deferral.numbered_entryCalls,
      hprocesses.parameters, List.append_assoc, ← List.map_append]
    exact ((hperm.map _).append_left _).trans h.eachOnce.numbered
  · show List.Perm (s'.calls.filterMap _ ++ s'.orderedDeferredList) _
    simp only [hprocesses.calls, List.filterMap_append, Deferral.dereferenced_entryCalls,
      List.append_assoc]
    exact (hperm.append_left _).trans h.eachOnce.dereferenced
  · intro index hindex
    exact h.small index (hsublist.mem hindex)
  · intro index hindex
    show (s'.extendedPicOrderCnt index).toNat / 2 = _
    rw [hprocesses.count]
    exact h.adjusted index (hsublist.mem hindex)

theorem Held.upto {s : Deferral n} (h : Held s) (limit : BitVec 64) :
    s.Processes (s.processDeferredDFIandPTSUpto limit)
        (s.orderedDeferredList.filter fun index =>
          decide (s.extendedPicOrderCnt index < limit <<< 1)) ∧
      (s.processDeferredDFIandPTSUpto limit).orderedDeferredList =
        s.orderedDeferredList.filter fun index =>
          !decide (s.extendedPicOrderCnt index < limit <<< 1) := by
  obtain ⟨⟨hlist, hcalls⟩, hleft⟩ := Deferral.processWhile_processes
    (fun count => decide (count < limit <<< 1)) s.orderedDeferredList h.ordered.distinct h.used
  have htake := takeWhile_lt h.ordered.sorted (limit <<< 1).toNat
  have hdrop := dropWhile_lt h.ordered.sorted (limit <<< 1).toNat
  exact ⟨htake ▸ ⟨hlist, hcalls⟩, hleft.trans hdrop⟩

theorem Held.downto {s : Deferral n} (h : Held s) (limit : BitVec 64) :
    s.Processes (s.processDeferredDFIandPTSDownto limit)
        (s.orderedDeferredList.filter fun index =>
          decide (limit <<< 1 ||| 1 < s.extendedPicOrderCnt index)).reverse ∧
      (s.processDeferredDFIandPTSDownto limit).orderedDeferredList =
        s.orderedDeferredList.filter fun index =>
          !decide (limit <<< 1 ||| 1 < s.extendedPicOrderCnt index) := by
  obtain ⟨⟨hlist, hcalls⟩, hleft⟩ := Deferral.processWhile_processes
    (fun count => decide (limit <<< 1 ||| 1 < count)) s.orderedDeferredList.reverse
    (List.nodup_reverse.mpr h.ordered.distinct)
    fun index hindex => h.used index (List.mem_reverse.mp hindex)
  have htake := takeWhile_gt h.ordered.sorted (limit <<< 1 ||| 1).toNat
  have hdrop := dropWhile_gt h.ordered.sorted (limit <<< 1 ||| 1).toNat
  refine ⟨htake ▸ ⟨hlist, hcalls⟩, ?_⟩
  show List.reverse _ = _
  rw [hleft]
  exact (congrArg List.reverse hdrop).trans (List.reverse_reverse _)

theorem Inv.upto (h : Inv r) {limit : BitVec 64} (hlimit : Limit limit) :
    r.HandlesUpto limit := by
  obtain ⟨hprocesses, hkept⟩ := h.held.upto limit
  have hbelow : ∀ index ∈ r.deferral.orderedDeferredList,
      decide (r.deferral.extendedPicOrderCnt index < limit <<< 1)
        = decide (r.orderCount index < limit) := fun index hindex =>
    decide_eq_decide.mpr (lt_doubled_iff (h.small index hindex) (h.adjusted index hindex) hlimit)
  have hhandled : _ = r.slotsBelow limit := List.filter_congr hbelow
  have hleft := List.filter_congr fun index hindex => congrArg not (hbelow index hindex)
  exact ⟨hhandled ▸ hprocesses, h.sorted.filter _, hkept.trans hleft⟩

theorem Inv.downto (h : Inv r) {limit : BitVec 64} (hlimit : Limit limit) :
    r.HandlesDownto limit := by
  obtain ⟨hprocesses, hkept⟩ := h.held.downto limit
  have habove : ∀ index ∈ r.deferral.orderedDeferredList,
      decide (limit <<< 1 ||| 1 < r.deferral.extendedPicOrderCnt index)
        = decide (limit < r.orderCount index) := fun index hindex =>
    decide_eq_decide.mpr (doubled_lt_iff (h.small index hindex) (h.adjusted index hindex) hlimit)
  have hhandled : _ = r.slotsAbove limit := congrArg List.reverse (List.filter_congr habove)
  have hleft := List.filter_congr fun index hindex => congrArg not (habove index hindex)
  exact ⟨hhandled ▸ hprocesses, (h.sorted.filter _).reverse, hkept.trans hleft⟩

/-! ## Runs -/

theorem Inv.step (h : Inv r) {op : DeferralOperation n} (hcall : r.Callable op) :
    Inv (r.step op) := by
  cases op with
  | deferDFIandPTSGeneration buffer parameters c dpb special =>
    exact h.deferDFIandPTSGeneration hcall.1 hcall.2
  | processDeferredDFIandPTSUpto limit =>
    obtain ⟨hprocesses, -, hleft⟩ := h.upto hcall
    refine h.processes hprocesses ?_ (hleft ▸ List.filter_sublist)
    rw [hleft]
    exact List.filter_append_perm _ _
  | processDeferredDFIandPTSDownto limit =>
    obtain ⟨hprocesses, -, hleft⟩ := h.downto hcall
    refine h.processes hprocesses ?_ (hleft ▸ List.filter_sublist)
    rw [hleft]
    exact ((List.reverse_perm _).append_right _).trans (List.filter_append_perm _ _)

/-- In every state of every run the ordered list holds the used slots in order,
each deferral is numbered and dereferenced once or waits, and both processing
functions handle exactly what is on their side of the limit, in order. -/
theorem deferredNumbering (n : Nat) (ops : List (DeferralOperation n))
    (hcalls : Along step Callable (reset n) ops) :
    let r := ops.foldl step (reset n)
    Ordered r.deferral ∧ r.EachOnce ∧ (∀ limit, Limit limit → r.HandlesUpto limit) ∧
      ∀ limit, Limit limit → r.HandlesDownto limit := by
  intro r
  have h : Inv r := foldl_inv (fun hcall hr => hr.step hcall) ops hcalls .reset
  exact ⟨h.ordered, h.eachOnce, fun limit hlimit => h.upto hlimit,
    fun limit hlimit => h.downto hlimit⟩

/-- A frame of count 5, then the two fields of count 3, second displayed first. -/
theorem deferredNumbering_fields :
    let frame : CodedFrame := ⟨0, ⟨structureFrame, true, 1, 1, true, true⟩⟩
    let bottom : CodedFrame := ⟨1, ⟨2, true, 1, 0, true, true⟩⟩
    let top : CodedFrame := ⟨2, ⟨structureTopField, true, 1, 0, true, false⟩⟩
    let r := [DeferralOperation.deferDFIandPTSGeneration 0 frame 5 false false,
      .deferDFIandPTSGeneration 1 bottom 3 false false,
      .deferDFIandPTSGeneration 2 top 3 false false].foldl step (reset 3)
    r.deferral.orderedDeferredList = [2, 1, 0] ∧ r.slotsBelow 5 = [2, 1] ∧ r.HandlesUpto 5 := by
  intro frame bottom top r
  have hcalls : Along step Callable (reset 3)
      [.deferDFIandPTSGeneration 0 frame 5 false false,
        .deferDFIandPTSGeneration 1 bottom 3 false false,
        .deferDFIandPTSGeneration 2 top 3 false false] := by decide +kernel
  exact ⟨by decide +kernel, by decide +kernel,
    (deferredNumbering 3 _ hcalls).2.2.1 5 (by decide +kernel)⟩

end DeferralRun

end Duckbox.H264
