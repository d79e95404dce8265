import Duckbox.Collator2.CodedFrames
import Duckbox.Lib.Reversal

/-!
# No frame is lost in reverse output

The frames given to `OutputOnePartition` in reverse play, in the order they are
given, are those that a confirmed reversible point has let go and those that
wait on the reverse frame stack (`Lib.Groups`). Each step is read off the lists
the ring and the two stacks hold (`Holds`): the search for a reversible point
splits the stack at it, and what was held aside is put back in its order.

> `frames_once`: each buffer passed is once in the ring or once on the stack, and
> each group enters the ring last first, exactly in the runs that never pass a
> frame while the stack holds all it was made for.

The stack's refusal of one more is not looked at, so that frame is in neither.
-/

namespace Duckbox.Collator2

open Infrastructure (StackGeneric)
open Lib (Along Groups)

namespace FrameOutput

/-- What the ring and the stacks hold, the tops of the stacks first. -/
structure Holds (s : FrameOutput) (ring : List CodedFrame) (stacked aside : List (CodedFrame × Bool)) :
    Prop where
  outputRing : s.outputRing = ring
  reverse : s.reverseFrameStack.entries = stacked
  temporary : s.temporaryHoldingStack.entries = aside

namespace Holds

variable {s : FrameOutput} {ring : List CodedFrame} {stacked aside : List (CodedFrame × Bool)}
  {x : CodedFrame × Bool}

theorem popReverse (h : Holds s ring (x :: stacked) aside) :
    ∃ t, s.popReverse = some (x, t) ∧ Holds t ring stacked aside := by
  obtain ⟨stack, hpop, hentries⟩ := StackGeneric.pop_of_entries h.reverse
  refine ⟨{ s with reverseFrameStack := stack }, ?_, h.outputRing, hentries, h.temporary⟩
  rw [FrameOutput.popReverse, hpop]
  rfl

theorem popTemporary (h : Holds s ring stacked (x :: aside)) :
    ∃ t, s.popTemporary = some (x, t) ∧ Holds t ring stacked aside := by
  obtain ⟨stack, hpop, hentries⟩ := StackGeneric.pop_of_entries h.temporary
  refine ⟨{ s with temporaryHoldingStack := stack }, ?_, h.outputRing, h.reverse, hentries⟩
  rw [FrameOutput.popTemporary, hpop]
  rfl

theorem pushReverse (h : Holds s ring stacked aside) (hlt : stacked.length < maximumPartitionPoints)
    (x : CodedFrame × Bool) : Holds (s.pushReverse x) ring (x :: stacked) aside := by
  refine ⟨h.outputRing, ?_, h.temporary⟩
  rw [← h.reverse] at hlt ⊢
  exact StackGeneric.push_entries hlt x

theorem pushTemporary (h : Holds s ring stacked aside) (hlt : aside.length < maximumPartitionPoints)
    (x : CodedFrame × Bool) : Holds (s.pushTemporary x) ring stacked (x :: aside) := by
  refine ⟨h.outputRing, h.reverse, ?_⟩
  rw [← h.temporary] at hlt ⊢
  exact StackGeneric.push_entries hlt x

theorem insert (h : Holds s ring stacked aside) (frame : CodedFrame) :
    Holds (s.insert frame) (ring ++ [frame]) stacked aside :=
  ⟨congrArg (· ++ [frame]) h.outputRing, h.reverse, h.temporary⟩

theorem stacked_le (h : Holds s ring stacked aside) : stacked.length ≤ maximumPartitionPoints := by
  rw [← h.reverse]
  exact s.reverseFrameStack.level_le

/-! ## Letting go -/

theorem findReversiblePoint_none (bufferAndFlag : CodedFrame × Bool)
    (h : Holds s ring stacked aside)
    (hfits : stacked.length + aside.length ≤ maximumPartitionPoints)
    (hnone : ∀ y ∈ stacked, y.2 = false) (hflag : bufferAndFlag.2 = false ∨ stacked ≠ []) :
    (findReversiblePoint stacked.length bufferAndFlag s).1.2 = false ∧
      Holds (findReversiblePoint stacked.length bufferAndFlag s).2 ring []
        (stacked.reverse ++ aside) := by
  induction stacked generalizing s aside bufferAndFlag with
  | nil => exact ⟨hflag.resolve_right (· rfl), h⟩
  | cons x rest ih =>
    obtain ⟨t, hpop, ht⟩ := h.popReverse
    have hx : x.2 = false := hnone x List.mem_cons_self
    have hlen : rest.length + 1 + aside.length ≤ maximumPartitionPoints := hfits
    have hrest := ih x (ht.pushTemporary (by omega) x) (by rw [List.length_cons]; omega)
      (fun y hy => hnone y (List.mem_cons_of_mem x hy)) (.inl hx)
    rw [List.length_cons, findReversiblePoint, hpop]
    simp only [hx, Bool.false_eq_true, if_false]
    rw [List.reverse_cons, List.append_assoc]
    exact hrest

theorem findReversiblePoint_found (bufferAndFlag : CodedFrame × Bool)
    {point : CodedFrame × Bool} {above below : List (CodedFrame × Bool)} (h : Holds s ring (above ++ point :: below) aside)
    (hfits : above.length + aside.length < maximumPartitionPoints)
    (hnone : ∀ y ∈ above, y.2 = false) (hpoint : point.2 = true) :
    (findReversiblePoint (above ++ point :: below).length bufferAndFlag s).1 = point ∧
      Holds (findReversiblePoint (above ++ point :: below).length bufferAndFlag s).2 ring below
        (above.reverse ++ aside) := by
  induction above generalizing s aside bufferAndFlag with
  | nil =>
    obtain ⟨t, hpop, ht⟩ := h.popReverse
    rw [List.nil_append, List.length_cons, findReversiblePoint, hpop]
    exact ⟨congrArg Prod.fst (if_pos hpoint), (congrArg Prod.snd (if_pos hpoint)).symm ▸ ht⟩
  | cons x rest ih =>
    obtain ⟨t, hpop, ht⟩ := h.popReverse
    have hx : x.2 = false := hnone x List.mem_cons_self
    have hlen : rest.length + 1 + aside.length < maximumPartitionPoints := hfits
    have hrest := ih x (ht.pushTemporary (by omega) x) (by rw [List.length_cons]; omega)
      (fun y hy => hnone y (List.mem_cons_of_mem x hy))
    rw [List.cons_append, List.length_cons, findReversiblePoint, hpop]
    simp only [hx, Bool.false_eq_true, if_false]
    rw [List.reverse_cons, List.append_assoc]
    exact hrest

theorem drain_insert (h : Holds s ring stacked aside) :
    Holds (Lib.drain FrameOutput.popReverse (fun x s => s.insert x.1) stacked.length s)
      (ring ++ stacked.map (·.1)) [] aside := by
  have hloop := Lib.drain_inv FrameOutput.popReverse (fun x s => s.insert x.1) id
    (P := fun rest t => ∃ done, Holds t done rest aside ∧
      done ++ rest.map (·.1) = ring ++ stacked.map (·.1))
    (fun x rest t ⟨done, ht, hall⟩ => ?_) stacked ⟨ring, h, rfl⟩
  · obtain ⟨done, ht, hall⟩ := hloop
    rw [List.map_nil, List.append_nil] at hall
    exact hall ▸ ht
  · obtain ⟨u, hpop, hu⟩ := ht.popReverse
    refine ⟨u, hpop, _, hu.insert x.1, ?_⟩
    rw [← hall, List.append_assoc]
    rfl

theorem drain_pushReverse (h : Holds s ring stacked aside)
    (hfits : aside.length + stacked.length ≤ maximumPartitionPoints) :
    Holds (Lib.drain FrameOutput.popTemporary FrameOutput.pushReverse aside.length s) ring
      (aside.reverse ++ stacked) [] := by
  have hloop := Lib.drain_inv FrameOutput.popTemporary FrameOutput.pushReverse id
    (P := fun rest t => ∃ back, Holds t ring back rest ∧
      rest.reverse ++ back = aside.reverse ++ stacked)
    (fun x rest t ⟨back, ht, hall⟩ => ?_) aside ⟨stacked, h, rfl⟩
  · obtain ⟨back, ht, hall⟩ := hloop
    rw [List.reverse_nil, List.nil_append] at hall
    exact hall ▸ ht
  · obtain ⟨u, hpop, hu⟩ := ht.popTemporary
    have hlen := congrArg List.length hall
    simp only [List.length_append, List.length_reverse, List.length_cons] at hlen
    refine ⟨u, hpop, _, hu.pushReverse (by omega) x, ?_⟩
    rw [← hall, List.reverse_cons, List.append_assoc]
    rfl

theorem outputReversed_none (bufferAndFlag : CodedFrame × Bool) (h : Holds s ring stacked [])
    (hne : stacked ≠ []) (hnone : ∀ y ∈ stacked, y.2 = false) :
    Holds (s.outputReversed bufferAndFlag) ring stacked [] := by
  obtain ⟨hflag, hfound⟩ := h.findReversiblePoint_none bufferAndFlag
    h.stacked_le hnone (.inr hne)
  have hlevel : s.reverseFrameStack.level = stacked.length := congrArg List.length h.reverse
  unfold outputReversed
  rw [hlevel]
  generalize findReversiblePoint stacked.length bufferAndFlag s = found at hflag hfound
  obtain ⟨last, t⟩ := found
  simp only at hflag hfound
  have hrestored := hfound.drain_pushReverse (by
    simpa using h.stacked_le)
  simp only [hflag, Bool.false_eq_true, if_false]
  rw [StackGeneric.level, hfound.temporary]
  simpa using hrestored

theorem outputReversed_found (bufferAndFlag : CodedFrame × Bool)
    {point : CodedFrame × Bool} {above below : List (CodedFrame × Bool)} (h : Holds s ring (above ++ point :: below) [])
    (hnone : ∀ y ∈ above, y.2 = false) (hpoint : point.2 = true) :
    Holds (s.outputReversed bufferAndFlag)
      (ring ++ point.1.smoothReverse :: below.map (·.1)) above [] := by
  have hle : above.length + (below.length + 1) ≤ maximumPartitionPoints := by
    simpa using h.stacked_le
  obtain ⟨hlast, hfound⟩ := h.findReversiblePoint_found bufferAndFlag
    (by rw [List.length_nil]; omega) hnone hpoint
  have hlevel : s.reverseFrameStack.level = (above ++ point :: below).length :=
    congrArg List.length h.reverse
  unfold outputReversed
  rw [hlevel]
  generalize findReversiblePoint (above ++ point :: below).length bufferAndFlag s = found
    at hlast hfound
  obtain ⟨last, t⟩ := found
  simp only at hlast hfound
  subst hlast
  have hinserted := (hfound.insert last.1.smoothReverse).drain_insert
  have hrestored := hinserted.drain_pushReverse (by
    simp only [List.length_append, List.length_reverse, List.length_nil]
    omega)
  have hcount : (t.insert last.1.smoothReverse).reverseFrameStack.level = below.length :=
    congrArg List.length hfound.reverse
  simp only [hpoint, if_true]
  rw [hcount, StackGeneric.level, hinserted.temporary]
  simpa using hrestored

end Holds

/-! ## Runs -/

/-- How a frame is stacked. -/
def entry (partition : CodedFrame × FrameParserHeaderFlag) : CodedFrame × Bool :=
  (partition.1, partition.2.possibleReversiblePoint)

/-- The groups of what has been passed, in the order it was. -/
def groupsOf (passed : List (CodedFrame × FrameParserHeaderFlag)) :
    Groups (CodedFrame × FrameParserHeaderFlag) :=
  passed.foldl (Groups.arrive (·.2.possibleReversiblePoint) (·.2.confirmReversiblePoint)) .empty

/-- What is let go is in the ring and what waits is stacked. -/
structure Tracks (g : Groups (CodedFrame × FrameParserHeaderFlag)) (s : FrameOutput) : Prop where
  ring : s.outputRing.map (·.buffer) = g.output.map (·.1.buffer)
  stacked : s.reverseFrameStack.entries = (g.waiting.map entry).reverse
  aside : s.temporaryHoldingStack.entries = []

theorem Tracks.initial : Tracks .empty initial := ⟨rfl, rfl, rfl⟩

theorem stacked_split (l : List (CodedFrame × FrameParserHeaderFlag)) :
    (l.map entry).reverse =
      ((l.rtakeWhile (!·.2.possibleReversiblePoint)).map entry).reverse ++
        ((l.rdropWhile (!·.2.possibleReversiblePoint)).map entry).reverse := by
  rw [← List.reverse_append, ← List.map_append, List.rdropWhile_append_rtakeWhile]

variable {s : FrameOutput}

theorem Tracks.outputOnePartition {g : Groups (CodedFrame × FrameParserHeaderFlag)} (h : Tracks g s)
    (hroom : s.reverseFrameStack.level < maximumPartitionPoints)
    (partition : CodedFrame × FrameParserHeaderFlag) :
    Tracks (g.arrive (·.2.possibleReversiblePoint) (·.2.confirmReversiblePoint) partition)
      (s.outputOnePartition .playBackward partition) := by
  have hholds : Holds s s.outputRing (g.waiting.map entry).reverse [] := ⟨rfl, h.stacked, h.aside⟩
  have hlt : (g.waiting.map entry).reverse.length < maximumPartitionPoints := by
    rw [← h.stacked]
    exact hroom
  have hpushed : Holds (s.pushReverse (entry partition)) s.outputRing
      ((g.waiting ++ [partition]).map entry).reverse [] := by
    rw [List.map_append, List.reverse_append]
    exact hholds.pushReverse hlt (entry partition)
  have hne : g.waiting ++ [partition] ≠ [] := List.append_ne_nil_of_right_ne_nil _ (by simp)
  have hwaiting : ∀ y ∈ (((g.waiting ++ [partition]).rtakeWhile
      (!·.2.possibleReversiblePoint)).map entry).reverse, y.2 = false := by
    intro y hy
    obtain ⟨a, ha, rfl⟩ := List.mem_map.mp (List.mem_reverse.mp hy)
    have hmarked := List.mem_rtakeWhile_imp ha
    simpa [entry] using hmarked
  unfold Groups.arrive FrameOutput.outputOnePartition
  cases hconfirm : partition.2.confirmReversiblePoint with
  | false =>
    simp only [hconfirm, Bool.false_eq_true, false_and, if_false]
    exact ⟨h.ring, hpushed.reverse, hpushed.temporary⟩
  | true =>
    simp only [hconfirm, true_and, if_true]
    generalize g.waiting ++ [partition] = waiting at hpushed hwaiting hne ⊢
    rw [stacked_split] at hpushed
    by_cases hgroup : waiting.rdropWhile (!·.2.possibleReversiblePoint) = []
    · -- no reversible point waits
      rw [if_neg (not_not_intro hgroup)]
      have hall : waiting.rtakeWhile (!·.2.possibleReversiblePoint) = waiting := by
        have happend : waiting.rdropWhile (!·.2.possibleReversiblePoint) ++ _ = waiting :=
          List.rdropWhile_append_rtakeWhile
        rwa [hgroup] at happend
      rw [hgroup, hall, List.map_nil, List.reverse_nil, List.append_nil] at hpushed
      rw [hall] at hwaiting
      have hkept := hpushed.outputReversed_none (entry partition)
        (by simpa using hne) hwaiting
      exact ⟨(congrArg (List.map (·.buffer)) hkept.outputRing).trans h.ring, hkept.reverse,
        hkept.temporary⟩
    · rw [if_pos hgroup]
      have hlast := List.rdropWhile_last_not (!·.2.possibleReversiblePoint) waiting hgroup
      have hsplit := List.dropLast_concat_getLast hgroup
      generalize waiting.rdropWhile (!·.2.possibleReversiblePoint) = group
        at hgroup hlast hsplit hpushed ⊢
      generalize group.getLast hgroup = point at hlast hsplit
      generalize group.dropLast = before at hsplit
      subst hsplit
      have hpoint : (entry point).2 = true := by simpa [entry] using hlast
      rw [List.map_append, List.reverse_append] at hpushed
      have hgone := hpushed.outputReversed_found (entry partition) hwaiting hpoint
      have hbelow : ((before.map entry).reverse.map (·.1)).map (·.buffer) =
          before.reverse.map (·.1.buffer) := by
        rw [← List.map_reverse, List.map_map, List.map_map]
        rfl
      refine ⟨(congrArg (List.map (·.buffer)) hgone.outputRing).trans ?_, hgone.reverse,
        hgone.temporary⟩
      rw [Groups.output_concat _ _ _ g.waiting, List.map_append, List.map_append, h.ring,
        List.reverse_append, List.map_append, ← hbelow]
      rfl

/-! ## Every frame once -/

/-- The frames there are, in the ring or stacked. -/
def frames (s : FrameOutput) : List CodedFrame :=
  s.outputRing ++ s.reverseFrameStack.entries.map (·.1)

theorem Holds.frames_length {ring : List CodedFrame} {stacked aside : List (CodedFrame × Bool)}
    (h : Holds s ring stacked aside) : s.frames.length = ring.length + stacked.length := by
  unfold frames
  rw [h.outputRing, h.reverse, List.length_append, List.length_map]

theorem Holds.outputReversed_count {ring : List CodedFrame} {stacked : List (CodedFrame × Bool)}
    (h : Holds s ring stacked []) (hne : stacked ≠ []) (bufferAndFlag : CodedFrame × Bool) :
    (s.outputReversed bufferAndFlag).temporaryHoldingStack.entries = [] ∧
      (s.outputReversed bufferAndFlag).frames.length = s.frames.length := by
  cases hfind : stacked.find? (·.2) with
  | none =>
    have hnone : ∀ y ∈ stacked, y.2 = false := by
      intro y hy
      simpa using List.find?_eq_none.mp hfind y hy
    have hkept := h.outputReversed_none bufferAndFlag hne hnone
    exact ⟨hkept.temporary, hkept.frames_length.trans h.frames_length.symm⟩
  | some point =>
    obtain ⟨hpoint, above, below, rfl, habove⟩ := List.find?_eq_some_iff_append.mp hfind
    have hgone := h.outputReversed_found bufferAndFlag
      (fun y hy => by simpa using habove y hy) hpoint
    refine ⟨hgone.temporary, ?_⟩
    rw [hgone.frames_length, h.frames_length]
    simp only [List.length_append, List.length_cons, List.length_map]
    omega

theorem outputOnePartition_count (haside : s.temporaryHoldingStack.entries = [])
    (partition : CodedFrame × FrameParserHeaderFlag) :
    (s.outputOnePartition .playBackward partition).temporaryHoldingStack.entries = [] ∧
      (s.outputOnePartition .playBackward partition).frames.length = s.frames.length +
        if s.reverseFrameStack.level < maximumPartitionPoints then 1 else 0 := by
  have hholds : Holds s s.outputRing s.reverseFrameStack.entries [] := ⟨rfl, rfl, haside⟩
  obtain ⟨stacked, hpushed, hne, hcount⟩ : ∃ stacked,
      Holds (s.pushReverse (entry partition)) s.outputRing stacked [] ∧ stacked ≠ [] ∧
        stacked.length = s.reverseFrameStack.entries.length +
          if s.reverseFrameStack.level < maximumPartitionPoints then 1 else 0 := by
    by_cases hroom : s.reverseFrameStack.level < maximumPartitionPoints
    · refine ⟨_, hholds.pushReverse hroom (entry partition), List.cons_ne_nil _ _, ?_⟩
      rw [if_pos hroom, List.length_cons]
    · have hfull : s.reverseFrameStack.entries.length = maximumPartitionPoints :=
        Nat.le_antisymm s.reverseFrameStack.level_le (Nat.not_lt.mp hroom)
      refine ⟨s.reverseFrameStack.entries, ⟨rfl, ?_, haside⟩, ?_, ?_⟩
      · show (s.reverseFrameStack.push _).entries = _
        rw [StackGeneric.push, dif_pos hfull]
      · intro hnil
        rw [hnil] at hfull
        exact nomatch hfull
      · rw [if_neg hroom, Nat.add_zero]
  have hmore : (s.pushReverse (entry partition)).frames.length = s.frames.length +
      if s.reverseFrameStack.level < maximumPartitionPoints then 1 else 0 := by
    rw [hpushed.frames_length, hcount, hholds.frames_length, Nat.add_assoc]
  unfold FrameOutput.outputOnePartition
  cases hconfirm : partition.2.confirmReversiblePoint with
  | false =>
    simp only [hconfirm, Bool.false_eq_true, if_false]
    exact ⟨hpushed.temporary, hmore⟩
  | true =>
    simp only [hconfirm, if_true]
    obtain ⟨hnone, hsame⟩ := hpushed.outputReversed_count hne (entry partition)
    exact ⟨hnone, hsame.trans hmore⟩

/-- Each of the buffers passed is in the ring or stacked, once, and each group of
them is in the ring in the reverse of the order in which it was passed. -/
structure OnceInReverse (passed : List (CodedFrame × FrameParserHeaderFlag)) (s : FrameOutput) :
    Prop where
  once : (s.frames.map (·.buffer)).Perm (passed.map (·.1.buffer))
  ring : s.outputRing.map (·.buffer) = (groupsOf passed).output.map (·.1.buffer)
  stacked : s.reverseFrameStack.entries.map (·.1) = (groupsOf passed).waiting.reverse.map (·.1)

theorem Tracks.onceInReverse {passed : List (CodedFrame × FrameParserHeaderFlag)}
    (h : Tracks (groupsOf passed) s) : OnceInReverse passed s := by
  have hstacked : s.reverseFrameStack.entries.map (·.1) =
      (groupsOf passed).waiting.reverse.map (·.1) := by
    rw [h.stacked, ← List.map_reverse, List.map_map]
    rfl
  refine ⟨?_, h.ring, hstacked⟩
  have hall : (groupsOf passed).released.flatten ++ (groupsOf passed).waiting = passed := by
    unfold groupsOf
    rw [Groups.arrivals_all]
    rfl
  unfold frames
  rw [List.map_append, hstacked, h.ring, List.map_map]
  conv_rhs => rw [← hall, List.map_append]
  exact ((Groups.output_perm _).map _).append ((List.reverse_perm _).map _)

/-- There is room on the stack. -/
def Room (s : FrameOutput) (_ : CodedFrame × FrameParserHeaderFlag) : Prop :=
  s.reverseFrameStack.level < maximumPartitionPoints

theorem tracks_of_room (passed : List (CodedFrame × FrameParserHeaderFlag)) :
    ∀ {g : Groups (CodedFrame × FrameParserHeaderFlag)} {s : FrameOutput},
      Along (outputOnePartition .playBackward) Room s passed → Tracks g s →
        Tracks (passed.foldl
            (Groups.arrive (·.2.possibleReversiblePoint) (·.2.confirmReversiblePoint)) g)
          (passed.foldl (outputOnePartition .playBackward) s) := by
  induction passed with
  | nil => intro _ _ _ h; exact h
  | cons partition passed ih =>
    intro g s hroom h
    exact ih hroom.2 (h.outputOnePartition hroom.1 partition)

theorem frames_count (passed : List (CodedFrame × FrameParserHeaderFlag)) :
    ∀ {s : FrameOutput}, s.temporaryHoldingStack.entries = [] →
      (passed.foldl (outputOnePartition .playBackward) s).frames.length ≤
          s.frames.length + passed.length ∧
        ((passed.foldl (outputOnePartition .playBackward) s).frames.length =
            s.frames.length + passed.length →
          Along (outputOnePartition .playBackward) Room s passed) := by
  induction passed with
  | nil => intro s _; exact ⟨Nat.le_refl _, fun _ => trivial⟩
  | cons partition passed ih =>
    intro s haside
    obtain ⟨hnone, hcount⟩ := outputOnePartition_count haside partition
    obtain ⟨hle, hroom⟩ := ih hnone
    rw [List.foldl_cons, List.length_cons]
    by_cases hlevel : s.reverseFrameStack.level < maximumPartitionPoints
    · rw [hcount, if_pos hlevel] at hle hroom
      exact ⟨by omega, fun hall => ⟨hlevel, hroom (by omega)⟩⟩
    · rw [hcount, if_neg hlevel] at hle
      exact ⟨by omega, fun hall => by omega⟩

/-- Each buffer passed in reverse play is in the ring or on the stack, once, and each
group is in the ring last first, exactly if no frame came while the stack was full. -/
theorem frames_once (passed : List (CodedFrame × FrameParserHeaderFlag)) :
    OnceInReverse passed (passed.foldl (outputOnePartition .playBackward) initial) ↔
      Along (outputOnePartition .playBackward) Room initial passed := by
  constructor
  · intro h
    refine (frames_count passed (s := initial) rfl).2 ?_
    have hlength := h.once.length_eq
    rw [List.length_map, List.length_map] at hlength
    rw [hlength]
    exact (Nat.zero_add _).symm
  · intro hroom
    exact Tracks.onceInReverse (tracks_of_room passed hroom .initial)

/-- 65 frames with no reversible point among them: the last is lost. -/
theorem frames_lost :
    let passed := (List.range 65).map fun k =>
      ((⟨⟨k, [], []⟩, ⟨false, false, false, false, false, 0, 0, 0⟩⟩ : CodedFrame),
        (⟨true, false, false⟩ : FrameParserHeaderFlag))
    let s := passed.foldl (outputOnePartition .playBackward) initial
    (⟨64, [], []⟩ : CollatedBuffer) ∈ passed.map (·.1.buffer) ∧
      (⟨64, [], []⟩ : CollatedBuffer) ∉ s.frames.map (·.buffer) ∧ ¬OnceInReverse passed s := by
  intro passed s
  have hpassed : (⟨64, [], []⟩ : CollatedBuffer) ∈ passed.map (·.1.buffer) := by decide +kernel
  have hlost : (⟨64, [], []⟩ : CollatedBuffer) ∉ s.frames.map (·.buffer) := by decide +kernel
  exact ⟨hpassed, hlost, fun h => hlost (h.once.symm.subset hpassed)⟩

end FrameOutput

end Duckbox.Collator2
