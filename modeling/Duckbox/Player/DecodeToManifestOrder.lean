import Duckbox.Player.DecodeToManifestTables

/-!
# Decode to manifest: nothing lost, and in display order

Whatever happens around the loop, a frame that arrived once left once or is in
the table (`Arrivals`). The order holds while the loop is not disturbed
(`Undisturbed`): indices are assigned from 0 on, a frame arrives or is recorded,
the table stays short, no drain discards, and no frame arrives with an index
below one that a pending marker forced out. Two facts carry it, both in `Inv`:
what waits in the table has the desired index or a later one, and every index
before the desired one, unless a marker passed it over, has left or was skipped
as not decoded.
-/

namespace Duckbox.Player

open Duckbox.Lib

variable {φ : Type} {n : Nat}

/-! ## What happened -/

/-- The frames that left, latest first. -/
def leftFrames (events : List (Event φ)) : List φ :=
  events.filterMap fun
    | .left f _ _ => some f
    | _ => none

/-- The display indices that left, latest first. -/
def leftIndices (events : List (Event φ)) : List Nat :=
  events.filterMap fun
    | .left _ d _ => some d
    | _ => none

/-- The index left, or was skipped. -/
def Accounted (events : List (Event φ)) (j : Nat) : Prop :=
  (∃ f b, .left f j b ∈ events) ∨ .skipped j ∈ events

/-- The indices up to the highest that left with a marker pending. -/
def forcedBelow : List (Event φ) → Nat
  | [] => 0
  | .left _ d true :: events => max (d + 1) (forcedBelow events)
  | .left _ _ false :: events => forcedBelow events
  | .skipped _ :: events => forcedBelow events
  | .marker :: events => forcedBelow events

variable {events : List (Event φ)} {f : φ}

theorem mem_leftFrames : f ∈ leftFrames events ↔ ∃ d b, .left f d b ∈ events := by
  unfold leftFrames
  rw [List.mem_filterMap]
  constructor
  · rintro ⟨e, he, hf⟩
    cases e with
    | left g d b =>
      obtain rfl := Option.some.inj hf
      exact ⟨d, b, he⟩
    | skipped j => exact absurd hf (by simp)
    | marker => exact absurd hf (by simp)
  · rintro ⟨d, b, he⟩
    exact ⟨_, he, rfl⟩

theorem mem_leftIndices {d : Nat} : d ∈ leftIndices events ↔ ∃ f b, .left f d b ∈ events := by
  unfold leftIndices
  rw [List.mem_filterMap]
  constructor
  · rintro ⟨e, he, hd⟩
    cases e with
    | left f j b =>
      obtain rfl := Option.some.inj hd
      exact ⟨f, b, he⟩
    | skipped j => exact absurd hd (by simp)
    | marker => exact absurd hd (by simp)
  · rintro ⟨f, b, he⟩
    exact ⟨_, he, rfl⟩

@[simp] theorem accounted_left {d j : Nat} {b : Bool} :
    Accounted (.left f d b :: events) j ↔ j = d ∨ Accounted events j := by
  unfold Accounted
  constructor
  · rintro (⟨g, c, hg⟩ | hs)
    · rcases List.mem_cons.mp hg with heq | hold
      · exact .inl (Event.left.inj heq).2.1
      · exact .inr (.inl ⟨g, c, hold⟩)
    · exact .inr (.inr ((List.mem_cons.mp hs).resolve_left (by simp)))
  · rintro (rfl | ⟨g, c, hg⟩ | hs)
    · exact .inl ⟨f, b, List.mem_cons_self⟩
    · exact .inl ⟨g, c, List.mem_cons_of_mem _ hg⟩
    · exact .inr (List.mem_cons_of_mem _ hs)

@[simp] theorem accounted_skipped {d j : Nat} :
    Accounted (.skipped d :: events) j ↔ j = d ∨ Accounted events j := by
  simp only [Accounted, List.mem_cons, reduceCtorEq, false_or, Event.skipped.injEq]
  exact or_left_comm

@[simp] theorem accounted_marker {j : Nat} :
    Accounted (.marker :: events) j ↔ Accounted events j := by
  simp [Accounted]

/-- The property of a frame that was extracted. -/
def Extracted.All (P : φ → Prop) : Extracted φ → Prop
  | .frame f => P f
  | _ => True

instance Extracted.All.decidable {P : φ → Prop} [DecidablePred P] :
    ∀ x : Extracted φ, Decidable (x.All P)
  | .frame f => inferInstanceAs (Decidable (P f))
  | .nothing => inferInstanceAs (Decidable True)
  | .controlStructure => inferInstanceAs (Decidable True)
  | .marker => inferInstanceAs (Decidable True)

namespace Reordering

variable {r : Reordering φ n}

/-- A frame arrives once. -/
def Once (r : Reordering φ n) : Operation φ → Prop
  | .next surroundings => r.point = .extract → surroundings.extracted.All (· ∉ r.arrived)
  | _ => True

/-- The order of the frames is not disturbed. -/
def Undisturbed (r : Reordering φ n) : Operation φ → Prop
  | .assign f => r.stream.displayFrameIndex f = invalidIndex ∧ r.assigned + 1 < invalidIndex
  | .record f => f ∉ r.arrived
  | .drain => False
  | .markerParsed => True
  | .next surroundings =>
    (r.point = .scan → surroundings.possibleDecodeBuffers ≤ n ∧
      (r.stream.accumulatedBufferTableOccupancy = 0 ∨ r.stream.accumulatedBufferTableOccupancy
        < maxDecodesOutOfOrder surroundings.direction surroundings.possibleDecodeBuffers)) ∧
    (r.point = .extract → surroundings.extracted.All fun f => f ∉ r.recorded ∧
      (r.stream.displayFrameIndex f = invalidIndex ∨
        forcedBelow r.events ≤ r.stream.displayFrameIndex f))

instance Once.decidable [DecidableEq φ] (r : Reordering φ n) : DecidablePred r.Once
  | .assign _ => inferInstanceAs (Decidable True)
  | .record _ => inferInstanceAs (Decidable True)
  | .drain => inferInstanceAs (Decidable True)
  | .markerParsed => inferInstanceAs (Decidable True)
  | .next _ => inferInstanceAs (Decidable (_ → Extracted.All _ _))

instance Undisturbed.decidable [DecidableEq φ] (r : Reordering φ n) : DecidablePred r.Undisturbed
  | .assign _ => inferInstanceAs (Decidable (_ ∧ _))
  | .record _ => inferInstanceAs (Decidable (_ ∉ _))
  | .drain => inferInstanceAs (Decidable False)
  | .markerParsed => inferInstanceAs (Decidable True)
  | .next _ =>
    inferInstanceAs (Decidable ((_ → _ ∧ (_ ∨ _)) ∧ (_ → Extracted.All (fun _ => _ ∧ _) _)))

/-- The frames that arrived left or wait, each once. -/
structure Arrivals (r : Reordering φ n) : Prop where
  perm : (leftFrames r.events ++ contents r.stream.accumulatedBufferTable).Perm r.arrived
  nodup : r.arrived.Nodup

/-- Frames leave in display order: strictly, each with its own index, and without
a marker pending only when every index before it, unless one that a marker
passed over, left or was skipped; what was skipped was recorded as not decoded. -/
structure InOrder (r : Reordering φ n) : Prop where
  increasing : (leftIndices r.events).Pairwise fun later earlier => earlier < later
  index : ∀ {f d b}, .left f d b ∈ r.events → r.stream.displayFrameIndex f = d
  accounted : ∀ {f d events}, .left f d false :: events <:+ r.events →
    ∀ j, forcedBelow events ≤ j → j < d → Accounted events j
  recorded : ∀ {j}, .skipped j ∈ r.events → ∃ f ∈ r.recorded, r.stream.displayFrameIndex f = j

end Reordering

/-! ## Arrivals -/

namespace Reordering

variable {r : Reordering φ n}

variable {f : φ}

theorem Arrivals.leave (hnodup : r.arrived.Nodup)
    (hperm : (f :: (leftFrames r.events ++ contents r.stream.accumulatedBufferTable)).Perm
      r.arrived) :
    (r.leave f).Arrivals := ⟨hperm, hnodup⟩

theorem Arrivals.arrive (hr : r.Arrivals) (hf : f ∉ r.arrived) : (r.arrive f).Arrivals := by
  have hnodup : (f :: r.arrived).Nodup := List.nodup_cons.mpr ⟨hf, hr.nodup⟩
  unfold Reordering.arrive
  simp only
  split
  · exact Arrivals.leave hnodup (hr.perm.cons f)
  · split
    · next i hi =>
      refine ⟨?_, hnodup⟩
      have hfill := contents_fill (firstFree_eq_some hi) f
      exact ((hfill.append_left (leftFrames r.events)).trans List.perm_middle).trans
        (hr.perm.cons f)
    · exact Arrivals.leave hnodup (hr.perm.cons f)

variable {surroundings : Surroundings φ}

theorem Arrivals.next (hr : r.Arrivals) (honce : r.Once (.next surroundings)) :
    (r.next surroundings).Arrivals := by
  unfold Reordering.next
  split
  · split
    · next i f hnext =>
      obtain ⟨hi, -⟩ := Stream.nextDisplayFrame_spec hnext
      refine Arrivals.leave hr.nodup ?_
      have hclear := contents_clear hi
      exact List.perm_middle.symm.trans
        ((hclear.symm.append_left (leftFrames r.events)).trans hr.perm)
    · exact ⟨hr.perm, hr.nodup⟩
  · have hsearched := Stream.searched_check r.stream r.stream.desiredFrameIndex
    split
    · next s hs =>
      rw [hs] at hsearched
      obtain ⟨_, _, _, rfl⟩ := hsearched
      exact ⟨hr.perm, hr.nodup⟩
    · next s hs =>
      rw [hs] at hsearched
      obtain ⟨_, _, _, rfl⟩ := hsearched
      exact ⟨hr.perm, hr.nodup⟩
  · next hpoint =>
    split
    · exact ⟨hr.perm, hr.nodup⟩
    · split
      · exact ⟨hr.perm, hr.nodup⟩
      · exact ⟨hr.perm, hr.nodup⟩
      · exact ⟨hr.perm, hr.nodup⟩
      · next f hf =>
        have hnew := honce hpoint
        rw [hf] at hnew
        exact hr.arrive hnew

theorem Arrivals.step [DecidableEq φ] (hr : r.Arrivals) {op : Operation φ} (honce : r.Once op) :
    (r.step op).Arrivals := by
  cases op with
  | assign f => exact ⟨hr.perm, hr.nodup⟩
  | record f =>
    obtain ⟨_, _, _, heq⟩ := Stream.recordNonDecodedFrame_eq r.stream f
    refine ⟨?_, hr.nodup⟩
    simp only [Reordering.step, heq]
    exact hr.perm
  | drain => exact ⟨hr.perm, hr.nodup⟩
  | markerParsed => exact ⟨hr.perm, hr.nodup⟩
  | next surroundings => exact hr.next honce

theorem arrivals_started (collapse : φ → Bool) :
    (started collapse : Reordering φ n).Arrivals := by
  refine ⟨?_, List.nodup_nil⟩
  unfold Reordering.started
  simp only [contents_empty]
  exact List.Perm.refl _

/-! ## The order -/

/-- What an undisturbed loop keeps. -/
structure Inv (r : Reordering φ n) : Prop where
  arrivals : r.Arrivals
  inOrder : r.InOrder
  quiet : r.stream.Quiet r.recorded
  -- the indices assigned are 0, 1, 2, … and each belongs to one frame
  few : r.assigned < invalidIndex
  assigned : ∀ {f}, r.stream.displayFrameIndex f ≠ invalidIndex →
    r.stream.displayFrameIndex f < r.assigned
  injective : ∀ {f g}, r.stream.displayFrameIndex f ≠ invalidIndex →
    r.stream.displayFrameIndex g = r.stream.displayFrameIndex f → g = f
  disjoint : ∀ f ∈ r.arrived, f ∉ r.recorded
  -- the desired index: what left or was skipped is before it, what waits is not
  desired : r.stream.desiredFrameIndex ≤ r.assigned
  forced : forcedBelow r.events ≤ r.stream.desiredFrameIndex
  passed : ∀ {j}, Accounted r.events j → j < r.stream.desiredFrameIndex
  waiting : ∀ f ∈ contents r.stream.accumulatedBufferTable,
    r.stream.displayFrameIndex f ≠ invalidIndex →
      r.stream.desiredFrameIndex ≤ r.stream.displayFrameIndex f
  below : ∀ j, forcedBelow r.events ≤ j → j < r.stream.desiredFrameIndex → Accounted r.events j
  -- the table has room when a frame comes
  occupancy : r.stream.accumulatedBufferTableOccupancy
    = (contents r.stream.accumulatedBufferTable).length
  room : r.point ≠ .scan → r.stream.accumulatedBufferTableOccupancy < n

theorem Arrivals.arrived_of_table (hr : r.Arrivals)
    (hf : f ∈ contents r.stream.accumulatedBufferTable) : f ∈ r.arrived :=
  hr.perm.subset (List.mem_append_right _ hf)

theorem Arrivals.arrived_of_left {d : Nat} {b : Bool} (hr : r.Arrivals)
    (hf : .left f d b ∈ r.events) : f ∈ r.arrived :=
  hr.perm.subset (List.mem_append_left _ (mem_leftFrames.mpr ⟨d, b, hf⟩))

theorem Inv.arrived_or_recorded (hr : r.Inv) (hvalid : r.stream.displayFrameIndex f ≠ invalidIndex)
    (hforced : forcedBelow r.events ≤ r.stream.displayFrameIndex f)
    (hlt : r.stream.displayFrameIndex f < r.stream.desiredFrameIndex) :
    f ∈ r.arrived ∨ f ∈ r.recorded := by
  rcases hr.below _ hforced hlt with ⟨g, b, hg⟩ | hskipped
  · obtain rfl := hr.injective hvalid (hr.inOrder.index hg)
    exact .inl (hr.arrivals.arrived_of_left hg)
  · obtain ⟨g, hg, hindex⟩ := hr.inOrder.recorded hskipped
    obtain rfl := hr.injective hvalid hindex
    exact .inr hg

theorem Inv.leave (hr : r.Inv) {t : Fin n → Option φ} {arrived : List φ}
    (hvalid : r.stream.displayFrameIndex f ≠ invalidIndex)
    (hge : r.stream.desiredFrameIndex ≤ r.stream.displayFrameIndex f)
    (hnext : r.stream.displayFrameIndex f = r.stream.desiredFrameIndex ∨
      r.stream.markerFrameBuffer = true)
    (hlowest : ∀ g ∈ contents t, r.stream.displayFrameIndex g ≠ invalidIndex →
      r.stream.displayFrameIndex f < r.stream.displayFrameIndex g)
    (hdisjoint : ∀ g ∈ arrived, g ∉ r.recorded) (hnodup : arrived.Nodup)
    (hperm : (f :: (leftFrames r.events ++ contents t)).Perm arrived) :
    ({ r with
      arrived := arrived
      stream :=
        { r.stream with
          accumulatedBufferTable := t
          accumulatedBufferTableOccupancy := (contents t).length } }.leave f).Inv := by
  have hlt := hr.assigned hvalid
  have hfew := hr.few
  have hwrap : (r.stream.displayFrameIndex f + 1) % 2 ^ 32 = r.stream.displayFrameIndex f + 1 := by
    apply Nat.mod_eq_of_lt
    unfold invalidIndex at hfew
    omega
  unfold Reordering.leave
  simp only [hwrap]
  refine ⟨Arrivals.mk hperm hnodup, ?_, ?_, hr.few, hr.assigned, hr.injective, hdisjoint, ?_, ?_,
    ?_, ?_, ?_, rfl, fun h => absurd rfl h⟩
  · refine ⟨?_, ?_, ?_, ?_⟩
    · refine List.pairwise_cons.mpr ⟨fun d hd => ?_, hr.inOrder.increasing⟩
      obtain ⟨g, b, hg⟩ := mem_leftIndices.mp hd
      exact Nat.lt_of_lt_of_le (hr.passed (.inl ⟨g, b, hg⟩)) hge
    · intro g d b hg
      rcases List.mem_cons.mp hg with heq | hold
      · cases heq
        rfl
      · exact hr.inOrder.index hold
    · intro g d events hsuffix j hforced hj
      rcases List.suffix_cons_iff.mp hsuffix with heq | hold
      · -- it left now: without a marker it has the desired index
        obtain ⟨hleft, rfl⟩ := List.cons.inj heq
        obtain ⟨rfl, rfl, hpending⟩ := Event.left.inj hleft
        rcases hnext with hdesired | hmarker
        · exact hr.below j hforced (hdesired ▸ hj)
        · exact absurd (hpending.trans hmarker) (by simp)
      · exact hr.inOrder.accounted hold j hforced hj
    · intro j hj
      rcases List.mem_cons.mp hj with heq | hold
      · exact absurd heq (by simp)
      · exact hr.inOrder.recorded hold
  · exact ⟨hr.quiet.unflagged, hr.quiet.parseToDecode, hr.quiet.decodeToManifest,
      hr.quiet.collapse, hr.quiet.entries⟩
  · exact hlt
  · have hforced := Nat.le_succ_of_le (Nat.le_trans hr.forced hge)
    cases hmarker : r.stream.markerFrameBuffer with
    | true => exact Nat.max_le.mpr ⟨Nat.le_refl _, hforced⟩
    | false => exact hforced
  · intro j hj
    rcases accounted_left.mp hj with rfl | hold
    · exact Nat.lt_succ_self _
    · exact Nat.lt_of_lt_of_le (hr.passed hold) (Nat.le_succ_of_le hge)
  · intro g hg hindex
    exact hlowest g hg hindex
  · intro j hforced hj
    apply accounted_left.mpr
    cases hmarker : r.stream.markerFrameBuffer with
    | true =>
      rw [hmarker] at hforced
      exact absurd (Nat.le_trans (Nat.le_max_left _ _) hforced) (Nat.not_le_of_lt hj)
    | false =>
      rw [hmarker] at hforced
      have hdesired := hnext.resolve_right (by simp [hmarker])
      rcases Nat.lt_succ_iff_lt_or_eq.mp hj with hlt' | rfl
      · exact .inr (hr.below j hforced (hdesired ▸ hlt'))
      · exact .inl rfl

/-! ## The steps -/

theorem maxDecodesOutOfOrder_le (direction : PlayDirection) (possibleDecodeBuffers : Nat) :
    maxDecodesOutOfOrder direction possibleDecodeBuffers ≤ possibleDecodeBuffers := by
  unfold maxDecodesOutOfOrder
  cases direction with
  | playForward =>
    apply Nat.le_trans (Nat.min_le_right _ _)
    apply Nat.le_trans (Nat.min_le_right _ _)
    exact Nat.div_le_self _ _
  | playBackward =>
    apply Nat.le_trans (Nat.min_le_right _ _)
    have hmod := Nat.mod_le (3 * possibleDecodeBuffers) (2 ^ 32)
    omega

theorem Inv.move (hr : r.Inv) (point : Point)
    (hroom : point ≠ .scan → r.stream.accumulatedBufferTableOccupancy < n) :
    ({ r with point := point } : Reordering φ n).Inv :=
  ⟨⟨hr.arrivals.perm, hr.arrivals.nodup⟩,
    ⟨hr.inOrder.increasing, hr.inOrder.index, hr.inOrder.accounted, hr.inOrder.recorded⟩,
    hr.quiet, hr.few, hr.assigned, hr.injective, hr.disjoint, hr.desired, hr.forced, hr.passed,
    hr.waiting, hr.below, hr.occupancy, hroom⟩

theorem Inv.scan [NeZero n] (hr : r.Inv) (hpoint : r.point = .scan)
    (hok : r.Undisturbed (.next surroundings)) : (r.next surroundings).Inv := by
  obtain ⟨hpossible, hfew⟩ := hok.1 hpoint
  unfold Reordering.next
  rw [hpoint]
  simp only
  split
  · next i f hnext =>
    obtain ⟨hi, hvalid, hlowest, hoccupied, hcond⟩ := Stream.nextDisplayFrame_spec hnext
    have hclear := contents_clear hi
    have hnodup := hr.arrivals.perm.nodup_iff.mpr hr.arrivals.nodup
    have hperm := List.perm_middle.symm.trans
      ((hclear.symm.append_left (leftFrames r.events)).trans hr.arrivals.perm)
    have hlength : r.stream.accumulatedBufferTableOccupancy - 1
        = (contents (Function.update r.stream.accumulatedBufferTable i none)).length := by
      have heq := hclear.length_eq
      rw [hr.occupancy, heq, List.length_cons]
      exact Nat.add_sub_cancel _ 1
    have hleaves := hr.leave (f := f) hvalid
      (hr.waiting f (mem_contents.mpr ⟨i, hi⟩) hvalid) ?_ ?_ hr.disjoint hr.arrivals.nodup hperm
    · unfold Stream.remove
      rw [hlength]
      exact hleaves
    · rcases hcond with h | h | h | h
      · exact .inl h
      · have hbusy := hfew.resolve_left hoccupied
        omega
      · exact absurd h (by simp [hr.quiet.unflagged f])
      · exact .inr h
    · intro g hg hindex
      have hold : g ∈ contents r.stream.accumulatedBufferTable :=
        hclear.symm.subset (List.mem_cons_of_mem f hg)
      have hne : g ≠ f := by
        rintro rfl
        have hdistinct := hclear.nodup_iff.mp (List.nodup_append.mp hnodup).2.1
        exact (List.nodup_cons.mp hdistinct).1 hg
      have hle := hlowest g hold hindex
      have hdiff : r.stream.displayFrameIndex g ≠ r.stream.displayFrameIndex f :=
        fun h => hne (hr.injective hvalid h)
      omega
  · refine hr.move .check fun _ => ?_
    rcases hfew with hempty | hbusy
    · rw [hempty]
      exact Nat.pos_of_ne_zero (NeZero.ne n)
    · have hle := maxDecodesOutOfOrder_le surroundings.direction surroundings.possibleDecodeBuffers
      omega

theorem Inv.skip (hr : r.Inv) (hvalid : r.stream.displayFrameIndex f ≠ invalidIndex)
    (hdesired : r.stream.displayFrameIndex f = r.stream.desiredFrameIndex) (hf : f ∈ r.recorded) :
    ({ r with
      stream :=
        { r.stream with desiredFrameIndex := (r.stream.desiredFrameIndex + 1) % 2 ^ 32 }
      events := .skipped r.stream.desiredFrameIndex :: r.events } : Reordering φ n).Inv := by
  have hlt := hr.assigned hvalid
  have hfew := hr.few
  have hwrap : (r.stream.desiredFrameIndex + 1) % 2 ^ 32 = r.stream.desiredFrameIndex + 1 := by
    apply Nat.mod_eq_of_lt
    unfold invalidIndex at hfew
    omega
  simp only [hwrap]
  refine ⟨⟨hr.arrivals.perm, hr.arrivals.nodup⟩, ⟨hr.inOrder.increasing, ?_, ?_, ?_⟩, ?_, hr.few,
    hr.assigned, hr.injective, hr.disjoint, ?_, Nat.le_succ_of_le hr.forced, ?_, ?_, ?_,
    hr.occupancy, hr.room⟩
  · intro g d b hg
    exact hr.inOrder.index ((List.mem_cons.mp hg).resolve_left (by simp))
  · intro g d events hsuffix
    rcases List.suffix_cons_iff.mp hsuffix with heq | hold
    · exact absurd (List.cons.inj heq).1 (by simp)
    · exact hr.inOrder.accounted hold
  · intro j hj
    rcases List.mem_cons.mp hj with heq | hold
    · obtain rfl := Event.skipped.inj heq
      exact ⟨f, hf, hdesired⟩
    · exact hr.inOrder.recorded hold
  · exact ⟨hr.quiet.unflagged, hr.quiet.parseToDecode, hr.quiet.decodeToManifest,
      hr.quiet.collapse, hr.quiet.entries⟩
  · rw [← hdesired]
    exact hlt
  · intro j hj
    rcases accounted_skipped.mp hj with rfl | hold
    · exact Nat.lt_succ_self _
    · exact Nat.lt_succ_of_lt (hr.passed hold)
  · -- a frame that waits is not the recorded one
    intro g hg hindex
    have hle := hr.waiting g hg hindex
    have hdiff : r.stream.displayFrameIndex g ≠ r.stream.displayFrameIndex f := by
      intro h
      obtain rfl := hr.injective hvalid h
      exact hr.disjoint g (hr.arrivals.arrived_of_table hg) hf
    show r.stream.desiredFrameIndex + 1 ≤ r.stream.displayFrameIndex g
    omega
  · intro j hforced hj
    apply accounted_skipped.mpr
    rcases Nat.lt_succ_iff_lt_or_eq.mp hj with hlt' | rfl
    · exact .inr (hr.below j hforced hlt')
    · exact .inl rfl

theorem Inv.searched (hr : r.Inv) {s : Stream φ n} (hs : Stream.Searched r.stream s)
    (hquiet : s.Quiet r.recorded) : ({ r with stream := s } : Reordering φ n).Inv := by
  obtain ⟨_, _, _, rfl⟩ := hs
  exact ⟨⟨hr.arrivals.perm, hr.arrivals.nodup⟩,
    ⟨hr.inOrder.increasing, hr.inOrder.index, hr.inOrder.accounted, hr.inOrder.recorded⟩,
    hquiet, hr.few, hr.assigned, hr.injective, hr.disjoint, hr.desired, hr.forced, hr.passed,
    hr.waiting, hr.below, hr.occupancy, hr.room⟩

theorem Inv.check (hr : r.Inv) (hpoint : r.point = .check) (surroundings : Surroundings φ) :
    (r.next surroundings).Inv := by
  have hroom := hr.room (by simp [hpoint])
  have hsearched := Stream.searched_check r.stream r.stream.desiredFrameIndex
  obtain ⟨hquiet, hfound⟩ := hr.quiet.check r.stream.desiredFrameIndex
  unfold Reordering.next
  rw [hpoint]
  simp only
  split
  · next s hs =>
    rw [hs] at hsearched hquiet hfound
    obtain ⟨hvalid, f, hf, hindex⟩ := hfound rfl
    have hinv := hr.searched hsearched hquiet
    obtain ⟨_, _, _, rfl⟩ := hsearched
    rw [← hindex] at hvalid
    exact hpoint ▸ hinv.skip hvalid hindex hf
  · next s hs =>
    rw [hs] at hsearched hquiet
    refine (hr.searched hsearched hquiet).move .extract fun _ => ?_
    obtain ⟨_, _, _, rfl⟩ := hsearched
    exact hroom

theorem Inv.mark (hr : r.Inv) :
    ({ r with stream := { r.stream with markerFrameBuffer := true }, point := .scan } :
      Reordering φ n).Inv :=
  ⟨⟨hr.arrivals.perm, hr.arrivals.nodup⟩,
    ⟨hr.inOrder.increasing, hr.inOrder.index, hr.inOrder.accounted, hr.inOrder.recorded⟩,
    ⟨hr.quiet.unflagged, hr.quiet.parseToDecode, hr.quiet.decodeToManifest, hr.quiet.collapse,
      hr.quiet.entries⟩,
    hr.few, hr.assigned, hr.injective, hr.disjoint, hr.desired, hr.forced, hr.passed,
    hr.waiting, hr.below, hr.occupancy, fun h => absurd rfl h⟩

theorem Inv.passMarker (hr : r.Inv) :
    ({ r with
      stream :=
        { r.stream with markerFrameBuffer := false, discardingUntilMarkerFrameDtoM := false }
      point := .scan
      events := .marker :: r.events } : Reordering φ n).Inv := by
  have hold : ∀ {e : Event φ}, e ∈ .marker :: r.events → e ≠ .marker → e ∈ r.events := by
    intro e he hne
    exact (List.mem_cons.mp he).resolve_left hne
  refine ⟨⟨hr.arrivals.perm, hr.arrivals.nodup⟩, ⟨hr.inOrder.increasing, ?_, ?_, ?_⟩,
    ⟨hr.quiet.unflagged, hr.quiet.parseToDecode, rfl, hr.quiet.collapse, hr.quiet.entries⟩,
    hr.few, hr.assigned, hr.injective, hr.disjoint, hr.desired, hr.forced, ?_, hr.waiting, ?_,
    hr.occupancy, fun h => absurd rfl h⟩
  · intro g d b hg
    exact hr.inOrder.index (hold hg (by simp))
  · intro g d events hsuffix
    rcases List.suffix_cons_iff.mp hsuffix with heq | hrest
    · exact absurd (List.cons.inj heq).1 (by simp)
    · exact hr.inOrder.accounted hrest
  · intro j hj
    exact hr.inOrder.recorded (hold hj (by simp))
  · intro j hj
    exact hr.passed (accounted_marker.mp hj)
  · intro j hforced hj
    exact accounted_marker.mpr (hr.below j hforced hj)

theorem Inv.arrive (hr : r.Inv) (hpoint : r.point = .extract) (hnew : f ∉ r.arrived)
    (hrec : f ∉ r.recorded)
    (hforced : r.stream.displayFrameIndex f = invalidIndex ∨
      forcedBelow r.events ≤ r.stream.displayFrameIndex f) :
    (r.arrive f).Inv := by
  have hnodup : (f :: r.arrived).Nodup := List.nodup_cons.mpr ⟨hnew, hr.arrivals.nodup⟩
  have hdisjoint : ∀ g ∈ f :: r.arrived, g ∉ r.recorded := by
    intro g hg
    rcases List.mem_cons.mp hg with rfl | hold
    · exact hrec
    · exact hr.disjoint g hold
  have hge : r.stream.displayFrameIndex f ≠ invalidIndex →
      r.stream.desiredFrameIndex ≤ r.stream.displayFrameIndex f := by
    intro hvalid
    apply Nat.le_of_not_lt
    intro hlt
    rcases hr.arrived_or_recorded hvalid (hforced.resolve_left hvalid) hlt with h | h
    · exact hnew h
    · exact hrec h
  have harrivals := hr.arrivals.arrive hnew
  have hroom := hr.room (by simp [hpoint])
  rw [hr.occupancy] at hroom
  unfold Reordering.arrive at harrivals ⊢
  simp only at harrivals ⊢
  split
  · next hle =>
    have hvalid : r.stream.displayFrameIndex f ≠ invalidIndex := by
      have hdesired := hr.desired
      have hfew := hr.few
      omega
    have hdesired := Nat.le_antisymm hle (hge hvalid)
    have hleaves := hr.leave hvalid (hge hvalid) (.inl hdesired) ?_ hdisjoint hnodup
      (hr.arrivals.perm.cons f)
    · rw [← hr.occupancy] at hleaves
      exact hleaves
    · intro g hg hindex
      have hwaits := hr.waiting g hg hindex
      have hdiff : r.stream.displayFrameIndex g ≠ r.stream.displayFrameIndex f := by
        intro h
        obtain rfl := hr.injective hvalid h
        exact hnew (hr.arrivals.arrived_of_table hg)
      omega
  · next hlater =>
    obtain ⟨i, hi⟩ := firstFree_isSome hroom
    rw [if_neg hlater, hi] at harrivals
    rw [hi]
    have hfill := contents_fill (firstFree_eq_some hi) f
    refine ⟨harrivals, ⟨hr.inOrder.increasing, hr.inOrder.index, hr.inOrder.accounted,
      hr.inOrder.recorded⟩, ⟨hr.quiet.unflagged, hr.quiet.parseToDecode,
      hr.quiet.decodeToManifest, hr.quiet.collapse, hr.quiet.entries⟩, hr.few, hr.assigned,
      hr.injective, hdisjoint, hr.desired, hr.forced, hr.passed, ?_, hr.below, ?_,
      fun h => absurd rfl h⟩
    · intro g hg hindex
      rcases List.mem_cons.mp (hfill.subset hg) with rfl | hold
      · exact hge hindex
      · exact hr.waiting g hold hindex
    · have hlength := hfill.length_eq
      rw [List.length_cons, ← hr.occupancy] at hlength
      exact hlength.symm

theorem Inv.extract (hr : r.Inv) (hpoint : r.point = .extract) (honce : r.Once (.next surroundings))
    (hok : r.Undisturbed (.next surroundings)) : (r.next surroundings).Inv := by
  have hnew := honce hpoint
  have hframe := hok.2 hpoint
  unfold Reordering.next
  rw [hpoint]
  simp only
  split
  · exact hr.passMarker
  · split
    · exact hr.move .scan fun h => absurd rfl h
    · exact hr.move .scan fun h => absurd rfl h
    · exact hr.mark
    · next f hf =>
      rw [hf] at hnew hframe
      exact hr.arrive hpoint hnew hframe.1 hframe.2

theorem inv_started {collapse : φ → Bool} (hflag : ∀ f, collapse f = false) :
    (started collapse : Reordering φ n).Inv := by
  have hnone : ∀ {P : Prop}, invalidIndex ≠ invalidIndex → P := fun h => absurd rfl h
  have hempty : contents (started collapse : Reordering φ n).stream.accumulatedBufferTable = [] :=
    contents_empty
  refine ⟨arrivals_started collapse, ⟨List.Pairwise.nil, ?_, ?_, ?_⟩,
    ⟨hflag, rfl, rfl, rfl, fun i e he => absurd he (by simp [Reordering.started])⟩,
    (by decide : 0 < invalidIndex),
    hnone, hnone, fun f hf => absurd hf (by simp [Reordering.started]), Nat.le_refl 0,
    Nat.le_refl 0, ?_, ?_, fun j _ hj => absurd hj (Nat.not_lt_zero j), ?_,
    fun h => absurd rfl h⟩
  · intro f d b hf
    exact absurd hf (by simp [Reordering.started])
  · intro f d events hsuffix
    exact absurd hsuffix (by simp [Reordering.started])
  · intro j hj
    exact absurd hj (by simp [Reordering.started])
  · intro j hj
    exact absurd hj (by simp [Reordering.started, Accounted])
  · intro f hf
    rw [hempty] at hf
    exact absurd hf (by simp)
  · rw [hempty]
    rfl

section

variable [DecidableEq φ]

theorem Inv.assign (hr : r.Inv) (hf : r.stream.displayFrameIndex f = invalidIndex)
    (hfew : r.assigned + 1 < invalidIndex) : (r.step (.assign f)).Inv := by
  have hself : (r.step (.assign f)).stream.displayFrameIndex f = r.assigned :=
    Function.update_self f _ _
  have hother : ∀ {g}, g ≠ f →
      (r.step (.assign f)).stream.displayFrameIndex g = r.stream.displayFrameIndex g :=
    fun hne => Function.update_of_ne hne _ _
  -- a frame with an index is not `f`
  have hused : ∀ {g j}, r.stream.displayFrameIndex g = j → j ≠ invalidIndex →
      (r.step (.assign f)).stream.displayFrameIndex g = j := by
    intro g j hg hj
    rw [hother, hg]
    rintro rfl
    exact hj (hg.symm.trans hf)
  have hpassed : ∀ {j}, Accounted r.events j → j ≠ invalidIndex := by
    intro j hj
    have hlt := hr.passed hj
    have hdesired := hr.desired
    omega
  refine ⟨⟨hr.arrivals.perm, hr.arrivals.nodup⟩, ⟨hr.inOrder.increasing, ?_,
    hr.inOrder.accounted, ?_⟩, ⟨hr.quiet.unflagged, hr.quiet.parseToDecode,
    hr.quiet.decodeToManifest, hr.quiet.collapse, ?_⟩, hfew, ?_, ?_, hr.disjoint,
    Nat.le_succ_of_le hr.desired, hr.forced, hr.passed, ?_, hr.below, hr.occupancy, hr.room⟩
  · intro g d b hg
    exact hused (hr.inOrder.index hg) (hpassed (.inl ⟨g, b, hg⟩))
  · intro j hj
    obtain ⟨g, hg, hindex⟩ := hr.inOrder.recorded hj
    exact ⟨g, hg, hused hindex (hpassed (.inr hj))⟩
  · intro i e he
    have hold := hr.quiet.entries i e he
    cases e with
    | released d =>
      obtain ⟨hd, g, hg, hindex⟩ := hold
      exact ⟨hd, g, hg, hused hindex hd⟩
    | unreleased g => exact hold
  · intro g hg
    by_cases hne : g = f
    · rw [hne, hself]
      exact Nat.lt_succ_self _
    · rw [hother hne] at hg ⊢
      exact Nat.lt_succ_of_lt (hr.assigned hg)
  · -- the new index is above those in use
    intro g h hg hsame
    by_cases hgf : g = f
    · by_cases hhf : h = f
      · rw [hgf, hhf]
      · rw [hgf, hself, hother hhf] at hsame
        have hlt := hr.assigned (f := h) (by omega)
        omega
    · rw [hother hgf] at hg hsame
      by_cases hhf : h = f
      · rw [hhf, hself] at hsame
        have hlt := hr.assigned hg
        omega
      · rw [hother hhf] at hsame
        exact hr.injective hg hsame
  · intro g hg hindex
    by_cases hne : g = f
    · rw [hne, hself]
      exact hr.desired
    · rw [hother hne] at hindex ⊢
      exact hr.waiting g hg hindex

theorem Inv.record (hr : r.Inv) (hf : f ∉ r.arrived) : (r.step (.record f)).Inv := by
  have hquiet := hr.quiet.record f
  obtain ⟨entries, insertions, collapse, heq⟩ := Stream.recordNonDecodedFrame_eq r.stream f
  have hdisjoint : ∀ g ∈ r.arrived, g ∉ f :: r.recorded := by
    intro g hg hmem
    rcases List.mem_cons.mp hmem with rfl | hold
    · exact hf hg
    · exact hr.disjoint g hg hold
  unfold Reordering.step
  simp only
  rw [heq] at hquiet ⊢
  refine ⟨⟨hr.arrivals.perm, hr.arrivals.nodup⟩, ⟨hr.inOrder.increasing, hr.inOrder.index,
    hr.inOrder.accounted, ?_⟩, hquiet, hr.few, hr.assigned, hr.injective, hdisjoint, hr.desired,
    hr.forced, hr.passed, hr.waiting, hr.below, hr.occupancy, hr.room⟩
  intro j hj
  obtain ⟨g, hg, hindex⟩ := hr.inOrder.recorded hj
  exact ⟨g, List.mem_cons_of_mem f hg, hindex⟩

theorem Inv.step [NeZero n] (hr : r.Inv) {op : Operation φ} (honce : r.Once op)
    (hok : r.Undisturbed op) : (r.step op).Inv := by
  cases op with
  | assign f => exact hr.assign hok.1 hok.2
  | record f => exact hr.record hok
  | drain => exact absurd hok id
  | markerParsed =>
    exact ⟨⟨hr.arrivals.perm, hr.arrivals.nodup⟩, ⟨hr.inOrder.increasing, hr.inOrder.index,
      hr.inOrder.accounted, hr.inOrder.recorded⟩, ⟨hr.quiet.unflagged, rfl,
      hr.quiet.decodeToManifest, hr.quiet.collapse, hr.quiet.entries⟩, hr.few, hr.assigned,
      hr.injective, hr.disjoint, hr.desired, hr.forced, hr.passed, hr.waiting, hr.below,
      hr.occupancy, hr.room⟩
  | next surroundings =>
    show (r.next surroundings).Inv
    cases hpoint : r.point with
    | scan => exact hr.scan hpoint hok
    | check => exact hr.check hpoint surroundings
    | extract => exact hr.extract hpoint honce hok

/-- **Nothing is lost**: in every run, whatever else happens, a frame that
arrived once left once or waits in the table. **Display order**: in a run that
nothing disturbs, frames leave in it. -/
theorem decodeToManifest_inOrder [NeZero n] (collapse : φ → Bool) {ops : List (Operation φ)}
    (honce : Along Reordering.step Once (started collapse : Reordering φ n) ops) :
    (ops.foldl Reordering.step (started collapse : Reordering φ n)).Arrivals ∧
      ((∀ f, collapse f = false) →
        Along Reordering.step Undisturbed (started collapse : Reordering φ n) ops →
          (ops.foldl Reordering.step (started collapse : Reordering φ n)).InOrder) := by
  constructor
  · exact foldl_inv (P := Arrivals) (fun hok hr => hr.step hok) ops honce
      (arrivals_started collapse)
  · intro hflag hundisturbed
    have hinv := foldl_inv (P := Inv) (fun hok hr => hr.step hok.1 hok.2) ops
      (honce.and hundisturbed) (inv_started hflag)
    exact hinv.inOrder

/-- The second of three frames is not decoded, the third arrives first. -/
theorem decodeToManifest_inOrder_skipped :
    let around : Extracted (Fin 3) → Operation (Fin 3) := fun x => .next ⟨.playForward, 8, x⟩
    let ops := [.assign 0, .assign 1, .assign 2, .record 1, around .nothing, around .nothing,
      around (.frame 2), around .nothing, around .nothing, around (.frame 0), around .nothing,
      around .nothing, around .nothing, around .nothing, around .nothing]
    let r : Reordering (Fin 3) 8 := ops.foldl Reordering.step (started fun _ => false)
    r.Arrivals ∧ r.InOrder := by
  intro around ops r
  have honce : Along Reordering.step Once (started fun _ => false : Reordering (Fin 3) 8) ops := by
    decide +kernel
  obtain ⟨harrivals, horder⟩ := decodeToManifest_inOrder (fun _ => false) honce
  exact ⟨harrivals, horder (fun _ => rfl) (by decide +kernel)⟩

/-- A marker forces out the second frame, and the first arrives after it; a
drain discards the third, which collapses the indices of the two before. -/
theorem decodeToManifest_outOfOrder :
    let around : Extracted (Fin 3) → Operation (Fin 3) := fun x => .next ⟨.playForward, 8, x⟩
    let forced := [.assign 0, .assign 1, around .nothing, around .nothing, around (.frame 1),
      around .nothing, around .nothing, around .marker, around .nothing, around .nothing,
      around .nothing, around .nothing, around .nothing, around .nothing]
    let drained := [.assign 0, .assign 1, .assign 2, .drain, .record 2, around .nothing,
      around .nothing, around .nothing, around .nothing, around .nothing, around (.frame 1),
      around .nothing, around .nothing, around (.frame 0)]
    let start : Reordering (Fin 3) 8 := started fun _ => false
    (Along Reordering.step Undisturbed start forced ∧
      Along Reordering.step Once start (forced ++ [around (.frame 0)]) ∧
      leftIndices ((forced ++ [around (.frame 0)]).foldl Reordering.step start).events = [0, 1]) ∧
    Along Reordering.step (fun r op => op = .drain ∨ r.Undisturbed op) start drained ∧
      Along Reordering.step Once start drained ∧
      leftIndices (drained.foldl Reordering.step start).events = [0, 1] := by
  decide +kernel

end

end Reordering

end Duckbox.Player
