import Duckbox.Player.DecodeToManifestOrder

/-!
# Decode to manifest: what a marker finds in front of it

A marker frame waits until the accumulated frames have left. The scan that lets
them go passes over the frames that have no display index yet, and the marker
is passed on when a scan finds nothing: a frame without an index stays behind
in the table (`decodeToManifest_marker_overtakes`).

The marker overtakes nothing as long as every scan with a marker pending finds
a frame with an index, or an empty table (`Emptying`). The invariant is
`Waiting`: once such a scan is over the table is empty, and nothing arrives
before the marker is passed on. It asks nothing of the indices themselves: a
frame may be given any, at any time, more than once, and lose it again.
-/

namespace Duckbox.Player

open Duckbox.Lib

variable {φ : Type} {n : Nat}

/-- What happens around the loop, and a frame that is given any display index. -/
inductive Occurrence (φ : Type) where
  | operation (op : Operation φ)
  | indexed (f : φ) (displayFrameIndex : Nat)
  deriving DecidableEq

deriving instance DecidableEq for Event

theorem Stream.nextDisplayFrame_isSome {s : Stream φ n} (direction : PlayDirection)
    (possibleDecodeBuffers : Nat) (hoccupied : s.accumulatedBufferTableOccupancy ≠ 0)
    (hmarker : s.markerFrameBuffer = true) {f : φ} (hf : f ∈ contents s.accumulatedBufferTable)
    (hvalid : s.displayFrameIndex f ≠ invalidIndex) :
    s.nextDisplayFrame direction possibleDecodeBuffers ≠ none := by
  obtain ⟨i, hi⟩ := mem_contents.mp hf
  have hspec : s.Lowest ([] ++ List.finRange n) s.lowestIndex :=
    lowest_foldl (List.finRange n) (show s.Lowest [] none from fun j hj => absurd hj (by simp))
  unfold nextDisplayFrame
  rw [if_neg hoccupied]
  cases hlow : s.lowestIndex with
  | none =>
    -- a scan that found nothing saw frames without an index only
    rw [hlow] at hspec
    exact absurd (hspec i (by simp) f hi) hvalid
  | some low => simp [hmarker]

namespace Reordering

variable {r : Reordering φ n}

/-- One step of the system, whatever indices the frames are given. -/
def occur [DecidableEq φ] (r : Reordering φ n) : Occurrence φ → Reordering φ n
  | .operation op => r.step op
  | .indexed f d =>
    { r with
      stream :=
        { r.stream with displayFrameIndex := Function.update r.stream.displayFrameIndex f d } }

/-- A marker that is passed on finds the table empty: what arrived has left. -/
def Behind [DecidableEq φ] (r : Reordering φ n) (o : Occurrence φ) : Prop :=
  (r.occur o).events = .marker :: r.events →
    contents r.stream.accumulatedBufferTable = [] ∧ (leftFrames r.events).Perm r.arrived

/-- A scan with a marker pending finds a frame with an index, or none at all. -/
def Emptying (r : Reordering φ n) : Occurrence φ → Prop
  | .operation (.next _) =>
    r.point = .scan → r.stream.markerFrameBuffer = true →
      contents r.stream.accumulatedBufferTable = [] ∨
        ∃ f ∈ contents r.stream.accumulatedBufferTable,
          r.stream.displayFrameIndex f ≠ invalidIndex
  | _ => True

instance Behind.decidable [DecidableEq φ] (r : Reordering φ n) : DecidablePred r.Behind :=
  fun _ => inferInstanceAs (Decidable (_ → _ ∧ _))

instance Emptying.decidable [DecidableEq φ] (r : Reordering φ n) : DecidablePred r.Emptying
  | .operation (.next _) => inferInstanceAs (Decidable (_ → _ → _ ∨ _))
  | .operation (.assign _) => inferInstanceAs (Decidable True)
  | .operation (.record _) => inferInstanceAs (Decidable True)
  | .operation .drain => inferInstanceAs (Decidable True)
  | .operation .markerParsed => inferInstanceAs (Decidable True)
  | .indexed _ _ => inferInstanceAs (Decidable True)

/-- What arrived left or waits, and a marker that the scan let go has nothing
left to wait for. -/
structure Waiting (r : Reordering φ n) : Prop where
  perm : (leftFrames r.events ++ contents r.stream.accumulatedBufferTable).Perm r.arrived
  occupancy : r.stream.accumulatedBufferTableOccupancy
    = (contents r.stream.accumulatedBufferTable).length
  emptied : r.stream.markerFrameBuffer = true → r.point ≠ .scan →
    contents r.stream.accumulatedBufferTable = []

theorem waiting_started (collapse : φ → Bool) :
    (started collapse : Reordering φ n).Waiting := by
  refine ⟨?_, ?_, fun h => absurd h (by simp [started])⟩
  · unfold started
    simp only [contents_empty]
    exact List.Perm.refl _
  · unfold started
    simp only [contents_empty]
    rfl

theorem Waiting.leave {f : φ} {arrived : List φ} {t : Fin n → Option φ}
    (hperm : (f :: (leftFrames r.events ++ contents t)).Perm arrived) :
    ({ r with
      arrived := arrived
      stream :=
        { r.stream with
          accumulatedBufferTable := t
          accumulatedBufferTableOccupancy := (contents t).length } }.leave f).Waiting :=
  ⟨hperm, rfl, fun _ h => absurd rfl h⟩

theorem Waiting.scan (hr : r.Waiting) (hpoint : r.point = .scan) {surroundings : Surroundings φ}
    (hok : r.Emptying (.operation (.next surroundings))) : (r.next surroundings).Waiting := by
  unfold Reordering.next
  rw [hpoint]
  simp only
  split
  · next i f hnext =>
    obtain ⟨hi, -⟩ := Stream.nextDisplayFrame_spec hnext
    have hclear := contents_clear hi
    have hlength : r.stream.accumulatedBufferTableOccupancy - 1
        = (contents (Function.update r.stream.accumulatedBufferTable i none)).length := by
      rw [hr.occupancy, hclear.length_eq, List.length_cons, Nat.add_sub_cancel]
    have hperm := List.perm_middle.symm.trans
      ((hclear.symm.append_left (leftFrames r.events)).trans hr.perm)
    have hleave := Waiting.leave (r := r) hperm
    rw [← hlength] at hleave
    exact hleave
  · next hnext =>
    refine ⟨hr.perm, hr.occupancy, fun hmarker _ => ?_⟩
    -- the scan found nothing although a marker is pending
    rcases hok hpoint hmarker with hempty | ⟨f, hf, hvalid⟩
    · exact hempty
    · have hoccupied : r.stream.accumulatedBufferTableOccupancy ≠ 0 := by
        rw [hr.occupancy]
        exact Nat.ne_of_gt (List.length_pos_of_mem hf)
      exact absurd hnext (Stream.nextDisplayFrame_isSome _ _ hoccupied hmarker hf hvalid)

theorem Waiting.check (hr : r.Waiting) (hpoint : r.point = .check)
    (surroundings : Surroundings φ) : (r.next surroundings).Waiting := by
  have hemptied := fun hmarker => hr.emptied hmarker (by simp [hpoint])
  have hsearched := Stream.searched_check r.stream r.stream.desiredFrameIndex
  unfold Reordering.next
  rw [hpoint]
  simp only
  split
  · next s hs =>
    rw [hs] at hsearched
    obtain ⟨_, _, _, rfl⟩ := hsearched
    exact ⟨hr.perm, hr.occupancy, fun hmarker _ => hemptied hmarker⟩
  · next s hs =>
    rw [hs] at hsearched
    obtain ⟨_, _, _, rfl⟩ := hsearched
    exact ⟨hr.perm, hr.occupancy, fun hmarker _ => hemptied hmarker⟩

theorem Waiting.arrive (hr : r.Waiting) (f : φ) : (r.arrive f).Waiting := by
  have hnow := Waiting.leave (r := r) (f := f) (hr.perm.cons f)
  rw [← hr.occupancy] at hnow
  unfold Reordering.arrive
  simp only
  split
  · exact hnow
  · split
    · next i hi =>
      have hfill := contents_fill (firstFree_eq_some hi) f
      refine ⟨?_, ?_, fun _ h => absurd rfl h⟩
      · exact ((hfill.append_left (leftFrames r.events)).trans List.perm_middle).trans
          (hr.perm.cons f)
      · have hlength := hfill.length_eq
        rw [List.length_cons, ← hr.occupancy] at hlength
        exact hlength.symm
    · exact hnow

theorem Waiting.extract (hr : r.Waiting) (hpoint : r.point = .extract)
    (surroundings : Surroundings φ) : (r.next surroundings).Waiting := by
  unfold Reordering.next
  rw [hpoint]
  simp only
  split
  · exact ⟨hr.perm, hr.occupancy, fun _ h => absurd rfl h⟩
  · split
    · exact ⟨hr.perm, hr.occupancy, fun _ h => absurd rfl h⟩
    · exact ⟨hr.perm, hr.occupancy, fun _ h => absurd rfl h⟩
    · exact ⟨hr.perm, hr.occupancy, fun _ h => absurd rfl h⟩
    · next f _ => exact hr.arrive f

section

variable [DecidableEq φ]

theorem Waiting.occur (hr : r.Waiting) {o : Occurrence φ} (hok : r.Emptying o) :
    (r.occur o).Waiting := by
  cases o with
  | indexed f d => exact ⟨hr.perm, hr.occupancy, hr.emptied⟩
  | operation op =>
    cases op with
    | assign f => exact ⟨hr.perm, hr.occupancy, hr.emptied⟩
    | record f =>
      obtain ⟨_, _, _, heq⟩ := Stream.recordNonDecodedFrame_eq r.stream f
      unfold Reordering.occur Reordering.step
      simp only
      rw [heq]
      exact ⟨hr.perm, hr.occupancy, hr.emptied⟩
    | drain => exact ⟨hr.perm, hr.occupancy, hr.emptied⟩
    | markerParsed => exact ⟨hr.perm, hr.occupancy, hr.emptied⟩
    | next surroundings =>
      show (r.next surroundings).Waiting
      cases hpoint : r.point with
      | scan => exact hr.scan hpoint hok
      | check => exact hr.check hpoint surroundings
      | extract => exact hr.extract hpoint surroundings

theorem marker_of_occur {o : Occurrence φ} (h : (r.occur o).events = .marker :: r.events) :
    r.point ≠ .scan ∧ r.stream.markerFrameBuffer = true := by
  have hsame : r.events ≠ .marker :: r.events := fun heq => by
    have hlength := congrArg List.length heq
    simp at hlength
  cases o with
  | indexed f d => exact absurd h hsame
  | operation op =>
    cases op with
    | assign f => exact absurd h hsame
    | record f => exact absurd h hsame
    | drain => exact absurd h hsame
    | markerParsed => exact absurd h hsame
    | next surroundings =>
      have hnext : (r.next surroundings).events = .marker :: r.events := h
      unfold Reordering.next at hnext
      split at hnext
      · split at hnext
        · simp [Reordering.leave] at hnext
        · exact absurd hnext hsame
      · split at hnext
        · simp at hnext
        · exact absurd hnext hsame
      · next hpoint =>
        split at hnext
        · next hmarker => exact ⟨by simp [hpoint], hmarker⟩
        · -- a frame that arrives may leave at once, and that is no marker
          split at hnext
          · exact absurd hnext hsame
          · exact absurd hnext hsame
          · exact absurd hnext hsame
          · unfold Reordering.arrive at hnext
            simp only at hnext
            split at hnext
            · simp [Reordering.leave] at hnext
            · split at hnext
              · exact absurd hnext hsame
              · simp [Reordering.leave] at hnext

theorem Waiting.behind (hr : r.Waiting) (o : Occurrence φ) : r.Behind o := by
  intro hevents
  obtain ⟨hpoint, hmarker⟩ := marker_of_occur hevents
  have hempty := hr.emptied hmarker hpoint
  have hperm := hr.perm
  rw [hempty, List.append_nil] at hperm
  exact ⟨hempty, hperm⟩

/-- **A marker overtakes nothing** in a run where every scan with a marker
pending finds a frame with an index or an empty table. -/
theorem decodeToManifest_marker_behind (collapse : φ → Bool) {os : List (Occurrence φ)}
    (hok : Along Reordering.occur Emptying (started collapse : Reordering φ n) os) :
    Along Reordering.occur Behind (started collapse : Reordering φ n) os :=
  hok.of_inv (fun hok hr => hr.occur hok) (fun o hr => hr.behind o) (waiting_started collapse)

/-- Two frames, one of them without an index until the first has left. -/
theorem decodeToManifest_marker_behind_indexed :
    let around : Extracted (Fin 2) → Occurrence (Fin 2) :=
      fun x => .operation (.next ⟨.playForward, 8, x⟩)
    let os := [.indexed 1 4, around .nothing, around .nothing, around (.frame 0), around .nothing,
      around .nothing, around (.frame 1), around .nothing, around .nothing, around .marker,
      around .nothing, .indexed 0 2, around .nothing, around .nothing, around .nothing,
      around .nothing]
    Along Reordering.occur Behind (started fun _ => false : Reordering (Fin 2) 8) os := by
  intro around os
  exact decodeToManifest_marker_behind (fun _ => false) (by decide +kernel)

/-- A frame without an index, then a marker: the marker is passed on while the
frame waits in the table. -/
theorem decodeToManifest_marker_overtakes :
    let around : Extracted (Fin 1) → Occurrence (Fin 1) :=
      fun x => .operation (.next ⟨.playForward, 8, x⟩)
    let os := [around .nothing, around .nothing, around (.frame 0), around .nothing,
      around .nothing, around .marker, around .nothing, around .nothing, around .nothing]
    ¬ Along Reordering.occur Behind (started fun _ => false : Reordering (Fin 1) 8) os := by
  decide +kernel

end

end Reordering

end Duckbox.Player
