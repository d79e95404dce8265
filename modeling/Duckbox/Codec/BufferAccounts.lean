import Duckbox.Codec.BufferShares

/-!
# The reference counts of the decode buffers

The shares in a decode buffer add up to its count in every state of a run, and an
input that fails leaves the codec no decode context that it did not have
(`Settled`).

`Codec_MmeVideo_c::Input` returns an error in some places without releasing the
context: where the stream parameters are not sent (`buffers_unaccounted`), and
where a second field does not go with the first. And a buffer for which there is no
entry in the map is counted without a record of it.
-/

namespace Duckbox.Codec.MmeVideo

open Duckbox.Lib

variable {c : Configuration} {s t : MmeVideo} {i : Nat} {f : ParsedFrame} {e : Environment}

/-! ## Accounts -/

/-- The count of every buffer is made up of its shares, and it is mapped and has a
record while it is counted. -/
def Accounted (s : MmeVideo) : Prop :=
  ∀ i, s.ownerCount i = s.outputHold i + (s.bufferState i).referenceFrameCount
        + (namedBy s.liveContexts).count i ∧
      (s.Mapped i ↔ s.ownerCount i ≠ 0) ∧
      ((s.bufferState i).buffer = true ↔ s.ownerCount i ≠ 0)

/-- The counts are made up after the event, and an input that fails keeps no
context. -/
def Settled (c : Configuration) (s : MmeVideo) (event : VideoEvent) : Prop :=
  (s.step c event).Accounted ∧
    match event with
    | .input f e => (s.input c f e).1 = false → (s.input c f e).2.decodeContext = s.decodeContext
    | _ => True

/-- New stream parameters are sent, and a second field goes with the first: there
is an entry for its decode index, and room for its display counts. -/
def Taken (c : Configuration) (s : MmeVideo) : VideoEvent → Prop
  | .input f e => s.refuses c f e = false → f.newFrameParameters = true →
      (f.newStreamParameters = true → e.parametersRefused = false) ∧
      ∀ i ∈ s.reusedBuffer c f, f.firstSlice = true → none ∈ s.indexBufferMap ∧
        (s.bufferState i).displayCount = 0 ∧
        (s.bufferState i).panScanCount + f.panScanCount ≤ maxPanScanValues
  | _ => True

theorem addField_added (hroom : none ∈ s.indexBufferMap)
    (hdisplay : (s.bufferState i).displayCount = 0)
    (hpanScan : (s.bufferState i).panScanCount + f.panScanCount ≤ maxPanScanValues) :
    (s.addField i f).1 = true := by
  obtain ⟨map, hmap⟩ := mapEntry_eq_some (f.decodeFrameIndex, i) hroom
  unfold addField mapBufferToDecodeIndex
  rw [hmap]
  dsimp only [Option.map_some]
  rw [if_neg (not_not.mpr hdisplay)]
  have hcount : (({ s with indexBufferMap := map }.setState i
      { s.bufferState i with displayCount := f.displayCount.1 }).bufferState i).panScanCount
      = (s.bufferState i).panScanCount := by
    rw [setState_bufferState, Function.update_self]
  rw [if_neg (by rw [hcount]; exact Nat.not_lt.mpr hpanScan)]

theorem context_input (hcontext : s.halted = false → s.decodeContext = none)
    (htaken : s.Taken c (.input f e)) :
    (s.input c f e).1 = false ∨ (s.input c f e).2.halted = false →
      (s.input c f e).2.decodeContext = s.decodeContext := by
  have hcase := input_case c s f e
  generalize s.input c f e = result at hcase ⊢
  have hnone : s.refuses c f e = false → s.decodeContext = none := fun h =>
    hcontext (halted_of_refuses h)
  cases hcase with
  | refused hrefuses => exact fun _ => rfl
  | noFrame hrefuses hframe sent => exact fun _ => rfl
  | parameters hrefuses hframe hstream hrefused =>
    exact nomatch ((htaken hrefuses hframe).1 hstream).symm.trans hrefused
  | noBuffer hrefuses hframe hreused hbuffer => exact fun _ => (hnone hrefuses).symm
  | notMapped hrefuses hframe hreused i hbuffer hmap => exact fun _ => (hnone hrefuses).symm
  | notAttached hrefuses hframe hreused i hbuffer map hmap hattached hsent =>
    exact fun _ => (hnone hrefuses).symm
  | obtained hrefuses hframe hreused i hbuffer map hmap hinto =>
    exact fun h => (context_decode _ _ _ _ _ h).trans (hnone hrefuses).symm
  | notAdded hrefuses hframe i hreused hslice hadded =>
    obtain ⟨hroom, hdisplay, hpanScan⟩ := (htaken hrefuses hframe).2 i hreused hslice
    have htrue := addField_added (s := s.openDecodeContext) hroom hdisplay hpanScan
    exact nomatch htrue.symm.trans hadded
  | added hrefuses hframe i hreused hslice hadded hinto =>
    exact fun h => (context_decode _ _ _ _ _ h).trans (hnone hrefuses).symm
  | slice hrefuses hframe i hreused hslice hinto =>
    exact fun h => (context_decode _ _ _ _ _ h).trans (hnone hrefuses).symm

theorem Sound.accounted (hs : s.Sound) : s.Accounted := fun i =>
  ⟨(hs.kept i).count, (hs.kept i).mapped, (hs.kept i).record⟩

theorem context_step (hcontext : s.halted = false → s.decodeContext = none) {event : VideoEvent}
    (htaken : s.Taken c event)
    (hhalted : (s.step c event).halted = false) : (s.step c event).decodeContext = none := by
  cases event with
  | input f e =>
    refine (context_input hcontext htaken (.inr hhalted)).trans (hcontext ?_)
    by_contra hne
    have hrefuses : s.refuses c f e = true := by
      unfold refuses
      rw [eq_true_of_ne_false hne]
      rfl
    unfold step input at hhalted
    dsimp only at hhalted
    rw [hrefuses, if_pos rfl] at hhalted
    exact hne hhalted
  | callback k discard =>
    unfold step MmeVideo.callbackFromMME at hhalted ⊢
    dsimp only at hhalted ⊢
    cases hflight : s.inFlight[k]? with
    | none =>
      rw [hflight] at hhalted
      exact hcontext hhalted
    | some context =>
      rw [hflight] at hhalted
      obtain ⟨hcontext', -, hhalted'⟩ := releaseDecodeContext_course
        { s with inFlight := s.inFlight.eraseIdx k } context discard
      exact hcontext'.trans (hcontext (hhalted'.symm.trans hhalted))
  | releaseReferenceFrame decodeIndex =>
    have hsteady : Steady s (s.step c (.releaseReferenceFrame decodeIndex)) := by
      unfold step
      dsimp only
      split
      · exact steady_h264ReleaseReferenceFrame ..
      · exact steady_releaseReferenceFrame ..
    exact hsteady.decodeContext.trans (hcontext (hsteady.halted.symm.trans hhalted))
  | releaseDecodeBuffer i =>
    have hsteady := steady_releaseDecodeBuffer s i
    exact hsteady.decodeContext.trans (hcontext (hsteady.halted.symm.trans hhalted))
  | outputPartialDecodeBuffers =>
    have hrest := sameRest_outputPartialDecodeBuffers s
    exact hrest.decodeContext.trans (hcontext (hrest.halted.symm.trans hhalted))
  | halt => exact nomatch hhalted

theorem run_settled (events : List VideoEvent) :
    ∀ {s : MmeVideo}, s.Sound → (s.halted = false → s.decodeContext = none) →
      Along (step c) (fun s event => s.Served c event ∧ s.Taken c event) s events →
      Along (step c) (Settled c) s events := by
  induction events with
  | nil => intro s _ _ _; trivial
  | cons event events ih =>
    intro s hs hcontext hok
    obtain ⟨⟨hserved, htaken⟩, hrest⟩ := hok
    have hs' := hs.step hserved
    refine ⟨⟨hs'.accounted, ?_⟩, ih hs' (context_step hcontext htaken) hrest⟩
    cases event with
    | input f e => exact fun h => context_input hcontext htaken (.inl h)
    | _ => trivial

/-- **The count of a decode buffer is the shares in it**, in every run in which the
codec is served, its stream parameters are sent, and second fields go with the
first. -/
theorem buffers_accounted {size : Nat} {events : List VideoEvent}
    (hok : Along (step c) (fun s event => s.Served c event ∧ s.Taken c event) (registered size)
      events) :
    Along (step c) (Settled c) (registered size) events :=
  run_settled events (sound_registered size) (fun _ => rfl) hok

/-! ## Stream parameters that are not sent -/

/-- H.264 with eight decode buffers. -/
def h264Configuration : Configuration := ⟨false, true, false, 8⟩

/-- A reference frame, or one that is not, with references to others. -/
def frameOf (decodeFrameIndex : Nat) (newStreamParameters referenceFrame : Bool)
    (references : List Nat) : ParsedFrame where
  decodeFrameIndex := decodeFrameIndex
  newStreamParameters := newStreamParameters
  newFrameParameters := true
  firstParsedParametersForOutputFrame := true
  referenceFrame := referenceFrame
  firstSlice := true
  pictureStructure := .frame
  displayCount := (1, 0)
  panScanCount := 0
  referenceFrameList := references

/-- An input that meets no failure, into a buffer and with a macroblock structure. -/
def withoutFailure (buffer macroblockStructure : Nat) : Environment where
  early := false
  parametersRefused := false
  buffer := some buffer
  attached := true
  enoughMemory := true
  macroblockStructure := some macroblockStructure
  filled := true
  knownLastSliceInFieldFrame := true
  sent := .accepted
  discard := false

/-- The stream parameters of the first frame are refused, and the context that was
taken for the frame is left. -/
theorem buffers_unaccounted :
    ¬ Along (step h264Configuration) (Settled h264Configuration) (registered 16)
      [.input (frameOf 0 true true []) { withoutFailure 0 0 with parametersRefused := true }] := by
  intro h
  exact nomatch h.1.2 rfl

/-- A frame that refers to the one before it; both are decoded, put out and
released. -/
theorem buffers_accounted_references :
    Along (step h264Configuration) (Settled h264Configuration) (registered 16)
      [.input (frameOf 0 true true []) (withoutFailure 0 0), .callback 0 false,
        .input (frameOf 1 false false [0]) (withoutFailure 1 0), .releaseDecodeBuffer 0,
        .callback 0 false, .releaseReferenceFrame (some 0), .releaseDecodeBuffer 1] := by
  refine buffers_accounted ⟨⟨?_, ?_⟩, ⟨trivial, trivial⟩, ⟨?_, ?_⟩, ⟨rfl, trivial⟩,
    ⟨trivial, trivial⟩, ⟨trivial, trivial⟩, ⟨rfl, trivial⟩, trivial⟩
  · intro _ _ _ i hi
    obtain rfl := Option.some.inj hi
    exact ⟨rfl, by decide, by decide⟩
  · exact fun _ _ => ⟨fun _ => rfl, fun i hi => nomatch hi⟩
  · intro _ _ _ i hi
    obtain rfl := Option.some.inj hi
    exact ⟨rfl, by decide, by decide +kernel⟩
  · exact fun _ _ => ⟨fun _ => rfl, fun i hi => nomatch hi⟩

end Duckbox.Codec.MmeVideo
