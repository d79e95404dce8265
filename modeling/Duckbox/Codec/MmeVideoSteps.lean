import Duckbox.Codec.MmeVideo

/-!
# What the steps of the video codec do

The counts, the slots and the macroblock structures are changed by operations that
leave the course of the decodes alone (`Steady`): which buffer is the current one,
which contexts there are, what has been put out and who holds it. The rest of an
input is in few cases (`InputCase`), by where it returns.
-/

namespace Duckbox.Codec.MmeVideo

open Duckbox.Lib

variable {c : Configuration} {s t u : MmeVideo} {f : ParsedFrame} {e : Environment}

/-! ## Steady operations -/

/-- The course of the decodes is the same. -/
structure Steady (s t : MmeVideo) : Prop where
  hold : t.hold = s.hold
  currentDecodeBufferIndex : t.currentDecodeBufferIndex = s.currentDecodeBufferIndex
  currentDecodeIndex : t.currentDecodeIndex = s.currentDecodeIndex
  decodeContext : t.decodeContext = s.decodeContext
  inFlight : t.inFlight = s.inFlight
  outputRing : t.outputRing = s.outputRing
  halted : t.halted = s.halted

theorem Steady.refl (s : MmeVideo) : Steady s s := ⟨rfl, rfl, rfl, rfl, rfl, rfl, rfl⟩

theorem Steady.trans (h : Steady s t) (h' : Steady t u) : Steady s u where
  hold := h'.hold.trans h.hold
  currentDecodeBufferIndex := h'.currentDecodeBufferIndex.trans h.currentDecodeBufferIndex
  currentDecodeIndex := h'.currentDecodeIndex.trans h.currentDecodeIndex
  decodeContext := h'.decodeContext.trans h.decodeContext
  inFlight := h'.inFlight.trans h.inFlight
  outputRing := h'.outputRing.trans h.outputRing
  halted := h'.halted.trans h.halted

theorem steady_foldl {α : Type} {step : MmeVideo → α → MmeVideo}
    (hstep : ∀ s a, Steady s (step s a)) (list : List α) :
    ∀ s : MmeVideo, Steady s (list.foldl step s) := by
  induction list with
  | nil => exact Steady.refl
  | cons a list ih => exact fun s => (hstep s a).trans (ih _)

theorem steady_decrementReferenceCount (s : MmeVideo) (i : Nat) :
    Steady s (s.decrementReferenceCount i).2 := by
  unfold decrementReferenceCount
  split
  · dsimp only
    split <;> exact ⟨rfl, rfl, rfl, rfl, rfl, rfl, rfl⟩
  · exact Steady.refl s

theorem decrementReferenceCount_other {i j : Nat} (hj : j ≠ i) :
    (s.decrementReferenceCount i).2.bufferState j = s.bufferState j := by
  unfold decrementReferenceCount
  split
  · dsimp only
    split
    · exact Function.update_of_ne hj ..
    · rfl
  · rfl

theorem steady_releaseMacroblockStructure (s : MmeVideo) (i : Nat) :
    Steady s (s.releaseMacroblockStructure i) := by
  unfold releaseMacroblockStructure
  split <;> exact ⟨rfl, rfl, rfl, rfl, rfl, rfl, rfl⟩

theorem steady_setState (s : MmeVideo) (i : Nat) (state : BufferState) :
    Steady s (s.setState i state) := ⟨rfl, rfl, rfl, rfl, rfl, rfl, rfl⟩

theorem steady_dropReferences (i passes : Nat) :
    ∀ s : MmeVideo, Steady s (s.dropReferences i passes) := by
  induction passes with
  | zero => exact Steady.refl
  | succ passes ih =>
    intro s
    unfold dropReferences
    split
    · exact Steady.refl s
    · exact ((steady_setState s i _).trans (steady_decrementReferenceCount ..)).trans (ih _)

theorem steady_releaseAllReferences (s : MmeVideo) (i : Nat) :
    Steady s (s.releaseAllReferences i) := by
  unfold releaseAllReferences
  split
  · exact Steady.refl s
  · exact (steady_releaseMacroblockStructure ..).trans (steady_dropReferences ..)

theorem steady_releaseReferenceFrame (c : Configuration) (s : MmeVideo)
    (decodeIndex : Option Nat) : Steady s (s.releaseReferenceFrame c decodeIndex) := by
  unfold releaseReferenceFrame
  split
  · exact steady_foldl steady_releaseAllReferences _ s
  · split
    · exact Steady.refl s
    · next i _ =>
      split
      · exact Steady.refl s
      · have hset : Steady s (s.decrementReferenceFrameCount i) := steady_setState ..
        dsimp only
        split
        · exact (hset.trans (steady_releaseMacroblockStructure ..)).trans
            (steady_decrementReferenceCount ..)
        · exact hset.trans (steady_decrementReferenceCount ..)

theorem steady_enactOutstandingRequest (s : MmeVideo) : Steady s s.enactOutstandingRequest := by
  unfold enactOutstandingRequest
  split
  · exact Steady.refl s
  · split
    · exact ⟨rfl, rfl, rfl, rfl, rfl, rfl, rfl⟩
    · split
      · exact Steady.refl s
      · exact ⟨rfl, rfl, rfl, rfl, rfl, rfl, rfl⟩

theorem steady_referenceFrameSlotAllocate (s : MmeVideo) (request : Option Nat) :
    Steady s (s.referenceFrameSlotAllocate request).2 := by
  have henact := steady_enactOutstandingRequest s
  unfold referenceFrameSlotAllocate
  dsimp only
  split
  · exact henact
  · split
    · exact henact
    · split
      · exact henact.trans ⟨rfl, rfl, rfl, rfl, rfl, rfl, rfl⟩
      · exact henact.trans ⟨rfl, rfl, rfl, rfl, rfl, rfl, rfl⟩

theorem steady_releaseSlot (s : MmeVideo) (decodeIndex : Option Nat) :
    Steady s (s.releaseSlot decodeIndex) := by
  unfold releaseSlot
  split
  · exact ⟨rfl, rfl, rfl, rfl, rfl, rfl, rfl⟩
  · split
    · exact Steady.refl s
    · split
      · split
        · exact Steady.refl s
        · exact ⟨rfl, rfl, rfl, rfl, rfl, rfl, rfl⟩
      · exact Steady.refl s

theorem steady_h264ReleaseReferenceFrame (c : Configuration) (s : MmeVideo)
    (decodeIndex : Option Nat) : Steady s (s.h264ReleaseReferenceFrame c decodeIndex) :=
  ((steady_releaseSlot s decodeIndex).trans (steady_referenceFrameSlotAllocate _ none)).trans
    (steady_releaseReferenceFrame ..)

theorem steady_releaseReference (s : MmeVideo) (i : Nat) : Steady s (s.releaseReference i) :=
  (steady_releaseMacroblockStructure s i).trans (steady_decrementReferenceCount ..)

theorem steady_takeReference (s : MmeVideo) (i : Nat) : Steady s (s.takeReference i) := by
  unfold takeReference
  dsimp only
  split <;> exact ⟨rfl, rfl, rfl, rfl, rfl, rfl, rfl⟩

theorem steady_incrementUseCount (s : MmeVideo) (i : Nat) (f : ParsedFrame) :
    Steady s (s.incrementUseCount i f) := by
  unfold incrementUseCount
  split
  · exact ⟨rfl, rfl, rfl, rfl, rfl, rfl, rfl⟩
  · exact Steady.refl s

theorem steady_translateReferenceFrameLists (s : MmeVideo) (i : Nat) (f : ParsedFrame) :
    Steady s (s.translateReferenceFrameLists i f).2 :=
  (steady_incrementUseCount s i f).trans (steady_foldl steady_takeReference _ _)

theorem steady_fillOutDecodeCommand (c : Configuration) (s : MmeVideo) (i : Nat)
    (list : List Nat) (f : ParsedFrame) (e : Environment) :
    Steady s (s.fillOutDecodeCommand c i list f e).2 := by
  have hallocate := steady_referenceFrameSlotAllocate s (some i)
  unfold fillOutDecodeCommand
  split
  · dsimp only
    split
    · show Steady s (if c.tdt = true then _ else _)
      split
      · exact hallocate.trans (steady_h264ReleaseReferenceFrame ..)
      · exact hallocate
    · split
      · exact hallocate
      · split
        · exact hallocate
        · exact hallocate.trans ⟨rfl, rfl, rfl, rfl, rfl, rfl, rfl⟩
  · exact Steady.refl s

/-! ## The cases of an input -/

/-- The buffer that is current, unless the frame completes it. -/
def reusedBuffer (c : Configuration) (s : MmeVideo) (f : ParsedFrame) : Option Nat :=
  s.currentDecodeBufferIndex.filter fun i => !s.completesPrevious c i f

/-- `GetDecodeBuffer`, with a free entry in the map. -/
def withBuffer (s : MmeVideo) (i : Nat) (map : List (Option (Nat × Nat))) (f : ParsedFrame) :
    MmeVideo :=
  { s.obtainBuffer i with indexBufferMap := map }.setState i (.obtained f)

/-- A second field goes with the first: there is an entry for its decode index, and
room for its display counts. -/
def Fits (s : MmeVideo) (i : Nat) (f : ParsedFrame) : Prop :=
  none ∈ s.indexBufferMap ∧ (s.bufferState i).displayCount = 0 ∧
    (s.bufferState i).panScanCount + f.panScanCount ≤ maxPanScanValues

theorem halted_of_refuses (h : s.refuses c f e = false) : s.halted = false := by
  unfold refuses at h
  rw [Bool.or_eq_false_iff, Bool.or_eq_false_iff] at h
  exact h.1.1

/-- The frame comes to be decoded into the buffer. -/
structure DecodesInto (c : Configuration) (s : MmeVideo) (f : ParsedFrame) (e : Environment)
    (i : Nat) : Prop where
  taken : s.refuses c f e = false
  frame : f.newFrameParameters = true
  parameters : f.newStreamParameters = true → e.parametersRefused = false
  buffer : match s.reusedBuffer c f with
    | none => e.buffer = some i ∧ e.attached = true
    | some j => j = i ∧ (f.firstSlice = true → s.Fits i f)

theorem none_mem_of_mapEntry {entry : Nat × Nat} :
    ∀ {map map' : List (Option (Nat × Nat))}, mapEntry entry map = some map' → none ∈ map
  | none :: map, _, _ => .head _
  | some used :: map, map', h => by
    unfold mapEntry at h
    rw [Option.map_eq_some_iff] at h
    obtain ⟨_, h, -⟩ := h
    exact .tail _ (none_mem_of_mapEntry h)

theorem fits_of_addField {i : Nat} (h : (s.addField i f).1 = true) : s.Fits i f := by
  unfold addField mapBufferToDecodeIndex at h
  cases hmap : mapEntry (f.decodeFrameIndex, i) s.indexBufferMap with
  | none =>
    rw [hmap] at h
    exact nomatch h
  | some map =>
    rw [hmap] at h
    dsimp only [Option.map_some] at h
    refine ⟨none_mem_of_mapEntry hmap, ?_⟩
    split at h
    · exact nomatch h
    · next hdisplay =>
      refine ⟨not_not.mp hdisplay, ?_⟩
      split at h
      · exact nomatch h
      · next hpanScan =>
        have hself : (({ s with indexBufferMap := map }.setState i
            { s.bufferState i with displayCount := f.displayCount.1 }).bufferState i).panScanCount
            = (s.bufferState i).panScanCount := by
          show BufferState.panScanCount (Function.update s.bufferState i _ i) = _
          rw [Function.update_self]
        rw [hself] at hpanScan
        exact Nat.not_lt.mp hpanScan

/-- Where an input returns, and what it leaves. -/
inductive InputCase (c : Configuration) (s : MmeVideo) (f : ParsedFrame) (e : Environment) :
    Bool × MmeVideo → Prop where
  | refused (hrefuses : s.refuses c f e = true) : InputCase c s f e (false, s)
  | noFrame (hrefuses : s.refuses c f e = false) (hnew : f.newFrameParameters = false)
      (sent : Bool) : InputCase c s f e (sent, s)
  | parameters (hrefuses : s.refuses c f e = false) (hnew : f.newFrameParameters = true)
      (hstream : f.newStreamParameters = true) (hrefused : e.parametersRefused = true) :
      InputCase c s f e (false, s.openDecodeContext)
  /-- The manifestor has no buffer. -/
  | noBuffer (hrefuses : s.refuses c f e = false) (hnew : f.newFrameParameters = true)
      (hreused : s.reusedBuffer c f = none) (hbuffer : e.buffer = none) :
      InputCase c s f e (false, { s.prepared c f with decodeContext := none })
  /-- The map is full. -/
  | notMapped (hrefuses : s.refuses c f e = false) (hnew : f.newFrameParameters = true)
      (hreused : s.reusedBuffer c f = none) (i : Nat) (hbuffer : e.buffer = some i)
      (hmap : mapEntry (f.decodeFrameIndex, i) (s.prepared c f).indexBufferMap = none) :
      InputCase c s f e
        (false, { (s.prepared c f).obtainBuffer i with decodeContext := none })
  | notAttached (hrefuses : s.refuses c f e = false) (hnew : f.newFrameParameters = true)
      (hreused : s.reusedBuffer c f = none) (i : Nat) (hbuffer : e.buffer = some i)
      (map : List (Option (Nat × Nat)))
      (hmap : mapEntry (f.decodeFrameIndex, i) (s.prepared c f).indexBufferMap = some map)
      (hattached : e.attached = false)
      (hsent : f.newStreamParameters = true → e.parametersRefused = false) :
      InputCase c s f e
        (false, { (s.prepared c f).withBuffer i map f with decodeContext := none })
  | obtained (hrefuses : s.refuses c f e = false) (hnew : f.newFrameParameters = true)
      (hreused : s.reusedBuffer c f = none) (i : Nat) (hbuffer : e.buffer = some i)
      (map : List (Option (Nat × Nat)))
      (hmap : mapEntry (f.decodeFrameIndex, i) (s.prepared c f).indexBufferMap = some map)
      (hinto : s.DecodesInto c f e i) :
      InputCase c s f e (((s.prepared c f).withBuffer i map f).decode c i f e)
  /-- A second field does not go with the first. -/
  | notAdded (hrefuses : s.refuses c f e = false) (hnew : f.newFrameParameters = true) (i : Nat)
      (hreused : s.reusedBuffer c f = some i) (hslice : f.firstSlice = true)
      (hadded : (s.openDecodeContext.addField i f).1 = false) :
      InputCase c s f e
        (false, (s.openDecodeContext.addField i f).2.outputPartialDecodeBuffers)
  | added (hrefuses : s.refuses c f e = false) (hnew : f.newFrameParameters = true) (i : Nat)
      (hreused : s.reusedBuffer c f = some i) (hslice : f.firstSlice = true)
      (hadded : (s.openDecodeContext.addField i f).1 = true)
      (hinto : s.DecodesInto c f e i) :
      InputCase c s f e ((s.openDecodeContext.addField i f).2.decode c i f e)
  | slice (hrefuses : s.refuses c f e = false) (hnew : f.newFrameParameters = true) (i : Nat)
      (hreused : s.reusedBuffer c f = some i) (hslice : f.firstSlice = false)
      (hinto : s.DecodesInto c f e i) :
      InputCase c s f e (s.openDecodeContext.decode c i f e)

theorem prepared_of_reused {i : Nat} (h : s.reusedBuffer c f = some i) :
    s.prepared c f = s.openDecodeContext ∧ s.currentDecodeBufferIndex = some i := by
  unfold reusedBuffer at h
  rw [Option.filter_eq_some_iff] at h
  obtain ⟨hcurrent, hcompletes⟩ := h
  refine ⟨?_, hcurrent⟩
  unfold prepared completePrevious
  show (match s.currentDecodeBufferIndex with | none => _ | some i => _) = _
  rw [hcurrent]
  have hfalse : s.openDecodeContext.completesPrevious c i f = false := by
    show s.completesPrevious c i f = false
    simpa using hcompletes
  dsimp only
  rw [hfalse]
  rfl

theorem current_prepared_of_none (h : s.reusedBuffer c f = none) :
    (s.prepared c f).currentDecodeBufferIndex = none := by
  unfold prepared completePrevious
  show MmeVideo.currentDecodeBufferIndex (match s.currentDecodeBufferIndex with
    | none => _
    | some i => _) = _
  cases hcurrent : s.currentDecodeBufferIndex with
  | none => exact hcurrent
  | some i =>
    have htrue : s.openDecodeContext.completesPrevious c i f = true := by
      show s.completesPrevious c i f = true
      unfold reusedBuffer at h
      rw [hcurrent, Option.filter_eq_none_iff] at h
      simpa using h i rfl
    dsimp only
    rw [htrue, if_pos rfl]
    unfold outputPartialDecodeBuffers
    show MmeVideo.currentDecodeBufferIndex (match s.currentDecodeBufferIndex with
      | none => _
      | some i => _) = _
    rw [hcurrent]

theorem input_case (c : Configuration) (s : MmeVideo) (f : ParsedFrame) (e : Environment) :
    InputCase c s f e (s.input c f e) := by
  unfold input
  cases hrefuses : s.refuses c f e with
  | true => exact .refused hrefuses
  | false =>
    rw [if_neg Bool.false_ne_true]
    cases hnew : f.newFrameParameters with
    | false => exact .noFrame hrefuses hnew _
    | true =>
      rw [if_neg (by decide)]
      split
      · next hparameters =>
        rw [Bool.and_eq_true] at hparameters
        exact .parameters hrefuses hnew hparameters.1 hparameters.2
      · next hparameters =>
        have hsent : f.newStreamParameters = true → e.parametersRefused = false := by
          intro hstream
          rw [hstream, Bool.true_and] at hparameters
          exact eq_false_of_ne_true hparameters
        cases hreused : s.reusedBuffer c f with
        | none =>
          rw [current_prepared_of_none hreused]
          dsimp only
          unfold decodeIntoNew getDecodeBuffer
          cases hbuffer : e.buffer with
          | none => exact .noBuffer hrefuses hnew hreused hbuffer
          | some i =>
            dsimp only
            unfold mapBufferToDecodeIndex
            cases hmap : mapEntry (f.decodeFrameIndex, i) (s.prepared c f).indexBufferMap with
            | none =>
              have hmap' := hmap
              change mapEntry _ ((s.prepared c f).obtainBuffer i).indexBufferMap = _ at hmap'
              rw [hmap']
              exact .notMapped hrefuses hnew hreused i hbuffer hmap
            | some map =>
              have hmap' := hmap
              change mapEntry _ ((s.prepared c f).obtainBuffer i).indexBufferMap = _ at hmap'
              rw [hmap']
              cases hattached : e.attached with
              | true =>
                refine .obtained hrefuses hnew hreused i hbuffer map hmap ⟨hrefuses, hnew, hsent, ?_⟩
                rw [hreused]
                exact ⟨hbuffer, hattached⟩
              | false => exact .notAttached hrefuses hnew hreused i hbuffer map hmap hattached hsent
        | some i =>
          obtain ⟨hprepared, hcurrent⟩ := prepared_of_reused hreused
          rw [hprepared, show s.openDecodeContext.currentDecodeBufferIndex = some i from hcurrent]
          dsimp only
          unfold decodeIntoCurrent
          cases hslice : f.firstSlice with
          | false =>
            refine .slice hrefuses hnew i hreused hslice ⟨hrefuses, hnew, hsent, ?_⟩
            rw [hreused]
            exact ⟨rfl, fun h => nomatch hslice.symm.trans h⟩
          | true =>
            rw [if_pos rfl]
            cases hadd : s.openDecodeContext.addField i f with
            | mk added t =>
              cases added with
              | false =>
                have h := InputCase.notAdded hrefuses hnew i hreused hslice (by rw [hadd])
                rw [hadd] at h
                exact h
              | true =>
                have hadded : (s.openDecodeContext.addField i f).1 = true := by rw [hadd]
                have hinto : s.DecodesInto c f e i := by
                  refine ⟨hrefuses, hnew, hsent, ?_⟩
                  rw [hreused]
                  exact ⟨rfl, fun _ => fits_of_addField (s := s.openDecodeContext) hadded⟩
                have h := InputCase.added hrefuses hnew i hreused hslice hadded hinto
                rw [hadd] at h
                exact h

/-- The reference lists translated, as the decode command is to be filled out. -/
def translated (s : MmeVideo) (i : Nat) (f : ParsedFrame) : List Nat × MmeVideo :=
  { s with decodeContext := none }.translateReferenceFrameLists i f

/-- The decode command filled out. -/
def filledOut (c : Configuration) (s : MmeVideo) (i : Nat) (f : ParsedFrame) (e : Environment) :
    Bool × MmeVideo :=
  (s.translated i f).2.fillOutDecodeCommand c i (s.translated i f).1 f e

/-- The decode command to be sent, and whether it is the last into its buffer. -/
def started (c : Configuration) (s : MmeVideo) (i : Nat) (f : ParsedFrame) (e : Environment) :
    Bool × MmeVideo :=
  let last := (s.filledOut c i f e).2.lastDecodeIntoThisBuffer c i f e
  (last, (s.filledOut c i f e).2.startDecode i f last)

/-- The context of the decode. -/
def contextOf (s : MmeVideo) (i : Nat) (f : ParsedFrame) (decodeInProgress : Bool) :
    DecodeContext :=
  ⟨some i, decodeInProgress, (s.translated i f).1⟩

/-- What comes of a decode. -/
inductive DecodeCase (c : Configuration) (s : MmeVideo) (i : Nat) (f : ParsedFrame)
    (e : Environment) : Bool × MmeVideo → Prop where
  | notFilled (hfilled : (s.filledOut c i f e).1 = false) :
      DecodeCase c s i f e
        (false, (s.filledOut c i f e).2.releaseDecodeContext (s.contextOf i f false) e.discard)
  | refused (hfilled : (s.filledOut c i f e).1 = true) (hsent : e.sent = .refused) :
      DecodeCase c s i f e
        (false, (s.started c i f e).2.releaseDecodeContext (s.contextOf i f true) e.discard)
  | halted (hfilled : (s.filledOut c i f e).1 = true) (hsent : e.sent = .halted) :
      DecodeCase c s i f e
        (true,
          ((s.started c i f e).2.suppress (s.contextOf i f true)).afterDecode f
            (s.started c i f e).1)
  | accepted (hfilled : (s.filledOut c i f e).1 = true) (hsent : e.sent = .accepted) :
      DecodeCase c s i f e
        (true,
          ((s.started c i f e).2.launch (s.contextOf i f true)).afterDecode f
            (s.started c i f e).1)

theorem decode_case (c : Configuration) (s : MmeVideo) (i : Nat) (f : ParsedFrame)
    (e : Environment) : DecodeCase c s i f e (s.decode c i f e) := by
  unfold decode
  dsimp only
  cases hfilled : (s.filledOut c i f e).1 with
  | false =>
    have h := hfilled
    unfold filledOut translated at h
    rw [h]
    exact .notFilled hfilled
  | true =>
    have h := hfilled
    unfold filledOut translated at h
    rw [h]
    cases hsent : e.sent with
    | refused => exact .refused hfilled hsent
    | halted => exact .halted hfilled hsent
    | accepted => exact .accepted hfilled hsent

theorem steady_translated (s : MmeVideo) (i : Nat) (f : ParsedFrame) :
    Steady { s with decodeContext := none } (s.translated i f).2 :=
  steady_translateReferenceFrameLists ..

theorem steady_filledOut (c : Configuration) (s : MmeVideo) (i : Nat) (f : ParsedFrame)
    (e : Environment) : Steady { s with decodeContext := none } (s.filledOut c i f e).2 :=
  (steady_translated s i f).trans (steady_fillOutDecodeCommand ..)

theorem steady_started (c : Configuration) (s : MmeVideo) (i : Nat) (f : ParsedFrame)
    (e : Environment) : Steady { s with decodeContext := none } (s.started c i f e).2 :=
  (steady_filledOut c s i f e).trans (steady_setState ..)

end Duckbox.Codec.MmeVideo
