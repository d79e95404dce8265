import Mathlib.Data.List.Pairwise
import Duckbox.Lib.Loop

/-!
# New stream parameters of frames that are dropped

`ProcessParseToDecode` and the intermediate process of the H.264 codec each have
a flag `PromoteNextStreamParametersToNew`. Either sets its flag when it drops a
frame with new stream parameters, and clears it when it marks the stream
parameters of the next frame as new. The frames between them are in the ring of
the pre-processor chain, so what is not yet sent is remembered in one of three
places.

> `Remembered s d`: the flag of the intermediate process, a frame in the ring, or
> the flag of the first process remembers that the frame `d` was dropped.

The intermediate process only sets its flag when the input of the frame fails. It
leaves an aborted frame, one that the pre-processor does not give back, and one
that is discarded in the chain with a `break` ahead of that, and the first
process believes them decoded (`promotion_lost`).
-/

namespace Duckbox.Codec

open Duckbox.Lib

/-! ## The two processes -/

/-- What the processes look at in a coded frame. -/
structure CodedFrame where
  newStreamParameters : Bool
  /-- `StreamParameterStructure != NULL`. -/
  streamParameterStructure : Bool
  newFrameParameters : Bool
  decodeFrameIndex : Option Nat
  codedDataLength : Nat
deriving DecidableEq

/-- The action of an entry in the chain; a frame goes by the number of frames
that arrived before it. -/
inductive Action where
  | callOutputPartialDecodeBuffers
  | callDiscardQueuedDecodes
  | callReleaseReferenceFrame (decodeFrameIndex : Nat)
  | passOnFrame (number : Nat) (frame : CodedFrame)
  | passOnPreProcessedFrame (number : Nat) (frame : CodedFrame)

def Action.frame? : Action → Option (Nat × CodedFrame)
  | .passOnFrame number frame => some (number, frame)
  | .passOnPreProcessedFrame number frame => some (number, frame)
  | _ => none

structure Pipeline where
  /-- `PromoteNextStreamParametersToNew` of `ProcessParseToDecode`. -/
  promoteParsed : Bool
  /-- `PromoteNextStreamParametersToNew` of `IntermediateProcess`. -/
  promoteIntermediate : Bool
  /-- `FramesInPreprocessorChainRing`. -/
  chain : List Action
  discardFramesInPreprocessorChain : Bool
  forceStreamParameterReload : Bool
  arrived : Nat

/-- Where `Codec_MmeVideo_c::Input` fails: before it looks at the stream
parameters, for want of a context for them, in sending them, or after. -/
inductive InputFailure where
  | early
  | streamParameterContext
  | streamParameters
  | decode
deriving DecidableEq

/-- What comes of a frame in the first process; the input of the H.264 codec may
refuse it. -/
inductive Parsed where
  | withoutMetaData
  | discarded
  | input (refused : Bool)

/-- What the intermediate process meets with an entry: whether the frame is
aborted or the process is terminating, what `H264ppGetPreProcessedBuffer` and the
policy say, and how the input ends. -/
structure Met where
  aborted : Bool
  retrieved : Bool
  badStatus : Bool
  allowBadFrames : Bool
  entryMatches : Bool
  failure : Option InputFailure

/-- What became of a frame. -/
inductive Fate where
  | accepted (number : Nat) (frame : CodedFrame)
  | dropped (number : Nat) (frame : CodedFrame)

inductive PipelineEvent where
  | parsed (frame : CodedFrame) (outcome : Parsed)
  | extract (met : Met)
  | outputPartialDecodeBuffers
  | discardQueuedDecodes
  | releaseReferenceFrame (decodeFrameIndex : Nat)

namespace CodedFrame

/-- `PromoteNextStreamParametersToNew`, applied to a frame. -/
def promote (f : CodedFrame) (promoteNext : Bool) : CodedFrame :=
  if promoteNext && f.streamParameterStructure then { f with newStreamParameters := true } else f

theorem promote_streamParameterStructure (f : CodedFrame) (promoteNext : Bool) :
    (f.promote promoteNext).streamParameterStructure = f.streamParameterStructure := by
  unfold promote
  split <;> rfl

theorem promote_of_new {f : CodedFrame} {promoteNext : Bool} (h : f.newStreamParameters = true) :
    (f.promote promoteNext).newStreamParameters = true := by
  unfold promote
  split
  · rfl
  · exact h

theorem promote_of_structure {f : CodedFrame} (h : f.streamParameterStructure = true) :
    (f.promote true).newStreamParameters = true := by
  unfold promote
  rw [h]
  rfl

/-- What `Codec_MmeVideo_c::Input` makes of a frame: whether it accepts it, the
frame, and `ForceStreamParameterReload`. -/
def input (f : CodedFrame) (force : Bool) (failure : Option InputFailure) :
    Bool × CodedFrame × Bool :=
  if failure = some .early then (false, f, force)
  -- a marker frame has nothing to decode
  else if f.codedDataLength == 0 && !f.newStreamParameters && !f.newFrameParameters then
    (true, f, force)
  else if f.newStreamParameters || force then
    let f := { f with newStreamParameters := true }
    match failure with
    | some .streamParameters => (false, f, true)
    | failure => (failure.isNone, f, false)
  else (failure != some .decode, f, force)

end CodedFrame

namespace Pipeline

def frames (s : Pipeline) : List (Nat × CodedFrame) := s.chain.filterMap Action.frame?

def insert (s : Pipeline) (action : Action) : Pipeline :=
  { s with chain := s.chain ++ [action] }

/-- `ProcessParseToDecode` of a coded frame buffer. -/
def processParseToDecode (s : Pipeline) (f : CodedFrame) (outcome : Parsed) :
    Option Fate × Pipeline :=
  let number := s.arrived
  let s := { s with arrived := s.arrived + 1 }
  match outcome with
  | .withoutMetaData => (some (.dropped number f), s)
  | .discarded =>
    (some (.dropped number f),
      { s with promoteParsed := s.promoteParsed || f.newStreamParameters })
  | .input refused =>
    let promoteNext := s.promoteParsed && !f.streamParameterStructure
    let f := f.promote s.promoteParsed
    if refused then
      (some (.dropped number f),
        { s with promoteParsed := promoteNext || f.newStreamParameters })
    else
      let s := { s with promoteParsed := promoteNext }
      if !f.newFrameParameters || f.decodeFrameIndex.isNone then
        (none, s.insert (.passOnFrame number f))
      else (none, s.insert (.passOnPreProcessedFrame number f))

/-- A frame is left ahead of the code that remembers its stream parameters. -/
def leaves (s : Pipeline) (met : Met) : Action → Bool
  | .passOnPreProcessedFrame _ _ =>
    met.aborted || !met.retrieved || (met.badStatus && !met.allowBadFrames)
      || !met.entryMatches || s.discardFramesInPreprocessorChain
  | _ => met.aborted

/-- `case ActionPassOnFrame`. -/
def passOnFrame (s : Pipeline) (number : Nat) (f : CodedFrame) (failure : Option InputFailure) :
    Option Fate × Pipeline :=
  let promoteNext := s.promoteIntermediate && !f.streamParameterStructure
  let f := f.promote s.promoteIntermediate
  let (accepted, f, force) := f.input s.forceStreamParameterReload failure
  let s := { s with forceStreamParameterReload := force }
  if accepted then
    (some (.accepted number f), { s with promoteIntermediate := promoteNext })
  else
    (some (.dropped number f),
      { s with promoteIntermediate := promoteNext || f.newStreamParameters })

/-- `IntermediateProcess`, of the next entry in the ring. -/
def intermediateProcess (s : Pipeline) (met : Met) : Option Fate × Pipeline :=
  match s.chain with
  | [] => (none, s)
  | action :: chain =>
    let left := s.leaves met action
    let s := { s with chain }
    match action with
    | .callOutputPartialDecodeBuffers => (none, s)
    | .callDiscardQueuedDecodes =>
      (none, if left then s else { s with discardFramesInPreprocessorChain := false })
    | .callReleaseReferenceFrame _ => (none, s)
    | .passOnPreProcessedFrame number f =>
      if left then (some (.dropped number f), s)
      else s.passOnFrame number { f with codedDataLength := 0 } met.failure
    | .passOnFrame number f =>
      if left then (some (.dropped number f), s) else s.passOnFrame number f met.failure

def step (s : Pipeline) : PipelineEvent → Option Fate × Pipeline
  | .parsed f outcome => s.processParseToDecode f outcome
  | .extract met => s.intermediateProcess met
  | .outputPartialDecodeBuffers => (none, s.insert .callOutputPartialDecodeBuffers)
  | .discardQueuedDecodes =>
    (none,
      { s.insert .callDiscardQueuedDecodes with discardFramesInPreprocessorChain := true })
  | .releaseReferenceFrame index => (none, s.insert (.callReleaseReferenceFrame index))

end Pipeline

/-! ## What is to be remembered -/

/-- A run, with the numbers of the frames with a stream parameter structure that
were accepted, and of those with new stream parameters that were dropped. -/
structure Promotions where
  pipeline : Pipeline
  accepted : List Nat
  dropped : List Nat

namespace Promotions

def record (m : Promotions) (s : Pipeline) : Option Fate → Promotions
  | none => { m with pipeline := s }
  | some (.accepted number f) =>
    { m with
      pipeline := s
      accepted := if f.streamParameterStructure then number :: m.accepted else m.accepted }
  | some (.dropped number f) =>
    { m with
      pipeline := s
      dropped := if f.newStreamParameters then number :: m.dropped else m.dropped }

def step (m : Promotions) (e : PipelineEvent) : Promotions :=
  m.record (m.pipeline.step e).2 (m.pipeline.step e).1

/-- No frame with a stream parameter structure has been accepted since `d`. -/
def Pending (m : Promotions) (d : Nat) : Prop := d ∈ m.dropped ∧ ∀ a ∈ m.accepted, a < d

/-- The next frame with a stream parameter structure that is accepted after one
with new stream parameters was dropped has new stream parameters. -/
def Promoted (m : Promotions) (e : PipelineEvent) : Prop :=
  ∀ number f, (m.pipeline.step e).1 = some (.accepted number f) →
    f.streamParameterStructure = true → ∀ d, m.Pending d → d < number →
    f.newStreamParameters = true

/-- A frame with new stream parameters is not lost, but while they are already
remembered: it has its meta data, and is not left ahead of its input. -/
def Ok (m : Promotions) : PipelineEvent → Prop
  | .parsed f .withoutMetaData =>
    f.newStreamParameters = true → m.pipeline.promoteParsed = true
  | .extract met => ∀ action ∈ m.pipeline.chain.head?, m.pipeline.leaves met action = true →
      ∀ f ∈ action.frame?, f.2.newStreamParameters = true →
        m.pipeline.promoteIntermediate = true
  | _ => True

/-- What remembers that the frame `d` was dropped. -/
inductive Remembered (s : Pipeline) (d : Nat) : Prop where
  | intermediate (promote : s.promoteIntermediate = true)
      (ahead : ∀ e ∈ s.frames, e.2.streamParameterStructure = true → d < e.1)
  | inChain (e : Nat × CodedFrame) (mem : e ∈ s.frames)
      (structured : e.2.streamParameterStructure = true)
      (new : e.2.newStreamParameters = true) (after : d < e.1)
      (next : ∀ e' ∈ s.frames, e'.2.streamParameterStructure = true → d < e'.1 → e.1 ≤ e'.1)
  | parsed (promote : s.promoteParsed = true)
      (behind : ∀ e ∈ s.frames, e.2.streamParameterStructure = true → e.1 < d)

/-- The frames in the ring are in order, and every frame that was dropped is
remembered until one after it is accepted. -/
structure Kept (m : Promotions) : Prop where
  ordered : m.pipeline.frames.Pairwise fun e e' => e.1 < e'.1
  arrived : ∀ e ∈ m.pipeline.frames, e.1 < m.pipeline.arrived
  dropped : ∀ d ∈ m.dropped, d < m.pipeline.arrived
  remembered : ∀ d, m.Pending d → Remembered m.pipeline d

variable {m : Promotions} {s : Pipeline} {number : Nat} {f : CodedFrame}

/-! ## Arrivals -/

theorem frames_insert (action : Action) :
    (s.insert action).frames = s.frames ++ action.frame?.toList := by
  unfold Pipeline.insert Pipeline.frames
  rw [List.filterMap_append]
  cases h : action.frame? with
  | none => rw [List.filterMap_cons_none h]; rfl
  | some e => rw [List.filterMap_cons_some h]; rfl

theorem Kept.of_frames (hkept : m.Kept) (hframes : s.frames = m.pipeline.frames)
    (harrived : s.arrived = m.pipeline.arrived)
    (hparsed : s.promoteParsed = m.pipeline.promoteParsed)
    (hintermediate : s.promoteIntermediate = m.pipeline.promoteIntermediate) :
    (m.record s none).Kept := by
  refine ⟨?_, ?_, ?_, fun d hd => ?_⟩
  · show s.frames.Pairwise _
    rw [hframes]
    exact hkept.ordered
  · show ∀ e ∈ s.frames, e.1 < s.arrived
    rw [hframes, harrived]
    exact hkept.arrived
  · show ∀ d ∈ m.dropped, d < s.arrived
    rw [harrived]
    exact hkept.dropped
  · show Remembered s d
    cases hkept.remembered d hd with
    | intermediate promote ahead =>
      exact .intermediate (hintermediate.trans promote) (hframes ▸ ahead)
    | inChain e mem structured new after next =>
      exact .inChain e (hframes ▸ mem) structured new after (hframes ▸ next)
    | parsed promote behind => exact .parsed (hparsed.trans promote) (hframes ▸ behind)

theorem Kept.dropped_on_arrival (hkept : m.Kept) {promoteParsed : Bool}
    (hkeeps : m.pipeline.promoteParsed = true → promoteParsed = true)
    (hnew : f.newStreamParameters = true → promoteParsed = true) :
    (m.record { m.pipeline with promoteParsed, arrived := m.pipeline.arrived + 1 }
      (some (.dropped m.pipeline.arrived f))).Kept := by
  -- the frames in the ring arrived before it
  have hstill : ∀ d, Remembered m.pipeline d →
      Remembered { m.pipeline with promoteParsed, arrived := m.pipeline.arrived + 1 } d := by
    intro d hd
    cases hd with
    | intermediate promote ahead => exact .intermediate promote ahead
    | inChain e mem structured new after next => exact .inChain e mem structured new after next
    | parsed promote behind => exact .parsed (hkeeps promote) behind
  have hlater : ∀ d ∈ m.dropped, d < m.pipeline.arrived + 1 := fun d hd =>
    Nat.lt_succ_of_lt (hkept.dropped d hd)
  refine ⟨hkept.ordered, fun e he => Nat.lt_succ_of_lt (hkept.arrived e he), ?_, ?_⟩
  · intro d hd
    simp only [record] at hd
    split at hd
    · rcases List.mem_cons.mp hd with rfl | hd
      · exact Nat.lt_succ_self _
      · exact hlater d hd
    · exact hlater d hd
  · rintro d ⟨hd, hpending⟩
    simp only [record] at hd
    split at hd
    · next hf =>
      rcases List.mem_cons.mp hd with rfl | hd
      · exact .parsed (hnew hf) fun e he _ => hkept.arrived e he
      · exact hstill d (hkept.remembered d ⟨hd, hpending⟩)
    · exact hstill d (hkept.remembered d ⟨hd, hpending⟩)

theorem Kept.passed (hkept : m.Kept) {action : Action}
    (haction : action.frame? = some (m.pipeline.arrived, f.promote m.pipeline.promoteParsed))
    (hchain : s.frames = m.pipeline.frames) (harrived : s.arrived = m.pipeline.arrived + 1)
    (hparsed : s.promoteParsed = (m.pipeline.promoteParsed && !f.streamParameterStructure))
    (hintermediate : s.promoteIntermediate = m.pipeline.promoteIntermediate) :
    (m.record (s.insert action) none).Kept := by
  have hframes : (s.insert action).frames
      = m.pipeline.frames ++ [(m.pipeline.arrived, f.promote m.pipeline.promoteParsed)] := by
    rw [frames_insert, haction, hchain]
    rfl
  have hlater : ∀ {k}, k < m.pipeline.arrived → k < (s.insert action).arrived := by
    intro k hk
    show k < s.arrived
    rw [harrived]
    exact Nat.lt_succ_of_lt hk
  have hstructure : (f.promote m.pipeline.promoteParsed).streamParameterStructure
      = f.streamParameterStructure := f.promote_streamParameterStructure _
  have hmem : ∀ e, e ∈ (s.insert action).frames ↔ e ∈ m.pipeline.frames ∨
      e = (m.pipeline.arrived, f.promote m.pipeline.promoteParsed) := by
    intro e
    rw [hframes, List.mem_append, List.mem_singleton]
  refine ⟨?_, fun e he => ?_, fun d hd => hlater (hkept.dropped d hd), fun d hd => ?_⟩
  · show (s.insert action).frames.Pairwise _
    rw [hframes, List.pairwise_append]
    refine ⟨hkept.ordered, List.pairwise_singleton .., fun e he e' he' => ?_⟩
    rw [List.mem_singleton.mp he']
    exact hkept.arrived e he
  · rcases (hmem e).mp he with he | rfl
    · exact hlater (hkept.arrived e he)
    · show m.pipeline.arrived < s.arrived
      rw [harrived]
      exact Nat.lt_succ_self _
  · show Remembered (s.insert action) d
    have hbefore : d < m.pipeline.arrived := hkept.dropped d hd.1
    cases hkept.remembered d hd with
    | intermediate promote ahead =>
      refine .intermediate (hintermediate.trans promote) fun e he hstructured => ?_
      rcases (hmem e).mp he with he | rfl
      · exact ahead e he hstructured
      · exact hbefore
    | inChain e mem structured new after next =>
      refine .inChain e ((hmem e).mpr (.inl mem)) structured new after
        fun e' he' hstructured hafter => ?_
      rcases (hmem e').mp he' with he' | rfl
      · exact next e' he' hstructured hafter
      · exact Nat.le_of_lt (hkept.arrived e mem)
    | parsed promote behind =>
      cases hf : f.streamParameterStructure with
      | true =>
        refine .inChain _ ((hmem _).mpr (.inr rfl)) (hstructure.trans hf) ?_ hbefore
          fun e' he' hstructured hafter => ?_
        · show (f.promote m.pipeline.promoteParsed).newStreamParameters = true
          rw [promote]
          exact CodedFrame.promote_of_structure hf
        · rcases (hmem e').mp he' with he' | rfl
          · exact absurd (behind e' he' hstructured) (Nat.lt_asymm hafter)
          · exact Nat.le_refl _
      | false =>
        refine .parsed ?_ fun e he hstructured => ?_
        · show s.promoteParsed = true
          rw [hparsed, promote, hf]
          rfl
        · rcases (hmem e).mp he with he | rfl
          · exact behind e he hstructured
          · exact nomatch (hstructure.trans hf).symm.trans hstructured

theorem Kept.processParseToDecode (hkept : m.Kept) {outcome : Parsed}
    (hok : m.Ok (.parsed f outcome)) : (m.step (.parsed f outcome)).Kept := by
  unfold step Pipeline.step Pipeline.processParseToDecode
  cases outcome with
  | withoutMetaData => exact hkept.dropped_on_arrival (fun h => h) hok
  | discarded =>
    refine hkept.dropped_on_arrival (fun h => ?_) (fun h => ?_)
    · show (m.pipeline.promoteParsed || f.newStreamParameters) = true
      rw [h, Bool.true_or]
    · show (m.pipeline.promoteParsed || f.newStreamParameters) = true
      rw [h, Bool.or_true]
  | input refused =>
    cases refused with
    | true =>
      refine hkept.dropped_on_arrival (f := f.promote m.pipeline.promoteParsed)
        (fun h => ?_) (fun h => ?_)
      · -- a frame that took it is dropped with it
        show (m.pipeline.promoteParsed && !f.streamParameterStructure
          || (f.promote m.pipeline.promoteParsed).newStreamParameters) = true
        rw [h]
        cases hf : f.streamParameterStructure with
        | true => rw [CodedFrame.promote_of_structure hf, Bool.or_true]
        | false => rfl
      · show (m.pipeline.promoteParsed && !f.streamParameterStructure
          || (f.promote m.pipeline.promoteParsed).newStreamParameters) = true
        rw [h, Bool.or_true]
    | false =>
      dsimp only
      cases hframe : !(f.promote m.pipeline.promoteParsed).newFrameParameters
          || (f.promote m.pipeline.promoteParsed).decodeFrameIndex.isNone with
      | true => exact hkept.passed rfl rfl rfl rfl rfl
      | false => exact hkept.passed rfl rfl rfl rfl rfl

/-! ## The intermediate process -/

variable {rest : List (Nat × CodedFrame)}

/-- What is remembered behind the entry that is taken, and not by it. -/
theorem Remembered.tail {e : Nat × CodedFrame} {d : Nat} (hremembered : Remembered m.pipeline d)
    (hframes : m.pipeline.frames = e :: rest) (hs : s.frames = rest)
    (hparsed : s.promoteParsed = m.pipeline.promoteParsed)
    (hordered : m.pipeline.frames.Pairwise fun e e' => e.1 < e'.1)
    (hpromoted : m.pipeline.promoteIntermediate = true →
      (∀ e' ∈ m.pipeline.frames, e'.2.streamParameterStructure = true → d < e'.1) →
      s.promoteIntermediate = true)
    (hnew : e.2.streamParameterStructure = true → e.2.newStreamParameters = true → d < e.1 →
      s.promoteIntermediate = true) :
    Remembered s d := by
  rw [hframes, List.pairwise_cons] at hordered
  have hmem : ∀ e' ∈ s.frames, e' ∈ m.pipeline.frames := by
    intro e' he'
    rw [hs] at he'
    rw [hframes]
    exact List.mem_cons_of_mem _ he'
  cases hremembered with
  | intermediate promote ahead =>
    exact .intermediate (hpromoted promote ahead) fun e' he' => ahead e' (hmem e' he')
  | inChain e₀ mem structured new after next =>
    rw [hframes] at mem
    rcases List.mem_cons.mp mem with rfl | mem
    · -- the frame that remembers it is taken
      refine .intermediate (hnew structured new after) fun e' he' _ => ?_
      exact Nat.lt_trans after (hordered.1 e' (hs ▸ he'))
    · exact .inChain e₀ (hs ▸ mem) structured new after fun e' he' => next e' (hmem e' he')
  | parsed promote behind =>
    exact .parsed (hparsed.trans promote) fun e' he' => behind e' (hmem e' he')

theorem Kept.behind (hkept : m.Kept) (hframes : m.pipeline.frames = (number, f) :: rest) :
    number < m.pipeline.arrived ∧ (∀ e ∈ rest, number < e.1) ∧
      (∀ e ∈ rest, e.1 < m.pipeline.arrived) ∧ rest.Pairwise fun e e' => e.1 < e'.1 := by
  have hordered := hkept.ordered
  have harrived := hkept.arrived
  rw [hframes] at hordered harrived
  rw [List.pairwise_cons] at hordered
  exact ⟨harrived _ List.mem_cons_self, hordered.1,
    fun e he => harrived e (List.mem_cons_of_mem _ he), hordered.2⟩

theorem input_cases (f : CodedFrame) (force : Bool) (failure : Option InputFailure) :
    (f.input force failure).2.1.streamParameterStructure = f.streamParameterStructure ∧
      (f.newStreamParameters = true → (f.input force failure).2.1.newStreamParameters = true) := by
  unfold CodedFrame.input
  split
  · exact ⟨rfl, fun h => h⟩
  · split
    · exact ⟨rfl, fun h => h⟩
    · split
      · cases failure with
        | none => exact ⟨rfl, fun _ => rfl⟩
        | some failure => cases failure <;> exact ⟨rfl, fun _ => rfl⟩
      · exact ⟨rfl, fun h => h⟩

theorem passOnFrame_cases (s : Pipeline) (number : Nat) (f : CodedFrame)
    (failure : Option InputFailure) :
    ∃ f' force promote, f'.streamParameterStructure = f.streamParameterStructure ∧
      (f.newStreamParameters = true → f'.newStreamParameters = true) ∧
      (s.promoteIntermediate = true → f.streamParameterStructure = true →
        f'.newStreamParameters = true) ∧
      (s.passOnFrame number f failure).2 =
        { s with
          forceStreamParameterReload := force
          promoteIntermediate := promote } ∧
      ((s.passOnFrame number f failure).1 = some (.accepted number f') ∧
          promote = (s.promoteIntermediate && !f.streamParameterStructure) ∨
        (s.passOnFrame number f failure).1 = some (.dropped number f') ∧
          promote = (s.promoteIntermediate && !f.streamParameterStructure
            || f'.newStreamParameters)) := by
  obtain ⟨hstructure, hnew⟩ :=
    input_cases (f.promote s.promoteIntermediate) s.forceStreamParameterReload failure
  unfold Pipeline.passOnFrame
  dsimp only
  generalize (f.promote s.promoteIntermediate).input s.forceStreamParameterReload failure = r at *
  obtain ⟨accepted, f', force⟩ := r
  have hstructure' := hstructure.trans (f.promote_streamParameterStructure _)
  have hkeeps : f.newStreamParameters = true → f'.newStreamParameters = true :=
    fun h => hnew (CodedFrame.promote_of_new h)
  have htakes : s.promoteIntermediate = true → f.streamParameterStructure = true →
      f'.newStreamParameters = true := by
    intro h hf
    refine hnew ?_
    rw [h]
    exact CodedFrame.promote_of_structure hf
  cases accepted with
  | true => exact ⟨f', force, _, hstructure', hkeeps, htakes, rfl, .inl ⟨rfl, rfl⟩⟩
  | false => exact ⟨f', force, _, hstructure', hkeeps, htakes, rfl, .inr ⟨rfl, rfl⟩⟩

section Taken

variable {f' g : CodedFrame} (hkept : m.Kept)
  (hframes : m.pipeline.frames = (number, f) :: rest) (hs : s.frames = rest)
  (harrived : s.arrived = m.pipeline.arrived)
  (hparsed : s.promoteParsed = m.pipeline.promoteParsed)

include hkept hframes hs harrived hparsed

theorem Kept.taken_dropped
    (hpromoted : m.pipeline.promoteIntermediate = true → s.promoteIntermediate = true)
    (hold : f.newStreamParameters = true → s.promoteIntermediate = true)
    (hnew : f'.newStreamParameters = true → s.promoteIntermediate = true) :
    (m.record s (some (.dropped number f'))).Kept := by
  obtain ⟨hnumber, hbehind, hrest, hordered⟩ := hkept.behind hframes
  have hstill : ∀ d, m.Pending d → Remembered s d := fun d hd =>
    (hkept.remembered d hd).tail hframes hs hparsed hkept.ordered (fun h _ => hpromoted h)
      fun _ h _ => hold h
  refine ⟨?_, ?_, fun d hd => ?_, ?_⟩
  · show s.frames.Pairwise _
    rw [hs]
    exact hordered
  · show ∀ e ∈ s.frames, e.1 < s.arrived
    rw [hs, harrived]
    exact hrest
  · show d < s.arrived
    rw [harrived]
    simp only [record] at hd
    split at hd
    · rcases List.mem_cons.mp hd with rfl | hd
      · exact hnumber
      · exact hkept.dropped d hd
    · exact hkept.dropped d hd
  · rintro d ⟨hd, hpending⟩
    show Remembered s d
    simp only [record] at hd
    split at hd
    · next hf =>
      rcases List.mem_cons.mp hd with rfl | hd
      · exact .intermediate (hnew hf) fun e he _ => hbehind e (hs ▸ he)
      · exact hstill d ⟨hd, hpending⟩
    · exact hstill d ⟨hd, hpending⟩

theorem Kept.taken_accepted
    (hstructure : f'.streamParameterStructure = f.streamParameterStructure)
    (hintermediate : s.promoteIntermediate
      = (m.pipeline.promoteIntermediate && !f.streamParameterStructure)) :
    (m.record s (some (.accepted number f'))).Kept := by
  obtain ⟨hnumber, hbehind, hrest, hordered⟩ := hkept.behind hframes
  refine ⟨?_, ?_, ?_, ?_⟩
  · show s.frames.Pairwise _
    rw [hs]
    exact hordered
  · show ∀ e ∈ s.frames, e.1 < s.arrived
    rw [hs, harrived]
    exact hrest
  · show ∀ d ∈ m.dropped, d < s.arrived
    rw [harrived]
    exact hkept.dropped
  · rintro d ⟨hd, hpending⟩
    show Remembered s d
    simp only [record, hstructure] at hpending
    have hmem : (number, f) ∈ m.pipeline.frames := hframes ▸ List.mem_cons_self
    cases hf : f.streamParameterStructure with
    | true =>
      rw [hf, if_pos rfl] at hpending
      -- what is still pending was dropped after it
      have hafter : number < d := hpending number List.mem_cons_self
      refine (hkept.remembered d ⟨hd, fun a ha => hpending a (List.mem_cons_of_mem _ ha)⟩).tail
        hframes hs hparsed hkept.ordered (fun _ hahead => ?_) fun _ _ hlt => ?_
      · exact absurd (hahead _ hmem hf) (Nat.lt_asymm hafter)
      · exact absurd hlt (Nat.lt_asymm hafter)
    | false =>
      rw [hf, if_neg Bool.false_ne_true] at hpending
      refine (hkept.remembered d ⟨hd, hpending⟩).tail hframes hs hparsed hkept.ordered
        (fun h _ => ?_) fun hstructured _ _ => ?_
      · rw [hintermediate, h, hf]
        rfl
      · exact nomatch hf.symm.trans hstructured

theorem Kept.passOnFrame
    (hintermediate : s.promoteIntermediate = m.pipeline.promoteIntermediate)
    (hstructure : g.streamParameterStructure = f.streamParameterStructure)
    (hnew : g.newStreamParameters = f.newStreamParameters) (failure : Option InputFailure) :
    (m.record (s.passOnFrame number g failure).2 (s.passOnFrame number g failure).1).Kept := by
  obtain ⟨f', force, promote, hstructure', hkeeps, htakes, hpipeline, hfate⟩ :=
    passOnFrame_cases s number g failure
  rw [hpipeline]
  rw [hstructure, hintermediate] at hfate
  rw [hintermediate, hstructure] at htakes
  rcases hfate with ⟨hfate, hpromote⟩ | ⟨hfate, hpromote⟩
  · rw [hfate]
    exact hkept.taken_accepted hframes hs harrived hparsed (hstructure'.trans hstructure) hpromote
  · rw [hfate]
    have hpromoted : f'.newStreamParameters = true → promote = true := by
      intro h
      rw [hpromote, h, Bool.or_true]
    refine hkept.taken_dropped hframes hs harrived hparsed (fun h => ?_) (fun h => ?_) hpromoted
    · show promote = true
      cases hf : f.streamParameterStructure with
      | true => exact hpromoted (htakes h hf)
      | false => rw [hpromote, h, hf]; rfl
    · exact hpromoted (hkeeps (hnew.trans h))

end Taken

theorem frames_cons (action : Action) {chain : List Action}
    (hchain : s.chain = action :: chain) (hframe : action.frame? = some (number, f)) :
    s.frames = (number, f) :: chain.filterMap Action.frame? := by
  unfold Pipeline.frames
  rw [hchain, List.filterMap_cons_some hframe]

theorem Kept.intermediateProcess (hkept : m.Kept) {met : Met} (hok : m.Ok (.extract met)) :
    (m.step (.extract met)).Kept := by
  unfold step Pipeline.step Pipeline.intermediateProcess
  dsimp only
  cases hchain : m.pipeline.chain with
  | nil => exact hkept.of_frames rfl rfl rfl rfl
  | cons action chain =>
    have hleft := hok action (by rw [hchain]; rfl)
    have hother (hframe : action.frame? = none) :
        chain.filterMap Action.frame? = m.pipeline.frames := by
      unfold Pipeline.frames
      rw [hchain, List.filterMap_cons_none hframe]
    cases action with
    | callOutputPartialDecodeBuffers => exact hkept.of_frames (hother rfl) rfl rfl rfl
    | callReleaseReferenceFrame index => exact hkept.of_frames (hother rfl) rfl rfl rfl
    | callDiscardQueuedDecodes =>
      dsimp only
      split
      · exact hkept.of_frames (hother rfl) rfl rfl rfl
      · exact hkept.of_frames (hother rfl) rfl rfl rfl
    | passOnFrame number f =>
      have hframes := frames_cons (.passOnFrame number f) hchain rfl
      dsimp only
      split
      · next hleaves =>
        have hremembers := hleft hleaves _ rfl
        exact hkept.taken_dropped hframes rfl rfl rfl (fun h => h) hremembers hremembers
      · exact hkept.passOnFrame (s := { m.pipeline with chain }) hframes rfl rfl rfl rfl rfl rfl
          met.failure
    | passOnPreProcessedFrame number f =>
      have hframes := frames_cons (.passOnPreProcessedFrame number f) hchain rfl
      dsimp only
      split
      · next hleaves =>
        have hremembers := hleft hleaves _ rfl
        exact hkept.taken_dropped hframes rfl rfl rfl (fun h => h) hremembers hremembers
      · exact hkept.passOnFrame (s := { m.pipeline with chain })
          (g := { f with codedDataLength := 0 }) hframes rfl rfl rfl rfl rfl rfl met.failure

/-! ## Runs -/

theorem Kept.step (hkept : m.Kept) {e : PipelineEvent} (hok : m.Ok e) : (m.step e).Kept := by
  cases e with
  | parsed f outcome => exact hkept.processParseToDecode hok
  | extract met => exact hkept.intermediateProcess hok
  | outputPartialDecodeBuffers =>
    exact hkept.of_frames ((frames_insert _).trans (List.append_nil _)) rfl rfl rfl
  | discardQueuedDecodes =>
    exact hkept.of_frames ((frames_insert (s := m.pipeline) .callDiscardQueuedDecodes).trans
      (List.append_nil _)) rfl rfl rfl
  | releaseReferenceFrame index =>
    exact hkept.of_frames ((frames_insert _).trans (List.append_nil _)) rfl rfl rfl

theorem Kept.taken_new (hkept : m.Kept) {d : Nat}
    (hframes : m.pipeline.frames = (number, f) :: rest) (hf : f.streamParameterStructure = true)
    (hd : m.Pending d) (hlt : d < number) :
    f.newStreamParameters = true ∨ m.pipeline.promoteIntermediate = true := by
  obtain ⟨hnumber, hbehind, hrest, hordered⟩ := hkept.behind hframes
  have hmem : (number, f) ∈ m.pipeline.frames := hframes ▸ List.mem_cons_self
  cases hkept.remembered d hd with
  | intermediate promote ahead => exact .inr promote
  | inChain e mem structured new after next =>
    have hle := next _ hmem hf hlt
    rw [hframes] at mem
    rcases List.mem_cons.mp mem with rfl | mem
    · exact .inl new
    · exact absurd (hbehind e mem) (Nat.not_lt.mpr hle)
  | parsed promote behind => exact absurd (behind _ hmem hf) (Nat.lt_asymm hlt)

theorem Kept.promoted_passOnFrame (hkept : m.Kept) {g : CodedFrame}
    (hframes : m.pipeline.frames = (number, f) :: rest)
    (hintermediate : s.promoteIntermediate = m.pipeline.promoteIntermediate)
    (hstructure : g.streamParameterStructure = f.streamParameterStructure)
    (hnew : g.newStreamParameters = f.newStreamParameters) {failure : Option InputFailure} {k : Nat}
    {accepted : CodedFrame}
    (hfate : (s.passOnFrame number g failure).1 = some (.accepted k accepted))
    (hg : accepted.streamParameterStructure = true) {d : Nat} (hd : m.Pending d) (hlt : d < k) :
    accepted.newStreamParameters = true := by
  obtain ⟨f', force, promote, hstructure', hkeeps, htakes, -, hcases⟩ :=
    passOnFrame_cases s number g failure
  rw [hfate] at hcases
  rcases hcases with ⟨heq, -⟩ | ⟨heq, -⟩
  · obtain ⟨rfl, rfl⟩ : k = number ∧ accepted = f' := by simpa using heq
    have hf : f.streamParameterStructure = true :=
      (hstructure'.trans hstructure).symm.trans hg
    rcases hkept.taken_new hframes hf hd hlt with h | h
    · exact hkeeps (hnew.trans h)
    · exact htakes (hintermediate.trans h) (hstructure.trans hf)
  · exact nomatch heq

theorem Kept.promoted (hkept : m.Kept) (e : PipelineEvent) : m.Promoted e := by
  intro number f hfate hf d hd hlt
  unfold Pipeline.step at hfate
  cases e with
  | outputPartialDecodeBuffers => exact nomatch hfate
  | discardQueuedDecodes => exact nomatch hfate
  | releaseReferenceFrame index => exact nomatch hfate
  | parsed f' outcome =>
    unfold Pipeline.processParseToDecode at hfate
    cases outcome with
    | withoutMetaData => exact nomatch hfate
    | discarded => exact nomatch hfate
    | input refused =>
      dsimp only at hfate
      split at hfate
      · exact nomatch hfate
      · split at hfate <;> exact nomatch hfate
  | extract met =>
    unfold Pipeline.intermediateProcess at hfate
    dsimp only at hfate
    cases hchain : m.pipeline.chain with
    | nil => rw [hchain] at hfate; exact nomatch hfate
    | cons action chain =>
      rw [hchain] at hfate
      cases action with
      | callOutputPartialDecodeBuffers => exact nomatch hfate
      | callDiscardQueuedDecodes => exact nomatch hfate
      | callReleaseReferenceFrame index => exact nomatch hfate
      | passOnFrame number' f' =>
        have hframes := frames_cons (.passOnFrame number' f') hchain rfl
        dsimp only at hfate
        split at hfate
        · exact nomatch hfate
        · exact hkept.promoted_passOnFrame (s := { m.pipeline with chain }) hframes rfl rfl rfl hfate
            hf hd hlt
      | passOnPreProcessedFrame number' f' =>
        have hframes := frames_cons (.passOnPreProcessedFrame number' f') hchain rfl
        dsimp only at hfate
        split at hfate
        · exact nomatch hfate
        · exact hkept.promoted_passOnFrame (s := { m.pipeline with chain })
            (g := { f' with codedDataLength := 0 }) hframes rfl rfl rfl hfate hf hd hlt

theorem run_promoted (events : List PipelineEvent) :
    ∀ {m : Promotions}, m.Kept → Along step Ok m events → Along step Promoted m events := by
  induction events with
  | nil => intro m _ _; trivial
  | cons e events ih =>
    intro m hkept hok
    exact ⟨hkept.promoted e, ih (hkept.step hok.1) hok.2⟩

/-- **New stream parameters survive the frame they came with**, in every run from
an empty chain in which such a frame keeps its meta data and is not left ahead of
its input, but while new stream parameters are remembered. -/
theorem promotion_complete {s : Pipeline} (hempty : s.chain = []) {events : List PipelineEvent}
    (hok : Along step Ok ⟨s, [], []⟩ events) : Along step Promoted ⟨s, [], []⟩ events := by
  refine run_promoted events ⟨?_, ?_, (fun d hd => nomatch hd), fun d hd => nomatch hd.1⟩ hok
  · show s.frames.Pairwise _
    unfold Pipeline.frames
    rw [hempty]
    exact List.Pairwise.nil
  · intro e he
    unfold Pipeline.frames at he
    rw [hempty] at he
    exact nomatch he

/-! ## A frame whose pre-processing failed -/

/-- The processes as they start. -/
def started : Pipeline where
  promoteParsed := false
  promoteIntermediate := false
  chain := []
  discardFramesInPreprocessorChain := false
  forceStreamParameterReload := false
  arrived := 0

/-- A frame to decode. -/
def frameToDecode (newStreamParameters : Bool) : CodedFrame where
  newStreamParameters := newStreamParameters
  streamParameterStructure := true
  newFrameParameters := true
  decodeFrameIndex := some 0
  codedDataLength := 100

/-- The pre-processor gives an entry back, with the status and the input of it. -/
def met (badStatus : Bool) (failure : Option InputFailure) : Met :=
  ⟨false, true, badStatus, false, true, failure⟩

/-- The first frame has new stream parameters, and the second is decoded without. -/
theorem promotion_lost :
    ¬ Along step Promoted ⟨started, [], []⟩
      [.parsed (frameToDecode true) (.input false), .parsed (frameToDecode false) (.input false),
        .extract (met true none), .extract (met false none)] := by
  intro h
  have hnew := h.2.2.2.1 1 _ rfl rfl 0 ⟨List.mem_cons_self, fun a ha => nomatch ha⟩ Nat.zero_lt_one
  exact nomatch hnew

/-- One that is discarded in the first process, and one that is not decoded. -/
theorem promotion_complete_dropped :
    Along step Promoted ⟨started, [], []⟩
      [.parsed (frameToDecode true) .discarded, .parsed (frameToDecode false) (.input false),
        .parsed (frameToDecode false) (.input false), .extract (met false (some .decode)),
        .extract (met false none)] := by
  refine promotion_complete rfl ⟨trivial, trivial, trivial, ?_, ?_, trivial⟩
  · intro action haction hleaves
    obtain rfl := Option.some.inj haction
    exact nomatch hleaves
  · intro action haction hleaves
    obtain rfl := Option.some.inj haction
    exact nomatch hleaves

end Promotions

end Duckbox.Codec
