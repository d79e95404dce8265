import Duckbox.Player.ControlMessagesOrder
import Duckbox.Player.DecodeToManifest

/-!
# In sequence control messages of two processes

`ProcessParseToDecode` takes frames as they were collated, `ProcessDecodeToManifest`
as the re-ordering loop lets them go. The latter renames their sequence numbers,
so that a message is not performed while an earlier frame waits to be displayed:
the number that applies is the highest seen, but no higher than the lowest that
was accumulated.

Both perform messages once, in order and not early, in runs that meet three
conditions (`inSequence`): no message is put into a slot that was freed in front
of one that waits (`Behind`); what is performed as it arrives has its point
reached by the frame before (`OnTime`), which for messages that name a sequence
number is decided by the highest one seen, not by the one that applied, and in
`ProcessParseToDecode` for those that name a time as well; and times are valid.
-/

namespace Duckbox.Player

open Duckbox.Lib

/-- `PLAYER_MAX_PTOD_MESSAGES`. -/
abbrev playerMaxPtoDMessages : Nat := 4

/-- `PLAYER_MAX_DTOM_MESSAGES`. -/
abbrev playerMaxDtoMMessages : Nat := 4

/-- What a process does with a message that arrives suits the point it names. -/
def Control.OnTime {n : Nat} (c : Control n) (sequenceType : SequenceType) (sequenceValue : Nat)
    (processNow : Bool) : Prop :=
  if processNow then (c.next sequenceType sequenceValue).Due c.reached
  else (c.tableOf sequenceType).Behind

instance Message.Due.decidable (m : Message) (r : Reached) : Decidable (m.Due r) := by
  unfold Message.Due
  cases m.sequenceType <;> infer_instance

instance Control.OnTime.decidable {n : Nat} (c : Control n) (sequenceType : SequenceType)
    (sequenceValue : Nat) (processNow : Bool) :
    Decidable (c.OnTime sequenceType sequenceValue processNow) :=
  inferInstanceAs (Decidable (if processNow then _ else _))

/-! ## Parse to decode -/

/-- What `ParsedFrameRing` gives. -/
inductive ParsedBuffer where
  | codedFrame (sequenceNumber : Nat)
  | controlStructure (sequenceType : SequenceType) (sequenceValue : Nat)

/-- The locals of `ProcessParseToDecode`. -/
structure ParseToDecodeControl where
  sequenceNumber : Nat
  maximumActualSequenceNumberSeen : Nat
  control : Control playerMaxPtoDMessages

namespace ParseToDecodeControl

def started : ParseToDecodeControl where
  sequenceNumber := invalidSequenceValue
  maximumActualSequenceNumberSeen := 0
  control := .started

/-- `ProcessNow`. -/
def processNow (p : ParseToDecodeControl) (sequenceType : SequenceType) (sequenceValue : Nat) :
    Bool :=
  decide (sequenceType = .immediate) ||
    p.sequenceNumber != invalidSequenceValue &&
      decide (sequenceValue ≤ p.maximumActualSequenceNumberSeen)

/-- The main loop, for one buffer. -/
def step (p : ParseToDecodeControl) : ParsedBuffer → ParseToDecodeControl
  | .codedFrame sequenceNumber =>
    { sequenceNumber := sequenceNumber
      maximumActualSequenceNumberSeen := max sequenceNumber p.maximumActualSequenceNumberSeen
      control := p.control.frame sequenceNumber invalidTime }
  | .controlStructure sequenceType sequenceValue =>
    { p with
      control := p.control.receive sequenceType sequenceValue
        (p.processNow sequenceType sequenceValue) }

/-- Frames have sequence numbers, and messages name them. -/
def Ok (p : ParseToDecodeControl) : ParsedBuffer → Prop
  | .codedFrame sequenceNumber => sequenceNumber ≠ invalidSequenceValue
  | .controlStructure sequenceType sequenceValue =>
    sequenceType ≠ .beforePlaybackTime ∧ sequenceType ≠ .afterPlaybackTime ∧
      p.control.OnTime sequenceType sequenceValue (p.processNow sequenceType sequenceValue)

instance Ok.decidable (p : ParseToDecodeControl) : DecidablePred p.Ok
  | .codedFrame _ => inferInstanceAs (Decidable (_ ≠ _))
  | .controlStructure _ _ => inferInstanceAs (Decidable (_ ∧ _ ∧ _))

end ParseToDecodeControl

/-! ## Decode to manifest -/

/-- What the process reads of a frame. -/
structure FrameData (φ : Type) where
  sequenceNumber : φ → Nat
  nativePlaybackTime : φ → Nat

/-- What happens around the re-ordering loop or in it, and what is in a control
structure or a marker that is extracted. -/
structure Happening (φ : Type) where
  operation : Operation φ
  sequenceType : SequenceType
  sequenceValue : Nat
  markerSequenceNumber : Nat
  deriving DecidableEq

/-- The re-ordering loop and the locals for the control messages. -/
structure DecodeToManifestControl (φ : Type) (n : Nat) where
  reordering : Reordering φ n
  sequenceNumber : Nat
  time : Nat
  minimumSequenceNumberAccumulated : Nat
  maximumActualSequenceNumberSeen : Nat
  /-- `SequenceNumberStructure->Value` of the marker. -/
  markerSequenceNumber : Nat
  control : Control playerMaxDtoMMessages

namespace DecodeToManifestControl

variable {φ : Type} {n : Nat}

def started (collapseHolesInDisplayIndices : φ → Bool) : DecodeToManifestControl φ n where
  reordering := .started collapseHolesInDisplayIndices
  sequenceNumber := invalidSequenceValue
  time := invalidTime
  minimumSequenceNumberAccumulated := 2 ^ 64 - 1
  maximumActualSequenceNumberSeen := 0
  markerSequenceNumber := invalidSequenceValue
  control := .started

/-- `MinumumSequenceNumberAccumulated` of a scan, the buffer that leaves included. -/
def minimumAccumulated (data : FrameData φ) (s : Stream φ n) : Nat :=
  if s.accumulatedBufferTableOccupancy = 0 then 2 ^ 64 - 1
  else (contents s.accumulatedBufferTable).foldl (fun low f => min low (data.sequenceNumber f))
    (2 ^ 64 - 1)

/-- A buffer after frame re-ordering: "First calculate the sequence number that
applies to this frame". -/
def deal (data : FrameData φ) (d : DecodeToManifestControl φ n) (f : φ) :
    DecodeToManifestControl φ n :=
  let maximum := max (data.sequenceNumber f) d.maximumActualSequenceNumberSeen
  let sequenceNumber := min maximum d.minimumSequenceNumberAccumulated
  let time := data.nativePlaybackTime f
  { d with
    sequenceNumber := sequenceNumber
    time := time
    maximumActualSequenceNumberSeen := maximum
    control := d.control.frame sequenceNumber time }

/-- "If we get here with a marker frame". -/
def passMarker (d : DecodeToManifestControl φ n) : DecodeToManifestControl φ n :=
  { d with
    sequenceNumber := d.markerSequenceNumber
    maximumActualSequenceNumberSeen :=
      max d.markerSequenceNumber d.maximumActualSequenceNumberSeen
    control := d.control.frame d.markerSequenceNumber d.time }

/-- `ProcessNow`. -/
def processNow (d : DecodeToManifestControl φ n) (sequenceType : SequenceType)
    (sequenceValue : Nat) : Bool :=
  decide (sequenceType = .immediate) ||
    if sequenceType.sequenceCheck then
      d.sequenceNumber != invalidSequenceValue &&
        decide (sequenceValue ≤ d.maximumActualSequenceNumberSeen)
    else d.time != invalidSequenceValue && decide (sequenceValue ≤ d.time)

/-- "Deal with a player control structure". -/
def receive (d : DecodeToManifestControl φ n) (sequenceType : SequenceType)
    (sequenceValue : Nat) : DecodeToManifestControl φ n :=
  { d with
    control := d.control.receive sequenceType sequenceValue
      (d.processNow sequenceType sequenceValue) }

/-- "Do we want to insert this in the table", and there is room. -/
def accumulates (s : Stream φ n) (f : φ) : Bool :=
  decide (s.desiredFrameIndex < s.displayFrameIndex f) &&
    (firstFree s.accumulatedBufferTable).isSome

/-- The next step of the loop, and what follows it. -/
def next (data : FrameData φ) (d : DecodeToManifestControl φ n) (h : Happening φ)
    (surroundings : Surroundings φ) : DecodeToManifestControl φ n :=
  let s := d.reordering.stream
  let e := { d with reordering := d.reordering.next surroundings }
  match d.reordering.point with
  | .scan =>
    let e := { e with minimumSequenceNumberAccumulated := minimumAccumulated data s }
    match s.nextDisplayFrame surroundings.direction surroundings.possibleDecodeBuffers with
    | some (_, f) => e.deal data f
    | none => e
  | .check => e
  | .extract =>
    if s.markerFrameBuffer then e.passMarker
    else
      match surroundings.extracted with
      | .nothing => e
      | .controlStructure => e.receive h.sequenceType h.sequenceValue
      | .marker =>
        { e with
          sequenceNumber := h.markerSequenceNumber
          markerSequenceNumber := h.markerSequenceNumber }
      | .frame f =>
        if accumulates s f then { e with sequenceNumber := data.sequenceNumber f }
        else e.deal data f

/-- One step of the system. -/
def step [DecidableEq φ] (data : FrameData φ) (d : DecodeToManifestControl φ n)
    (h : Happening φ) : DecodeToManifestControl φ n :=
  match h.operation with
  | .next surroundings => d.next data h surroundings
  | op => { d with reordering := d.reordering.step op }

/-- A frame has a sequence number and its time is specified, and a message suits
its point. -/
def Suits (data : FrameData φ) (d : DecodeToManifestControl φ n) (h : Happening φ) :
    Extracted φ → Prop
  | .nothing => True
  | .controlStructure =>
    d.control.OnTime h.sequenceType h.sequenceValue (d.processNow h.sequenceType h.sequenceValue)
  | .marker => h.markerSequenceNumber ≠ invalidSequenceValue
  | .frame f =>
    data.sequenceNumber f ≠ invalidSequenceValue ∧ data.nativePlaybackTime f ≠ unspecifiedTime

/-- What is extracted suits, and what the scan lets go has its time specified. -/
def Ok (data : FrameData φ) (d : DecodeToManifestControl φ n) (h : Happening φ) : Prop :=
  match h.operation with
  | .next surroundings =>
    (d.reordering.point = .scan → ∀ low ∈ d.reordering.stream.nextDisplayFrame
      surroundings.direction surroundings.possibleDecodeBuffers,
        data.nativePlaybackTime low.2 ≠ unspecifiedTime) ∧
    (d.reordering.point = .extract → d.reordering.stream.markerFrameBuffer = false →
      d.Suits data h surroundings.extracted)
  | _ => True

instance Suits.decidable (data : FrameData φ) (d : DecodeToManifestControl φ n)
    (h : Happening φ) : DecidablePred (d.Suits data h)
  | .nothing => inferInstanceAs (Decidable True)
  | .controlStructure => inferInstanceAs (Decidable (Control.OnTime _ _ _ _))
  | .marker => inferInstanceAs (Decidable (_ ≠ _))
  | .frame _ => inferInstanceAs (Decidable (_ ∧ _))

instance Ok.decidable (data : FrameData φ) (d : DecodeToManifestControl φ n) :
    DecidablePred (d.Ok data) := by
  intro h
  unfold Ok
  split <;> infer_instance

end DecodeToManifestControl

theorem Control.receive_reached {n : Nat} (c : Control n) (sequenceType : SequenceType)
    (sequenceValue : Nat) (processNow : Bool) :
    (c.receive sequenceType sequenceValue processNow).reached = c.reached := by
  unfold Control.receive
  dsimp only
  split
  · rfl
  · split <;> split <;> rfl

/-! ## Parse to decode: the runs -/

namespace ParseToDecodeControl

/-- The accounts, and how the locals go with what has been reached. -/
structure Inv (p : ParseToDecodeControl) : Prop where
  control : p.control.Inv
  sequenceNumber : ∀ s ∈ p.control.reached.sequenceNumber,
    s ≤ p.maximumActualSequenceNumberSeen ∧ p.sequenceNumber ≠ invalidSequenceValue

theorem inv_started : started.Inv :=
  ⟨Control.inv_started, fun s hs => absurd hs (by simp [started, Control.started])⟩

theorem Inv.step {p : ParseToDecodeControl} (hp : p.Inv) {b : ParsedBuffer} (hok : p.Ok b) :
    (p.step b).Inv := by
  cases b with
  | codedFrame sequenceNumber =>
    have hvalid : sequenceNumber ≠ invalidSequenceValue := hok
    refine ⟨hp.control.frame (by decide), fun s hs => ?_⟩
    have hs : s ∈ (Reached.of sequenceNumber invalidTime).sequenceNumber := hs
    unfold Reached.of at hs
    rw [if_neg hvalid] at hs
    obtain rfl := Option.some.inj hs
    exact ⟨Nat.le_max_left _ _, hvalid⟩
  | controlStructure sequenceType sequenceValue =>
    obtain ⟨hbefore, hafter, htime⟩ := hok
    unfold Control.OnTime at htime
    refine ⟨hp.control.receive (fun hnow => ?_) fun hlater => ⟨fun hdue => ?_, ?_⟩, ?_⟩
    · rwa [if_pos hnow] at htime
    · -- what has been reached is no higher than the highest number seen
      have hnot : p.processNow sequenceType sequenceValue = true := by
        unfold processNow
        unfold Message.Due Control.next at hdue
        cases sequenceType with
        | immediate => rfl
        | beforeSequenceNumber =>
          obtain ⟨s, hs, hle⟩ := hdue
          obtain ⟨hmax, hvalid⟩ := hp.sequenceNumber s hs
          simp [hvalid, Nat.le_trans hle hmax]
        | afterSequenceNumber =>
          obtain ⟨s, hs, hle⟩ := hdue
          obtain ⟨hmax, hvalid⟩ := hp.sequenceNumber s hs
          simp [hvalid, Nat.le_trans hle hmax]
        | beforePlaybackTime => exact absurd rfl hbefore
        | afterPlaybackTime => exact absurd rfl hafter
      rw [hlater] at hnot
      exact absurd hnot (by decide)
    · rwa [if_neg (by rw [hlater]; decide)] at htime
    · unfold ParseToDecodeControl.step
      simp only [Control.receive_reached]
      exact hp.sequenceNumber

end ParseToDecodeControl

/-! ## Decode to manifest: the runs -/

namespace DecodeToManifestControl

variable {φ : Type} {n : Nat}

/-- The accounts, and how the locals go with what has been reached. -/
structure Inv (d : DecodeToManifestControl φ n) : Prop where
  control : d.control.Inv
  sequenceNumber : ∀ s ∈ d.control.reached.sequenceNumber,
    s ≤ d.maximumActualSequenceNumberSeen ∧ d.sequenceNumber ≠ invalidSequenceValue
  reached : d.control.reached.time = (Reached.of d.sequenceNumber d.time).time
  time : d.time ≠ unspecifiedTime

variable {data : FrameData φ} {d : DecodeToManifestControl φ n}

theorem inv_started (collapse : φ → Bool) :
    (started collapse : DecodeToManifestControl φ n).Inv :=
  ⟨Control.inv_started, fun s hs => absurd hs (by simp [started, Control.started]), rfl,
    (by decide : invalidTime ≠ unspecifiedTime)⟩

theorem Inv.read (hd : d.Inv) {sequenceNumber : Nat} (hvalid : sequenceNumber ≠ invalidSequenceValue)
    (reordering : Reordering φ n) (minimum marker : Nat) :
    ({ d with
      reordering := reordering
      sequenceNumber := sequenceNumber
      minimumSequenceNumberAccumulated := minimum
      markerSequenceNumber := marker } : DecodeToManifestControl φ n).Inv :=
  ⟨hd.control, fun s hs => ⟨(hd.sequenceNumber s hs).1, hvalid⟩, hd.reached, hd.time⟩

theorem Inv.move (hd : d.Inv) (reordering : Reordering φ n) (minimum : Nat) :
    ({ d with
      reordering := reordering
      minimumSequenceNumberAccumulated := minimum } : DecodeToManifestControl φ n).Inv :=
  ⟨hd.control, hd.sequenceNumber, hd.reached, hd.time⟩

theorem Inv.deal (hd : d.Inv) {f : φ} (htime : data.nativePlaybackTime f ≠ unspecifiedTime) :
    (d.deal data f).Inv := by
  refine ⟨hd.control.frame htime, fun s hs => ?_, rfl, htime⟩
  have hs : s ∈ (Reached.of (min (max (data.sequenceNumber f) d.maximumActualSequenceNumberSeen)
    d.minimumSequenceNumberAccumulated) (data.nativePlaybackTime f)).sequenceNumber := hs
  unfold Reached.of at hs
  dsimp only at hs
  split at hs
  · exact absurd hs (by simp)
  · next hvalid =>
    obtain rfl := Option.some.inj hs
    exact ⟨Nat.min_le_left _ _, hvalid⟩

theorem Inv.passMarker (hd : d.Inv) : d.passMarker.Inv := by
  refine ⟨hd.control.frame hd.time, fun s hs => ?_, rfl, hd.time⟩
  have hs : s ∈ (Reached.of d.markerSequenceNumber d.time).sequenceNumber := hs
  unfold Reached.of at hs
  dsimp only at hs
  split at hs
  · exact absurd hs (by simp)
  · next hvalid =>
    obtain rfl := Option.some.inj hs
    exact ⟨Nat.le_max_left _ _, hvalid⟩

theorem Inv.processNow_of_due (hd : d.Inv) {sequenceType : SequenceType} {sequenceValue : Nat}
    (hdue : (d.control.next sequenceType sequenceValue).Due d.control.reached) :
    d.processNow sequenceType sequenceValue = true := by
  unfold processNow
  unfold Message.Due Control.next at hdue
  cases sequenceType with
  | immediate => rfl
  | beforeSequenceNumber | afterSequenceNumber =>
    obtain ⟨s, hs, hle⟩ := hdue
    obtain ⟨hmax, hvalid⟩ := hd.sequenceNumber s hs
    simp [SequenceType.sequenceCheck, hvalid, Nat.le_trans hle hmax]
  | beforePlaybackTime | afterPlaybackTime =>
    obtain ⟨t, ht, hle⟩ := hdue
    rw [hd.reached] at ht
    unfold Reached.of at ht
    dsimp only at ht
    split at ht
    · exact absurd ht (by simp)
    · next hvalid =>
      obtain rfl := Option.some.inj ht
      simp_all [SequenceType.sequenceCheck]

theorem Inv.receive (hd : d.Inv) {sequenceType : SequenceType} {sequenceValue : Nat}
    (htime : d.control.OnTime sequenceType sequenceValue
      (d.processNow sequenceType sequenceValue)) :
    (d.receive sequenceType sequenceValue).Inv := by
  unfold Control.OnTime at htime
  refine ⟨hd.control.receive (fun hnow => ?_) fun hlater => ⟨fun hdue => ?_, ?_⟩, ?_, ?_, hd.time⟩
  · rwa [if_pos hnow] at htime
  · have hnow := hd.processNow_of_due hdue
    rw [hlater] at hnow
    exact absurd hnow (by decide)
  · rwa [if_neg (by rw [hlater]; decide)] at htime
  · unfold DecodeToManifestControl.receive
    simp only [Control.receive_reached]
    exact hd.sequenceNumber
  · unfold DecodeToManifestControl.receive
    simp only [Control.receive_reached]
    exact hd.reached

theorem Inv.step [DecidableEq φ] (hd : d.Inv) {h : Happening φ} (hok : d.Ok data h) :
    (d.step data h).Inv := by
  unfold DecodeToManifestControl.step
  unfold Ok at hok
  cases hop : h.operation with
  | assign f => exact hd.move _ _
  | record f => exact hd.move _ _
  | drain => exact hd.move _ _
  | markerParsed => exact hd.move _ _
  | next surroundings =>
    rw [hop] at hok
    obtain ⟨hscan, hextract⟩ := hok
    show (d.next data h surroundings).Inv
    unfold DecodeToManifestControl.next
    dsimp only
    split
    · next hpoint =>
      split
      · next i f hnext => exact (hd.move _ _).deal (hscan hpoint _ hnext)
      · exact hd.move _ _
    · exact hd.move _ _
    · next hpoint =>
      split
      · exact (hd.move _ _).passMarker
      · next hmarker =>
        have hsuits := hextract hpoint (Bool.eq_false_iff.mpr hmarker)
        split
        · exact hd.move _ _
        · next hx =>
          rw [hx] at hsuits
          exact (hd.move _ _).receive hsuits
        · next hx =>
          rw [hx] at hsuits
          exact hd.read hsuits _ _ _
        · next f hx =>
          rw [hx] at hsuits
          split
          · exact hd.read hsuits.1 _ _ _
          · exact (hd.move _ _).deal hsuits.2

end DecodeToManifestControl

/-- **In sequence**: in runs that meet the conditions both processes perform each
message once, unless its table is full, as soon as its point has been reached and
no earlier, and those of one point in the order in which they were issued. -/
theorem inSequence {φ : Type} {n : Nat} [DecidableEq φ] (data : FrameData φ) (collapse : φ → Bool)
    {hs : List (Happening φ)} {bs : List ParsedBuffer}
    (hdecodeToManifest : Along (DecodeToManifestControl.step data)
      (DecodeToManifestControl.Ok data) (.started collapse : DecodeToManifestControl φ n) hs)
    (hparseToDecode : Along ParseToDecodeControl.step ParseToDecodeControl.Ok .started bs) :
    (hs.foldl (DecodeToManifestControl.step data)
        (.started collapse : DecodeToManifestControl φ n)).control.InSequence ∧
      (bs.foldl ParseToDecodeControl.step .started).control.InSequence := by
  have hd := foldl_inv (P := DecodeToManifestControl.Inv) (fun hok hd => hd.step hok) hs
    hdecodeToManifest (DecodeToManifestControl.inv_started collapse)
  have hp := foldl_inv (P := ParseToDecodeControl.Inv) (fun hok hp => hp.step hok) bs
    hparseToDecode ParseToDecodeControl.inv_started
  exact ⟨hd.control.keepsSequence, hp.control.keepsSequence⟩

/-- Frames whose sequence numbers and times count them. -/
def countedFrames : FrameData (Fin 4) := ⟨fun f => f, fun f => f⟩

/-- The re-ordering loop goes on to the next buffer of `DecodedFrameRing`. -/
def nextBuffer (x : Extracted (Fin 4)) : List (Happening (Fin 4)) :=
  let around : Extracted (Fin 4) → Happening (Fin 4) :=
    fun x => ⟨.next ⟨.playForward, 8, x⟩, .immediate, 0, 0⟩
  [around .nothing, around .nothing, around x]

/-- The next buffer is a control structure. -/
def nextMessage (sequenceType : SequenceType) (sequenceValue : Nat) : List (Happening (Fin 4)) :=
  let around : Extracted (Fin 4) → Happening (Fin 4) :=
    fun x => ⟨.next ⟨.playForward, 8, x⟩, sequenceType, sequenceValue, 0⟩
  [around .nothing, around .nothing, around .controlStructure]

/-- The parser gives frame `f` the next display index. -/
def index (f : Fin 4) : Happening (Fin 4) := ⟨.assign f, .immediate, 0, 0⟩

/-- Two messages for one frame and one for a time, and two around a frame that is
parsed. -/
theorem inSequence_frames :
    let hs := index 0 :: index 1 :: (nextMessage .beforeSequenceNumber 1
      ++ nextMessage .beforeSequenceNumber 1 ++ nextMessage .afterPlaybackTime 1
      ++ nextBuffer (.frame 0) ++ nextBuffer (.frame 1))
    let bs : List ParsedBuffer := [.controlStructure .beforeSequenceNumber 0,
      .controlStructure .afterSequenceNumber 1, .codedFrame 0, .codedFrame 1]
    (hs.foldl (DecodeToManifestControl.step countedFrames)
        (.started (fun _ => false) : DecodeToManifestControl (Fin 4) 4)).control.InSequence ∧
      (bs.foldl ParseToDecodeControl.step .started).control.InSequence := by
  intro hs bs
  exact inSequence countedFrames (fun _ => false) (by decide +kernel) (by decide +kernel)

/-- A message is stored in a slot that was freed in front of an earlier one for the
same frame; a message is performed when the highest sequence number seen has come
to its own, but not the one that applies; a message that names a time is performed
when a sequence number has come to it. -/
theorem inSequence_fails :
    let display := fun hs => (List.foldl (DecodeToManifestControl.step countedFrames)
      (.started (fun _ => false) : DecodeToManifestControl (Fin 4) 4) hs).control
    ¬ (display (index 0 :: index 1 :: index 2 :: (nextMessage .beforeSequenceNumber 1
      ++ nextMessage .beforeSequenceNumber 2 ++ nextBuffer (.frame 0) ++ nextBuffer (.frame 1)
      ++ nextMessage .beforeSequenceNumber 2 ++ nextBuffer (.frame 2)))).InSequence ∧
    ¬ (display (index 0 :: index 2 :: index 3 :: index 1 :: (nextBuffer (.frame 0)
      ++ nextBuffer (.frame 1) ++ nextBuffer (.frame 2)
      ++ nextMessage .beforeSequenceNumber 2))).InSequence ∧
    ¬ (List.foldl ParseToDecodeControl.step .started [.codedFrame 7,
      .controlStructure .beforePlaybackTime 5]).control.InSequence := by
  refine ⟨fun h => ?_, fun h => ?_, fun h => ?_⟩
  · exact absurd h.inOrder (by decide +kernel)
  · exact absurd h.reached (by decide +kernel)
  · exact absurd h.reached (by decide +kernel)

end Duckbox.Player
