import Duckbox.H264.StreamParametersHeld

/-!
# The check for new stream parameters

`NewStreamParametersCheck` on the memory of the parameter sets. It saves copies
of the three sets of a slice whenever it finds them different, and a part that
has not been read again, and that is where it was, is not compared.

> `Kept m`: the copies are the sets in force, or as `Reset` leaves them, and a
> part that would not be compared is the one in force.

The first call after `Reset` finds no stream parameters and does not save the
copies. The next one then does: the picture parameter set of a slice points to a
sequence parameter set, and the copy that `Reset` cleared does not.

What is not compared is in force unless a sequence parameter set is read into
the buffer that the stream parameters point to, since the buffer is cleared with
the extension in it and only `ReadNewSPS` is set
(`newStreamParametersCheck_extension_cleared`). The frame parser lets go of that
buffer when the picture parameter set of a slice header is replaced in the table
before a frame is committed with that header (`extension_cleared_in_use`).
-/

namespace Duckbox.H264.Coded

open Duckbox.Lib Duckbox.FrameParser

/-! ## The check -/

/-- Where the sets of a slice are; an extension is in the buffer of its
sequence parameter set. -/
structure SetAddresses (n : Nat) where
  sequence : Fin n
  picture : Fin n
deriving DecidableEq

def SetAddresses.pointers {n : Nat} (a : SetAddresses n) : SetPointers n :=
  ⟨some a.sequence, some a.picture⟩

/-- The contents of three sets. -/
structure SetContents (n : Nat) where
  sequence : SequenceParameterSetHeader
  extension : SequenceParameterSetExtensionHeader
  picture : PictureImage n
deriving DecidableEq

/-- The memory of the parameter sets, and the members of the frame parser that
the check uses. -/
structure Checker (n : Nat) where
  sequenceIn : Fin n → SequenceParameterSetHeader
  extensionIn : Fin n → SequenceParameterSetExtensionHeader
  pictureIn : Fin n → PictureImage n
  readNewSPS : Bool
  readNewSPSExtension : Bool
  readNewPPS : Bool
  /-- `CopyOfSequenceParameterSet` and its like. -/
  copies : SetContents n
  /-- What `StreamParameters` points to. -/
  streamParameters : Option (SetPointers n)

namespace Checker

variable {n : Nat}

/-- The sets at the addresses of a slice. -/
def contents (s : Checker n) (a : SetAddresses n) : SetContents n :=
  ⟨s.sequenceIn a.sequence, s.extensionIn a.sequence, s.pictureIn a.picture⟩

/-- No stream parameters yet, or a part that is compared differs from its copy. -/
def differs (s : Checker n) (a : SetAddresses n) : Bool :=
  match s.streamParameters with
  | none => true
  | some p =>
    ((s.readNewSPS || p.sequence != some a.sequence)
        && s.copies.sequence != s.sequenceIn a.sequence)
      || ((s.readNewSPSExtension || p.sequence != some a.sequence)
        && s.copies.extension != s.extensionIn a.sequence)
      || ((s.readNewPPS || p.picture != some a.picture)
        && s.copies.picture != s.pictureIn a.picture)

/-- `NewStreamParametersCheck`. -/
def newStreamParametersCheck (s : Checker n) (a : SetAddresses n) : Bool × Checker n :=
  match s.streamParameters with
  | none => (true, s)
  | some _ =>
    let different := s.differs a
    let s := { s with readNewSPS := false, readNewSPSExtension := false, readNewPPS := false }
    if different then (true, { s with copies := s.contents a })
    else (false, { s with streamParameters := some a.pointers })

/-- `PrepareNewStreamParameters`; `obtained` if `GetNewStreamParameters` gets a
buffer. -/
def prepareNewStreamParameters (s : Checker n) (a : SetAddresses n) (obtained : Bool) :
    Checker n :=
  if obtained then { s with streamParameters := some a.pointers } else s

/-- What `Reset` leaves: it destroys the pools, so no set has been read into a
buffer of the next ones. -/
def reset : Checker n where
  sequenceIn _ := default
  extensionIn _ := default
  pictureIn _ := (none, default)
  readNewSPS := false
  readNewSPSExtension := false
  readNewPPS := false
  copies := ⟨default, default, (none, default)⟩
  streamParameters := none

end Checker

/-- What the frame parser is given: parameter sets with the buffers they are read
into, if there is one, first slices, and resets. -/
inductive SetEvent (n : Nat) where
  | sequenceParameterSet (b : Option (Fin n)) (header : SequenceParameterSetHeader)
  | sequenceParameterSetExtension (b : Option (Fin n))
      (header : SequenceParameterSetExtensionHeader)
  | pictureParameterSet (b : Option (Fin n)) (image : PictureImage n)
  | slice (sets : SetAddresses n) (obtained : Bool)
  | reset
  | registerOutputBufferRing

namespace Checker

variable {n : Nat}

/-- A set is read into a buffer, if there is one. -/
def write {α : Type} (memory : Fin n → α) (b : Option (Fin n)) (value : α) : Fin n → α :=
  match b with
  | none => memory
  | some b => Function.update memory b value

/-- One event. The buffer of a sequence parameter set is cleared whole before it
is read. -/
def step (s : Checker n) : SetEvent n → Checker n
  | .sequenceParameterSet b header =>
    { s with
      sequenceIn := write s.sequenceIn b header
      extensionIn := write s.extensionIn b default
      readNewSPS := true }
  | .sequenceParameterSetExtension b header =>
    { s with
      extensionIn := write s.extensionIn b header
      readNewSPSExtension := true }
  | .pictureParameterSet b image =>
    { s with
      pictureIn := write s.pictureIn b image
      readNewPPS := true }
  | .slice a obtained =>
    let (new, s) := s.newStreamParametersCheck a
    if new then s.prepareNewStreamParameters a obtained else s
  | .reset => reset
  | .registerOutputBufferRing => { s with streamParameters := none }

end Checker

/-! ## The frame parser's check -/

namespace Parser

variable {n m : Nat}

/-- The frame parser over a memory of the sets. -/
def checker (s : Parser n m) (sequenceIn : Fin n → SequenceParameterSetHeader)
    (pictureIn : Fin n → PictureImage n) : Checker n where
  sequenceIn := sequenceIn
  extensionIn := s.extension
  pictureIn := pictureIn
  readNewSPS := s.readNewSPS
  readNewSPSExtension := s.readNewSPSExtension
  readNewPPS := s.readNewPPS
  copies :=
    { sequence := s.copyOfSequenceParameterSet
      extension := s.copyOfSequenceParameterSetExtension
      picture := s.copyOfPictureParameterSet }
  streamParameters := s.streamParameters.map s.streamParametersIn

theorem newStreamParametersCheck_checker (s : Parser n m) (sets : PictureEntry n)
    {sequenceIn : Fin n → SequenceParameterSetHeader} {pictureIn : Fin n → PictureImage n}
    (hsequence : sequenceIn sets.sequenceBuffer = sets.header.sequenceParameterSet)
    (hpicture : pictureIn sets.buffer = sets.image) :
    (s.checker sequenceIn pictureIn).newStreamParametersCheck ⟨sets.sequenceBuffer, sets.buffer⟩
      = ((s.newStreamParametersCheck sets).1,
        (s.newStreamParametersCheck sets).2.checker sequenceIn pictureIn) := by
  have hdiffers : (s.checker sequenceIn pictureIn).differs ⟨sets.sequenceBuffer, sets.buffer⟩
      = s.differs sets := by
    unfold Checker.differs differs checker
    cases hstream : s.streamParameters with
    | none => rfl
    | some b =>
      dsimp only [Option.map_some]
      rw [hsequence, hpicture]
  unfold Checker.newStreamParametersCheck newStreamParametersCheck
  rw [hdiffers]
  cases hstream : s.streamParameters with
  | none => simp [checker, hstream]
  | some b =>
    cases s.differs sets with
    | true => simp [checker, hstream, Checker.contents, hsequence, hpicture]
    | false => simp [checker, hstream, SetAddresses.pointers, PictureEntry.pointers]

end Parser

/-! ## What is in force -/

/-- A run, with the sets of the last check that found them new. -/
structure Monitor (n : Nat) where
  checker : Checker n
  inForce : Option (SetContents n)

namespace Monitor

variable {n : Nat} {m : Monitor n} {a : SetAddresses n}

def step (m : Monitor n) (e : SetEvent n) : Monitor n where
  checker := m.checker.step e
  inForce :=
    match e with
    | .slice a _ =>
      if (m.checker.newStreamParametersCheck a).1 then some (m.checker.contents a) else m.inForce
    | _ => m.inForce

/-- A check that finds nothing new is of the sets in force. -/
def Complete (m : Monitor n) : SetEvent n → Prop
  | .slice a _ =>
    (m.checker.newStreamParametersCheck a).1 = false → m.inForce = some (m.checker.contents a)
  | _ => True

/-- Of a slice: its picture parameter set points to a sequence parameter set, and
there is a buffer when stream parameters in use are renewed. Of a sequence
parameter set: it is not read over an extension that the stream parameters point
to. Of `RegisterOutputBufferRing`: no copies have been saved since `Reset`. -/
def Ok (m : Monitor n) : SetEvent n → Prop
  | .slice a obtained => (m.checker.pictureIn a.picture).1 ≠ none ∧
      (m.checker.streamParameters.isSome = true → obtained = true)
  | .sequenceParameterSet (some b) _ => ∀ p ∈ m.checker.streamParameters, p.sequence = some b →
      m.checker.readNewSPSExtension = true ∨ m.checker.extensionIn b = default
  | .registerOutputBufferRing => m.checker.copies.picture.1 = none
  | _ => True

/-- The parts that would not be compared, those that have not been read again,
where the stream parameters point to them, are in force. -/
def PartsKept (m : Monitor n) : Prop :=
  ∀ p ∈ m.checker.streamParameters, ∃ f, m.inForce = some f ∧
    (m.checker.readNewSPS = false → ∀ b, p.sequence = some b →
      m.checker.sequenceIn b = f.sequence) ∧
    (m.checker.readNewSPSExtension = false → ∀ b, p.sequence = some b →
      m.checker.extensionIn b = f.extension) ∧
    (m.checker.readNewPPS = false → ∀ b, p.picture = some b →
      m.checker.pictureIn b = f.picture)

/-- What holds between events. -/
structure Kept (m : Monitor n) : Prop where
  copies : m.checker.streamParameters.isSome = true ∧ m.inForce = some m.checker.copies ∨
    m.checker.copies.picture.1 = none
  /-- Before copies are saved, `ReadNewPPS` is set by the first set that is read. -/
  unsaved : m.checker.copies.picture.1 = none →
    m.checker.readNewPPS = true ∨ ∀ b, (m.checker.pictureIn b).1 = none
  parts : m.PartsKept

theorem kept_reset (inForce : Option (SetContents n)) : Kept ⟨Checker.reset, inForce⟩ where
  copies := .inr rfl
  unsaved _ := .inr fun _ => rfl
  parts _ hp := nomatch hp

/-! ## One check -/

private theorem eq_of_passed {α β : Type} [BEq α] [LawfulBEq α] [DecidableEq β] {read : Bool}
    {pointer : Option β} {b : β} {copy now : α}
    (hpassed : ((read || pointer != some b) && copy != now) = false)
    (hkept : read = false → pointer = some b → now = copy) : now = copy := by
  rcases Classical.em (now = copy) with heq | heq
  · exact heq
  · have hne : (copy != now) = true := bne_iff_ne.mpr fun h => heq h.symm
    rw [hne, Bool.and_true, Bool.or_eq_false_iff] at hpassed
    exact hkept hpassed.1 (by simpa using hpassed.2)

theorem newStreamParametersCheck_eq_false {s : Checker n}
    (h : (s.newStreamParametersCheck a).1 = false) :
    ∃ p, s.streamParameters = some p ∧ s.differs a = false := by
  unfold Checker.newStreamParametersCheck at h
  cases hstream : s.streamParameters with
  | none => rw [hstream] at h; exact nomatch h
  | some p =>
    rw [hstream] at h
    refine ⟨p, rfl, ?_⟩
    cases hdiffers : s.differs a with
    | false => rfl
    | true => rw [hdiffers] at h; exact nomatch h

/-- A slice is found different as long as the copies are as `Reset` leaves them. -/
theorem differs_of_unsaved {s : Checker n} (hpointer : (s.pictureIn a.picture).1 ≠ none)
    (hcopies : s.copies.picture.1 = none) (hread : s.readNewPPS = true) : s.differs a = true := by
  unfold Checker.differs
  cases s.streamParameters with
  | none => rfl
  | some p =>
    have hne : s.copies.picture ≠ s.pictureIn a.picture := by
      intro heq
      rw [heq] at hcopies
      exact hpointer hcopies
    simp [hread, hne]

theorem Kept.saved (hkept : m.Kept) (hpointer : (m.checker.pictureIn a.picture).1 ≠ none)
    (hdiffers : m.checker.differs a = false) : m.checker.copies.picture.1 ≠ none := by
  intro hcopies
  rcases hkept.unsaved hcopies with hread | hnone
  · exact Bool.false_ne_true (hdiffers.symm.trans (differs_of_unsaved hpointer hcopies hread))
  · exact hpointer (hnone _)

theorem complete_of_kept (hkept : m.Kept) (hpointer : (m.checker.pictureIn a.picture).1 ≠ none)
    (hfalse : (m.checker.newStreamParametersCheck a).1 = false) :
    m.inForce = some (m.checker.contents a) := by
  obtain ⟨p, hstream, hdiffers⟩ := newStreamParametersCheck_eq_false hfalse
  obtain ⟨-, hcopies⟩ := hkept.copies.resolve_right (hkept.saved hpointer hdiffers)
  obtain ⟨f, hforce, hsequence, hextension, hpicture⟩ := hkept.parts p hstream
  obtain rfl : m.checker.copies = f := Option.some.inj (hcopies.symm.trans hforce)
  unfold Checker.differs at hdiffers
  rw [hstream] at hdiffers
  dsimp only at hdiffers
  rw [Bool.or_eq_false_iff, Bool.or_eq_false_iff] at hdiffers
  obtain ⟨⟨hpassed₁, hpassed₂⟩, hpassed₃⟩ := hdiffers
  have h₁ := eq_of_passed hpassed₁ fun hread hp => hsequence hread _ hp
  have h₂ := eq_of_passed hpassed₂ fun hread hp => hextension hread _ hp
  have h₃ := eq_of_passed hpassed₃ fun hread hp => hpicture hread _ hp
  rw [hcopies]
  unfold Checker.contents
  rw [h₁, h₂, h₃]

/-! ## Runs -/

theorem partsKept_of_pointers {m : Monitor n} (hforce : m.inForce = some (m.checker.contents a))
    (hstream : ∀ p ∈ m.checker.streamParameters, p = a.pointers) : m.PartsKept := by
  intro p hp
  obtain rfl := hstream p hp
  refine ⟨_, hforce, fun _ b hb => ?_, fun _ b hb => ?_, fun _ b hb => ?_⟩
  all_goals
    obtain rfl := Option.some.inj hb
    rfl

theorem Kept.slice (hkept : m.Kept) {obtained : Bool} (hok : m.Ok (.slice a obtained)) :
    (m.step (.slice a obtained)).Kept := by
  obtain ⟨hpointer, hobtained⟩ := hok
  have hcomplete := complete_of_kept hkept hpointer
  unfold Monitor.step Checker.step
  cases hstream : m.checker.streamParameters with
  | none =>
    have hcheck : m.checker.newStreamParametersCheck a = (true, m.checker) := by
      unfold Checker.newStreamParametersCheck
      rw [hstream]
    have hcopies : m.checker.copies.picture.1 = none := by
      refine hkept.copies.resolve_left ?_
      rintro ⟨hsome, -⟩
      rw [hstream] at hsome
      exact nomatch hsome
    dsimp only
    rw [hcheck]
    cases obtained with
    | true =>
      exact ⟨.inr hcopies, hkept.unsaved,
        partsKept_of_pointers (a := a) rfl fun p hp => (Option.some.inj hp).symm⟩
    | false =>
      exact ⟨.inr hcopies, hkept.unsaved, fun p hp => nomatch hstream.symm.trans hp⟩
  | some old =>
    obtain rfl : obtained = true := hobtained (by rw [hstream]; rfl)
    cases hdiffers : m.checker.differs a with
    | true =>
      have hcheck : m.checker.newStreamParametersCheck a = (true,
          { m.checker with
            readNewSPS := false
            readNewSPSExtension := false
            readNewPPS := false
            copies := m.checker.contents a
            streamParameters := some old }) := by
        unfold Checker.newStreamParametersCheck
        rw [hstream]
        dsimp only
        rw [hdiffers]
        rfl
      dsimp only
      rw [hcheck]
      exact ⟨.inl ⟨rfl, rfl⟩, fun hcopies => absurd hcopies hpointer,
        partsKept_of_pointers (a := a) rfl fun p hp => (Option.some.inj hp).symm⟩
    | false =>
      have hsaved := hkept.saved hpointer hdiffers
      have hcheck : m.checker.newStreamParametersCheck a = (false,
          { m.checker with
            readNewSPS := false
            readNewSPSExtension := false
            readNewPPS := false
            streamParameters := some a.pointers }) := by
        unfold Checker.newStreamParametersCheck
        rw [hstream]
        dsimp only
        rw [hdiffers]
        rfl
      have hforce := hcomplete (by rw [hcheck])
      dsimp only
      rw [hcheck]
      exact ⟨.inl ⟨rfl, (hkept.copies.resolve_right hsaved).2⟩,
        fun hcopies => absurd hcopies hsaved,
        partsKept_of_pointers (a := a) hforce fun p hp => (Option.some.inj hp).symm⟩

private theorem write_eq {α : Type} {memory : Fin n → α} {b : Option (Fin n)} {c : Fin n}
    {value : α} (h : b = some c → memory c = value) : Checker.write memory b value c = memory c := by
  unfold Checker.write
  cases b with
  | none => rfl
  | some d =>
    by_cases hd : c = d
    · subst hd
      dsimp only
      rw [Function.update_self, h rfl]
    · exact Function.update_of_ne hd ..

theorem Kept.step (hkept : m.Kept) {e : SetEvent n} (hok : m.Ok e) : (m.step e).Kept := by
  cases e with
  | slice a obtained => exact hkept.slice hok
  | sequenceParameterSet b header =>
    refine ⟨hkept.copies, hkept.unsaved, fun p hp => ?_⟩
    obtain ⟨f, hforce, hsequence, hextension, hpicture⟩ := hkept.parts p hp
    refine ⟨f, hforce, (fun hread => nomatch hread), fun hread c hc => ?_, hpicture⟩
    have hsame := hextension hread c hc
    -- the buffer is cleared, but there was no extension in it
    have hclear : b = some c → m.checker.extensionIn c = default := by
      rintro rfl
      exact (hok p hp hc).resolve_left fun h => absurd (hread.symm.trans h) Bool.false_ne_true
    exact (write_eq hclear).trans hsame
  | sequenceParameterSetExtension b header =>
    refine ⟨hkept.copies, hkept.unsaved, fun p hp => ?_⟩
    obtain ⟨f, hforce, hsequence, hextension, hpicture⟩ := hkept.parts p hp
    exact ⟨f, hforce, hsequence, (fun hread => nomatch hread), hpicture⟩
  | pictureParameterSet b image =>
    refine ⟨hkept.copies, fun _ => .inl rfl, fun p hp => ?_⟩
    obtain ⟨f, hforce, hsequence, hextension, hpicture⟩ := hkept.parts p hp
    exact ⟨f, hforce, hsequence, hextension, fun hread => nomatch hread⟩
  | reset => exact kept_reset _
  | registerOutputBufferRing => exact ⟨.inr hok, hkept.unsaved, fun p hp => nomatch hp⟩

theorem run_complete (events : List (SetEvent n)) :
    ∀ {m : Monitor n}, m.Kept → Along step Ok m events → Along step Complete m events := by
  induction events with
  | nil => intro m _ _; trivial
  | cons e events ih =>
    intro m hkept hok
    refine ⟨?_, ih (hkept.step hok.1) hok.2⟩
    cases e with
    | slice a obtained => exact complete_of_kept hkept hok.1.1
    | _ => trivial

/-- **A check that finds nothing new is of the sets in force**, in every run of a
frame parser in which no extension in use is cleared, `Reset` precedes
`RegisterOutputBufferRing`, and stream parameters can be renewed. -/
theorem newStreamParametersCheck_complete {events : List (SetEvent n)}
    (hok : Along step Ok ⟨Checker.reset, none⟩ events) :
    Along step Complete ⟨Checker.reset, none⟩ events :=
  run_complete events (kept_reset none) hok

/-- A sequence parameter set of a profile, and a picture parameter set that points to it. -/
def setsOf (b c : Fin 5) (profileIdc : Word) : List (SetEvent 5) :=
  [.sequenceParameterSet (some b) { (default : SequenceParameterSetHeader) with profileIdc },
    .pictureParameterSet (some c) (some b, default)]

/-- Two pictures with the first sets, and, after `Reset`, three with others. -/
theorem newStreamParametersCheck_complete_reset :
    Along step Complete ⟨Checker.reset, none⟩
      (setsOf 0 2 77 ++ [.slice ⟨0, 2⟩ true, .slice ⟨0, 2⟩ true, .reset, .registerOutputBufferRing]
        ++ setsOf 1 3 100 ++ [.slice ⟨1, 3⟩ true, .slice ⟨1, 3⟩ true, .slice ⟨1, 3⟩ true]) := by
  have hpointer : some (0 : Fin 5) ≠ none ∧ some (1 : Fin 5) ≠ none := by decide
  refine newStreamParametersCheck_complete ⟨?_, trivial, ⟨hpointer.1, fun _ => rfl⟩,
    ⟨hpointer.1, fun _ => rfl⟩, trivial, rfl, ?_, trivial, ⟨hpointer.2, fun _ => rfl⟩,
    ⟨hpointer.2, fun _ => rfl⟩, ⟨hpointer.2, fun _ => rfl⟩, trivial⟩
  · exact fun p hp => nomatch hp
  · exact fun p hp => nomatch hp

/-! ## An extension that is cleared in use -/

/-- An extension with `aux_format_idc` 1. -/
def alphaExtension : SequenceParameterSetExtensionHeader :=
  { (default : SequenceParameterSetExtensionHeader) with auxFormatIdc := 1 }

instance (m : Monitor n) : ∀ e : SetEvent n, Decidable (m.Complete e)
  | .slice a _ => inferInstanceAs (Decidable
      ((m.checker.newStreamParametersCheck a).1 = false → m.inForce = some (m.checker.contents a)))
  | .sequenceParameterSet _ _ => inferInstanceAs (Decidable True)
  | .sequenceParameterSetExtension _ _ => inferInstanceAs (Decidable True)
  | .pictureParameterSet _ _ => inferInstanceAs (Decidable True)
  | .reset => inferInstanceAs (Decidable True)
  | .registerOutputBufferRing => inferInstanceAs (Decidable True)

/-- Sets with an extension; the sets of the table are replaced, and a slice with
the first ones follows; then these are sent again, without their extension. -/
theorem newStreamParametersCheck_extension_cleared :
    ¬ Along step Complete ⟨Checker.reset, none⟩
      (setsOf 0 2 77
        ++ [.sequenceParameterSetExtension (some 0) alphaExtension, .slice ⟨0, 2⟩ true]
        ++ setsOf 1 3 77 ++ [.slice ⟨0, 2⟩ true] ++ setsOf 0 4 77 ++ [.slice ⟨0, 4⟩ true]) := by
  decide +kernel

end Monitor

namespace Parser

/-- Two buffers for sequence parameter sets, three for each other kind. -/
def twoSequenceBuffers : ParserPools 14 5 where
  poolOf b :=
    if b.1 < 2 then fivePools.sequenceParameterSetPool
    else if b.1 < 5 then fivePools.pictureParameterSetPool
    else if b.1 < 8 then fivePools.streamParametersPool
    else if b.1 < 11 then fivePools.frameParametersPool
    else fivePools.codedFramePool
  sequenceParameterSetPool := fivePools.sequenceParameterSetPool
  pictureParameterSetPool := fivePools.pictureParameterSetPool
  streamParametersPool := fivePools.streamParametersPool
  frameParametersPool := fivePools.frameParametersPool
  codedFramePool := fivePools.codedFramePool
  few := by decide

def bothSets : List (ParserEvent BitList) :=
  [.sequenceParameterSet spsBits, .pictureParameterSet ppsBits]

/-- How the buffers of that run come about: an `Assert` refuses the header of a
frame's first slice, the sets are replaced, and the frame is committed at its next
slice, with the stream parameters pointing to the first sets and the others
attached. Once the frame before it is released the first sets are not held, and
the next sequence parameter set is read over the one that is in use. -/
theorem extension_cleared_in_use :
    ∃ t ∈ run (step twoSequenceBuffers)
        (created twoSequenceBuffers default default default default)
        (bothSets ++ [.sequenceParameterSetExtension 0 Monitor.alphaExtension] ++ wholePicture
          ++ [.input, .slice ⟨true, some 0, true, false, true⟩] ++ bothSets
          ++ [.slice ⟨false, none, true, true, true⟩, .finish, .release 0] ++ bothSets),
      ∃ sets ∈ t.sets.pictureParameterSetTable 0, t.differs sets = false ∧
        t.extension sets.sequenceBuffer ≠ t.copyOfSequenceParameterSetExtension := by
  decide +kernel

end Parser

end Duckbox.H264.Coded
