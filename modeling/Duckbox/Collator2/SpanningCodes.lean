import Duckbox.Collator2.ReverseCalls
import Duckbox.Lib.Falling

/-!
# Start codes that span a chunk and the partition behind it

In reverse play the chunks come last first, and what is accumulated is behind the data
that remains. A start code that begins in the last three bytes of the data and ends in the
partition (`Straddles`) can be captured in one turn only, that which finds the two so.

> `spanning_codes_once`: in every run on chunks fed backwards whose turns are clear, a code
> that straddles is captured once, and one that is ignored not at all.

A place is one in the stream, counted back from its end: where the chunk under way begins
is kept beside the session (`Fed`).
-/

namespace Duckbox.Collator2

open BufferPool (UnsignedInt)
open Player (PlayDirection)
open Collator (Byte Remaining IsCode byteAt byteAt_append_right isPesStartCodeVideo
  pesPaddingStartCode)
open Lib (Along Falls emitted count_emitted)

/-- A session that is fed a stream from its end. -/
structure Fed where
  session : Session
  /-- Where in the stream the chunk begins that was fed last. -/
  start : Int

namespace Fed

variable (c : VideoConfiguration) (env : Environment) (m : Fed)

/-- One event. A chunk that a call is made with is the one before the last. -/
def step (event : Event) : Fed where
  session := m.session.step c env event
  start :=
    match event with
    | .input _ _ _ _ length =>
      if m.session.input.isNone ∧ (m.session.step c env event).input.isSome then
        m.start - length.toNat
      else m.start
    | _ => m.start

/-- How far down the stream has been accumulated, or given up. -/
def height : Int := m.start + m.session.remaining

/-- Where a code is captured by an event. -/
def captured (event : Event) : Option Int :=
  if m.session.scanning.isSome then
    (m.session.step c env event).atCode.map fun r => m.start + r.length.toNat
  else none

/-- What an event asks of the session it finds: that the turn is clear. -/
def Clear : Event → Prop
  | .stage _ => ∀ r ∈ m.session.scanning, m.session.collator.Clear c r
  | _ => True

instance : ∀ event, Decidable (m.Clear c event)
  | .stage _ => inferInstanceAs (Decidable (∀ r ∈ _, _))
  | .input .. | .frameFlush .. | .discardAccumulatedData | .signalDiscontinuity .. | .endJump =>
    inferInstanceAs (Decidable True)

end Fed

/-- The data is fed for reverse play. -/
def Event.Backward : Event → Prop
  | .input direction .. => direction = .playBackward
  | _ => True

instance : ∀ event : Event, Decidable event.Backward
  | .input direction .. => inferInstanceAs (Decidable (direction = .playBackward))
  | .stage _ | .frameFlush .. | .discardAccumulatedData | .signalDiscontinuity .. | .endJump =>
    inferInstanceAs (Decidable True)

namespace Fed

variable {c : VideoConfiguration} {env : Environment} {m : Fed}

variable (env) in
theorem step_inReverse {event : Event} (h : m.session.InReverse) (hback : event.Backward)
    (hclear : m.Clear c event) :
    (step c env m event).session.InReverse ∧ (step c env m event).height ≤ m.height := by
  have hbeside : ∀ {s : PesVideo},
      (⟨{ m.session with collator := s }, m.start⟩ : Fed).height = m.height := fun {_} => rfl
  cases event with
  | input direction descriptor nonBlocking data length =>
    obtain rfl : direction = .playBackward := hback
    refine ⟨Session.input_inReverse env h descriptor nonBlocking data length, ?_⟩
    cases hinput : m.session.input with
    | some under =>
      have hsame := Session.step_input_under (c := c) (E := env) hinput .playBackward descriptor
        nonBlocking data length
      unfold height step
      dsimp only
      rw [hsame, if_neg]
      rintro ⟨hnone, -⟩
      rw [hinput] at hnone
      exact nomatch hnone
    | none =>
      have hnone : m.session.remaining = 0 := by
        unfold Session.remaining
        rw [hinput]
      -- the chunk lies directly before what has been fed
      have hstep : (m.session.step c env (.input .playBackward descriptor nonBlocking data length)).input =
          if (m.session.collator.base.setDirection c.toConfiguration .playBackward).1 =
              .collatorNoError then some (⟨data, length⟩, .entry descriptor nonBlocking) else none := by
        unfold Session.step
        rw [hinput]
      unfold height step Session.remaining
      dsimp only
      rw [hstep]
      split
      · rw [if_pos ⟨by rw [hinput]; rfl, rfl⟩]
        dsimp only
        omega
      · rw [if_neg fun hboth => nomatch hboth.2]
        dsimp only
        omega
  | stage pool =>
    unfold height step Session.step
    dsimp only
    cases hinput : m.session.input with
    | none => exact ⟨h, le_refl _⟩
    | some under =>
      obtain ⟨r, place⟩ := under
      obtain ⟨bound, hgoes⟩ := h
      obtain ⟨hdirection, hplace, -, -⟩ := hgoes r place hinput
      dsimp only
      have hcapture : place = .scanBackward →
          ∀ capture ∈ m.session.collator.capture c r, capture ≤ r.length := by
        rintro rfl
        have hscanning : r ∈ m.session.scanning := by
          unfold Session.scanning
          rw [hinput]
          rfl
        exact fun capture hmem => (PesVideo.capture_le (hclear r hscanning) capture hmem).1
      have hon := PesVideo.stage_goesOn env hdirection pool hplace hcapture
      refine ⟨⟨_, hon⟩, ?_⟩
      have hfalls : Session.remaining (m.session.collator.perform c
          (m.session.collator.stage c env pool r place)) ≤ m.session.remaining := by
        by_cases hexit : ∃ status, place = .exit status
        · obtain ⟨status, rfl⟩ := hexit
          rw [PesVideo.exit_remaining]
          exact Nat.zero_le _
        · rw [Session.remaining_eq hinput fun status heq => hexit ⟨status, heq⟩]
          exact hon.remaining_le
      omega
  | frameFlush accumulatePool outputPool =>
    unfold step Session.step
    dsimp only
    split
    · next hunlocked =>
      exact ⟨h.beside (Session.frameFlush_direction c _ _ _) (.inr hunlocked), le_of_eq hbeside⟩
    · exact ⟨h, le_refl _⟩
  | discardAccumulatedData =>
    unfold step Session.step
    dsimp only
    split
    · next hunlocked =>
      exact ⟨h.beside (Collator2Base.step_direction c.toConfiguration _ .discardAccumulatedData
        fun _ h => nomatch h) (.inr hunlocked), le_of_eq hbeside⟩
    · exact ⟨h, le_refl _⟩
  | signalDiscontinuity surplus continuous => exact ⟨h.beside rfl (.inl rfl), le_of_eq hbeside⟩
  | endJump => exact ⟨h.beside rfl (.inl rfl), le_of_eq hbeside⟩

theorem scanning_eq {r : Remaining} (h : m.session.scanning = some r) :
    m.session.input = some (r, .scanBackward) := by
  unfold Session.scanning at h
  split at h
  · next heq => rw [heq, Option.some.inj h]
  · exact nomatch h

variable (env) in
theorem step_stage {r : Remaining} (hinput : m.session.input = some (r, .scanBackward))
    (pool : PoolAnswers) : m.session.step c env (.stage pool) =
      m.session.collator.perform c (m.session.collator.scanBackwardStage c pool r) := by
  unfold Session.step
  rw [hinput]
  rfl

variable (env) in
theorem captured_stage {r : Remaining} (hinput : m.session.input = some (r, .scanBackward))
    (pool : PoolAnswers) :
    m.captured c env (.stage pool) =
      (m.session.collator.capture c r).bind fun capture =>
        if (m.session.collator.base.accumulateData c.toConfiguration pool
            (r.read (r.length - capture) capture.toNat)).1 = .collatorWouldBlock then none
        else some (m.start + (r.length - capture).toNat) := by
  have hscanning : m.session.scanning.isSome = true := by
    unfold Session.scanning
    rw [hinput]
    rfl
  unfold captured
  rw [if_pos hscanning, step_stage env hinput, PesVideo.scanBackwardStage_atCode]
  cases m.session.collator.capture c r with
  | none => rfl
  | some capture =>
    rw [Option.bind_some, Option.bind_some]
    split <;> rfl

theorem captured_cases {event : Event} {x : Int} (hx : x ∈ m.captured c env event) :
    ∃ pool r capture, event = .stage pool ∧ m.session.input = some (r, .scanBackward) ∧
      m.session.collator.capture c r = some capture ∧
        x = m.start + (r.length - capture).toNat ∧
          x = m.start + (m.session.step c env event).remaining := by
  have hx' := hx
  unfold captured at hx'
  split at hx'
  · next hscanning =>
    obtain ⟨r, hr⟩ := Option.isSome_iff_exists.mp hscanning
    have hinput := scanning_eq hr
    obtain ⟨rest, hcode, rfl⟩ := Option.map_eq_some_iff.mp (Option.mem_def.mp hx')
    have hremaining : (m.session.step c env event).remaining = rest.length.toNat := by
      unfold Session.atCode at hcode
      split at hcode
      · next status heq =>
        obtain rfl := Option.some.inj hcode
        exact Session.remaining_eq heq fun _ h => nomatch h
      · exact nomatch hcode
    -- what is done beside the call leaves it at its place
    have hkept : (m.session.step c env event).input = m.session.input → False := by
      intro hsame
      unfold Session.atCode at hcode
      rw [hsame, hinput] at hcode
      exact nomatch hcode
    cases event with
    | input direction descriptor nonBlocking data length =>
      have hsame := Session.step_input_under (c := c) (E := env) hinput direction descriptor nonBlocking
        data length
      exact (hkept (congrArg Session.input hsame)).elim
    | stage pool =>
      rw [captured_stage env hinput] at hx
      obtain ⟨capture, hcapture, hplace⟩ := Option.bind_eq_some_iff.mp (Option.mem_def.mp hx)
      split at hplace
      · exact nomatch hplace
      · exact ⟨pool, r, capture, rfl, hinput, hcapture, (Option.some.inj hplace).symm,
          by rw [hremaining]⟩
    | frameFlush accumulatePool outputPool =>
      refine (hkept ?_).elim
      unfold Session.step
      dsimp only
      split <;> rfl
    | discardAccumulatedData =>
      refine (hkept ?_).elim
      unfold Session.step
      dsimp only
      split <;> rfl
    | signalDiscontinuity surplus continuous => exact (hkept rfl).elim
    | endJump => exact (hkept rfl).elim
  · exact nomatch hx'

theorem captured_between {event : Event} (hclear : m.Clear c event) :
    ∀ x ∈ m.captured c env event, (step c env m event).height ≤ x ∧ x < m.height := by
  intro x hx
  obtain ⟨pool, r, capture, rfl, hinput, hcapture, hplace, hheight⟩ := captured_cases hx
  have hscanning : r ∈ m.session.scanning := by
    unfold Session.scanning
    rw [hinput]
    rfl
  obtain ⟨hle, hone⟩ := PesVideo.capture_le (hclear r hscanning) capture hcapture
  refine ⟨le_of_eq hheight.symm, ?_⟩
  have hremaining := Session.remaining_eq hinput fun _ h => nomatch h
  unfold height
  rw [hplace, hremaining, BitVec.toNat_sub_of_le hle]
  have hle' : capture.toNat ≤ r.length.toNat := BitVec.le_def.mp hle
  omega

/-- As `RegisterOutputBufferRing` leaves it, with the stream before a place to be fed. -/
def registered (c : VideoConfiguration) (memory : Address → BitVec 8) (buffer : OperatingBuffer)
    (pes : Pes.PesTimes) (start : Int) : Fed :=
  ⟨Session.registered c memory buffer pes, start⟩

/-- The code at the beginning of the partition is recorded, or its packet header read, by what
is done next. -/
def Records (c : VideoConfiguration) (env : Environment) (m : Session) (code : Byte) : Prop :=
  ∃ r, m.input = some (r, .code .collatorNoError) ∧
    ∀ pool, (m.collator.stage c env pool r (.code .collatorNoError)).operation =
      if isPesStartCodeVideo code ∨ code = pesPaddingStartCode then none
      else some (.accumulateStartCode
        (packStartCode m.collator.base.nextPartition.partitionSize code))

section

variable {r : Remaining} {i : Nat} (env : Environment) (pool : PoolAnswers)

theorem accumulateData_spanning (h : m.session.InReverse)
    (hinput : m.session.input = some (r, .scanBackward)) (hi : PesVideo.Straddles r i)
    {data : List Byte} (hdata : data.length = r.length.toNat - i) :
    m.session.collator.base.accumulateData c.toConfiguration pool data =
      if c.maximumCodedFrameSize <
          m.session.collator.base.nextPartition.partitionSize + BitVec.ofNat 32 data.length then
        (.collatorBufferOverflow, m.session.collator.base.dumpCurrentPartition c.toConfiguration)
      else (.collatorNoError, m.session.collator.base.appendData data) := by
  obtain ⟨bound, hgoes⟩ := h
  obtain ⟨-, -, hroom, -⟩ := hgoes r _ hinput
  have hnear := hi.2
  exact PesVideo.accumulateData_few pool (hroom rfl) (by omega)

theorem toNat_capture (hi : PesVideo.Straddles r i) :
    (BitVec.ofNat 32 (r.length.toNat - i)).toNat = r.length.toNat - i ∧
      (r.length - BitVec.ofNat 32 (r.length.toNat - i)).toNat = i := by
  have hlt := r.length.isLt
  have hin := hi.1
  have hcapture : (BitVec.ofNat 32 (r.length.toNat - i)).toNat = r.length.toNat - i := by
    rw [BitVec.toNat_ofNat, Nat.mod_eq_of_lt (by omega)]
  refine ⟨hcapture, ?_⟩
  rw [BitVec.toNat_sub_of_le (by rw [BitVec.le_def, hcapture]; omega), hcapture]
  omega

theorem captured_spanning (h : m.session.InReverse)
    (hinput : m.session.input = some (r, .scanBackward)) (hi : PesVideo.Straddles r i)
    (hcapture : m.session.collator.capture c r = some (BitVec.ofNat 32 (r.length.toNat - i))) :
    m.captured c env (.stage pool) = some (m.start + i) := by
  obtain ⟨hlength, hplace⟩ := toNat_capture hi
  rw [captured_stage env hinput, hcapture, Option.bind_some, hlength, hplace,
    accumulateData_spanning pool h hinput hi (by rw [Remaining.length_read])]
  split
  · exact if_neg fun h => nomatch h
  · exact if_neg fun h => nomatch h

theorem spanning_records (h : m.session.InReverse)
    (hinput : m.session.input = some (r, .scanBackward)) (hi : PesVideo.Straddles r i)
    (hcapture : m.session.collator.capture c r = some (BitVec.ofNat 32 (r.length.toNat - i)))
    (hcode : IsCode c.codes.ignored (m.session.collator.joined r) i)
    (hroom : m.session.collator.base.nextPartition.partitionSize + BitVec.ofNat 32 (r.length.toNat - i) ≤
      c.maximumCodedFrameSize) :
    Records c env (m.session.step c env (.stage pool))
      (byteAt (m.session.collator.joined r) (i + 3)) := by
  obtain ⟨hlength, hplace⟩ := toNat_capture hi
  obtain ⟨bound, hgoes⟩ := h
  obtain ⟨hdirection, -, -, -⟩ := hgoes r _ hinput
  obtain ⟨hin, hnear⟩ := hi
  generalize hdata : r.read (r.length - BitVec.ofNat 32 (r.length.toNat - i)) (r.length.toNat - i) =
    data
  have hread : data.length = r.length.toNat - i := by rw [← hdata, Remaining.length_read]
  have haccumulated := accumulateData_spanning (c := c) pool ⟨bound, hgoes⟩ hinput ⟨hin, hnear⟩ hread
  rw [hread, if_neg (BitVec.not_lt.mpr hroom)] at haccumulated
  have hstep : m.session.step c env (.stage pool) =
      { m.session.collator with base := m.session.collator.base.appendData data }.goTo
        ⟨r.data, r.length - BitVec.ofNat 32 (r.length.toNat - i)⟩ (.code .collatorNoError) := by
    unfold PesVideo.capture at hcapture
    rw [step_stage env hinput]
    unfold PesVideo.perform PesVideo.scanBackwardStage
    rw [hcapture]
    have hstatus : m.session.collator.base.status c.toConfiguration (.accumulateData data pool) =
        .collatorNoError := congrArg Prod.fst haccumulated
    have hbase : m.session.collator.base.step c.toConfiguration (.accumulateData data pool) =
        m.session.collator.base.appendData data := congrArg Prod.snd haccumulated
    dsimp only
    rw [hlength, hdata, hstatus, hbase]
    rfl
  -- the fourth byte of the partition is the code byte
  have hbyte : { m.session.collator with
      base := m.session.collator.base.appendData data }.partitionByte 3 =
        byteAt (m.session.collator.joined r) (i + 3) := by
    have hthere := hcode.1
    rw [PesVideo.length_joined] at hthere
    rw [PesVideo.partitionByte_appendData hdirection hread (by omega),
      ← PesVideo.byteAt_partition (by omega)]
    unfold PesVideo.joined
    rw [show i + 3 = r.bytes.length + (3 - (r.length.toNat - i)) by
      rw [Remaining.length_bytes]; omega, byteAt_append_right]
  rw [hstep]
  refine ⟨_, rfl, fun pool' => ?_⟩
  unfold PesVideo.stage PesVideo.codeStage PesVideo.goTo
  dsimp only
  rw [hbyte]
  split <;> rfl

end

theorem run_falls {events : List Event} (h : m.session.InReverse)
    (hback : ∀ event ∈ events, event.Backward)
    (hclear : Along (step c env) (Clear c) m events) :
    Along (step c env) (Falls (step c env) (captured c env) height) m events := by
  refine Along.of_step (P := fun m : Fed => m.session.InReverse) (fun {m event} hok h => ?_)
    ((Along.of_forall hback).and hclear) h
  obtain ⟨hreverse, hheight⟩ := step_inReverse env h hok.1 hok.2
  exact ⟨hreverse, hheight, captured_between hok.2⟩

theorem run_inReverse {events : List Event} (h : m.session.InReverse)
    (hback : ∀ event ∈ events, event.Backward)
    (hclear : Along (step c env) (Clear c) m events) :
    (events.foldl (step c env) m).session.InReverse :=
  Lib.foldl_inv (P := fun m : Fed => m.session.InReverse)
    (fun hok h => (step_inReverse env h hok.1 hok.2).1) events ((Along.of_forall hback).and hclear) h

/-- The H.264 collator, with the default frame size. -/
def h264 : VideoConfiguration := .h264 0x100000

/-- Where a frame parser is that finds a frame to begin with each slice of its first macroblock. -/
def anEnvironment : Environment where
  requiredPresentationLength code := if code &&& 0x1f = 5 then 1 else 0
  presentCollatedHeader _ code header :=
    ⟨code &&& 0x1f = 5 ∧ header.getD 0 0 &&& 0x80 ≠ 0, false, false⟩
  stuffingLimit := 0

def noTimes : FrameTimes := ⟨false, 0, false, 0⟩

/-- A chunk fed for reverse play, and so many stages of the call. -/
def chunk (data : List Byte) (stages : Nat) : List Event :=
  .input .playBackward ⟨noTimes, 0⟩ false (fun i => data.getD i.toNat 0xff)
    (BitVec.ofNat 32 data.length) ::
      List.replicate stages (.stage (Collator2Base.amplePool 0x200000))

/-- A collator that is fed so many bytes from their end. -/
def aCollator (bytes : Int) : Fed :=
  registered h264 (fun _ => 0) Collator2Base.largeBuffer ⟨noTimes, noTimes, false, 0, 0, noTimes, 0⟩
    bytes

/-- A code byte and two more, and then the bytes before it, as far as to the look for a code. -/
def cutSlice : List Event :=
  chunk [0x65, 0x88, 0x80] 4 ++ chunk [0x10, 0x00, 0x00, 0x01] 2

/-- Where the bytes before the code byte are looked through. -/
def atCut : Fed := cutSlice.foldl (step h264 anEnvironment) (aCollator 7)

def beforeCut : Remaining := ⟨fun i => [0x10, 0x00, 0x00, 0x01].getD i.toNat 0xff, 4⟩

/-- The `01` of a code with the slice behind it, and then the bytes before the `01`. -/
def cutTwice : List Event :=
  chunk [0x01, 0x00, 0x00, 0x01, 0x65, 0x88, 0x80] 12 ++ chunk [0x10, 0x00, 0x00] 6

end Fed

end Duckbox.Collator2
