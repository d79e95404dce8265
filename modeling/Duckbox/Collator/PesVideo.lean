import Duckbox.Collator.Scan

/-!
# The original video collator

`Collator_PesVideo_c` over `Collator_Pes_c` and `Collator_Base_c`. It accumulates a
frame into a buffer of the size a coded frame can have, with its start code list,
and puts the buffer into the output ring when a header tells that the next begins.
The header of a packet is collected behind what has been accumulated, where it is
cut by the end of a chunk, and then written over.

A pass is what one turn of the loop in `Input` does at one of its three places: it
goes on with a header, passes over padding, or looks for the next start code.

The buffer is a function of the offset, with all that is written past its size.
Where no new buffer is got after a frame was put out, the collator goes on writing
to that frame (`outputs`). Not modelled: the promotion of glitches, the delay of an
injection, and `FollowedByStreamTerminate`.
-/

namespace Duckbox.Collator

open BufferPool (UnsignedInt)
open Collator2 (CodedFrame CodedFrameParameters FrameTimes InputDescriptor PackedStartCode
  packStartCode CollatorStatus)
open Pes (PesTimes)

/-- `CollatorConfiguration_t`, with the size a coded frame can have. -/
structure Configuration extends CodeConfiguration where
  generateStartCodeList : Bool
  blockTerminateMask : Byte
  blockTerminateCode : Byte
  streamTerminateFlushesFrame : Bool
  streamTerminationCode : Byte
  insertFrameTerminateCode : Bool
  terminalCode : Byte
  deferredTerminateFlag : Bool
  determineFrameBoundariesByPresentationToFrameParser : Bool
  maximumCodedFrameSize : Nat

/-- What the collator is answered. -/
structure Environment where
  /-- `RequiredPresentationLength` of the frame parser. -/
  requiredPresentationLength : Byte → Nat
  /-- Whether the header that is presented as the so-manieth is a partition point. -/
  presentCollatedHeader : Nat → Byte → List Byte → Bool
  /-- The memory of the buffer that is got as the so-manieth, if it is. -/
  getBuffer : Nat → Option (Nat → Byte)
  /-- How far the stuffing of a system stream's header can be read. -/
  stuffingLimit : Nat

/-- `Collator_PesVideo_c`. -/
structure PesVideo where
  /-- `CodedFrameBuffer != NULL`. -/
  hasCodedFrameBuffer : Bool
  buffersGot : Nat
  bufferBase : Nat → Byte
  usedDataSize : Nat
  accumulatedDataSize : Nat
  codedFrameParameters : CodedFrameParameters
  startCodeList : List PackedStartCode
  outputRing : List CodedFrame
  inputExitPerformFrameFlush : Bool
  seekingPesHeader : Bool
  gotPartialHeader : Bool
  gotPartialType : PartialHeaderType
  gotPartialCurrentSize : Nat
  gotPartialDesiredSize : Nat
  /-- `StoredPartialHeader - BufferBase`. -/
  storedPartialHeader : Nat
  skipping : UnsignedInt
  pes : PesTimes
  terminationFlagIsSet : Bool
  headersPresented : Nat

/-- `memcpy` to an offset. -/
def writeAt (buffer : Nat → Byte) (offset : Nat) (data : List Byte) : Nat → Byte :=
  fun i => if offset ≤ i then data.getD (i - offset) (buffer i) else buffer i

/-- The first so many bytes from an offset on. -/
def readAt (buffer : Nat → Byte) (offset n : Nat) : List Byte :=
  (List.range n).map fun i => buffer (offset + i)

/-- The times in the parameters of a frame. -/
def frameTimes (p : CodedFrameParameters) : FrameTimes :=
  ⟨p.playbackTimeValid, p.playbackTime, p.decodeTimeValid, p.decodeTime⟩

/-- What a pass comes to. -/
inductive Outcome (σ : Type) where
  | again (s : σ) (r : Remaining)
  /-- `Input` returns. -/
  | leave (s : σ)
  /-- `Input` does not return. -/
  | hang

namespace PesVideo

variable (c : Configuration) (env : Environment) (s : PesVideo)

/-! ## `Collator_Base_c` and `Collator_Pes_c` -/

/-- What is in the buffer, as it is put out. -/
def codedFrame : CodedFrame :=
  ⟨⟨s.buffersGot, readAt s.bufferBase 0 s.usedDataSize, s.startCodeList⟩, s.codedFrameParameters⟩

/-- `DiscardAccumulatedData`. -/
def discardAccumulatedData : PesVideo :=
  let s :=
    if s.hasCodedFrameBuffer then
      { s with
        accumulatedDataSize := 0
        usedDataSize := 0
        startCodeList := []
        codedFrameParameters := .zero }
    else s
  { s with
    seekingPesHeader := true
    gotPartialHeader := false
    skipping := 0
    pes := clearSpanning s.pes }

/-- `AccumulateData`; the sum is that of two words. -/
def accumulateData (data : List Byte) : Bool × PesVideo :=
  let size := (s.accumulatedDataSize + data.length) % 2 ^ 32
  if c.maximumCodedFrameSize < size then (false, s)
  else
    (true,
      { s with
        bufferBase := writeAt s.bufferBase s.accumulatedDataSize data
        accumulatedDataSize := size })

/-- `AccumulateStartCode`. -/
def accumulateStartCode (code : PackedStartCode) : Bool × PesVideo :=
  if !c.generateStartCodeList then (true, s)
  else if c.maxStartCodes < s.startCodeList.length + 1 then (false, s)
  else (true, { s with startCodeList := s.startCodeList ++ [code] })

/-- `SetUsedDataSize`, which refuses more than the buffer holds. -/
def setUsedDataSize : PesVideo :=
  if c.maximumCodedFrameSize < s.accumulatedDataSize then s
  else { s with usedDataSize := s.accumulatedDataSize }

/-- The terminal code inserted, or all discarded where there is no room for it. -/
def insertTerminalCode : PesVideo :=
  if s.accumulatedDataSize ≠ 0 ∧ c.insertFrameTerminateCode then
    match s.accumulateData c [0x00, 0x00, 0x01, c.terminalCode] with
    | (true, s) => s
    | (false, s) => s.discardAccumulatedData
  else s

/-- `GetNewBuffer`, and the buffer that was there put into the output ring. -/
def outputBuffer : Bool × PesVideo :=
  match env.getBuffer s.buffersGot with
  | none => (false, { s with hasCodedFrameBuffer := false })
  | some memory =>
    (true,
      { s with
        buffersGot := s.buffersGot + 1
        bufferBase := memory
        usedDataSize := 0
        accumulatedDataSize := 0
        codedFrameParameters := .zero
        startCodeList := []
        outputRing := s.outputRing ++ [s.codedFrame] })

/-- There is nothing to flush. -/
def nothingToFlush : Bool :=
  s.accumulatedDataSize = 0 ∧ !s.codedFrameParameters.streamDiscontinuity ∧
    !s.codedFrameParameters.continuousReverseJump

/-- `InternalFrameFlush` of the base class. -/
def baseFrameFlush : Bool × PesVideo :=
  if s.nothingToFlush then (true, s)
  else
    let s := s.insertTerminalCode c
    if !s.hasCodedFrameBuffer then (true, s) else (s.setUsedDataSize c).outputBuffer env

/-- The times that a new frame begins with. -/
def takeTimes : PesVideo :=
  if s.pes.useSpanningTime then
    { s with
      codedFrameParameters := s.codedFrameParameters.setTimes s.pes.spanning
      pes :=
        { s.pes with
          spanning := { s.pes.spanning with playbackTimeValid := false, decodeTimeValid := false } } }
  else
    { s with
      codedFrameParameters := s.codedFrameParameters.setTimes s.pes.times
      pes :=
        { s.pes with
          times := { s.pes.times with playbackTimeValid := false, decodeTimeValid := false } } }

/-- `InternalFrameFlush` of the video collator. -/
def internalFrameFlush : Bool × PesVideo :=
  match s.baseFrameFlush c env with
  | (false, s) => (false, s)
  | (true, s) =>
    (true,
      { s with
        seekingPesHeader := true
        gotPartialHeader := false
        skipping := 0
        terminationFlagIsSet := false }.takeTimes)

/-- `ActOnInputDescriptor`. -/
def actOnInputDescriptor (input : InputDescriptor) : PesVideo :=
  let p := s.codedFrameParameters
  let p :=
    if input.playbackTimeValid ∧ !p.playbackTimeValid then
      { p with playbackTimeValid := true, playbackTime := input.playbackTime }
    else p
  let p :=
    if input.decodeTimeValid ∧ !p.decodeTimeValid then
      { p with decodeTimeValid := true, decodeTime := input.decodeTime }
    else p
  { s with
    codedFrameParameters := { p with dataSpecificFlags := p.dataSpecificFlags ||| input.dataSpecificFlags } }

/-- `ReadPesHeader` of the stored header. -/
def readPesHeader : Option (CollatorStatus × PesVideo) :=
  (Pes.readPesHeader s.bufferBase c.header env.stuffingLimit s.storedPartialHeader
    { s.pes with
      codedFrame := frameTimes s.codedFrameParameters
      accumulatedDataSize := BitVec.ofNat 32 s.accumulatedDataSize }).map fun (status, pes) =>
    (status,
      { s with
        pes := pes
        codedFrameParameters := s.codedFrameParameters.setTimes pes.codedFrame })

/-! ## `Input` -/

/-- A byte of the stored header. -/
def headerByte (i : Nat) : Byte := s.bufferBase (s.storedPartialHeader + i)

/-- As much of the header as there is. -/
def collectHeader (r : Remaining) : PesVideo × Remaining :=
  let transfer := min r.length.toNat (s.gotPartialDesiredSize - s.gotPartialCurrentSize)
  ({ s with
      bufferBase :=
        writeAt s.bufferBase (s.storedPartialHeader + s.gotPartialCurrentSize) (r.read 0 transfer)
      gotPartialCurrentSize := s.gotPartialCurrentSize + transfer },
    r.advance (BitVec.ofNat 32 transfer))

/-- `HeaderZeroStartCode`: it may be the first bytes of another code. -/
def zeroStartCode : PesVideo :=
  if s.headerByte 4 = 0x00 ∧ s.headerByte 5 = 0x01 then
    let padding := s.headerByte 6 = pesPaddingStartCode
    { s with
      gotPartialType := if padding then .headerPaddingStartCode else .headerPesStartCode
      gotPartialDesiredSize :=
        if padding then pesPaddingInitialHeaderSize else Pes.pesInitialHeaderSize
      accumulatedDataSize := s.accumulatedDataSize + 3
      storedPartialHeader := s.storedPartialHeader + 3
      gotPartialCurrentSize := 4 }
  else
    { s with
      gotPartialDesiredSize :=
        if c.determineFrameBoundariesByPresentationToFrameParser then
          4 + env.requiredPresentationLength 0x00
        else 4
      gotPartialType := .headerGenericStartCode }

/-- `HeaderPesStartCode`, once all of it is there. -/
def pesStartCode (r : Remaining) : Outcome PesVideo :=
  match { s with gotPartialHeader := false }.readPesHeader c env with
  | none => .hang
  | some (.collatorNoError, s) =>
    .again
      (if s.seekingPesHeader then { s with accumulatedDataSize := 0, seekingPesHeader := false }
      else s) r
  | some (_, s) => .leave s

/-- Whether a start code terminates the frame. -/
def blockTerminate (code : Byte) : Bool × PesVideo :=
  if c.determineFrameBoundariesByPresentationToFrameParser then
    (env.presentCollatedHeader s.headersPresented code
        (readAt s.bufferBase (s.storedPartialHeader + 4) (s.gotPartialCurrentSize - 4)),
      { s with headersPresented := s.headersPresented + 1 })
  else
    (code &&& c.blockTerminateMask = c.blockTerminateCode ∧ !c.deferredTerminateFlag ∨
        c.streamTerminateFlushesFrame ∧ code = c.streamTerminationCode ∨
        c.deferredTerminateFlag ∧ s.terminationFlagIsSet,
      { s with terminationFlagIsSet := false })

/-- The frame put out, and its terminating header made the beginning of the next. -/
def terminateFrame : Bool × PesVideo :=
  let header := readAt s.bufferBase s.storedPartialHeader s.gotPartialCurrentSize
  match s.internalFrameFlush c env with
  | (false, s) => (false, s)
  | (true, s) =>
    (true,
      { s with
        bufferBase := writeAt s.bufferBase 0 header
        accumulatedDataSize := 0
        seekingPesHeader := false })

/-- The header accumulated, with its start code. -/
def recordStartCode (code : Byte) (r : Remaining) : Outcome PesVideo :=
  match s.accumulateStartCode c (packStartCode (BitVec.ofNat 32 s.accumulatedDataSize) code) with
  | (false, s) => .leave s.discardAccumulatedData
  | (true, s) =>
    .again
      { s with
        accumulatedDataSize := s.accumulatedDataSize + s.gotPartialCurrentSize
        terminationFlagIsSet :=
          if c.deferredTerminateFlag ∧ code &&& c.blockTerminateMask = c.blockTerminateCode then true
          else s.terminationFlagIsSet } r

/-- `HeaderGenericStartCode`. -/
def genericStartCode (r : Remaining) : Outcome PesVideo :=
  let code := s.headerByte 3
  let (blockTerminate, s) := s.blockTerminate c env code
  let s := { s with gotPartialHeader := false }
  if blockTerminate then
    match s.terminateFrame c env with
    | (false, s) => .leave s
    | (true, s) => s.recordStartCode c code r
  else s.recordStartCode c code r

/-- "Are we accumulating an extended header". -/
def headerPass (r : Remaining) : Outcome PesVideo :=
  let (s, r) := s.collectHeader r
  if s.gotPartialCurrentSize < s.gotPartialDesiredSize then .again s r
  else
    match s.gotPartialType with
    | .headerZeroStartCode => .again (s.zeroStartCode c env) r
    | .headerPesStartCode =>
      let s :=
        if Pes.pesInitialHeaderSize ≤ s.gotPartialCurrentSize then
          { s with gotPartialDesiredSize := pesHeaderSize s.headerByte }
        else s
      if s.gotPartialCurrentSize < s.gotPartialDesiredSize then .again s r
      else s.pesStartCode c env r
    | .headerPaddingStartCode =>
      .again { s with skipping := pesPaddingSkip s.headerByte, gotPartialHeader := false } r
    | .headerGenericStartCode => s.genericStartCode c env r

/-- "Are we skipping padding". -/
def skipPass (r : Remaining) : Outcome PesVideo :=
  let skip := if s.skipping < r.length then s.skipping else r.length
  .again { s with skipping := s.skipping - skip } (r.advance skip)

/-- "Now process the code", which is the last four bytes found. -/
def beginHeader : PesVideo :=
  let s :=
    { s with
      gotPartialHeader := true
      gotPartialCurrentSize := 4
      storedPartialHeader := s.accumulatedDataSize }
  let code := s.headerByte 3
  if code = 0x00 then
    { s with
      gotPartialType := .headerZeroStartCode
      gotPartialDesiredSize := zeroStartCodeHeaderSize }
  else if isPesStartCodeVideo code then
    if c.ofStream code then
      { s with
        gotPartialType := .headerPesStartCode
        gotPartialDesiredSize := Pes.pesInitialHeaderSize }
    else { s with gotPartialHeader := false, seekingPesHeader := true }
  else if code = pesPaddingStartCode then
    { s with
      gotPartialType := .headerPaddingStartCode
      gotPartialDesiredSize := pesPaddingInitialHeaderSize }
  else if s.seekingPesHeader then { s with gotPartialHeader := false, accumulatedDataSize := 0 }
  else
    { s with
      gotPartialType := .headerGenericStartCode
      gotPartialDesiredSize :=
        if c.determineFrameBoundariesByPresentationToFrameParser then
          4 + env.requiredPresentationLength code
        else 4 }

/-- The look for the next start code, and what is before it accumulated. -/
def codePass (r : Remaining) : Outcome PesVideo :=
  let (found, times) :=
    lookForCode c.toCodeConfiguration (readAt s.bufferBase 0 s.accumulatedDataSize) r s.pes
  let s := { s with pes := times }
  match found with
  | .spanning count =>
    .again
      ({ s with
        bufferBase := writeAt s.bufferBase s.accumulatedDataSize (r.read 0 count)
        accumulatedDataSize := s.accumulatedDataSize + count - 4 }.beginHeader c env)
      (r.advance (BitVec.ofNat 32 count))
  | .nothing =>
    match s.accumulateData c r.bytes with
    | (false, s) => .leave s.discardAccumulatedData
    | (true, s) => .leave s
  | .code offset =>
    match s.accumulateData c (r.read 0 (offset + 4)) with
    | (false, s) => .leave s.discardAccumulatedData
    | (true, s) =>
      .again ({ s with accumulatedDataSize := s.accumulatedDataSize - 4 }.beginHeader c env)
        (r.advance (BitVec.ofNat 32 (offset + 4)))

/-- One pass. -/
def pass (r : Remaining) : Outcome PesVideo :=
  if s.gotPartialHeader then s.headerPass c env r
  else if s.skipping ≠ 0 then s.skipPass r
  else s.codePass c env r

/-- `InputExit`. -/
def inputExit : PesVideo :=
  if s.inputExitPerformFrameFlush then
    { (s.internalFrameFlush c env).2 with inputExitPerformFrameFlush := false }
  else s

/-- `InputJump`. -/
def inputJump (surplusDataInjected continuousReverseJump : Bool) : PesVideo :=
  let s :=
    if surplusDataInjected then s.discardAccumulatedData else (s.internalFrameFlush c env).2
  let s :=
    { s with
      codedFrameParameters :=
        { s.codedFrameParameters with
          streamDiscontinuity := true
          flushBeforeDiscontinuity := surplusDataInjected
          continuousReverseJump := continuousReverseJump } }
  let s := (s.internalFrameFlush c env).2
  { s with
    seekingPesHeader := true
    pes :=
      { clearSpanning s.pes with
        times := { s.pes.times with playbackTimeValid := false, decodeTimeValid := false } } }

end PesVideo

/-! ## Runs -/

/-- The collator, and what remains of the data of the call of `Input` that is under way. -/
structure Session where
  collator : PesVideo
  input : Option Remaining

/-- What is done with a collator, and one pass of the call under way. -/
inductive Event where
  | input (descriptor : InputDescriptor) (data : UnsignedInt → Byte) (length : UnsignedInt)
  | pass
  | frameFlush
  | inputJump (surplusDataInjected continuousReverseJump : Bool)
  /-- `InputGlitch` does the same. -/
  | discardAccumulatedData

namespace Session

/-- As `RegisterOutputBufferRing` leaves it, with the memory of the buffer it got. -/
def registered (memory : Nat → Byte) (pes : PesTimes) : Session where
  collator :=
    { hasCodedFrameBuffer := true
      buffersGot := 0
      bufferBase := memory
      usedDataSize := 0
      accumulatedDataSize := 0
      codedFrameParameters := .zero
      startCodeList := []
      outputRing := []
      inputExitPerformFrameFlush := false
      seekingPesHeader := true
      gotPartialHeader := false
      gotPartialType := .headerZeroStartCode
      gotPartialCurrentSize := 0
      gotPartialDesiredSize := 0
      storedPartialHeader := 0
      skipping := 0
      pes := pes
      terminationFlagIsSet := false
      headersPresented := 0 }
  input := none

variable (c : Configuration) (env : Environment)

/-- The call under way returns. -/
def leave (s : PesVideo) : Session := ⟨s.inputExit c env, none⟩

/-- One event. No call is made while `Input` is under way but `FrameFlush`, which then
waits for its end. -/
def step (m : Session) : Event → Session
  | .input descriptor data length =>
    match m.input with
    | none => ⟨m.collator.actOnInputDescriptor descriptor, some ⟨data, length⟩⟩
    | some _ => m
  | .pass =>
    match m.input with
    | none => m
    | some r =>
      if r.length = 0 then leave c env m.collator
      else
        match m.collator.pass c env r with
        | .again s r => ⟨s, some r⟩
        | .leave s => leave c env s
        | .hang => m
  | .frameFlush =>
    match m.input with
    | none => { m with collator := (m.collator.internalFrameFlush c env).2 }
    | some _ => { m with collator := { m.collator with inputExitPerformFrameFlush := true } }
  | .inputJump surplus continuous =>
    match m.input with
    | none => { m with collator := m.collator.inputJump c env surplus continuous }
    | some _ => m
  | .discardAccumulatedData =>
    match m.input with
    | none => { m with collator := m.collator.discardAccumulatedData }
    | some _ => m

end Session

end Duckbox.Collator
