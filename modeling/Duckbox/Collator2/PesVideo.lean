import Duckbox.Collator2.PartitionAccounts
import Duckbox.Collator2.ScanBackward
import Duckbox.Lib.Circular

/-!
# The second-generation video collator

`Collator2_PesVideo_c` over `Collator2_Pes_c` and the base class. A call of `Input` goes
from place to place (`Place`): at each it performs at most one operation of the base class
that may come to `PartitionOutput`, and goes on by its status (`Stage`). What the pool
answers comes with each.

The loops of `ProcessInputForward` and `ProcessInputBackward` let go of the lock at their
top, where `FrameFlush` and `DiscardAccumulatedData` may be let in. `InputJump` is a discard or
a flush, the signal, a flush, and the times given up (`Event.endJump`); what it does itself
it does without the lock.

Not modelled: reports, the promotion of glitches and the delay of an injection.
-/

namespace Duckbox.Collator2

open BufferPool (UnsignedInt)
open Player (PlayDirection)
open Collator (Byte Remaining PartialHeaderType lookForCode isPesStartCodeVideo pesHeaderSize
  pesPaddingSkip pesPaddingStartCode pesPaddingInitialHeaderSize zeroStartCodeHeaderSize)
open Pes (PesTimes pesInitialHeaderSize)

/-- `Configuration`, with what the parsing reads of it. -/
structure VideoConfiguration extends Configuration where
  codes : Collator.CodeConfiguration

/-- As `Collator2_PesVideoH264_c` is configured, for frames of no more than so many bytes: no
code is ignored. -/
def VideoConfiguration.h264 (maximumCodedFrameSize : UnsignedInt) : VideoConfiguration where
  generateStartCodeList := true
  insertFrameTerminateCode := true
  terminalCode := 0x0c
  maximumCodedFrameSize := maximumCodedFrameSize
  uninitialized := 0
  codes := ⟨300, 0xf0, 0xe0, 0xff, 0x00, ⟨0, 0, 0⟩⟩

/-- What the collator is answered. -/
structure Environment where
  /-- `RequiredPresentationLength` of the frame parser. -/
  requiredPresentationLength : Byte → Nat
  /-- The flags of the header that is presented as the so-manieth. -/
  presentCollatedHeader : Nat → Byte → List Byte → FrameParserHeaderFlag
  /-- How far the stuffing of a system stream's header can be read. -/
  stuffingLimit : Nat

/-- `Collator2_PesVideo_c`. -/
structure PesVideo where
  base : Collator2Base
  gotPartialHeader : Bool
  gotPartialType : PartialHeaderType
  gotPartialCurrentSize : Nat
  gotPartialDesiredSize : Nat
  skipping : UnsignedInt
  pes : PesTimes
  headersPresented : Nat

/-- Where a call of `Input` is. -/
inductive Place where
  | entry (input : InputDescriptor) (nonBlocking : Bool)
  /-- At the top of the loop, with `Status`. -/
  | top (status : CollatorStatus)
  /-- Forward: "Are we accumulating an extended header". -/
  | header
  /-- The header may be all there. -/
  | complete
  /-- A header terminates the frame before it. -/
  | terminate (code : Byte) (header : List Byte)
  | terminated (code : Byte) (header : List Byte)
  | record (code : Byte) (size : Nat) (blockTerminate : Bool)
  | room
  /-- "Are we skipping padding". -/
  | skip
  | scan
  /-- "Now process the code". -/
  | found
  /-- Backward: the look for the code before. -/
  | scanBackward
  | code (status : CollatorStatus)
  /-- A code terminates the frame it begins. -/
  | mark (flags : FrameParserHeaderFlag)
  | close (flags : FrameParserHeaderFlag)
  | roomBackward (flags : FrameParserHeaderFlag)
  | exit (status : CollatorStatus)

/-- The collator, and what remains of the data of the call of `Input` that is under way. -/
structure Session where
  collator : PesVideo
  input : Option (Remaining × Place)

/-- What is done at a place: an operation of the base class, and what follows. -/
structure Stage where
  operation : Option Operation
  next : CollatorStatus → PesVideo → Session

/-- The status an operation returns. -/
def Collator2Base.status (c : Configuration) (s : Collator2Base) : Operation → CollatorStatus
  | .inputEntry input nonBlocking pool => (s.inputEntry c pool input nonBlocking).1
  | .inputExit pool => (s.inputExit c pool).1
  | .partitionOutput pool => (s.partitionOutput c pool).1
  | .accumulateData data pool => (s.accumulateData c pool data).1
  | .accumulateStartCode code => (s.accumulateStartCode c code).1
  | _ => .collatorNoError

/-- The times the next partition begins with, and what is left of them. -/
def nextTimes (s : PesTimes) : FrameTimes × PesTimes :=
  if s.useSpanningTime then
    (s.spanning, { s with spanning := { s.spanning with playbackTimeValid := false, decodeTimeValid := false } })
  else (s.times, { s with times := { s.times with playbackTimeValid := false, decodeTimeValid := false } })

namespace PesVideo

variable (c : VideoConfiguration) (env : Environment) (s : PesVideo)

/-- The call goes on at a place. -/
def goTo (r : Remaining) (place : Place) : Session := ⟨s, some (r, place)⟩

/-- The bytes from an address on. -/
def bytesAt (a : Address) : Nat → Byte := fun i => s.base.memory (a + BitVec.ofNat 32 i)

/-- `StoredPartialHeader`, which ends with the partition. -/
def storedPartialHeader : Address :=
  s.base.nextPartition.partitionBase + s.base.nextPartition.partitionSize -
    BitVec.ofNat 32 s.gotPartialCurrentSize

/-- A byte of the stored header. -/
def headerByte : Nat → Byte := s.bytesAt s.storedPartialHeader

/-- So many bytes of the stored header from an offset on. -/
def headerBytes (offset n : Nat) : List Byte :=
  (List.range n).map fun i => s.headerByte (offset + i)

/-- The current partition. -/
def partition : List Byte :=
  readBytes s.base.memory s.base.nextPartition.partitionBase s.base.nextPartition.partitionSize

/-- "Wind the partition back to release the header". -/
def releaseHeader : PesVideo :=
  { s with
    base := s.base.moveCurrentPartitionBoundary (-BitVec.ofNat 32 s.gotPartialCurrentSize) }

/-- `AccumulateOnePartition`, but for what the base class does. -/
def partitionAccumulated : PesVideo :=
  { s with gotPartialHeader := false, skipping := 0, pes := (nextTimes s.pes).2 }

/-- `CodedFrameBufferFreeSpace < (LargestFrameSeen + MINIMUM_ACCUMULATION_HEADROOM)`. -/
def needsRoom : Bool :=
  s.base.codedFrameBufferFreeSpace < s.base.largestFrameSeen + minimumAccumulationHeadroom

/-- "Do we have room to accumulate". -/
def short : Bool :=
  match s.base.playDirection with
  | .playForward =>
    s.base.codedFrameBufferFreeSpace.toNat <
        (if s.gotPartialHeader then max 1024 s.gotPartialDesiredSize else 1024) ∨
      maximumPartitionPoints - 1 ≤ s.base.partitionPointUsedCount.toNat
  | .playBackward => s.base.codedFrameBufferFreeSpace < minimumAccumulationHeadroom

/-- What the loop does first. -/
def turn (r : Remaining) : Session :=
  match s.base.playDirection with
  | .playForward => s.goTo r .header
  | .playBackward => s.goTo r .scanBackward

/-- The top of the loop. -/
def topStage (pool : PoolAnswers) (r : Remaining) (status : CollatorStatus) : Stage :=
  if r.length = 0 then ⟨none, fun _ s => s.goTo r (.exit status)⟩
  else if s.short then
    ⟨some (.partitionOutput pool), fun status s =>
      if status ≠ .collatorNoError then s.goTo r (.exit status)
      else if s.short then s.goTo r (.exit .collatorWouldBlock)
      else s.turn r⟩
  else ⟨none, fun _ s => s.turn r⟩

/-- What `AccumulateData` of all that remains comes to. -/
def accumulatedRest (r : Remaining) (status : CollatorStatus) : Session :=
  let s :=
    if status ≠ .collatorNoError ∧ status ≠ .collatorWouldBlock then
      { s with base := { s.base with discardingData := true } }
    else s
  s.goTo (if status ≠ .collatorWouldBlock then ⟨r.data, 0⟩ else r) (.exit status)

/-! ## `ProcessInputForward` -/

/-- Behind a header. -/
def afterHeader (r : Remaining) : Session :=
  if r.length = 0 then s.goTo r (.exit .collatorNoError) else s.goTo r .skip

/-- As much of the header as there is. -/
def headerStage (pool : PoolAnswers) (r : Remaining) : Stage :=
  if s.gotPartialHeader then
    if s.gotPartialCurrentSize < s.gotPartialDesiredSize then
      let transfer := min r.length.toNat (s.gotPartialDesiredSize - s.gotPartialCurrentSize)
      ⟨some (.accumulateData (r.read 0 transfer) pool), fun status s =>
        if status ≠ .collatorNoError then
          { s with
            base := { s.base.dumpCurrentPartition c.toConfiguration with discardingData := false }
            gotPartialHeader := false }.goTo r (.exit status)
        else
          { s with gotPartialCurrentSize := s.gotPartialCurrentSize + transfer }.goTo
            (r.advance (BitVec.ofNat 32 transfer)) .complete⟩
    else ⟨none, fun _ s => s.goTo r .complete⟩
  else ⟨none, fun _ s => s.goTo r .skip⟩

/-- `HeaderZeroStartCode`: it may be the first bytes of another code. -/
def zeroStartCode : PesVideo :=
  if s.headerByte 4 = 0x00 ∧ s.headerByte 5 = 0x01 then
    let padding := s.headerByte 6 = pesPaddingStartCode
    { s with
      gotPartialType := if padding then .headerPaddingStartCode else .headerPesStartCode
      gotPartialDesiredSize := if padding then pesPaddingInitialHeaderSize else pesInitialHeaderSize
      gotPartialCurrentSize := 4 }
  else
    { s with
      gotPartialDesiredSize := 4 + env.requiredPresentationLength 0x00
      gotPartialType := .headerGenericStartCode }

/-- The times that have been read, for a partition with nothing in it. -/
def writeTimes : PesVideo :=
  if s.base.nextPartition.partitionSize = 0 ∧ s.pes.times.playbackTimeValid then
    { s with
      base := s.base.modifyNextPartition (·.modifyParameters (·.setTimes s.pes.times))
      pes :=
        { s.pes with
          times := { s.pes.times with playbackTimeValid := false, decodeTimeValid := false } } }
  else s

/-- `HeaderPesStartCode`, once all of it is there. `DiscardingData` is cleared before it is
looked at, so that nothing is dumped. -/
def pesStartCode (r : Remaining) : Session :=
  let released :=
    { s.releaseHeader with
      base := { s.releaseHeader.base with discardingData := false }
      gotPartialHeader := false }
  match Pes.readPesHeader2 s.headerByte c.codes.header env.stuffingLimit 0 s.pes with
  | none => s.goTo r .complete
  | some (.collatorNoError, pes) => { released with pes := pes }.writeTimes.afterHeader r
  | some (status, pes) => { released with pes := pes }.goTo r (.exit status)

/-- `HeaderGenericStartCode`. -/
def genericStartCode (r : Remaining) : Session :=
  let code := s.headerByte 3
  let flags := env.presentCollatedHeader s.headersPresented code
    (s.headerBytes 4 (s.gotPartialCurrentSize - 4))
  let presented :=
    { s with
      base := s.base.modifyNextPartition fun p => { p with frameFlags := p.frameFlags.or flags }
      gotPartialHeader := false
      headersPresented := s.headersPresented + 1 }
  if flags.partitionPoint then
    presented.releaseHeader.goTo r (.terminate code (s.headerBytes 0 s.gotPartialCurrentSize))
  else presented.goTo r (.record code s.gotPartialCurrentSize false)

/-- What a header is that is all there. -/
def completed (r : Remaining) : Session :=
  if s.gotPartialCurrentSize < s.gotPartialDesiredSize then s.afterHeader r
  else
    match s.gotPartialType with
    | .headerZeroStartCode => (s.zeroStartCode env).goTo r (.top .collatorNoError)
    | .headerPesStartCode =>
      let s :=
        if pesInitialHeaderSize ≤ s.gotPartialCurrentSize then
          { s with gotPartialDesiredSize := pesHeaderSize s.headerByte }
        else s
      if s.gotPartialCurrentSize < s.gotPartialDesiredSize then s.goTo r (.top .collatorNoError)
      else s.pesStartCode c env r
    | .headerPaddingStartCode =>
      { s.releaseHeader with
        skipping := pesPaddingSkip s.headerByte
        gotPartialHeader := false }.afterHeader r
    | .headerGenericStartCode => s.genericStartCode env r

/-- The header accumulated, whatever comes of it, as the beginning of the next frame. -/
def terminatedStage (pool : PoolAnswers) (r : Remaining) (code : Byte) (header : List Byte) :
    Stage :=
  ⟨some (.accumulateData header pool), fun _ s =>
    { s with base := { s.base.markSafeToOutput with discardingData := false } }.goTo r
      (.record code header.length true)⟩

/-- "Accumulate it in any event". -/
def recordStage (r : Remaining) (code : Byte) (size : Nat) (blockTerminate : Bool) : Stage :=
  ⟨some (.accumulateStartCode
      (packStartCode (s.base.nextPartition.partitionSize - BitVec.ofNat 32 size) code)),
    fun status s =>
      if status ≠ .collatorNoError then
        { s with base := s.base.dumpCurrentPartition c.toConfiguration }.goTo r (.exit status)
      else if blockTerminate then s.goTo r .room
      else s.afterHeader r⟩

/-- The room for the new frame. -/
def roomStage (pool : PoolAnswers) (r : Remaining) : Stage :=
  if s.needsRoom then
    ⟨some (.partitionOutput pool), fun status s =>
      if status ≠ .collatorNoError then s.goTo r (.exit status) else s.afterHeader r⟩
  else ⟨none, fun _ s => s.afterHeader r⟩

def skipped (r : Remaining) : Session :=
  if s.skipping ≠ 0 then
    let skip := if s.skipping < r.length then s.skipping else r.length
    let s := { s with skipping := s.skipping - skip }
    if (r.advance skip).length = 0 then s.goTo (r.advance skip) (.exit .collatorNoError)
    else s.goTo (r.advance skip) .scan
  else s.goTo r .scan

/-- The look for the next start code, and what is before it accumulated. What comes of
the bytes of a code that spans is not looked at. -/
def scanStage (pool : PoolAnswers) (r : Remaining) : Stage :=
  let (found, pes) := lookForCode c.codes s.partition r s.pes
  match found with
  | .spanning count =>
    ⟨some (.accumulateData (r.read 0 count) pool), fun _ s =>
      { s with pes := pes }.goTo (r.advance (BitVec.ofNat 32 count)) .found⟩
  | .nothing =>
    ⟨some (.accumulateData r.bytes pool), fun status s =>
      { s with pes := pes }.accumulatedRest r status⟩
  | .code offset =>
    ⟨some (.accumulateData (r.read 0 (offset + 4)) pool), fun status s =>
      let s := { s with pes := pes }
      if status ≠ .collatorNoError then
        (if status ≠ .collatorWouldBlock then
          { s with base := { s.base with discardingData := true } }
        else s).goTo r (.exit status)
      else s.goTo (r.advance (BitVec.ofNat 32 (offset + 4))) .found⟩

/-- "Now process the code", which is the last four bytes found. -/
def beginHeader : PesVideo :=
  let s := { s with gotPartialHeader := true, gotPartialCurrentSize := 4 }
  let code := s.headerByte 3
  if code = 0x00 then
    { s with
      gotPartialType := .headerZeroStartCode
      gotPartialDesiredSize := zeroStartCodeHeaderSize }
  else if isPesStartCodeVideo code then
    if c.codes.ofStream code then
      { s with
        gotPartialType := .headerPesStartCode
        gotPartialDesiredSize := pesInitialHeaderSize }
    else
      { s with
        base := { s.base with discardingData := true }
        gotPartialHeader := false }
  else if code = pesPaddingStartCode then
    { s with
      gotPartialType := .headerPaddingStartCode
      gotPartialDesiredSize := pesPaddingInitialHeaderSize }
  else if s.base.discardingData then
    { s with base := s.base.emptyCurrentPartition, gotPartialHeader := false }
  else
    { s with
      gotPartialType := .headerGenericStartCode
      gotPartialDesiredSize := 4 + env.requiredPresentationLength code }

/-! ## `ProcessInputBackward` -/

/-- A byte of the current partition. -/
def partitionByte : Nat → Byte := s.bytesAt s.base.nextPartition.partitionBase

/-- The look for the start code before, and what is behind it accumulated. -/
def scanBackwardStage (pool : PoolAnswers) (r : Remaining) : Stage :=
  match accumulationToCaptureCode c.codes.ignored s.partitionByte
      s.base.nextPartition.partitionSize r with
  | none =>
    ⟨some (.accumulateData r.bytes pool), fun status s => s.accumulatedRest r status⟩
  | some capture =>
    ⟨some (.accumulateData (r.read (r.length - capture) capture.toNat) pool), fun status s =>
      if status = .collatorWouldBlock then s.goTo r (.exit status)
      else
        (if status ≠ .collatorNoError then
          { s with base := { s.base with discardingData := true } }
        else s).goTo ⟨r.data, r.length - capture⟩ (.code status)⟩

/-- The header of a packet, which is skipped if it is read. -/
def packetHeader (r : Remaining) (code : Byte) (status : CollatorStatus) : Session :=
  let size := s.base.nextPartition.partitionSize.toNat
  if code = pesPaddingStartCode ∨ size < pesInitialHeaderSize ∨
      size < pesHeaderSize s.partitionByte then
    { s with base := { s.base with discardingData := true } }.goTo r (.top status)
  else
    let kept := { s with base := { s.base with discardingData := false } }
    match Pes.readPesHeader2 s.partitionByte c.codes.header env.stuffingLimit 0 s.pes with
    | none => s.goTo r (.code status)
    | some (.collatorNoError, pes) =>
      let base := kept.base.recordPacketHeader
        (BitVec.ofNat 32 (pesHeaderSize s.partitionByte)) pes.times
      let used := kept.base.partitionPointUsedCount
      { kept with
        base := base
        pes :=
          if pes.times.playbackTimeValid ∧ (used ≠ kept.base.partitionPointMarkerCount ∨ used = 0) then
            { pes with
              times := { pes.times with playbackTimeValid := false, decodeTimeValid := false } }
          else pes }.goTo r (.top .collatorNoError)
    | some (status, pes) =>
      { s with
        base := { s.base with discardingData := true }
        pes := pes }.goTo r (.top status)

/-- A generic start code, once it is recorded. -/
def presentBackward (r : Remaining) (code : Byte) : Session :=
  let required := env.requiredPresentationLength code
  let presents := 4 + required < s.base.nextPartition.partitionSize.toNat
  let flags :=
    if presents then
      env.presentCollatedHeader s.headersPresented code
        ((List.range required).map fun i => s.partitionByte (4 + i))
    else ⟨false, false, false⟩
  let s :=
    { s with
      base := s.base.modifyNextPartition fun p => { p with frameFlags := p.frameFlags.or flags }
      headersPresented := if presents then s.headersPresented + 1 else s.headersPresented }
  if flags.partitionPoint then s.goTo r (.mark flags) else s.goTo r (.top .collatorNoError)

/-- The code at the beginning of the partition. -/
def codeStage (r : Remaining) (status : CollatorStatus) : Stage :=
  let code := s.partitionByte 3
  if isPesStartCodeVideo code ∨ code = pesPaddingStartCode then
    ⟨none, fun _ s => s.packetHeader c env r code status⟩
  else
    ⟨some (.accumulateStartCode (packStartCode s.base.nextPartition.partitionSize code)),
      fun status s =>
        if status ≠ .collatorNoError then
          { s with base := { s.base with discardingData := true }.emptyCurrentPartition }.goTo r
            (.exit status)
        else s.presentBackward env r code⟩

/-- The room for the new frame, or a reversible point confirmed. -/
def roomBackwardStage (pool : PoolAnswers) (r : Remaining) (flags : FrameParserHeaderFlag) : Stage :=
  if flags.confirmReversiblePoint ∨ s.needsRoom then
    ⟨some (.partitionOutput pool), fun status s =>
      if status ≠ .collatorNoError then s.goTo r (.exit status)
      else s.goTo r (.top .collatorNoError)⟩
  else ⟨none, fun _ s => s.goTo r (.top .collatorNoError)⟩

/-! ## `Input` -/

/-- `AccumulateOnePartition`, and where the call goes on. -/
def closeStage (pool : PoolAnswers) (r : Remaining) (place : Place) : Stage :=
  ⟨some (.accumulateOnePartition (nextTimes s.pes).1 pool), fun _ s =>
    s.partitionAccumulated.goTo r place⟩

/-- What is done at a place. -/
def stage (pool : PoolAnswers) (r : Remaining) : Place → Stage
  | .entry input nonBlocking =>
    ⟨some (.inputEntry input nonBlocking pool), fun status s =>
      if status ≠ .collatorNoError then ⟨s, none⟩ else s.goTo r (.top .collatorNoError)⟩
  | .top status => s.topStage pool r status
  | .header => s.headerStage c pool r
  | .complete => ⟨none, fun _ s => s.completed c env r⟩
  | .terminate code header => s.closeStage pool r (.terminated code header)
  | .terminated code header => terminatedStage pool r code header
  | .record code size blockTerminate => s.recordStage c r code size blockTerminate
  | .room => s.roomStage pool r
  | .skip => ⟨none, fun _ s => s.skipped r⟩
  | .scan => s.scanStage c pool r
  | .found => ⟨none, fun _ s => (s.beginHeader c env).goTo r (.top .collatorNoError)⟩
  | .scanBackward => s.scanBackwardStage c pool r
  | .code status => s.codeStage c env r status
  | .mark flags => ⟨some .moveMarkers, fun _ s => s.goTo r (.close flags)⟩
  | .close flags => s.closeStage pool r (.roomBackward flags)
  | .roomBackward flags => s.roomBackwardStage pool r flags
  | .exit status =>
    ⟨if status = .collatorNoError then some (.inputExit pool) else none, fun _ s => ⟨s, none⟩⟩

/-- The operation performed, and what follows. -/
def perform (stage : Stage) : Session :=
  match stage.operation with
  | none => stage.next .collatorNoError s
  | some op =>
    stage.next (s.base.status c.toConfiguration op) { s with base := s.base.step c.toConfiguration op }

/-- `FrameFlush`. -/
def frameFlush (accumulatePool outputPool : PoolAnswers) : PesVideo :=
  { s.partitionAccumulated with
    base := (s.base.frameFlush c.toConfiguration accumulatePool outputPool (nextTimes s.pes).1).2 }

/-- `DiscardAccumulatedData`. -/
def discardAccumulatedData : PesVideo :=
  { s with
    base := { s.base.discardAccumulatedData c.toConfiguration with discardingData := true }
    gotPartialHeader := false
    skipping := 0
    pes := Collator.clearSpanning s.pes }

/-- The end of `InputJump`. -/
def endJump : PesVideo :=
  { s with
    pes :=
      { Collator.clearSpanning s.pes with
        times := { s.pes.times with playbackTimeValid := false, decodeTimeValid := false } } }

end PesVideo

/-! ## Runs -/

/-- What is done with a collator, and one stage of the call of `Input` under way. -/
inductive Event where
  | input (direction : PlayDirection) (descriptor : InputDescriptor) (nonBlocking : Bool)
    (data : UnsignedInt → Byte) (length : UnsignedInt)
  | stage (pool : PoolAnswers)
  | frameFlush (accumulatePool outputPool : PoolAnswers)
  /-- `InputGlitch` does the same. -/
  | discardAccumulatedData
  | signalDiscontinuity (surplusDataInjected continuousReverseJump : Bool)
  | endJump

namespace Session

/-- As `RegisterOutputBufferRing` leaves it, with the operating buffer it got. -/
def registered (c : VideoConfiguration) (memory : Address → BitVec 8) (buffer : OperatingBuffer)
    (pes : PesTimes) : Session where
  collator :=
    { base := Collator2Base.registered c.toConfiguration memory buffer
      gotPartialHeader := false
      gotPartialType := .headerZeroStartCode
      gotPartialCurrentSize := 0
      gotPartialDesiredSize := 0
      skipping := 0
      pes := pes
      headersPresented := 0 }
  input := none

/-- No call of `Input` holds the lock. -/
def unlocked (m : Session) : Bool :=
  match m.input with
  | none | some (_, .top _) => true
  | some _ => false

variable (c : VideoConfiguration) (env : Environment)

/-- One event. -/
def step (m : Session) : Event → Session
  | .input direction descriptor nonBlocking data length =>
    match m.input with
    | none =>
      let (status, base) := m.collator.base.setDirection c.toConfiguration direction
      { collator := { m.collator with base := base }
        input :=
          if status = .collatorNoError then some (⟨data, length⟩, .entry descriptor nonBlocking)
          else none }
    | some _ => m
  | .stage pool =>
    match m.input with
    | none => m
    | some (r, place) => m.collator.perform c (m.collator.stage c env pool r place)
  | .frameFlush accumulatePool outputPool =>
    if m.unlocked then { m with collator := m.collator.frameFlush c accumulatePool outputPool } else m
  | .discardAccumulatedData =>
    if m.unlocked then { m with collator := m.collator.discardAccumulatedData c } else m
  | .signalDiscontinuity surplus continuous =>
    { m with
      collator := { m.collator with base := m.collator.base.signalDiscontinuity surplus continuous } }
  | .endJump => { m with collator := m.collator.endJump }

end Session

end Duckbox.Collator2
