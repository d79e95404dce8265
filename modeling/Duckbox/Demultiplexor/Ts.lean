import Duckbox.Demultiplexor.Registry
import Duckbox.Lib.Slots
import Duckbox.Lib.Loop
import Mathlib.Data.BitVec

/-!
# The transport stream demultiplexor

`Demultiplexor_Ts_c` over `Demultiplexor_Base_c`: a table of at most four streams, a
table that says for each PID which of them it is for, and `Demux`, which goes through
the packets of a buffer. `Demux` lets go of the lock before each packet, so streams may be
added and removed between two: `Environment` says what other callers do there, and what
the collators answer. A function that reads past the end of the buffer, past a table or
through a null collator returns `none`, and so does a loop that does not end.

The build is the one without `ADB_BOX` and `DO_NICKS_SUGGESTED_IMPROVEMENTS` and with
`__TDT__`, as the makefile has it. Not modelled: reports, and that the player notes which
streams are attached to a demultiplexor.
-/

namespace Duckbox.Demultiplexor

open Duckbox.Lib

/-- `INVALID_INDEX`. -/
abbrev invalidIndex : UnsignedInt := 0xffffffff

/-- `DemultiplexorStatus_t`: the player's codes, the first two and one more of its own. -/
inductive DemultiplexorStatus where
  | demultiplexorNoError
  | demultiplexorError
  | demultiplexorBufferOverflow
  /-- What a buffer answered. -/
  | playerStatus (status : Nat)
deriving DecidableEq

variable {σ κ δ : Type}

/-- `DemultiplexorBaseStreamContext_t`. -/
structure BaseStreamContext (σ κ : Type) where
  stream : Option σ
  identifier : UnsignedInt
  collator : Option κ

/-- `DemultiplexorStreamContext_t`. -/
structure StreamContext where
  validExpectedContinuityCount : Bool
  expectedContinuityCount : Byte
  selectOnPriority : Bool
  desiredPriority : Bool

/-- `DemultiplexorContext_s`, its base included. -/
structure Context (σ κ : Type) where
  lastStreamSet : Fin maxStreams
  baseStreams : Fin maxStreams → BaseStreamContext σ κ
  streams : Fin maxStreams → StreamContext
  pidTable : Nat → Byte
  addedNewStream : Bool
  bluRayExtraData : Nat

/-- A buffer with what it answers when asked for its descriptor and for its data. -/
structure Buffer (δ : Type) where
  inputDescriptor : Except Nat δ
  bufferData : Except Nat (List Byte)
  /-- The length is an `unsigned int`. -/
  length_lt : ∀ {data}, bufferData = .ok data → data.length < 2 ^ 32

/-- What happens around a call of `Demux`, packet by packet. -/
structure Environment (σ κ : Type) where
  between : Nat → List (StreamOperation σ κ)
  overflows : Nat → Bool

/-- The demultiplexor, with the calls of `Input` it has made. -/
structure DemultiplexorTs (σ κ δ : Type) where
  context : Context σ κ
  delivered : List (Delivery κ δ)

/-- `CreateContext`. -/
def createContext : Context σ κ where
  lastStreamSet := 0
  baseStreams := fun _ => ⟨none, invalidIndex, none⟩
  streams := fun _ => ⟨false, 0, false, false⟩
  pidTable := fun _ => 0
  addedNewStream := false
  bluRayExtraData := 0

/-! ## Streams -/

/-- `Demultiplexor_Base_c::AddStream`. -/
def baseAddStream (r : Registration σ κ) (c : Context σ κ) :
    DemultiplexorStatus × Context σ κ :=
  match firstFree fun i => (c.baseStreams i).stream with
  | none => (.demultiplexorError, c)
  | some i => (.demultiplexorNoError, { c with
      baseStreams := Function.update c.baseStreams i ⟨some r.stream, r.identifier, some r.collator⟩
      lastStreamSet := i })

/-- `AddStream`. -/
def addStream (r : Registration σ κ) (c : Context σ κ) : DemultiplexorStatus × Context σ κ :=
  let (status, c) := baseAddStream r c
  if status ≠ .demultiplexorNoError then (status, c)
  else
    let pidTableIndex := (r.identifier &&& BitVec.ofNat 32 (dvbMaxPids - 1)).toNat
    let stream : StreamContext := { c.streams c.lastStreamSet with
      validExpectedContinuityCount := false
      selectOnPriority := r.identifier &&& 0x00002000#32 != 0
      desiredPriority := r.identifier &&& 0x00004000#32 != 0 }
    (.demultiplexorError, { c with
      pidTable := Function.update c.pidTable pidTableIndex
        (BitVec.ofNat 8 (c.lastStreamSet.val + 1))
      streams := Function.update c.streams c.lastStreamSet stream
      addedNewStream := true })

/-- `Demultiplexor_Base_c::RemoveStream`: every entry with the identifier is freed. -/
def baseRemoveStream (identifier : UnsignedInt) (c : Context σ κ) :
    DemultiplexorStatus × Context σ κ :=
  (.demultiplexorNoError, { c with
    baseStreams := fun i =>
      if (c.baseStreams i).identifier = identifier then
        { c.baseStreams i with stream := none, identifier := invalidIndex }
      else c.baseStreams i })

/-- `RemoveStream`. -/
def removeStream (identifier : UnsignedInt) (c : Context σ κ) :
    DemultiplexorStatus × Context σ κ :=
  let pidTableIndex := (identifier &&& BitVec.ofNat 32 (dvbMaxPids - 1)).toNat
  baseRemoveStream identifier { c with
    pidTable := Function.update c.pidTable pidTableIndex 0 }

def streamOperation (c : Context σ κ) : StreamOperation σ κ → Context σ κ
  | .addStream r => (addStream r c).2
  | .removeStream identifier => (removeStream identifier c).2

/-! ## `Demux` -/

/-- How many of the `n` bytes from `i` on, a stride apart, are sync bytes before the
first that is not. -/
def syncRun (data : List Byte) (stride offset : Nat) : Nat → Nat → Option Nat
  | 0, i => some i
  | n + 1, i => do
    let b ← data[offset + stride * i]?
    if b ≠ dvbSyncByte then some i else syncRun data stride offset n (i + 1)

/-- The `BluRayExtraData` of a buffer of this data. -/
def detectExtraData (data : List Byte) : Option Nat :=
  let bufferLength := data.length
  if bufferLength % (dvbPacketSize + 4) = 0 then
    if bufferLength % dvbPacketSize = 0 then do
      -- "Check 8 packets to see if sync byte is 192 or 188 aligned."
      let packetCount := min (bufferLength / (dvbPacketSize + 4)) 8
      let i ← syncRun data dvbPacketSize 0 packetCount 0
      if i ≠ packetCount then
        let i ← syncRun data (dvbPacketSize + 4) 4 packetCount 0
        if i = packetCount then some 4 else some 0
      else some 0
    else some 4
  else some 0

/-- The bytes handed to a collator: `none` where they are not all in the buffer. -/
def slice (data : List Byte) (start length : Nat) : Option (List Byte) :=
  if start + length ≤ data.length then some ((data.drop start).take length) else none

/-- The word at the start of a packet. -/
def packetHeader (data : List Byte) (start : Nat) : Option UnsignedInt := do
  let a ← data[start]?
  let b ← data[start + 1]?
  let c ← data[start + 2]?
  let d ← data[start + 3]?
  return word d c b a

/-- "Handle adaptation field": the `DataOffset`, and what will be known of the continuity
count. -/
def adaptation (header : UnsignedInt) (data : List Byte) (start : Nat) : Option (Nat × Bool) :=
  if dvbAdaptationField header then do
    let length ← data[start + dvbHeaderSize]?
    let dataOffset := dvbHeaderSize + (1 + length.toNat)
    if length ≠ 0 then
      let flags ← data[start + dvbHeaderSize + 1]?
      return (dataOffset, flags &&& 0x80#8 == 0)
    else return (dataOffset, true)
  else return (dvbHeaderSize, true)

/-- The continuity count that is expected next. -/
def notePacket (header : UnsignedInt) (valid : Bool) (stream : StreamContext) : StreamContext :=
  { stream with
    expectedContinuityCount := ((dvbContinuityCount header + 1) &&& 0x0f#32).setWidth 8
    validExpectedContinuityCount := valid }

/-- "Pass on to the appropriate collator". -/
def passOn (descriptor : δ) (data : List Byte) (newPacketStart dataOffset : Nat)
    (overflows : Bool) (collator : Option κ) (s : DemultiplexorTs σ κ δ) :
    Option (Bool × DemultiplexorTs σ κ δ) := do
  let collator ← collator
  let payload ← slice data (newPacketStart + dataOffset) (dvbPacketSize - dataOffset)
  return (overflows, { s with delivered := s.delivered ++ [⟨collator, descriptor, payload⟩] })

/-- The body of the packet handling loop: whether the collator answered that its buffer
overflows. -/
def handlePacket (descriptor : δ) (data : List Byte) (newPacketStart : Nat) (overflows : Bool)
    (s : DemultiplexorTs σ κ δ) : Option (Bool × DemultiplexorTs σ κ δ) := do
  let header ← packetHeader data newPacketStart
  let number := s.context.pidTable (dvbPid header).toNat
  if number = 0 then return (false, s)
  if hentry : number.toNat - 1 < maxStreams then
    let entry : Fin maxStreams := ⟨number.toNat - 1, hentry⟩
    if !dvbValidPacket header then return (false, s)
    let (dataOffset, valid) ← adaptation header data newPacketStart
    let stream := notePacket header valid (s.context.streams entry)
    let s := { s with context := { s.context with
      streams := Function.update s.context.streams entry stream } }
    if stream.selectOnPriority && stream.desiredPriority != dvbPriority header then
      return (false, s)
    if dvbPayloadPresent header ∧ dataOffset < dvbPacketSize then
      passOn descriptor data newPacketStart dataOffset overflows
        (s.context.baseStreams entry).collator s
    else return (false, s)
  else none

/-- The packet handling loop from `PacketStart` on, which is that of packet `k`. -/
def packetLoop (descriptor : δ) (data : List Byte) (env : Environment σ κ) :
    Nat → Nat → Nat → DemultiplexorTs σ κ δ → Option (DemultiplexorStatus × DemultiplexorTs σ κ δ)
  | 0, _, _, _ => none
  | fuel + 1, k, packetStart, s =>
    if packetStart = data.length then some (.demultiplexorNoError, s)
    else do
      let s := { s with context := (env.between k).foldl streamOperation s.context }
      let newPacketStart := packetStart + s.context.bluRayExtraData
      let (overflow, s) ← handlePacket descriptor data newPacketStart (env.overflows k) s
      if overflow then return (.demultiplexorBufferOverflow, s)
      packetLoop descriptor data env fuel (k + 1)
        ((packetStart + (dvbPacketSize + s.context.bluRayExtraData)) % 2 ^ 32) s

/-- "If the packet is a multiple of s BluRay packet assume they're BluRay packets". -/
def settleExtraData (data : List Byte) (c : Context σ κ) : Option (Context σ κ) :=
  if c.addedNewStream ∨ data.length % (dvbPacketSize + c.bluRayExtraData) ≠ 0 then do
    let extra ← detectExtraData data
    return { c with bluRayExtraData := extra, addedNewStream := false }
  else return c

/-- `Demux`. -/
def demux (buffer : Buffer δ) (env : Environment σ κ) (s : DemultiplexorTs σ κ δ) :
    Option (DemultiplexorStatus × DemultiplexorTs σ κ δ) :=
  match buffer.inputDescriptor, buffer.bufferData with
  | .error status, _ => some (.playerStatus status, s)
  | .ok _, .error status => some (.playerStatus status, s)
  | .ok descriptor, .ok data => do
    let c ← settleExtraData data s.context
    let s := { s with context := c }
    if data.length % (dvbPacketSize + s.context.bluRayExtraData) ≠ 0 then
      return (.demultiplexorError, s)
    packetLoop descriptor data env (data.length + 1) 0 0 s

/-! ## Runs -/

inductive Operation (σ κ δ : Type) where
  | stream (operation : StreamOperation σ κ)
  | demux (buffer : Buffer δ) (env : Environment σ κ)

def step (s : DemultiplexorTs σ κ δ) : Operation σ κ δ → Option (DemultiplexorTs σ κ δ)
  | .stream operation => some { s with context := streamOperation s.context operation }
  | .demux buffer env => (demux buffer env s).map Prod.snd

/-- A new demultiplexor. -/
def created : DemultiplexorTs σ κ δ := ⟨createContext, []⟩

end Duckbox.Demultiplexor
