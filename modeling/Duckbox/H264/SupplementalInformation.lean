import Duckbox.FrameParser.AntiEmulationReads

/-!
# Supplemental enhancement information

`ReadNalSupplementalEnhancementInformation` takes one message after the other off a
unit: a type and a size, each a chain of bytes `0xff` and one that is not, then the
payload, which `ReadSeiPayload` interprets; a byte `0x80` where a type would be ends
the unit. The bytes come through the anti-emulation buffer.

What `ReadSeiPayload` makes of a payload is a parameter: it sees the buffer and moves
the stream, which is put behind the payload whatever it does, and it says whether the
unit goes on. The two chains and the loop are not bounded in the source, so they are
given fuel.

Beside what the function does the model lists which bytes of the buffer it looked at
and the payloads it passed on.
-/

namespace Duckbox.H264

open Duckbox.FrameParser
open Duckbox.FrameParser.AntiEmulation

/-- `DEFAULT_ANTI_EMULATION_REQUEST`. -/
def defaultAntiEmulationRequest : Nat := 32

/-- A byte of the buffer that is read, or that the stream is put on. -/
structure Touch where
  buffer : AntiEmulation
  offset : Nat

/-- The byte that comes next. -/
def Touch.next (s : AntiEmulation) : Touch := ⟨s, s.pointer⟩

/-- `u(8)`. -/
def u8 (s : AntiEmulation) : Nat × AntiEmulation :=
  let (value, bits) := s.bits.get s.memory 8
  (value.toNat, { s with bits := bits })

/-- `Bits.Show(8)`. -/
def show8 (s : AntiEmulation) : Nat × AntiEmulation :=
  let (value, bits) := s.bits.showBits s.memory 8
  (value.toNat, { s with bits := bits })

/-- A type or a size that has been read, and what it adds to `ConsumedSize`. -/
structure Chain where
  value : Nat
  count : Nat
  buffer : AntiEmulation
  touched : List Touch

/-- `for( Value = u(8); Value == 0xff; Value = u(8) )` and what follows it. -/
def chain : Nat → AntiEmulation → Option Chain
  | 0, _ => none
  | fuel + 1, s =>
    let (value, t) := u8 s
    if value = 0xff then
      (chain fuel t).map fun c =>
        { c with
          value := c.value + 255
          count := c.count + 1
          touched := .next s :: c.touched }
    else some ⟨value, 1, t, [.next s]⟩

/-- What `ReadSeiPayload` is called with, and the bytes the stream is before. -/
structure Payload where
  payloadType : Nat
  payloadSize : Nat
  bytes : List (BitVec 8)

/-- How the unit ends: at its stop byte, by a `break`, by the status of a payload. -/
inductive Ending where
  | stopByte
  | rejected (payloadType payloadSize : Nat)
  | payloadError

/-- Before a pass of the loop; `parser` are the members that `ReadSeiPayload` uses. -/
structure Sei (σ : Type) where
  buffer : AntiEmulation
  consumedSize : Nat
  parser : σ

/-- What a pass does. -/
structure Pass (σ : Type) where
  next : Ending ⊕ Sei σ
  payloads : List Payload
  touched : List Touch

section

variable {σ : Type} (readSeiPayload : σ → AntiEmulation → Nat → Nat → σ × Bool)
  (source : Nat → BitVec 8) (unitLength : Nat)

/-- "Payload size outside supported range", "Payload would consume more data than is
present"; `consumedSize` is that of the headers and the payloads before. -/
def Rejected (consumedSize payloadSize : Nat) : Prop :=
  antiEmulationBufferSize - 32 < payloadSize ∨ unitLength < consumedSize + payloadSize

instance (consumedSize payloadSize : Nat) :
    Decidable (Rejected unitLength consumedSize payloadSize) :=
  inferInstanceAs (Decidable (_ ∨ _))

/-- `CheckAntiEmulationBuffer` before `ReadSeiPayload`. -/
def requestPayload (consumedSize payloadSize : Nat) (s : AntiEmulation) : Option AntiEmulation :=
  s.checkAntiEmulationBuffer source
    (min (payloadSize + 4) (unitLength + payloadSize - (consumedSize + payloadSize)))

/-- `if( Bits.Show(8) != 0x80 ) CheckAntiEmulationBuffer( … )`, before the next message. -/
def requestNext (consumedSize : Nat) (s : AntiEmulation) : Option AntiEmulation :=
  let (value, t) := show8 s
  if value ≠ 0x80 then
    t.checkAntiEmulationBuffer source (min defaultAntiEmulationRequest (unitLength - consumedSize))
  else some t

/-- `Bits.SetPointer( Pointer + PayloadSize )`. -/
def behindPayload (payloadSize : Nat) (s : AntiEmulation) : AntiEmulation :=
  { s with bits := .setPointer s.memory (s.pointer + payloadSize) }

/-- From there to the test of the loop: whether it ends, the buffer and the bytes it
has looked at. -/
def nextTest (consumedSize : Nat) (s : AntiEmulation) :
    Option (Bool × AntiEmulation × List Touch) := do
  let t ← requestNext source unitLength consumedSize s
  let (value, u) := show8 t
  some (value == 0x80, u, [.next s, .next t])

/-- From `Bits.GetPosition` on, `header` the bytes that have been looked at. -/
def payloadPass (q : Sei σ) (type size : Chain) (header : List Touch) (t : AntiEmulation) :
    Option (Pass σ) :=
  let payload : Payload :=
    ⟨type.value, size.value, (List.range size.value).map fun i => t.memory (t.pointer + i)⟩
  let touched := header ++ (List.range size.value).map fun i => ⟨t, t.pointer + i⟩
  let (parser, ok) := readSeiPayload q.parser t type.value size.value
  if !ok then some ⟨.inl .payloadError, [payload], touched⟩
  else
    let consumedSize := q.consumedSize + type.count + size.count + size.value
    (nextTest source unitLength consumedSize (behindPayload size.value t)).map
      fun (stops, u, tested) =>
        { next := if stops then .inl .stopByte else .inr ⟨u, consumedSize, parser⟩
          payloads := [payload]
          touched := touched ++ tested }

/-- A pass of the loop behind the type and the size. -/
def bodyPass (q : Sei σ) (type size : Chain) : Option (Pass σ) :=
  let header := type.touched ++ size.touched
  let consumedSize := q.consumedSize + type.count + size.count
  if Rejected unitLength consumedSize size.value then
    some ⟨.inl (.rejected type.value size.value), [], header⟩
  else do
    let t ← requestPayload source unitLength consumedSize size.value size.buffer
    payloadPass readSeiPayload source unitLength q type size header t

/-- One pass of the loop. -/
def messagePass (fuel : Nat) (q : Sei σ) : Option (Pass σ) := do
  let type ← chain fuel q.buffer
  let size ← chain fuel type.buffer
  bodyPass readSeiPayload source unitLength q type size

/-- What the function does. -/
structure Result where
  ending : Ending
  payloads : List Payload
  touched : List Touch

/-- The loop. -/
def messages (fuel : Nat) : Nat → Sei σ → Option Result
  | 0, _ => none
  | passes + 1, s => do
    let p ← messagePass readSeiPayload source unitLength fuel s
    match p.next with
    | .inl ending => some ⟨ending, p.payloads, p.touched⟩
    | .inr t =>
      let r ← messages fuel passes t
      some { r with
        payloads := p.payloads ++ r.payloads
        touched := p.touched ++ r.touched }

/-- What `ReadHeaders` does before the call. -/
def requestUnit (memory : Nat → BitVec 8) : Option AntiEmulation :=
  (loadAntiEmulationBuffer memory).checkAntiEmulationBuffer source
    (min defaultAntiEmulationRequest unitLength)

/-- `ReadNalSupplementalEnhancementInformation`, on a unit that has been loaded. -/
def readNalSupplementalEnhancementInformation (fuel : Nat) (memory : Nat → BitVec 8) (parser : σ) :
    Option Result := do
  let s ← requestUnit source unitLength memory
  messages readSeiPayload source unitLength fuel fuel ⟨s, 0, parser⟩

/-! ## What is asked of it -/

/-- The bytes of the unit that are in the buffer or have been. -/
def loaded (s : AntiEmulation) : List (BitVec 8) :=
  withoutEmulation source (min unitLength s.antiEmulationSource)

/-- A byte of the buffer holds one of the unit. -/
def Touch.Inside (t : Touch) : Prop :=
  (withoutEmulation source t.buffer.antiEmulationSource).length + t.offset
    < (loaded source unitLength t.buffer).length + t.buffer.antiEmulationContent

/-- A type or a size as it is coded. -/
def coded (n : Nat) : List (BitVec 8) :=
  List.replicate (n / 255) 0xff ++ [BitVec.ofNat 8 (n % 255)]

/-- A message. -/
def Payload.message (p : Payload) : List (BitVec 8) :=
  coded p.payloadType ++ coded p.payloadSize ++ p.bytes

/-- What is left of the unit where it ends so. -/
def Ending.Before (rest : List (BitVec 8)) : Ending → Prop
  | .stopByte => rest.head? = some 0x80
  | .rejected payloadType payloadSize => coded payloadType ++ coded payloadSize <+: rest
  | .payloadError => True

/-- Every byte looked at is one of the unit, and its messages tile it up to where it
ends. -/
structure Result.Bounded (r : Result) : Prop where
  inside : ∀ t ∈ r.touched, t.Inside source unitLength
  sizes : ∀ p ∈ r.payloads, p.bytes.length = p.payloadSize
  tiles : ∃ rest, withoutEmulation source unitLength = r.payloads.flatMap Payload.message ++ rest ∧
    r.ending.Before rest

/-! ## What it needs of the unit -/

/-- A type or a size at the front of some bytes, and the bytes behind it. -/
def unchain : List (BitVec 8) → Option (Nat × List (BitVec 8))
  | [] => none
  | b :: l => if b = 0xff then (unchain l).map fun (n, rest) => (n + 255, rest) else some (b.toNat, l)

/-- `u(8)`, some times. -/
def skip : Nat → AntiEmulation → AntiEmulation
  | 0, s => s
  | n + 1, s => skip n (u8 s).2

/-- What a pass needs behind a type and a size: unless the message is rejected its
payload lies in the unit, with one more byte where `ReadSeiPayload` lets it go on, and
the requests fit. -/
def PayloadWhole (q : Sei σ) (payloadType payloadSize first : Nat) (header : AntiEmulation) : Prop :=
  Rejected unitLength first payloadSize ∨
    Fits source header (min (payloadSize + 4) (unitLength - first)) ∧
    first + payloadSize ≤ (withoutEmulation source unitLength).length ∧
    ∀ t, requestPayload source unitLength first payloadSize header = some t →
      (readSeiPayload q.parser t payloadType payloadSize).2 = true →
        first + payloadSize < (withoutEmulation source unitLength).length ∧
        ((withoutEmulation source unitLength).getD (first + payloadSize) 0 ≠ 0x80 →
          Fits source (show8 (behindPayload payloadSize t)).2
            (min defaultAntiEmulationRequest (unitLength - (first + payloadSize))))

/-- What a pass needs: the type and the size are whole in the part of the unit that
has come into the buffer, and so is what follows them. -/
def Whole (q : Sei σ) : Prop :=
  ∃ payloadType payloadSize rest rest',
    unchain ((loaded source unitLength q.buffer).drop q.consumedSize) = some (payloadType, rest) ∧
    unchain rest = some (payloadSize, rest') ∧
    PayloadWhole readSeiPayload source unitLength q payloadType payloadSize
      ((loaded source unitLength q.buffer).length - rest'.length)
      (skip ((loaded source unitLength q.buffer).length - rest'.length - q.consumedSize) q.buffer)

/-- The first passes, as far as the loop comes to them, find what they need. -/
def WholeFor : Nat → Sei σ → Prop
  | 0, _ => True
  | n + 1, s => Whole readSeiPayload source unitLength s ∧
      ∀ fuel p t, messagePass readSeiPayload source unitLength fuel s = some p →
        p.next = .inr t → WholeFor n t

end

end Duckbox.H264
