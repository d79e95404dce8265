import Duckbox.FrameParser.BitStream
import Duckbox.FrameParser.HeaderReader
import Duckbox.Lib.Kept
import Duckbox.Lib.Loop

/-!
# The anti-emulation buffer

`CheckAntiEmulationBuffer` brings bytes of a NAL into a buffer, leaving out the 3
of every 0, 0, 3, and moves what has not been read to the front of the buffer when
it must. The bits are then read from the buffer as from any memory.

The payload is where `LoadAntiEmulationBuffer` is pointed to, and other memory
follows it; a copy that ends behind the buffer, where the next member is
`AntiEmulationSource` itself, is stopped.
-/

namespace Duckbox.FrameParser

open Duckbox.Lib

/-- `ANTI_EMULATION_BUFFER_SIZE`. -/
def antiEmulationBufferSize : Nat := 1024

/-- The members for the buffer; `memory` is that from `AntiEmulationBuffer` on. -/
structure AntiEmulation where
  antiEmulationSource : Nat
  antiEmulationContent : Nat
  memory : Nat → BitVec 8
  bits : BitStream

namespace AntiEmulation

/-- `LoadAntiEmulationBuffer`. -/
def loadAntiEmulationBuffer (memory : Nat → BitVec 8) : AntiEmulation where
  antiEmulationSource := 0
  antiEmulationContent := 0
  memory := memory
  bits := .setPointer memory 0

/-- The byte that `GetPosition` gives, from the start of the buffer. -/
def pointer (s : AntiEmulation) : Nat := s.bits.getPosition.1

/-- `BitsInByte`, of 8 a byte that has not been begun. -/
def bitsInByte (s : AntiEmulation) : Nat := s.bits.getPosition.2

/-- `(BitsInByte != 8)`. -/
def begun (s : AntiEmulation) : Nat := if s.bitsInByte = 8 then 0 else 1

/-- `TestAntiEmulationBuffer` finds nothing wrong. -/
def testAntiEmulationBuffer (s : AntiEmulation) : Bool :=
  let bytesUsed := s.pointer + s.begun
  !(bytesUsed != 0 && decide (s.antiEmulationContent < bytesUsed))

def untouchedBytesInBuffer (s : AntiEmulation) : Nat :=
  s.antiEmulationContent - s.pointer - s.begun

/-- `memcpy( AntiEmulationBuffer+AntiEmulationContent, AntiEmulationSource, n )`, the
content that adds, and what is passed over of the source. -/
def copy (source : Nat → BitVec 8) (n passed : Nat) (s : AntiEmulation) : Option AntiEmulation :=
  if s.antiEmulationContent + n ≤ antiEmulationBufferSize then
    some { s with
      antiEmulationSource := s.antiEmulationSource + passed
      antiEmulationContent := s.antiEmulationContent + n
      memory := fun i =>
        if s.antiEmulationContent ≤ i ∧ i < s.antiEmulationContent + n then
          source (s.antiEmulationSource + (i - s.antiEmulationContent))
        else s.memory i }
  else none

/-- 0, 0, 3 is at a place of the source. -/
def escape (source : Nat → BitVec 8) (i : Nat) : Bool :=
  source i == 0 && source (i + 1) == 0 && source (i + 2) == 3

/-- The passes of the loop that looks for them, with those that are left. -/
def copyLoop (source : Nat → BitVec 8) : Nat → Nat → AntiEmulation → Option AntiEmulation
  | 0, j, s => if j = 0 then some s else s.copy source j j
  | passes + 1, j, s =>
    if escape source (s.antiEmulationSource + j) then do
      copyLoop source passes 0 (← s.copy source (j + 2) (j + 3))
    else copyLoop source passes (j + 1) s

/-- From the loop on. -/
def refill (source : Nat → BitVec 8) (size untouchedBytesInBuffer bitsInByte newBase : Nat)
    (s : AntiEmulation) : Option AntiEmulation := do
  let s ← copyLoop source (size + 3 - untouchedBytesInBuffer) 0 s
  pure { s with
    bits := (BitStream.setPointer s.memory newBase).flushUnseen s.memory (8 - bitsInByte) }

/-- "shuffle down". -/
def shuffle (s : AntiEmulation) : AntiEmulation :=
  let content := s.untouchedBytesInBuffer + s.begun
  { s with
    antiEmulationContent := content
    memory := forUpTo (fun m i => Function.update m i (m (s.pointer + i))) s.memory content }

/-- `CheckAntiEmulationBuffer`. -/
def checkAntiEmulationBuffer (source : Nat → BitVec 8) (size : Nat) (s : AntiEmulation) :
    Option AntiEmulation :=
  -- "Buffer overflow"
  if antiEmulationBufferSize - 16 < size then some s
  else if s.antiEmulationContent = 0 then s.refill source size 0 8 0
  -- "Already gone bad"
  else if !s.testAntiEmulationBuffer then some s
  else if size ≤ s.untouchedBytesInBuffer then some s
  else if antiEmulationBufferSize < s.pointer + size + 16 then
    s.shuffle.refill source size s.untouchedBytesInBuffer s.bitsInByte 0
  else s.refill source size s.untouchedBytesInBuffer s.bitsInByte s.pointer

/-! ## Requests and reads -/

/-- What is called; a read returns at most a word. -/
inductive Operation where
  | check (size : Nat)
  | get (n : Fin 33)
  | signedGet (n : Fin 33)
  | showBits (n : Fin 33)
  | signedShow (n : Fin 33)
  | flush (n : Nat)
  | flushUnseen (n : Nat)

/-- The buffer, and the values that have been read. -/
structure Reader where
  buffer : AntiEmulation
  values : List (BitVec 32)

namespace Reader

def bits (r : Reader) (bits : BitStream) : Reader :=
  { r with buffer := { r.buffer with bits := bits } }

def value (r : Reader) (got : BitVec 32 × BitStream) : Reader :=
  { r.bits got.2 with values := r.values ++ [got.1] }

/-- One call; `none` where a copy is stopped. -/
def step (source : Nat → BitVec 8) (r : Reader) : Operation → Option Reader
  | .check size => (r.buffer.checkAntiEmulationBuffer source size).map fun s => { r with buffer := s }
  | .get n => some (r.value (r.buffer.bits.get r.buffer.memory n))
  | .signedGet n => some (r.value (r.buffer.bits.signedGet r.buffer.memory n))
  | .showBits n => some (r.value (r.buffer.bits.showBits r.buffer.memory n))
  | .signedShow n => some (r.value (r.buffer.bits.signedShow r.buffer.memory n))
  | .flush n => some (r.bits (r.buffer.bits.flush n))
  | .flushUnseen n => some (r.bits (r.buffer.bits.flushUnseen r.buffer.memory n))

end Reader

/-- Where the caller is: the bits it has read, how far it may read since its last
request, and how many of the next it has been shown. -/
structure Caller where
  position : Nat
  limit : Nat
  shown : Nat

namespace Caller

def start : Caller := ⟨0, 0, 0⟩

def move (c : Caller) (n : Nat) : Caller :=
  { c with position := c.position + n, shown := c.shown - n }

def look (c : Caller) (n : Nat) : Caller := { c with shown := max c.shown n }

def step (c : Caller) : Operation → Caller
  | .check size => ⟨c.position, c.position + 8 * size, 0⟩
  | .get n => c.move n
  | .signedGet n => c.move n
  | .showBits n => c.look n
  | .signedShow n => c.look n
  | .flush n => c.move n
  | .flushUnseen n => c.move n

/-- A request is supportable, reads are of the requested bytes, and `Flush` is of
bits that have been shown. -/
def Ok (c : Caller) : Operation → Prop
  | .check size => size ≤ antiEmulationBufferSize - 16
  | .get n => c.position + n ≤ c.limit
  | .signedGet n => c.position + n ≤ c.limit
  | .showBits n => c.position + n ≤ c.limit
  | .signedShow n => c.position + n ≤ c.limit
  | .flush n => n ≤ c.shown
  | .flushUnseen n => c.position + n ≤ c.limit

/-- Bits of which the value is returned. -/
structure Read where
  position : Nat
  count : Fin 33
  signed : Bool

/-- What a call reads. -/
def reads (c : Caller) : Operation → List Read
  | .check _ => []
  | .get n => [⟨c.position, n, false⟩]
  | .signedGet n => [⟨c.position, n, true⟩]
  | .showBits n => [⟨c.position, n, false⟩]
  | .signedShow n => [⟨c.position, n, true⟩]
  | .flush _ => []
  | .flushUnseen _ => []

/-- What calls read. -/
def readsAll (c : Caller) : List Operation → List Read
  | [] => []
  | op :: ops => c.reads op ++ (c.step op).readsAll ops

end Caller

/-! ## Removing the emulation bytes -/

/-- A 3 that follows two zeros. -/
def emulation (payload : Nat → BitVec 8) (i : Nat) : Bool :=
  decide (2 ≤ i) && payload i == 3 && payload (i - 1) == 0 && payload (i - 2) == 0

/-- The first bytes without every such 3. -/
def withoutEmulation (payload : Nat → BitVec 8) (length : Nat) : List (BitVec 8) :=
  kept (fun i => !emulation payload i) payload length

/-- Bytes as their bits. -/
def bitsOf (bytes : List (BitVec 8)) : BitList :=
  ⟨(List.range (8 * bytes.length)).map (byteBit fun i => bytes.getD i 0)⟩

/-- The value of a read of bytes. -/
def Caller.Read.of (r : Read) (bytes : List (BitVec 8)) : BitVec 32 :=
  let value := (BitList.get r.count ⟨(bitsOf bytes).bits.drop r.position⟩).1
  if r.signed then BitStream.signed r.count value else value

end AntiEmulation

end Duckbox.FrameParser
