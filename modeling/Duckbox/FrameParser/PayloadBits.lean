import Duckbox.FrameParser.AntiEmulationBounds
import Duckbox.FrameParser.BitStreamCodes

/-!
# Reading a payload

`Bits` over the anti-emulation buffer, with the payload it has been loaded with: the
`BitSource` that the frame parsers read their headers from. A call on the stream leaves the
buffer alone, and a request for bytes returns exactly where there is room
(`checkAntiEmulationBuffer_isSome_iff`).
-/

namespace Duckbox.FrameParser

open AntiEmulation

/-- `MoreRsbpData`; a zero byte follows. -/
def BitStream.moreRsbpData (m : Nat → BitVec 8) (s : BitStream) : Bool × BitStream :=
  let bitsInByte := s.getPosition.2 + 8
  let shown := s.showBits m bitsInByte
  (shown.1 != 1#32 <<< (bitsInByte - 1), shown.2)

/-- The members for the buffer, and where it was loaded from. -/
structure Payload where
  source : Nat → BitVec 8
  buffer : AntiEmulation

namespace Payload

/-- A call on the stream. -/
def call {A : Type} (f : (Nat → BitVec 8) → BitStream → A × BitStream) (p : Payload) :
    A × Payload :=
  let got := f p.buffer.memory p.buffer.bits
  (got.1, { p with buffer := { p.buffer with bits := got.2 } })

instance : BitSource Payload where
  get n := call fun m s => s.get m n
  getUe := call BitStream.getUe
  getSe := call BitStream.getSe
  moreRsbpData := call BitStream.moreRsbpData
  checkAntiEmulationBuffer size p :=
    (p.buffer.checkAntiEmulationBuffer p.source size).map fun buffer => { p with buffer := buffer }
  testAntiEmulationBuffer p := p.buffer.testAntiEmulationBuffer

variable {memory : Nat → BitVec 8} {p q : Payload} {size : Nat}

theorem call_bounded {A : Type} (f : (Nat → BitVec 8) → BitStream → A × BitStream)
    (h : Bounded memory p.buffer) : Bounded memory (p.call f).2.buffer :=
  ⟨h.content, h.behind⟩

theorem checkAntiEmulationBuffer_bounded (h : Bounded memory p.buffer)
    (hq : BitSource.checkAntiEmulationBuffer size p = some q) : Bounded memory q.buffer := by
  obtain ⟨buffer, hbuffer, rfl⟩ := Option.map_eq_some_iff.mp hq
  exact (h.check p.source size).2 buffer hbuffer

theorem checkAntiEmulationBuffer_isSome_iff (h : Bounded memory p.buffer) :
    (BitSource.checkAntiEmulationBuffer size p).isSome ↔ Roomy p.source p.buffer size := by
  show ((p.buffer.checkAntiEmulationBuffer p.source size).map _).isSome ↔ _
  rw [Option.isSome_map, Option.isSome_iff_exists]
  exact (h.check p.source size).1

end Payload

end Duckbox.FrameParser
