import Duckbox.FrameParser.AntiEmulationReads

/-!
# The bounds of the anti-emulation buffer

`CheckAntiEmulationBuffer` bounds the request, not what it copies. Its loop counts
`Size + 3` places of the source less those it still holds, and at every 0, 0, 3 it
finds it copies two bytes where it has counted one place, and goes on. The margin of
16 bytes is used up by 13 escapes.

> No copy ends behind the buffer exactly where, for every request that comes to the
> loop, what is kept, the places counted and a byte for every escape found fit
> (`antiEmulationBuffer_bounded_iff`).

Nothing is asked of the reader: it may load another payload at any time, request
whatever it likes and read past what it has requested. Only `Flush` is of bits that
have been shown.
-/

namespace Duckbox.FrameParser.AntiEmulation

open Duckbox.Lib

/-! ## Loading, requesting and reading -/

/-- A payload is loaded, or one of the calls on it. -/
inductive Call where
  | load (source : Nat → BitVec 8)
  | op (o : Operation)

/-- The payload that has been loaded last, and the buffer. -/
structure Session where
  source : Nat → BitVec 8
  reader : Reader

namespace Session

/-- One call; `none` where a copy would end behind the buffer. -/
def step (s : Session) : Call → Option Session
  | .load source =>
    some ⟨source, { s.reader with buffer := loadAntiEmulationBuffer s.reader.buffer.memory }⟩
  | .op o => (s.reader.step s.source o).map fun r => { s with reader := r }

/-- A payload has been loaded, whatever is in memory. -/
def start (source memory : Nat → BitVec 8) : Session :=
  ⟨source, ⟨loadAntiEmulationBuffer memory, []⟩⟩

end Session

/-- How many of the next bits have been shown. -/
def Call.shown (n : Nat) : Call → Nat
  | .load _ => 0
  | .op o => ((⟨0, 0, n⟩ : Caller).step o).shown

/-- "Flush previously shown bits". -/
def Call.Ok (n : Nat) : Call → Prop
  | .op (.flush k) => k ≤ n
  | _ => True

/-! ## What a request keeps -/

/-- The content is inside the buffer, and the memory behind it is as it was. -/
structure Bounded (memory : Nat → BitVec 8) (s : AntiEmulation) : Prop where
  content : s.antiEmulationContent ≤ antiEmulationBufferSize
  behind : ∀ i, antiEmulationBufferSize ≤ i → s.memory i = memory i

variable {memory source : Nat → BitVec 8} {s t : AntiEmulation}

theorem Bounded.copy {n passed : Nat} (h : Bounded memory s)
    (ht : s.copy source n passed = some t) : Bounded memory t := by
  unfold AntiEmulation.copy at ht
  split at ht
  · next hfits =>
    obtain rfl := Option.some.inj ht
    refine ⟨hfits, fun i hi => ?_⟩
    show (if s.antiEmulationContent ≤ i ∧ i < s.antiEmulationContent + n then _ else s.memory i) = _
    rw [if_neg (by omega)]
    exact h.behind i hi
  · cases ht

theorem Bounded.copyLoop {passes : Nat} : ∀ {j : Nat} {s : AntiEmulation}, Bounded memory s →
    AntiEmulation.copyLoop source passes j s = some t → Bounded memory t := by
  induction passes with
  | zero =>
    intro j s h ht
    unfold AntiEmulation.copyLoop at ht
    split at ht
    · obtain rfl := Option.some.inj ht
      exact h
    · exact h.copy ht
  | succ passes ih =>
    intro j s h ht
    unfold AntiEmulation.copyLoop at ht
    split at ht
    · obtain ⟨u, hu, hrest⟩ := Option.bind_eq_some_iff.mp ht
      exact ih (h.copy hu) hrest
    · exact ih h ht

theorem Bounded.refill {size untouched bitsInByte newBase : Nat} (h : Bounded memory s)
    (ht : s.refill source size untouched bitsInByte newBase = some t) : Bounded memory t := by
  obtain ⟨u, hu, ht⟩ := Option.bind_eq_some_iff.mp ht
  obtain rfl := Option.some.inj ht
  have hbounded := h.copyLoop hu
  exact ⟨hbounded.content, hbounded.behind⟩

theorem begun_le_one (s : AntiEmulation) : s.begun ≤ 1 := by
  unfold begun
  split <;> omega

theorem Bounded.shuffle (h : Bounded memory s) : Bounded memory s.shuffle := by
  have hbegun := s.begun_le_one
  have hroom := h.content
  have hbuffer : antiEmulationBufferSize = 1024 := rfl
  have hcontent : s.untouchedBytesInBuffer + s.begun ≤ antiEmulationBufferSize := by
    unfold untouchedBytesInBuffer
    omega
  refine ⟨hcontent, fun i hi => ?_⟩
  show forUpTo _ s.memory (s.untouchedBytesInBuffer + s.begun) i = memory i
  rw [shuffled, if_neg (by omega)]
  exact h.behind i hi

/-! ## When a request fits -/

/-- What a request keeps of the content. -/
def heldContent (s : AntiEmulation) (size : Nat) : Nat :=
  if s.antiEmulationContent = 0 then 0 else s.keptContent size

/-- A request comes to the loop: it is supportable, the buffer has not gone bad and
does not hold enough. -/
def Refills (s : AntiEmulation) (size : Nat) : Prop :=
  size ≤ antiEmulationBufferSize - 16 ∧
    (s.antiEmulationContent = 0 ∨
      s.testAntiEmulationBuffer = true ∧ s.untouchedBytesInBuffer < size)

/-- There is room for what the loop counts, and for a byte more for every 0, 0, 3 it
finds. -/
def Roomy (source : Nat → BitVec 8) (s : AntiEmulation) (size : Nat) : Prop :=
  Refills s size →
    s.heldContent size + (size + 3 - s.untouchedBytesInBuffer)
      + escapes source (size + 3 - s.untouchedBytesInBuffer) s.antiEmulationSource
      ≤ antiEmulationBufferSize

theorem Bounded.check (h : Bounded memory s) (source : Nat → BitVec 8) (size : Nat) :
    ((∃ t, s.checkAntiEmulationBuffer source size = some t) ↔ Roomy source s size) ∧
      ∀ t, s.checkAntiEmulationBuffer source size = some t → Bounded memory t := by
  -- a request that leaves the buffer alone
  have hidle : ¬ Refills s size →
      ((∃ t, some s = some t) ↔ Roomy source s size) ∧ ∀ t, some s = some t → Bounded memory t := by
    intro hno
    refine ⟨iff_of_true ⟨s, rfl⟩ (fun hneeds => absurd hneeds hno), fun t ht => ?_⟩
    obtain rfl := Option.some.inj ht
    exact h
  -- one that goes on with what has been kept
  have hrefill : ∀ (bitsInByte newBase : Nat) {u : AntiEmulation}, Bounded memory u →
      u.antiEmulationSource = s.antiEmulationSource →
      u.antiEmulationContent = s.heldContent size → Refills s size →
      ((∃ t, u.refill source size s.untouchedBytesInBuffer bitsInByte newBase = some t) ↔
          Roomy source s size) ∧
        ∀ t, u.refill source size s.untouchedBytesInBuffer bitsInByte newBase = some t →
          Bounded memory t := by
    intro bitsInByte newBase u hu hsource hheld hneeds
    refine ⟨?_, fun t ht => hu.refill ht⟩
    rw [refill_returns_iff hu.content, hsource, hheld]
    exact ⟨fun hfits _ => hfits, fun hfits => hfits hneeds⟩
  unfold checkAntiEmulationBuffer
  by_cases hsize : antiEmulationBufferSize - 16 < size
  · rw [if_pos hsize]
    exact hidle (fun hneeds => absurd hneeds.1 (Nat.not_le.mpr hsize))
  rw [if_neg hsize]
  have hsize := Nat.le_of_not_lt hsize
  by_cases hempty : s.antiEmulationContent = 0
  · have huntouched : s.untouchedBytesInBuffer = 0 := by
      unfold untouchedBytesInBuffer
      omega
    have hfirst := hrefill 8 0 h rfl
      (by unfold heldContent; rw [if_pos hempty, hempty]) ⟨hsize, .inl hempty⟩
    rw [huntouched] at hfirst
    rw [if_pos hempty]
    exact hfirst
  rw [if_neg hempty]
  cases htest : s.testAntiEmulationBuffer with
  | false =>
    refine hidle (fun hneeds => ?_)
    rcases hneeds.2 with hnone | ⟨hgood, -⟩
    · exact hempty hnone
    · rw [htest] at hgood
      cases hgood
  | true =>
    rw [if_neg (by decide)]
    by_cases henough : size ≤ s.untouchedBytesInBuffer
    · rw [if_pos henough]
      refine hidle (fun hneeds => ?_)
      rcases hneeds.2 with hnone | ⟨-, hfew⟩
      · exact hempty hnone
      · omega
    · rw [if_neg henough]
      have hneeds : Refills s size := ⟨hsize, .inr ⟨htest, Nat.lt_of_not_le henough⟩⟩
      split
      · next hfar =>
        exact hrefill s.bitsInByte 0 h.shuffle rfl
          (by unfold heldContent keptContent; rw [if_neg hempty, if_pos hfar]; rfl) hneeds
      · next hnear =>
        exact hrefill s.bitsInByte s.pointer h rfl
          (by unfold heldContent keptContent; rw [if_neg hempty, if_neg hnear]) hneeds

/-! ## Runs -/

/-- A request is roomy; loading and reading need no room. -/
def Session.Roomy (s : Session) : Call → Prop
  | .op (.check size) => AntiEmulation.Roomy s.source s.reader.buffer size
  | _ => True

theorem Session.step_bounded {s t : Session} {call : Call} (ht : s.step call = some t)
    (h : Bounded memory s.reader.buffer) : Bounded memory t.reader.buffer := by
  cases call with
  | load source =>
    obtain rfl := Option.some.inj ht
    exact ⟨Nat.zero_le _, h.behind⟩
  | op o =>
    obtain ⟨r, hr, rfl⟩ := Option.map_eq_some_iff.mp ht
    cases o with
    | check size =>
      obtain ⟨u, hu, rfl⟩ := Option.map_eq_some_iff.mp hr
      exact (h.check s.source size).2 u hu
    | get | signedGet | showBits | signedShow | flush | flushUnseen =>
      obtain rfl := Option.some.inj hr
      exact ⟨h.content, h.behind⟩

theorem Session.step_returns_iff {s : Session} {call : Call}
    (h : Bounded memory s.reader.buffer) : (∃ t, s.step call = some t) ↔ s.Roomy call := by
  cases call with
  | load source => exact iff_of_true ⟨_, rfl⟩ trivial
  | op o =>
    cases o with
    | check size =>
      refine Iff.trans ?_ (h.check s.source size).1
      constructor
      · rintro ⟨t, ht⟩
        obtain ⟨r, hr, -⟩ := Option.map_eq_some_iff.mp ht
        obtain ⟨u, hu, -⟩ := Option.map_eq_some_iff.mp hr
        exact ⟨u, hu⟩
      · rintro ⟨u, hu⟩
        exact ⟨_, Option.map_eq_some_iff.mpr ⟨_, Option.map_eq_some_iff.mpr ⟨u, hu, rfl⟩, rfl⟩⟩
    | get | signedGet | showBits | signedShow | flush | flushUnseen =>
      exact iff_of_true ⟨_, rfl⟩ trivial

/-- Loads, requests and reads in any order write only inside the buffer, and the
content stays there, exactly where every request that comes to the loop has room. -/
theorem antiEmulationBuffer_bounded_iff (source memory : Nat → BitVec 8) {calls : List Call}
    (_ : Along Call.shown Call.Ok 0 calls) :
    (∃ t, run Session.step (.start source memory) calls = some t ∧
        t.reader.buffer.antiEmulationContent ≤ antiEmulationBufferSize ∧
        ∀ i, antiEmulationBufferSize ≤ i → t.reader.buffer.memory i = memory i) ↔
      Admits Session.step Session.Roomy (.start source memory) calls := by
  have hstart : Bounded memory (Session.start source memory).reader.buffer :=
    ⟨Nat.zero_le _, fun _ _ => rfl⟩
  rw [← run_returns_iff_admits (P := fun s : Session => Bounded memory s.reader.buffer)
    Session.step_returns_iff Session.step_bounded hstart]
  constructor
  · rintro ⟨t, ht, -⟩
    exact ⟨t, ht⟩
  · rintro ⟨t, ht⟩
    have hbounded := run_inv (P := fun s : Session => Bounded memory s.reader.buffer)
      Session.step_bounded ht hstart
    exact ⟨t, ht, hbounded.content, hbounded.behind⟩

instance (s : AntiEmulation) (size : Nat) : Decidable (Refills s size) :=
  inferInstanceAs (Decidable (size ≤ antiEmulationBufferSize - 16 ∧
    (s.antiEmulationContent = 0 ∨
      s.testAntiEmulationBuffer = true ∧ s.untouchedBytesInBuffer < size)))

instance (source : Nat → BitVec 8) (s : AntiEmulation) (size : Nat) :
    Decidable (AntiEmulation.Roomy source s size) :=
  inferInstanceAs (Decidable (Refills s size →
    s.heldContent size + (size + 3 - s.untouchedBytesInBuffer)
      + escapes source (size + 3 - s.untouchedBytesInBuffer) s.antiEmulationSource
      ≤ antiEmulationBufferSize))

instance (s : Session) : ∀ call, Decidable (s.Roomy call)
  | .load _ => inferInstanceAs (Decidable True)
  | .op (.check size) =>
    inferInstanceAs (Decidable (AntiEmulation.Roomy s.source s.reader.buffer size))
  | .op (.get _) | .op (.signedGet _) | .op (.showBits _) | .op (.signedShow _) | .op (.flush _)
  | .op (.flushUnseen _) => inferInstanceAs (Decidable True)

instance (n : Nat) : ∀ call : Call, Decidable (call.Ok n)
  | .op (.flush k) => inferInstanceAs (Decidable (k ≤ n))
  | .load _ | .op (.check _) | .op (.get _) | .op (.signedGet _) | .op (.showBits _)
  | .op (.signedShow _) | .op (.flushUnseen _) => inferInstanceAs (Decidable True)

/-- Two payloads, read past what was requested of the first. -/
theorem antiEmulationBuffer_bounded_reloaded :
    ∃ t, run Session.step (.start codedZeros fun _ => 0)
        [.op (.check 2), .op (.get 32), .op (.showBits 20), .op (.flush 20), .op (.check 4),
          .load codedZeros, .op (.check 8)] = some t ∧
      t.reader.buffer.antiEmulationContent ≤ antiEmulationBufferSize ∧
      ∀ i, antiEmulationBufferSize ≤ i → t.reader.buffer.memory i = 0 :=
  (antiEmulationBuffer_bounded_iff codedZeros (fun _ => 0) (by decide)).mpr (by decide +kernel)

/-- The largest request that is supportable, for zeros as they are coded. -/
theorem antiEmulationBuffer_overrun :
    ¬ ∀ (source memory : Nat → BitVec 8) (calls : List Call),
      Along Call.shown Call.Ok 0 calls →
      (∀ size, Call.op (.check size) ∈ calls → size ≤ antiEmulationBufferSize - 16) →
        ∃ t, run Session.step (.start source memory) calls = some t ∧
          t.reader.buffer.antiEmulationContent ≤ antiEmulationBufferSize ∧
          ∀ i, antiEmulationBufferSize ≤ i → t.reader.buffer.memory i = memory i := by
  intro h
  have hsize : 1008 ≤ antiEmulationBufferSize - 16 := by decide
  obtain ⟨t, ht, -⟩ := h codedZeros (fun _ => 0) [.op (.check 1008)] (by decide) (by
    intro size hmem
    obtain rfl : size = 1008 := by simpa using hmem
    exact hsize)
  have hstart : Bounded (fun _ => 0) (Session.start codedZeros fun _ => 0).reader.buffer :=
    ⟨Nat.zero_le _, fun _ _ => rfl⟩
  obtain ⟨u, hu, -⟩ := Option.bind_eq_some_iff.mp ht
  have hroomy := (Session.step_returns_iff hstart).mp ⟨u, hu⟩
  have hneeds : Refills (loadAntiEmulationBuffer fun _ => 0) 1008 := ⟨hsize, .inl rfl⟩
  have hroom := hroomy hneeds
  have huntouched : (loadAntiEmulationBuffer fun _ => 0).untouchedBytesInBuffer = 0 := rfl
  have hescapes : escapes codedZeros (1008 + 3 - 0)
      (loadAntiEmulationBuffer fun _ => 0).antiEmulationSource = 1011 := escapes_codedZeros 1011 0
  simp only [Session.start, huntouched, hescapes] at hroom
  have hbuffer : antiEmulationBufferSize = 1024 := rfl
  omega

end Duckbox.FrameParser.AntiEmulation
