import Duckbox.FrameParser.BitStreamCodes

/-!
# A stream reads a bit string

The calls of `BitStreamClass_c`, in any order, against a bit string with a
position (`Reader`): `Follows` says that the stream is at the position and holds
what has been shown. Each call keeps it and returns what the bit string has
(`follows_call`), so a run of them does (`stream_reads`).
-/

namespace Duckbox.FrameParser

open Duckbox.Lib

/-- A call on a stream. -/
inductive Call where
  | get (n : Nat)
  | signedGet (n : Nat)
  | showBits (n : Nat)
  | flush (n : Nat)
  | flushUnseen (n : Nat)
  | getUe
  | getSe
deriving DecidableEq, Repr

/-- Calls one after another, with what they return. -/
def runCalls {σ : Type} (call : Call → σ → Option Int × σ) : List Call → σ → List (Option Int) × σ
  | [], s => ([], s)
  | c :: calls, s =>
    ((call c s).1 :: (runCalls call calls (call c s).2).1, (runCalls call calls (call c s).2).2)

/-- The stream's: an `unsigned int`, an `int`, or nothing. -/
def BitStream.call (m : Nat → BitVec 8) : Call → BitStream → Option Int × BitStream
  | .get n, s => (some (s.get m n).1.toNat, (s.get m n).2)
  | .signedGet n, s => (some (s.signedGet m n).1.toInt, (s.signedGet m n).2)
  | .showBits n, s => (some (s.showBits m n).1.toNat, (s.showBits m n).2)
  | .flush n, s => (none, s.flush n)
  | .flushUnseen n, s => (none, s.flushUnseen m n)
  | .getUe, s => (some (s.getUe m).1.toNat, (s.getUe m).2)
  | .getSe, s => (some (s.getSe m).1.toInt, (s.getSe m).2)

/-! ## The bit string -/

/-- A position in a bit string, and how far it has been shown. -/
structure Reader where
  position : Nat
  shown : Nat
deriving DecidableEq, Repr

namespace Reader

/-- The field of `n` bits at a position. -/
def field (f : Nat → Bool) (p n : Nat) : Nat := numeral (fun i => f (p + i)) n

/-- A field with a sign; one bit has none. -/
def signedField (n value : Nat) : Int := if n = 1 then value else twosComplement n value

def advance (r : Reader) (n : Nat) : Reader := { r with position := r.position + n }

def call (f : Nat → Bool) : Call → Reader → Option Int × Reader
  | .get n, r => (some (field f r.position n), r.advance n)
  | .signedGet n, r => (some (signedField n (field f r.position n)), r.advance n)
  | .showBits n, r =>
    (some (field f r.position n), { r with shown := max r.shown (r.position + n) })
  | .flush n, r => (none, r.advance n)
  | .flushUnseen n, r => (none, r.advance n)
  | .getUe, r => (some (codeAt f r.position), r.advance (codeLength f r.position))
  | .getSe, r => (some (signedCode (codeAt f r.position)), r.advance (codeLength f r.position))

/-- A field has 1 to 32 bits, what is flushed has been shown, and a code has at most 31
zeros in front. -/
def Allowed (f : Nat → Bool) : Call → Reader → Prop
  | .get n, _ => 1 ≤ n ∧ n ≤ 32
  | .signedGet n, _ => 1 ≤ n ∧ n ≤ 32
  | .showBits n, _ => 1 ≤ n ∧ n ≤ 32
  | .flush n, r => r.position + n ≤ r.shown
  | .flushUnseen _, _ => True
  | .getUe, r => zerosAt f r.position 32 ≤ 31
  | .getSe, r => zerosAt f r.position 32 ≤ 31

instance (f : Nat → Bool) : (c : Call) → (r : Reader) → Decidable (Allowed f c r)
  | .get _, _ => inferInstanceAs (Decidable (_ ∧ _))
  | .signedGet _, _ => inferInstanceAs (Decidable (_ ∧ _))
  | .showBits _, _ => inferInstanceAs (Decidable (_ ∧ _))
  | .flush _, _ => inferInstanceAs (Decidable (_ ≤ _))
  | .flushUnseen _, _ => inferInstanceAs (Decidable True)
  | .getUe, _ => inferInstanceAs (Decidable (_ ≤ _))
  | .getSe, _ => inferInstanceAs (Decidable (_ ≤ _))

/-- Every call of a run is allowed. -/
def AllowedRun (f : Nat → Bool) : List Call → Reader → Prop
  | [], _ => True
  | c :: calls, r => Allowed f c r ∧ AllowedRun f calls (call f c r).2

end Reader

/-! ## Each call -/

/-- The stream is at the position, and the words it has loaded hold what has been shown. -/
structure Follows (m : Nat → BitVec 8) (s : BitStream) (r : Reader) : Prop where
  position : s.At m r.position
  shown : r.shown ≤ 32 * s.bitsData

namespace BitStream

variable {m : Nat → BitVec 8} {s : BitStream} {r : Reader} {n : Nat}

/-! No call goes back to a word. -/

theorem bitsData_ensure (s : BitStream) (n : Nat) : s.bitsData ≤ (s.ensure m n).bitsData := by
  unfold ensure
  split
  · exact Nat.le_succ _
  · exact Nat.le_refl _

theorem bitsData_get (s : BitStream) (n : Nat) : s.bitsData ≤ (s.get m n).2.bitsData :=
  bitsData_ensure s n

theorem bitsData_flushUnseen (s : BitStream) (n : Nat) :
    s.bitsData ≤ (s.flushUnseen m n).bitsData := by
  induction n using Nat.strong_induction_on generalizing s with
  | _ n ih =>
    unfold flushUnseen
    split
    · next hmany => exact Nat.le_trans (Nat.le_succ _) (ih (n - 32) (by omega) (s.load m))
    · exact bitsData_ensure s n

theorem bitsData_getUe (s : BitStream) : s.bitsData ≤ (s.getUe m).2.bitsData := by
  unfold getUe
  dsimp only
  have hshown := bitsData_ensure (m := m) s 32
  split
  · have hget := bitsData_get (m := m) (flush (lzcntw (showBits m 32 s).1 + 1) (showBits m 32 s).2)
      (lzcntw (showBits m 32 s).1)
    exact Nat.le_trans hshown hget
  · exact hshown

end BitStream

section Calls

variable {m : Nat → BitVec 8} {s : BitStream} {r : Reader} {n : Nat}

theorem Follows.advance {s' : BitStream} (h : Follows m s r) (hat : s'.At m (r.position + n))
    (hdata : s.bitsData ≤ s'.bitsData) : Follows m s' (r.advance n) :=
  ⟨hat, Nat.le_trans h.shown (Nat.mul_le_mul_left 32 hdata)⟩

theorem follows_get (h : Follows m s r) (hn : n ≤ 32) :
    (s.get m n).1.toNat = Reader.field (byteBit m) r.position n ∧
      Follows m (s.get m n).2 (r.advance n) := by
  obtain ⟨hvalue, hat, -⟩ := h.position.get hn
  exact ⟨hvalue, h.advance hat (BitStream.bitsData_get s n)⟩

theorem signedField_toInt {value : BitVec 32} (hn : 1 ≤ n ∧ n ≤ 32) (hvalue : value.toNat < 2 ^ n) :
    (BitStream.signed n value).toInt = Reader.signedField n value.toNat := by
  unfold Reader.signedField
  by_cases hone : n = 1
  · obtain rfl := hone
    rw [if_pos rfl]
    unfold BitStream.signed
    rw [if_neg (by omega), BitVec.toInt_eq_toNat_of_lt (by omega)]
  · rw [if_neg hone]
    exact signed_toInt (by omega) hn.2 hvalue

theorem follows_call (h : Follows m s r) (c : Call) (hc : Reader.Allowed (byteBit m) c r) :
    (s.call m c).1 = (Reader.call (byteBit m) c r).1 ∧
      Follows m (s.call m c).2 (Reader.call (byteBit m) c r).2 := by
  cases c with
  | get n =>
    obtain ⟨hvalue, hfollows⟩ := follows_get h hc.2
    exact ⟨congrArg (fun x : Nat => some (x : Int)) hvalue, hfollows⟩
  | signedGet n =>
    obtain ⟨hvalue, hfollows⟩ := follows_get h hc.2
    refine ⟨congrArg some ?_, hfollows⟩
    show (BitStream.signed n (s.get m n).1).toInt = _
    rw [signedField_toInt hc (by rw [hvalue]; exact numeral_lt _ n), hvalue]
  | showBits n =>
    obtain ⟨hvalue, hat, henough, -⟩ := h.position.showBits hc.2
    refine ⟨congrArg (fun x : Nat => some (x : Int)) hvalue, hat, ?_⟩
    have hshown := h.shown
    have hdata := BitStream.bitsData_ensure (m := m) s n
    have hposition := hat.data
    show max r.shown (r.position + n) ≤ 32 * (s.ensure m n).bitsData
    replace hposition : 32 * (s.ensure m n).bitsData = _ := hposition
    omega
  | flush n =>
    have hshown := h.shown
    have hdata := h.position.data
    have hc : r.position + n ≤ r.shown := hc
    exact ⟨rfl, h.advance (h.position.flush (by omega)) (Nat.le_refl _)⟩
  | flushUnseen n =>
    exact ⟨rfl, h.advance h.position.flushUnseen.1 (BitStream.bitsData_flushUnseen s n)⟩
  | getUe =>
    obtain ⟨hvalue, hat⟩ := h.position.getUe hc
    exact ⟨congrArg (fun x : Nat => some (x : Int)) hvalue,
      h.advance hat (BitStream.bitsData_getUe s)⟩
  | getSe =>
    obtain ⟨hvalue, hat⟩ := h.position.getSe hc
    exact ⟨congrArg some hvalue, h.advance hat (BitStream.bitsData_getUe s)⟩

/-! ## Every run -/

theorem follows_run (calls : List Call) (h : Follows m s r)
    (hcalls : Reader.AllowedRun (byteBit m) calls r) :
    (runCalls (BitStream.call m) calls s).1 = (runCalls (Reader.call (byteBit m)) calls r).1 ∧
      Follows m (runCalls (BitStream.call m) calls s).2
        (runCalls (Reader.call (byteBit m)) calls r).2 := by
  induction calls generalizing s r with
  | nil => exact ⟨rfl, h⟩
  | cons c calls ih =>
    obtain ⟨hvalue, hnext⟩ := follows_call h c hcalls.1
    obtain ⟨hvalues, hlast⟩ := ih hnext hcalls.2
    exact ⟨congrArg₂ List.cons hvalue hvalues, hlast⟩

end Calls

/-- A stream set to a byte of the memory, and the bit string from there. -/
def startAt (pointer : Nat) : Reader := ⟨8 * pointer, 8 * pointer⟩

theorem follows_setPointer (m : Nat → BitVec 8) (pointer : Nat) :
    Follows m (BitStream.setPointer m pointer) (startAt pointer) := by
  have hat := BitStream.at_setPointer m pointer
  have hdata := hat.data
  refine ⟨hat, ?_⟩
  show 8 * pointer ≤ _
  omega

/-- Every run of calls returns what the bit string has; then `GetPosition` gives its
position, and the bits held are those up to the words not loaded, at most 63. -/
theorem stream_reads (m : Nat → BitVec 8) (pointer : Nat) (calls : List Call)
    (hcalls : Reader.AllowedRun (byteBit m) calls (startAt pointer)) :
    (runCalls (BitStream.call m) calls (BitStream.setPointer m pointer)).1 =
        (runCalls (Reader.call (byteBit m)) calls (startAt pointer)).1 ∧
      (runCalls (BitStream.call m) calls (BitStream.setPointer m pointer)).2.getPosition =
        ((runCalls (Reader.call (byteBit m)) calls (startAt pointer)).2.position / 8,
          8 - (runCalls (Reader.call (byteBit m)) calls (startAt pointer)).2.position % 8) ∧
      (runCalls (BitStream.call m) calls (BitStream.setPointer m pointer)).2.bitsAvailable ≤ 63 ∧
      32 * (runCalls (BitStream.call m) calls (BitStream.setPointer m pointer)).2.bitsData =
        (runCalls (Reader.call (byteBit m)) calls (startAt pointer)).2.position +
          (runCalls (BitStream.call m) calls (BitStream.setPointer m pointer)).2.bitsAvailable := by
  obtain ⟨hvalues, hfollows⟩ := follows_run calls (follows_setPointer m pointer) hcalls
  have hat := hfollows.position
  exact ⟨hvalues, hat.getPosition, Nat.le_of_lt_succ hat.available, hat.data⟩

/-- Bytes of 10110100 from the second on: 10, 11, 010 and 010 again. -/
theorem stream_reads_codes :
    (runCalls (BitStream.call fun _ => 0b10110100) [.showBits 2, .flush 2, .signedGet 2, .getUe, .getSe]
      (BitStream.setPointer (fun _ => 0b10110100) 1)).1 = [some 2, none, some (-1), some 1, some 1] := by
  have hcalls : Reader.AllowedRun (byteBit fun _ => 0b10110100)
      [.showBits 2, .flush 2, .signedGet 2, .getUe, .getSe] (startAt 1) := by
    refine ⟨?_, ?_, ?_, ?_, ?_, trivial⟩ <;> decide +kernel
  rw [(stream_reads (fun _ => 0b10110100) 1 _ hcalls).1]
  decide +kernel

/-- A single bit set is read as 1, not as -1. -/
theorem signedGet_one :
    Reader.Allowed (byteBit fun _ => 0xff) (.signedGet 1) (startAt 0) ∧
      (BitStream.call (fun _ => 0xff) (.signedGet 1) (BitStream.setPointer (fun _ => 0xff) 0)).1 =
        some 1 ∧
      twosComplement 1 (Reader.field (byteBit fun _ => 0xff) 0 1) = -1 := by
  decide +kernel

end Duckbox.FrameParser
