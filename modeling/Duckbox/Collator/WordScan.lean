import Duckbox.Collator.Scan
import Duckbox.Collator.StartCodeReads

/-!
# The search for a start code by words

The other body of `FindNextStartCode`, which is compiled with `WYPLAY_OPTIMIZE`.
`FindStartCode` goes over the aligned words of the data until there is a zero byte in
one, and only then looks at the bytes; on an SH4 in assembler, where the word behind the
last is loaded too, for the load stands in the delay slot of the branch back.

Addresses are those of the memory; a read of a word that is not aligned has no result,
nor has one of a byte that may not be read.

> `findNextStartCode_agree`: all of them find the first start code, or that there is none.
-/

namespace Duckbox.Collator

open Lib (areValues areValues_three word zeroFlags zeroFlags_eq_zero)

/-- Data in the memory. It is smaller than half of the address space, as all that
pointers into it are subtracted of. -/
structure DataBuffer where
  address : Nat
  bytes : List Byte
  small : bytes.length < 2 ^ 31

namespace DataBuffer

variable (b : DataBuffer)

/-- The memory, of which only the data may be read. -/
def read (p : Nat) : Option Byte := if b.address ≤ p then b.bytes[p - b.address]? else none

/-- The memory with something around the data. -/
def memory (around : Nat → Byte) (p : Nat) : Byte := (b.read p).getD (around p)

end DataBuffer

namespace WordScan

section

variable (read : Nat → Option Byte)

/-- `*p.i`. -/
def readWord (p : Nat) : Option (BitVec 32) :=
  if p % 4 = 0 then
    (read p).bind fun b0 => (read (p + 1)).bind fun b1 => (read (p + 2)).bind fun b2 =>
      (read (p + 3)).map fun b3 => word b3 b2 b1 b0
  else none

/-- What a loop over bytes comes to. -/
inductive Scanned where
  | found (p : Nat)
  | upTo (p : Nat)

/-- `0 == p.c[0] && 0 == p.c[1] && 1 == p.c[2]`. -/
def startsCode (p : Nat) : Option Bool := areValues read [(p, 0), (p + 1, 0), (p + 2, 1)]

variable (fin : Nat)

/-- "Check any unaligned values at the start of the block". -/
def scanUnaligned : Nat → Nat → Option Scanned
  | 0, p => some (.upTo p)
  | n + 1, p =>
    if p % 4 ≠ 0 ∧ p < fin then
      (startsCode read p).bind fun code => if code then some (.found p) else scanUnaligned n (p + 1)
    else some (.upTo p)

/-- "We have (up to) four possible candidates". -/
def scanCandidates : Nat → Nat → Option Scanned
  | 0, p => some (.upTo p)
  | n + 1, p =>
    if p < fin then
      (startsCode read p).bind fun code => if code then some (.found p) else scanCandidates n (p + 1)
    else some (.upTo p)

/-- "Perform an accelerated scan", up to `alend`. -/
def skipWords (alend : Nat) : Nat → Nat → Option Nat
  | 0, p => some p
  | fuel + 1, p =>
    if p < alend then
      (readWord read p).bind fun n => if zeroFlags n ≠ 0 then some p else skipWords alend fuel (p + 4)
    else some p

/-- The scan in assembler, with the word that has been loaded at `p`. -/
def skipLoadedWords (alend : Nat) : Nat → Nat → BitVec 32 → Option Nat
  | 0, p, _ => some p
  | fuel + 1, p, n =>
    -- cmp/str with zero
    if n.setWidth 8 = 0#8 ∨ (n >>> 8).setWidth 8 = 0#8 ∨ (n >>> 16).setWidth 8 = 0#8 ∨
        (n >>> 24).setWidth 8 = 0#8 then some p
    else
      -- the delay slot of the branch back
      (readWord read (p + 4)).bind fun next =>
        if p + 4 < alend then skipLoadedWords alend fuel (p + 4) next else some (p + 4)

def skipWordsSh4 (alend : Nat) (fuel p : Nat) : Option Nat :=
  (readWord read p).bind fun n => skipLoadedWords read alend fuel p n

variable (skip : Nat → Nat → Option Nat)

/-- The loop of `FindStartCode`. -/
def scanBlock : Nat → Nat → Option (Option Nat)
  | 0, _ => some none
  | fuel + 1, p =>
    if p < fin then
      (skip fuel p).bind fun p => (scanCandidates read fin 4 p).bind fun
        | .found p => some (some p)
        | .upTo p => scanBlock fuel p
    else some none

end

variable (read : Nat → Option Byte) (accelerate : Nat → Nat → Nat → Option Nat)

/-- `FindStartCode`: where the code is. -/
def findStartCode (d : Nat) (len : Int) : Option (Option Nat) :=
  let fin := ((d : Int) + (len - 3)).toNat
  let alend := fin / 4 * 4
  (scanUnaligned read fin 4 d).bind fun
    | .found p => some (some p)
    | .upTo p => scanBlock read fin (accelerate alend) (fin - p + 1) p

variable (ignored : Byte → Bool)

/-- The loop of `FindNextStartCode` over the codes that are found. -/
def searchCodes (remainingData : Nat) (remainingLength : BitVec 32) : Nat → Nat → Int →
    Option (Option Nat)
  | 0, _, _ => some none
  | fuel + 1, startCode, dataLeft =>
    (findStartCode read accelerate startCode dataLeft).bind fun
      | none => some none
      | some nextCode =>
        let offset := nextCode - remainingData
        (read (nextCode + 3)).bind fun c =>
          if ignored c then
            let dataLeft := (remainingLength - BitVec.ofNat 32 (offset + 1)).toInt
            if 3 < dataLeft then
              searchCodes remainingData remainingLength fuel (nextCode + 1) dataLeft
            else some none
          else some (some offset)

/-- `FindNextStartCode` with `WYPLAY_OPTIMIZE`: the `CodeOffset`. -/
def findNextStartCode (b : DataBuffer) : Option (Option Nat) :=
  if b.bytes.length < 4 then some none
  else
    let remainingLength := BitVec.ofNat 32 b.bytes.length
    searchCodes read accelerate ignored b.address remainingLength b.bytes.length b.address
      remainingLength.toInt

/-! ## What the loops find -/

section

variable {read : Nat → Option Byte} {m : Nat → Byte} {low high : Nat}

/-- The bytes of a start code without its last. -/
def Starts (m : Nat → Byte) (p : Nat) : Prop := m p = 0 ∧ m (p + 1) = 0 ∧ m (p + 2) = 1

theorem startsCode_eq (hread : ∀ p, low ≤ p → p < high → read p = some (m p)) {p : Nat}
    (hlow : low ≤ p) (hhigh : p + 2 < high) :
    startsCode read p = some (decide (m p = 0 ∧ m (p + 1) = 0 ∧ m (p + 2) = 1)) :=
  areValues_three (hread p hlow (by omega)) (hread (p + 1) (by omega) (by omega))
    (hread (p + 2) (by omega) hhigh)

/-- The first place from `p` on, if there is one before `fin`. -/
def FirstFrom (m : Nat → Byte) (p fin : Nat) : Option Nat → Prop
  | some q => p ≤ q ∧ q < fin ∧ Starts m q ∧ ∀ k, p ≤ k → k < q → ¬ Starts m k
  | none => ∀ k, p ≤ k → k < fin → ¬ Starts m k

theorem FirstFrom.of_skipped {p q fin : Nat} {r : Option Nat} (h : FirstFrom m q fin r) (hle : p ≤ q)
    (hskipped : ∀ k, p ≤ k → k < q → ¬ Starts m k) : FirstFrom m p fin r := by
  cases r with
  | some n =>
    obtain ⟨hqn, hn, hstarts, hbefore⟩ := h
    refine ⟨by omega, hn, hstarts, fun k hk hlt => ?_⟩
    by_cases hkq : k < q
    · exact hskipped k hk hkq
    · exact hbefore k (by omega) hlt
  | none =>
    intro k hk hlt
    by_cases hkq : k < q
    · exact hskipped k hk hkq
    · exact h k (by omega) hlt

/-- What a loop over bytes from `p` on may come to. -/
def Scanned.Fits (m : Nat → Byte) (p fin : Nat) : Scanned → Prop
  | .found q => FirstFrom m p fin (some q)
  | .upTo q => p ≤ q ∧ ∀ k, p ≤ k → k < q → ¬ Starts m k

theorem Scanned.Fits.of_next {p fin : Nat} {r : Scanned} (h : r.Fits m (p + 1) fin)
    (hnot : ¬ Starts m p) : r.Fits m p fin := by
  have hskipped : ∀ k, p ≤ k → k < p + 1 → ¬ Starts m k := by
    intro k hk hlt
    obtain rfl : k = p := by omega
    exact hnot
  cases r with
  | found q => exact FirstFrom.of_skipped (r := some q) h (by omega) hskipped
  | upTo q =>
    obtain ⟨hle, hbefore⟩ := h
    refine ⟨by omega, fun k hk hlt => ?_⟩
    by_cases hkp : k < p + 1
    · exact hskipped k hk hkp
    · exact hbefore k (by omega) hlt

theorem scanUnaligned_spec (hread : ∀ p, low ≤ p → p < high → read p = some (m p)) {fin : Nat}
    (hfin : fin + 3 ≤ high) (n : Nat) : ∀ {p : Nat}, low ≤ p → p % 4 = 0 ∨ 4 ≤ n + p % 4 →
      ∃ r, scanUnaligned read fin n p = some r ∧ r.Fits m p fin ∧
        ∀ q, r = .upTo q → q % 4 = 0 ∨ fin ≤ q := by
  induction n with
  | zero =>
    intro p _ hn
    refine ⟨_, rfl, ⟨Nat.le_refl p, fun k hk hlt => by omega⟩, ?_⟩
    rintro q ⟨⟩
    omega
  | succ n ih =>
    intro p hp hn
    unfold scanUnaligned
    split
    · next hgo =>
      rw [startsCode_eq hread hp (by omega), Option.bind_some]
      simp only [decide_eq_true_eq]
      split
      · next hstarts =>
        exact ⟨_, rfl, ⟨Nat.le_refl p, hgo.2, hstarts, fun k hk hlt => by omega⟩,
          fun q hq => nomatch hq⟩
      · next hnot =>
        obtain ⟨r, heq, hfits, haligned⟩ := ih (p := p + 1) (by omega) (by omega)
        exact ⟨r, heq, hfits.of_next hnot, haligned⟩
    · next hstop =>
      refine ⟨_, rfl, ⟨Nat.le_refl p, fun k hk hlt => by omega⟩, ?_⟩
      rintro q ⟨⟩
      omega

theorem scanCandidates_spec (hread : ∀ p, low ≤ p → p < high → read p = some (m p)) {fin : Nat}
    (hfin : fin + 3 ≤ high) (n : Nat) : ∀ {p : Nat}, low ≤ p →
      ∃ r, scanCandidates read fin n p = some r ∧ r.Fits m p fin ∧
        ∀ q, r = .upTo q → q = p + n ∨ fin ≤ q := by
  induction n with
  | zero =>
    intro p _
    refine ⟨_, rfl, ⟨Nat.le_refl p, fun k hk hlt => by omega⟩, ?_⟩
    rintro q ⟨⟩
    exact .inl rfl
  | succ n ih =>
    intro p hp
    unfold scanCandidates
    split
    · next hlt =>
      rw [startsCode_eq hread hp (by omega), Option.bind_some]
      simp only [decide_eq_true_eq]
      split
      · next hstarts =>
        exact ⟨_, rfl, ⟨Nat.le_refl p, hlt, hstarts, fun k hk hlt => by omega⟩,
          fun q hq => nomatch hq⟩
      · next hnot =>
        obtain ⟨r, heq, hfits, hwhere⟩ := ih (p := p + 1) (by omega)
        refine ⟨r, heq, hfits.of_next hnot, fun q hq => ?_⟩
        have := hwhere q hq
        omega
    · next hstop =>
      refine ⟨_, rfl, ⟨Nat.le_refl p, fun k hk hlt => by omega⟩, ?_⟩
      rintro q ⟨⟩
      exact .inr (by omega)

/-- What an accelerated scan passes over begins no code. -/
def Accelerates (m : Nat → Byte) (low fin : Nat) (skip : Nat → Nat → Option Nat) : Prop :=
  ∀ fuel p, low ≤ p → p % 4 = 0 → p < fin →
    ∃ q, skip fuel p = some q ∧ p ≤ q ∧ q % 4 = 0 ∧ ∀ k, p ≤ k → k < q → m k ≠ 0

theorem scanBlock_spec (hread : ∀ p, low ≤ p → p < high → read p = some (m p)) {fin : Nat}
    (hfin : fin + 3 ≤ high) {skip : Nat → Nat → Option Nat} (hskip : Accelerates m low fin skip)
    (fuel : Nat) : ∀ {p : Nat}, low ≤ p → p % 4 = 0 ∨ fin ≤ p → fin < p + fuel →
      ∃ r, scanBlock read fin skip fuel p = some r ∧ FirstFrom m p fin r := by
  induction fuel with
  | zero => intro p _ _ hfuel; exact ⟨none, rfl, fun k hk hlt => by omega⟩
  | succ fuel ih =>
    intro p hp haligned hfuel
    unfold scanBlock
    split
    · next hlt =>
      obtain ⟨q, hq, hle, hqaligned, hpassed⟩ := hskip fuel p hp (by omega) hlt
      have hskipped : ∀ k, p ≤ k → k < q → ¬ Starts m k :=
        fun k hk hlt hstarts => hpassed k hk hlt hstarts.1
      obtain ⟨r, hr, hfits, hwhere⟩ := scanCandidates_spec hread hfin 4 (p := q) (by omega)
      rw [hq, Option.bind_some, hr, Option.bind_some]
      cases r with
      | found n => exact ⟨some n, rfl, FirstFrom.of_skipped hfits hle hskipped⟩
      | upTo n =>
        obtain ⟨hqn, hbefore⟩ := hfits
        have hn := hwhere n rfl
        obtain ⟨r, heq, hfirst⟩ := ih (p := n) (by omega) (by omega) (by omega)
        refine ⟨r, heq, hfirst.of_skipped (by omega) fun k hk hlt => ?_⟩
        by_cases hkq : k < q
        · exact hskipped k hk hkq
        · exact hbefore k (by omega) hlt
    · exact ⟨none, rfl, fun k hk hlt => by omega⟩

theorem findStartCode_spec (hread : ∀ p, low ≤ p → p < high → read p = some (m p))
    {accelerate : Nat → Nat → Nat → Option Nat} (d : Nat) (len : Int) (hlen : 3 < len)
    (hhigh : (d : Int) + len = high) (hlow : low ≤ d)
    (hskip : Accelerates m low (high - 3) (accelerate ((high - 3) / 4 * 4))) :
    ∃ r, findStartCode read accelerate d len = some r ∧ FirstFrom m d (high - 3) r := by
  have hfin : ((d : Int) + (len - 3)).toNat = high - 3 := by omega
  unfold findStartCode
  simp only [hfin]
  obtain ⟨r, hr, hfits, haligned⟩ := scanUnaligned_spec hread (show high - 3 + 3 ≤ high by omega) 4
    hlow (by omega)
  rw [hr, Option.bind_some]
  cases r with
  | found p => exact ⟨some p, rfl, hfits⟩
  | upTo p =>
    obtain ⟨hle, hbefore⟩ := hfits
    obtain ⟨r, heq, hfirst⟩ := scanBlock_spec hread (show high - 3 + 3 ≤ high by omega) hskip
      (high - 3 - p + 1) (p := p) (by omega) (haligned p rfl) (by omega)
    exact ⟨r, heq, hfirst.of_skipped hle hbefore⟩

/-! ## The accelerated scans -/

theorem readWord_eq {p : Nat} (haligned : p % 4 = 0)
    (hread : ∀ k, p ≤ k → k < p + 4 → read k = some (m k)) :
    readWord read p = some (word (m (p + 3)) (m (p + 2)) (m (p + 1)) (m p)) := by
  unfold readWord
  rw [if_pos haligned, hread p (by omega) (by omega), hread (p + 1) (by omega) (by omega),
    hread (p + 2) (by omega) (by omega), hread (p + 3) (by omega) (by omega)]
  rfl

theorem passed_word {p k : Nat} (h : m (p + 3) ≠ 0 ∧ m (p + 2) ≠ 0 ∧ m (p + 1) ≠ 0 ∧ m p ≠ 0)
    (hle : p ≤ k) (hlt : k < p + 4) : m k ≠ 0 := by
  obtain rfl | rfl | rfl | rfl : k = p ∨ k = p + 1 ∨ k = p + 2 ∨ k = p + 3 := by omega
  · exact h.2.2.2
  · exact h.2.2.1
  · exact h.2.1
  · exact h.1

theorem skipWords_spec (hread : ∀ p, low ≤ p → p < high → read p = some (m p)) {alend : Nat}
    (halend : alend ≤ high) (hend : alend % 4 = 0) (fuel : Nat) : ∀ {p : Nat}, low ≤ p → p % 4 = 0 →
      ∃ q, skipWords read alend fuel p = some q ∧ p ≤ q ∧ q % 4 = 0 ∧
        ∀ k, p ≤ k → k < q → m k ≠ 0 := by
  induction fuel with
  | zero => intro p _ haligned; exact ⟨p, rfl, Nat.le_refl p, haligned, fun k hk hlt => by omega⟩
  | succ fuel ih =>
    intro p hp haligned
    unfold skipWords
    split
    · next hlt =>
      rw [readWord_eq haligned fun k hk hk4 => hread k (by omega) (by omega), Option.bind_some]
      split
      · exact ⟨p, rfl, Nat.le_refl p, haligned, fun k hk hlt => by omega⟩
      · next hflags =>
        have hnone := (zeroFlags_eq_zero _ _ _ _).mp (not_not.mp hflags)
        obtain ⟨q, heq, hle, hqaligned, hpassed⟩ := ih (p := p + 4) (by omega) (by omega)
        refine ⟨q, heq, by omega, hqaligned, fun k hk hkq => ?_⟩
        by_cases hfirst : k < p + 4
        · exact passed_word hnone hk hfirst
        · exact hpassed k (by omega) hkq
    · exact ⟨p, rfl, Nat.le_refl p, haligned, fun k hk hlt => by omega⟩

theorem word_bytes (a b c d : Byte) : (word a b c d).setWidth 8 = d ∧
    (word a b c d >>> 8).setWidth 8 = c ∧ (word a b c d >>> 16).setWidth 8 = b ∧
    (word a b c d >>> 24).setWidth 8 = a := by
  have ha := a.isLt
  have hb := b.isLt
  have hc := c.isLt
  have hd := d.isLt
  refine ⟨?_, ?_, ?_, ?_⟩
  all_goals
    apply BitVec.eq_of_toNat_eq
    simp only [BitVec.toNat_setWidth, BitVec.toNat_ushiftRight, Nat.shiftRight_eq_div_pow,
      Lib.word_toNat]
    omega

theorem skipLoadedWords_spec (hread : ∀ p, read p = some (m p)) (alend fuel : Nat) :
    ∀ {p : Nat}, p % 4 = 0 →
      ∃ q, skipLoadedWords read alend fuel p (word (m (p + 3)) (m (p + 2)) (m (p + 1)) (m p))
          = some q ∧ p ≤ q ∧ q % 4 = 0 ∧ ∀ k, p ≤ k → k < q → m k ≠ 0 := by
  induction fuel with
  | zero => intro p haligned; exact ⟨p, rfl, Nat.le_refl p, haligned, fun k hk hlt => by omega⟩
  | succ fuel ih =>
    intro p haligned
    obtain ⟨h0, h1, h2, h3⟩ := word_bytes (m (p + 3)) (m (p + 2)) (m (p + 1)) (m p)
    unfold skipLoadedWords
    rw [h0, h1, h2, h3, readWord_eq (p := p + 4) (by omega) fun k _ _ => hread k, Option.bind_some]
    split
    · exact ⟨p, rfl, Nat.le_refl p, haligned, fun k hk hlt => by omega⟩
    · next hnone =>
      simp only [not_or] at hnone
      have hpassed : ∀ k, p ≤ k → k < p + 4 → m k ≠ 0 := fun k hk hlt =>
        passed_word ⟨hnone.2.2.2, hnone.2.2.1, hnone.2.1, hnone.1⟩ hk hlt
      split
      · obtain ⟨q, heq, hle, hqaligned, hmore⟩ := ih (p := p + 4) (by omega)
        refine ⟨q, heq, by omega, hqaligned, fun k hk hkq => ?_⟩
        by_cases hfirst : k < p + 4
        · exact hpassed k hk hfirst
        · exact hmore k (by omega) hkq
      · exact ⟨p + 4, rfl, by omega, by omega, hpassed⟩

end

/-! ## Over the codes that are ignored -/

section

variable {b : DataBuffer} {ignored : Byte → Bool} {read : Nat → Option Byte}
  {accelerate : Nat → Nat → Nat → Option Nat}

theorem byteAt_eq {m : Nat → Byte} (hm : ∀ p, b.address ≤ p → p < b.address + b.bytes.length →
    b.read p = some (m p)) {i : Nat} (hi : i < b.bytes.length) :
    m (b.address + i) = byteAt b.bytes i := by
  have hread := hm (b.address + i) (by omega) (by omega)
  unfold DataBuffer.read at hread
  rw [if_pos (by omega), Nat.add_sub_cancel_left, List.getElem?_eq_getElem hi] at hread
  unfold byteAt
  rw [List.getD_eq_getElem _ _ hi]
  exact (Option.some.inj hread).symm

theorem isCode_iff {m : Nat → Byte} (hm : ∀ p, b.address ≤ p → p < b.address + b.bytes.length →
    b.read p = some (m p)) {i : Nat} (hi : i + 3 < b.bytes.length) :
    IsCode ignored b.bytes i ↔ Starts m (b.address + i) ∧ ignored (m (b.address + i + 3)) = false := by
  unfold IsCode Starts
  rw [Nat.add_assoc, Nat.add_assoc, Nat.add_assoc, byteAt_eq hm (by omega), byteAt_eq hm (by omega),
    byteAt_eq hm (by omega), byteAt_eq hm (by omega)]
  constructor
  · exact fun ⟨_, h0, h1, h2, h3⟩ => ⟨⟨h0, h1, h2⟩, h3⟩
  · exact fun ⟨⟨h0, h1, h2⟩, h3⟩ => ⟨hi, h0, h1, h2, h3⟩

theorem searchCodes_spec {m : Nat → Byte}
    (hm : ∀ p, b.address ≤ p → p < b.address + b.bytes.length → b.read p = some (m p))
    (hread : ∀ p, b.address ≤ p → p < b.address + b.bytes.length → read p = some (m p))
    (hskip : Accelerates m b.address (b.address + b.bytes.length - 3)
      (accelerate ((b.address + b.bytes.length - 3) / 4 * 4))) (fuel : Nat) :
    ∀ {i : Nat}, i + 3 < b.bytes.length → b.bytes.length ≤ i + fuel →
      (∀ j, j < i → ¬ IsCode ignored b.bytes j) →
        searchCodes read accelerate ignored b.address (BitVec.ofNat 32 b.bytes.length) fuel
            (b.address + i) ((b.bytes.length : Int) - i)
          = some (Collator.findNextStartCode ignored b.bytes) := by
  have hsmall := b.small
  have hspec := findNextStartCode_spec ignored b.bytes
  induction fuel with
  | zero => intro i hi hfuel; omega
  | succ fuel ih =>
    intro i hi hfuel hbefore
    obtain ⟨r, hr, hfirst⟩ := findStartCode_spec hread (b.address + i)
      ((b.bytes.length : Int) - i) (by omega) (by omega) (by omega) hskip
    unfold searchCodes
    rw [hr, Option.bind_some]
    cases r with
    | none =>
      -- no code is left, ignored or not
      have hnone : ∀ j, ¬ IsCode ignored b.bytes j := by
        intro j hcode
        by_cases hj : j < i
        · exact hbefore j hj hcode
        · refine hfirst (b.address + j) (by omega) ?_ ((isCode_iff hm hcode.1).mp hcode).1
          have := hcode.1
          omega
      cases hfind : Collator.findNextStartCode ignored b.bytes with
      | none => rfl
      | some k =>
        rw [hfind] at hspec
        exact absurd hspec.1 (hnone k)
    | some p =>
      obtain ⟨hle, hlt, hstarts, hskipped⟩ := hfirst
      obtain ⟨j, rfl⟩ : ∃ j, p = b.address + j := ⟨p - b.address, by omega⟩
      have hearlier : ∀ k, k < j → ¬ IsCode ignored b.bytes k := by
        intro k hk hcode
        by_cases hki : k < i
        · exact hbefore k hki hcode
        · exact hskipped (b.address + k) (by omega) (by omega) ((isCode_iff hm hcode.1).mp hcode).1
      simp only [Nat.add_sub_cancel_left]
      rw [hread (b.address + j + 3) (by omega) (by omega), Option.bind_some]
      split
      · next hignored =>
        have hnot : ¬ IsCode ignored b.bytes j := by
          intro hcode
          have := ((isCode_iff hm hcode.1).mp hcode).2
          rw [hignored] at this
          cases this
        have hupto : ∀ k, k < j + 1 → ¬ IsCode ignored b.bytes k := by
          intro k hk
          by_cases hkj : k < j
          · exact hearlier k hkj
          · obtain rfl : k = j := by omega
            exact hnot
        have hlength : (BitVec.ofNat 32 b.bytes.length - BitVec.ofNat 32 (j + 1)).toNat
            = b.bytes.length - (j + 1) := by
          rw [BitVec.toNat_sub, BitVec.toNat_ofNat, BitVec.toNat_ofNat]
          omega
        have hleft : (BitVec.ofNat 32 b.bytes.length - BitVec.ofNat 32 (j + 1)).toInt
            = (b.bytes.length : Int) - ((j + 1 : Nat) : Int) := by
          rw [BitVec.toInt_eq_toNat_of_lt (by rw [hlength]; omega), hlength]
          omega
        rw [hleft]
        split
        · next hmore =>
          have hnext := ih (i := j + 1) (by omega) (by omega) hupto
          rw [← Nat.add_assoc] at hnext
          exact hnext
        · next hend =>
          -- fewer than four bytes are left
          cases hfind : Collator.findNextStartCode ignored b.bytes with
          | none => rfl
          | some k =>
            rw [hfind] at hspec
            have hk := hspec.1.1
            exact absurd hspec.1 (hupto k (by omega))
      · next hkept =>
        have hcode : IsCode ignored b.bytes j :=
          (isCode_iff hm (by omega)).mpr ⟨hstarts, Bool.eq_false_iff.mpr hkept⟩
        cases hfind : Collator.findNextStartCode ignored b.bytes with
        | none =>
          rw [hfind] at hspec
          exact absurd hcode (hspec j)
        | some k =>
          rw [hfind] at hspec
          rcases Nat.lt_trichotomy j k with h | h | h
          · exact absurd hcode (hspec.2 j h)
          · rw [h]
          · exact absurd hspec.1 (hearlier k h)

theorem findNextStartCode_eq {m : Nat → Byte}
    (hm : ∀ p, b.address ≤ p → p < b.address + b.bytes.length → b.read p = some (m p))
    (hread : ∀ p, b.address ≤ p → p < b.address + b.bytes.length → read p = some (m p))
    (hskip : Accelerates m b.address (b.address + b.bytes.length - 3)
      (accelerate ((b.address + b.bytes.length - 3) / 4 * 4))) :
    findNextStartCode read accelerate ignored b
      = some (Collator.findNextStartCode ignored b.bytes) := by
  have hsmall := b.small
  unfold findNextStartCode
  split
  · next hshort =>
    unfold Collator.findNextStartCode
    rw [if_pos hshort]
  · next hn =>
    have hlength : (BitVec.ofNat 32 b.bytes.length).toInt = (b.bytes.length : Int) - (0 : Nat) := by
      have hnat : (BitVec.ofNat 32 b.bytes.length).toNat = b.bytes.length := by
        rw [BitVec.toNat_ofNat]
        omega
      rw [BitVec.toInt_eq_toNat_of_lt (by rw [hnat]; omega), hnat]
      omega
    simp only
    rw [hlength]
    exact searchCodes_spec hm hread hskip b.bytes.length (by omega) (by omega)
      fun j hj => absurd hj (Nat.not_lt_zero j)

end

theorem read_memory (b : DataBuffer) (around : Nat → Byte) {p : Nat} (hlow : b.address ≤ p)
    (hhigh : p < b.address + b.bytes.length) : b.read p = some (b.memory around p) := by
  have hsome : b.read p = some b.bytes[p - b.address] := by
    unfold DataBuffer.read
    rw [if_pos hlow, List.getElem?_eq_getElem]
  unfold DataBuffer.memory
  rw [hsome]
  rfl

/-- **The two bodies of the search agree.** The loop over bytes reads nothing outside of
the data and finds its first start code; the scan of words reads nothing outside either and
finds the same, as does the one in assembler, whatever it may load from around the data. -/
theorem findNextStartCode_agree (c : CodeConfiguration) :
    (∀ data : List Byte,
      Reads.findNextStartCode c.ignored data = some (Collator.findNextStartCode c.ignored data) ∧
        match Collator.findNextStartCode c.ignored data with
        | some offset => IsFirst c.ignored data offset
        | none => ∀ offset, ¬ IsCode c.ignored data offset) ∧
    ∀ (b : DataBuffer) (around : Nat → Byte),
      findNextStartCode b.read (skipWords b.read) c.ignored b
          = some (Collator.findNextStartCode c.ignored b.bytes) ∧
        findNextStartCode (fun p => some (b.memory around p))
            (skipWordsSh4 fun p => some (b.memory around p)) c.ignored b
          = some (Collator.findNextStartCode c.ignored b.bytes) := by
  refine ⟨fun data => ⟨Reads.findNextStartCode_eq, findNextStartCode_spec c.ignored data⟩,
    fun b around => ?_⟩
  have hm : ∀ p, b.address ≤ p → p < b.address + b.bytes.length →
      b.read p = some (b.memory around p) := fun p hlow hhigh => read_memory b around hlow hhigh
  constructor
  · refine findNextStartCode_eq hm hm fun fuel p hp haligned _ => ?_
    exact skipWords_spec hm (by omega) (by omega) fuel hp haligned
  · refine findNextStartCode_eq hm (fun p _ _ => rfl) fun fuel p _ haligned _ => ?_
    unfold skipWordsSh4
    rw [readWord_eq haligned fun k _ _ => rfl, Option.bind_some]
    exact skipLoadedWords_spec (fun p => rfl) _ fuel haligned

end WordScan

end Duckbox.Collator
