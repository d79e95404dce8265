import Mathlib.Data.List.Forall2
import Duckbox.FrameParser.AntiEmulation

/-!
# What is read through the anti-emulation buffer

The buffer holds the payload without its emulation bytes from some byte on
(`Holds`), up to where the source is; and no emulation byte follows there, which a
copy would not find (`Inv`). Every 0, 0, 3 that the loop finds lets one byte more
into the buffer than it counts, so a request that is supportable may still be too
much; all reads are right exactly when none is (`reads_withoutEmulation_iff`).
-/

namespace Duckbox.FrameParser.AntiEmulation

open Duckbox.Lib

variable {source : Nat → BitVec 8} {s t : AntiEmulation} {base p n : Nat}

/-! ## Copying -/

/-- Of passes from a place of the source on, those that find 0, 0, 3. -/
def escapes (source : Nat → BitVec 8) : Nat → Nat → Nat
  | 0, _ => 0
  | passes + 1, q =>
    if escape source q then escapes source passes (q + 3) + 1 else escapes source passes (q + 1)

theorem escapes_le (source : Nat → BitVec 8) (passes : Nat) :
    ∀ q, escapes source passes q ≤ passes := by
  induction passes with
  | zero => intro q; exact Nat.le_refl 0
  | succ passes ih =>
    intro q
    unfold escapes
    split
    · exact Nat.succ_le_succ (ih (q + 3))
    · exact Nat.le_succ_of_le (ih (q + 1))

theorem emulation_add_two (source : Nat → BitVec 8) (q : Nat) :
    emulation source (q + 2) = escape source q := by
  unfold emulation escape
  rw [show q + 2 - 1 = q + 1 by omega, show q + 2 - 2 = q by omega,
    decide_eq_true (Nat.le_add_left 2 q), Bool.true_and]
  cases source q == 0 <;> cases source (q + 1) == 0 <;> cases source (q + 2) == 3 <;> rfl

/-- There is no emulation byte among some bytes. -/
def Clean (source : Nat → BitVec 8) (first past : Nat) : Prop :=
  ∀ i, first ≤ i → i < past → emulation source i = false

/-- The content is what is left of the source up to its place, from a byte on. -/
structure Holds (source : Nat → BitVec 8) (base : Nat) (s : AntiEmulation) : Prop where
  length : (withoutEmulation source s.antiEmulationSource).length = base + s.antiEmulationContent
  bytes : ∀ i, i < s.antiEmulationContent →
    s.memory i = (withoutEmulation source s.antiEmulationSource).getD (base + i) 0

theorem Holds.copy (h : Holds source base s) {passed : Nat}
    (hclean : Clean source s.antiEmulationSource (s.antiEmulationSource + n))
    (hpassed : passed = n ∨ passed = n + 1 ∧ emulation source (s.antiEmulationSource + n) = true)
    (hcopy : s.copy source n passed = some t) :
    Holds source base t ∧ t.antiEmulationContent = s.antiEmulationContent + n ∧
      t.antiEmulationSource = s.antiEmulationSource + passed ∧ t.bits = s.bits := by
  unfold AntiEmulation.copy at hcopy
  split at hcopy
  · obtain rfl := Option.some.inj hcopy
    have hleft : withoutEmulation source (s.antiEmulationSource + passed)
        = withoutEmulation source s.antiEmulationSource
          ++ (List.range n).map fun i => source (s.antiEmulationSource + i) := by
      have hn : withoutEmulation source (s.antiEmulationSource + n) = _ :=
        kept_add fun i hi hlt => by rw [hclean i hi hlt]; rfl
      rcases hpassed with rfl | ⟨rfl, hemulation⟩
      · exact hn
      · refine Eq.trans ?_ hn
        rw [← Nat.add_assoc]
        unfold withoutEmulation
        rw [kept_succ, hemulation]
        exact List.append_nil _
    refine ⟨⟨?_, fun i hi => ?_⟩, rfl, rfl, rfl⟩
    · show (withoutEmulation source (s.antiEmulationSource + passed)).length = _
      rw [hleft, List.length_append, h.length, List.length_map, List.length_range, Nat.add_assoc]
    · show (if s.antiEmulationContent ≤ i ∧ i < s.antiEmulationContent + n then _ else s.memory i)
        = (withoutEmulation source (s.antiEmulationSource + passed)).getD (base + i) 0
      have hi : i < s.antiEmulationContent + n := hi
      rw [hleft]
      by_cases hnew : s.antiEmulationContent ≤ i
      · rw [if_pos ⟨hnew, hi⟩, List.getD_append_right _ _ _ _ (by rw [h.length]; omega), h.length,
          show base + i - (base + s.antiEmulationContent) = i - s.antiEmulationContent by omega,
          List.getD_eq_getElem _ _ (by rw [List.length_map, List.length_range]; omega),
          List.getElem_map, List.getElem_range]
      · rw [if_neg fun hin => hnew hin.1, List.getD_append _ _ _ _ (by rw [h.length]; omega)]
        exact h.bytes i (by omega)
  · exact nomatch hcopy

theorem copy_returns {passed : Nat} (h : s.antiEmulationContent + n ≤ antiEmulationBufferSize) :
    ∃ t, s.copy source n passed = some t :=
  ⟨_, if_pos h⟩

theorem copy_stopped {passed : Nat} (h : ¬ s.antiEmulationContent + n ≤ antiEmulationBufferSize) :
    s.copy source n passed = none :=
  if_neg h

theorem copyLoop_returns_iff {passes : Nat} : ∀ {j : Nat} {s : AntiEmulation},
    s.antiEmulationContent ≤ antiEmulationBufferSize →
      ((∃ t, copyLoop source passes j s = some t) ↔
        s.antiEmulationContent + j + passes + escapes source passes (s.antiEmulationSource + j)
          ≤ antiEmulationBufferSize) := by
  induction passes with
  | zero =>
    intro j s hroom
    unfold copyLoop escapes
    rw [Nat.add_zero]
    split
    · next hj =>
      rw [hj]
      exact iff_of_true ⟨s, rfl⟩ hroom
    · by_cases hfits : s.antiEmulationContent + j ≤ antiEmulationBufferSize
      · exact iff_of_true (copy_returns hfits) hfits
      · rw [copy_stopped hfits]
        exact iff_of_false (fun ⟨_, h⟩ => nomatch h) hfits
  | succ passes ih =>
    intro j s hroom
    unfold copyLoop escapes
    split
    · by_cases hfits : s.antiEmulationContent + (j + 2) ≤ antiEmulationBufferSize
      · unfold AntiEmulation.copy
        rw [if_pos hfits]
        refine (ih hfits).trans ?_
        dsimp only
        rw [show s.antiEmulationSource + (j + 3) + 0 = s.antiEmulationSource + j + 3 by omega]
        exact iff_of_eq (congrArg (· ≤ antiEmulationBufferSize) (by omega))
      · rw [copy_stopped hfits]
        exact iff_of_false (fun ⟨_, h⟩ => nomatch h) (by omega)
    · refine (ih hroom).trans ?_
      rw [show s.antiEmulationSource + (j + 1) = s.antiEmulationSource + j + 1 by omega]
      exact iff_of_eq (congrArg (· ≤ antiEmulationBufferSize) (by omega))

theorem Holds.copyLoop {passes : Nat} : ∀ {j : Nat} {s : AntiEmulation}, Holds source base s →
    Clean source s.antiEmulationSource (s.antiEmulationSource + j + 2) →
    AntiEmulation.copyLoop source passes j s = some t →
      Holds source base t ∧ Clean source t.antiEmulationSource (t.antiEmulationSource + 2) ∧
      t.antiEmulationContent = s.antiEmulationContent + j + passes
        + escapes source passes (s.antiEmulationSource + j) ∧ t.bits = s.bits := by
  induction passes with
  | zero =>
    intro j s h hclean ht
    have hscanned : Clean source s.antiEmulationSource (s.antiEmulationSource + j) :=
      fun i hi hlt => hclean i hi (by omega)
    unfold AntiEmulation.copyLoop at ht
    unfold escapes
    split at ht
    · next hj =>
      obtain rfl := Option.some.inj ht
      subst hj
      exact ⟨h, hclean, rfl, rfl⟩
    · obtain ⟨hholds, hcontent, hsource, hbits⟩ := h.copy hscanned (.inl rfl) ht
      refine ⟨hholds, ?_, hcontent, hbits⟩
      rw [hsource]
      exact fun i hi hlt => hclean i (by omega) hlt
  | succ passes ih =>
    intro j s h hclean ht
    unfold AntiEmulation.copyLoop at ht
    unfold escapes
    cases hescape : escape source (s.antiEmulationSource + j) with
    | true =>
      rw [hescape, if_pos rfl] at ht
      rw [if_pos rfl]
      obtain ⟨u, hu, ht⟩ := Option.bind_eq_some_iff.mp ht
      have hemulation : emulation source (s.antiEmulationSource + (j + 2)) = true := by
        rw [← hescape, ← emulation_add_two, Nat.add_assoc]
      obtain ⟨hholds, hcontent, hsource, hbits⟩ :=
        h.copy (by rw [← Nat.add_assoc]; exact hclean) (.inr ⟨rfl, hemulation⟩) hu
      -- the byte before the source is a 3
      have hclean' : Clean source u.antiEmulationSource (u.antiEmulationSource + 0 + 2) := by
        have hthree : source (s.antiEmulationSource + (j + 2)) = 3 := by
          unfold emulation at hemulation
          simp only [Bool.and_eq_true, beq_iff_eq] at hemulation
          exact hemulation.1.1.2
        intro i hi hlt
        rw [hsource] at hi hlt
        have hi : i = s.antiEmulationSource + (j + 2) + 1 ∨ i = s.antiEmulationSource + (j + 2) + 2 := by
          omega
        rcases hi with rfl | rfl
        · unfold emulation
          rw [Nat.add_sub_cancel, hthree]
          simp
        · rw [emulation_add_two]
          unfold escape
          rw [hthree]
          simp
      obtain ⟨hholds', hclean'', hcontent', hbits'⟩ := ih (j := 0) hholds hclean' ht
      refine ⟨hholds', hclean'', ?_, hbits'.trans hbits⟩
      rw [hcontent', hcontent, hsource,
        show s.antiEmulationSource + (j + 3) + 0 = s.antiEmulationSource + j + 3 by omega]
      omega
    | false =>
      rw [hescape, if_neg Bool.false_ne_true] at ht
      rw [if_neg Bool.false_ne_true]
      have hclean' : Clean source s.antiEmulationSource (s.antiEmulationSource + (j + 1) + 2) := by
        intro i hi hlt
        by_cases hlast : i < s.antiEmulationSource + j + 2
        · exact hclean i hi hlast
        · obtain rfl : i = s.antiEmulationSource + j + 2 := by omega
          rw [emulation_add_two, hescape]
      obtain ⟨hholds, hclean'', hcontent, hbits⟩ := ih h hclean' ht
      refine ⟨hholds, hclean'', ?_, hbits⟩
      rw [hcontent, show s.antiEmulationSource + (j + 1) = s.antiEmulationSource + j + 1 by omega]
      omega

theorem Holds.refill (h : Holds source base s)
    (hclean : Clean source s.antiEmulationSource (s.antiEmulationSource + 2))
    {size untouched bitsInByte newBase : Nat}
    (ht : s.refill source size untouched bitsInByte newBase = some t) :
    Holds source base t ∧ Clean source t.antiEmulationSource (t.antiEmulationSource + 2) ∧
      t.antiEmulationContent = s.antiEmulationContent + (size + 3 - untouched)
        + escapes source (size + 3 - untouched) s.antiEmulationSource ∧
      t.bits.At t.memory (8 * newBase + (8 - bitsInByte)) := by
  obtain ⟨u, hu, ht⟩ := Option.bind_eq_some_iff.mp ht
  obtain rfl := Option.some.inj ht
  obtain ⟨hholds, hclean', hcontent, -⟩ := h.copyLoop (j := 0) hclean hu
  exact ⟨⟨hholds.length, hholds.bytes⟩, hclean', hcontent,
    (BitStream.at_setPointer u.memory newBase).flushUnseen.1⟩

theorem refill_returns_iff {size untouched bitsInByte newBase : Nat}
    (hroom : s.antiEmulationContent ≤ antiEmulationBufferSize) :
    (∃ t, s.refill source size untouched bitsInByte newBase = some t) ↔
      s.antiEmulationContent + (size + 3 - untouched)
        + escapes source (size + 3 - untouched) s.antiEmulationSource
        ≤ antiEmulationBufferSize := by
  refine Iff.trans ?_ (copyLoop_returns_iff (j := 0) hroom)
  constructor
  · rintro ⟨t, ht⟩
    obtain ⟨u, hu, -⟩ := Option.bind_eq_some_iff.mp ht
    exact ⟨u, hu⟩
  · rintro ⟨u, hu⟩
    exact ⟨_, by unfold AntiEmulation.refill; rw [hu]; rfl⟩

/-! ## Where the stream is in the buffer -/

theorem pointer_eq (h : s.bits.At s.memory p) : s.pointer = p / 8 := by
  unfold pointer
  rw [h.getPosition]

theorem bitsInByte_eq (h : s.bits.At s.memory p) : s.bitsInByte = 8 - p % 8 := by
  unfold bitsInByte
  rw [h.getPosition]

theorem pointer_add_begun (h : s.bits.At s.memory p) : s.pointer + s.begun = (p + 7) / 8 := by
  unfold begun
  rw [pointer_eq h, bitsInByte_eq h]
  split <;> omega

theorem shuffled (m : Nat → BitVec 8) (q n i : Nat) :
    forUpTo (fun m i => Function.update m i (m (q + i))) m n i = if i < n then m (q + i) else m i := by
  refine forUpTo_inv (P := fun n (m' : Nat → BitVec 8) => ∀ i, m' i = if i < n then m (q + i) else m i)
    (fun i => ?_) (fun k m' hk h i => ?_) i
  · rw [if_neg (Nat.not_lt_zero i)]
  · by_cases hi : i = k
    · rw [hi, Function.update_self, h (q + k), if_neg (by omega), if_pos (Nat.lt_succ_self k)]
    · rw [Function.update_of_ne hi, h i]
      exact if_congr (by omega) rfl rfl

theorem Holds.shuffle (h : Holds source base s) (hat : s.bits.At s.memory p)
    (hp : p ≤ 8 * s.antiEmulationContent) :
    Holds source (base + p / 8) s.shuffle ∧
      s.shuffle.antiEmulationContent = s.antiEmulationContent - p / 8 := by
  have hbegun := pointer_add_begun hat
  have hpointer := pointer_eq hat
  have hcontent : s.shuffle.antiEmulationContent = s.antiEmulationContent - p / 8 := by
    show s.antiEmulationContent - s.pointer - s.begun + s.begun = _
    omega
  refine ⟨⟨?_, fun i hi => ?_⟩, hcontent⟩
  · have hlength := h.length
    rw [hcontent]
    show (withoutEmulation source s.antiEmulationSource).length = _
    omega
  · rw [hcontent] at hi
    show forUpTo _ s.memory s.shuffle.antiEmulationContent i
      = (withoutEmulation source s.antiEmulationSource).getD (base + p / 8 + i) 0
    rw [shuffled, if_pos (by omega), hpointer, h.bytes _ (by omega), Nat.add_assoc]

/-! ## The invariant -/

/-- The caller is at bit `p` of the buffer, and what it has requested is there. -/
structure Inv (source : Nat → BitVec 8) (c : Caller) (s : AntiEmulation) (base p : Nat) :
    Prop where
  holds : Holds source base s
  clean : Clean source s.antiEmulationSource (s.antiEmulationSource + 2)
  room : s.antiEmulationContent ≤ antiEmulationBufferSize
  bits : s.bits.At s.memory p
  position : c.position = 8 * base + p
  limit : c.limit ≤ 8 * (base + s.antiEmulationContent)
  shown : c.shown ≤ s.bits.bitsAvailable
  within : c.position + c.shown ≤ c.limit

/-- What is kept of the content for a request, more of it where it need not be
moved. -/
def keptContent (s : AntiEmulation) (size : Nat) : Nat :=
  if antiEmulationBufferSize < s.pointer + size + 16 then s.untouchedBytesInBuffer + s.begun
  else s.antiEmulationContent

/-- There is room for what a request brings in, a byte more for every 0, 0, 3. -/
def Fits (source : Nat → BitVec 8) (s : AntiEmulation) (size : Nat) : Prop :=
  s.antiEmulationContent = 0 ∨ s.untouchedBytesInBuffer < size →
    s.keptContent size + (size + 3 - s.untouchedBytesInBuffer)
      + escapes source (size + 3 - s.untouchedBytesInBuffer) s.antiEmulationSource
      ≤ antiEmulationBufferSize

variable {c : Caller}

theorem Inv.start (source memory : Nat → BitVec 8) :
    Inv source .start (loadAntiEmulationBuffer memory) 0 0 where
  holds := ⟨rfl, fun _ hi => nomatch hi⟩
  clean := by
    intro i _ hi
    have hi : i < 2 := hi
    unfold emulation
    rw [decide_eq_false (by omega)]
    rfl
  room := Nat.zero_le _
  bits := BitStream.at_setPointer memory 0
  position := rfl
  limit := Nat.zero_le _
  shown := Nat.zero_le _
  within := Nat.le_refl _

theorem Inv.check (h : Inv source c s base p) {size : Nat}
    (hsize : size ≤ antiEmulationBufferSize - 16) :
    ((∃ t, s.checkAntiEmulationBuffer source size = some t) ↔ Fits source s size) ∧
      ∀ t, s.checkAntiEmulationBuffer source size = some t →
        ∃ base p, Inv source (c.step (.check size)) t base p := by
  have hbuffer : antiEmulationBufferSize = 1024 := rfl
  have hbegun := pointer_add_begun h.bits
  have hpointer := pointer_eq h.bits
  have hinByte := bitsInByte_eq h.bits
  have hposition := h.position
  have hlimit := h.limit
  have hwithin := h.within
  have hp : p ≤ 8 * s.antiEmulationContent := by omega
  have huntouched : s.untouchedBytesInBuffer = s.antiEmulationContent - (p + 7) / 8 := by
    unfold untouchedBytesInBuffer
    omega
  -- a refill of what has been kept
  have hrefill : ∀ {u : AntiEmulation} {base' q : Nat}, Holds source base' u →
      u.antiEmulationSource = s.antiEmulationSource →
      u.antiEmulationContent = s.keptContent size →
      u.antiEmulationContent ≤ antiEmulationBufferSize →
      8 * base' + 8 * q = 8 * base + 8 * (p / 8) →
      q + s.untouchedBytesInBuffer + s.begun = u.antiEmulationContent →
      (s.antiEmulationContent = 0 ∨ s.untouchedBytesInBuffer < size) →
      ((∃ t, u.refill source size s.untouchedBytesInBuffer s.bitsInByte q = some t) ↔
          Fits source s size) ∧
        ∀ t, u.refill source size s.untouchedBytesInBuffer s.bitsInByte q = some t →
          ∃ base p, Inv source (c.step (.check size)) t base p := by
    intro u base' q hholds hsource hkept hroom hq hcontent hneeds
    refine ⟨?_, fun t ht => ?_⟩
    · rw [refill_returns_iff hroom, hsource, hkept]
      exact ⟨fun hfits _ => hfits, fun hfits => hfits hneeds⟩
    · have hreturns := (refill_returns_iff hroom).mp ⟨t, ht⟩
      obtain ⟨hholds', hclean, hcontent', hbits⟩ :=
        hholds.refill (by rw [hsource]; exact h.clean) ht
      refine ⟨base', 8 * q + (8 - s.bitsInByte), hholds', hclean, by omega, hbits, ?_, ?_,
        Nat.zero_le _, ?_⟩
      · show c.position = _
        omega
      · show c.position + 8 * size ≤ _
        omega
      · show c.position + 0 ≤ c.position + 8 * size
        omega
  unfold checkAntiEmulationBuffer
  rw [if_neg (Nat.not_lt.mpr hsize)]
  by_cases hempty : s.antiEmulationContent = 0
  · rw [if_pos hempty]
    have hfirst := hrefill (u := s) (q := 0) h.holds rfl
      (by unfold keptContent; rw [if_neg (by omega)]) h.room (by omega) (by omega) (.inl hempty)
    rw [show s.untouchedBytesInBuffer = 0 by omega, show s.bitsInByte = 8 by omega] at hfirst
    exact hfirst
  · have htest : s.testAntiEmulationBuffer = true := by
      unfold testAntiEmulationBuffer
      dsimp only
      rw [hbegun, decide_eq_false (by omega), Bool.and_false]
      rfl
    rw [if_neg hempty, htest, if_neg (by decide)]
    by_cases henough : size ≤ s.untouchedBytesInBuffer
    · rw [if_pos henough]
      refine ⟨iff_of_true ⟨s, rfl⟩ fun hneeds => ?_, fun t ht => ?_⟩
      · rcases hneeds with hnone | hfew
        · exact absurd hnone hempty
        · omega
      · obtain rfl := Option.some.inj ht
        refine ⟨base, p, h.holds, h.clean, h.room, h.bits, h.position, ?_, Nat.zero_le _, ?_⟩
        · show c.position + 8 * size ≤ _
          omega
        · show c.position + 0 ≤ c.position + 8 * size
          omega
    · rw [if_neg henough]
      have hneeds : s.antiEmulationContent = 0 ∨ s.untouchedBytesInBuffer < size :=
        .inr (Nat.lt_of_not_le henough)
      split
      · next hfar =>
        obtain ⟨hholds, hcontent⟩ := h.holds.shuffle h.bits hp
        have hroom := h.room
        exact hrefill (q := 0) hholds rfl (by unfold keptContent; rw [if_pos hfar]; rfl) (by omega)
          (by omega) (by omega) hneeds
      · next hnear =>
        exact hrefill (u := s) (q := s.pointer) h.holds rfl
          (by unfold keptContent; rw [if_neg hnear]) h.room (by omega) (by omega) hneeds

/-! ## Reading -/

theorem value_eq_numeral (n : Nat) : ∀ l : List Bool,
    BitList.value n l = numeral (fun i => l.getD i false) n := by
  induction n with
  | zero => intro l; rfl
  | succ n ih =>
    intro l
    cases l with
    | nil =>
      show 2 * BitList.value n [] = 2 * numeral (fun i => ([] : List Bool).getD i false) n + 0
      rw [ih, Nat.add_zero]
    | cons b rest =>
      show b.toNat * 2 ^ n + BitList.value n rest = _
      rw [ih, Nat.add_comm n 1, numeral_add]
      have hrest : ∀ i, (b :: rest).getD (1 + i) false = rest.getD i false := by
        intro i
        rw [Nat.add_comm]
        rfl
      simp only [hrest]
      show _ = (2 * 0 + b.toNat) * 2 ^ n + _
      rw [Nat.mul_zero, Nat.zero_add]

theorem bitsOf_drop (bytes : List (BitVec 8)) {position i : Nat}
    (hi : position + i < 8 * bytes.length) :
    ((bitsOf bytes).bits.drop position).getD i false
      = byteBit (fun k => bytes.getD k 0) (position + i) := by
  unfold bitsOf
  rw [List.getD_eq_getElem?_getD, List.getElem?_drop, List.getElem?_map,
    List.getElem?_range hi]
  rfl

/-- A value is that of the payload without its emulation bytes, as far as that goes. -/
def Right (source : Nat → BitVec 8) (read : Caller.Read) (value : BitVec 32) : Prop :=
  ∀ length, read.position + read.count ≤ 8 * (withoutEmulation source length).length →
    value = read.of (withoutEmulation source length)

theorem withoutEmulation_getD {n m i : Nat} (hn : i < (withoutEmulation source n).length)
    (hm : i < (withoutEmulation source m).length) :
    (withoutEmulation source n).getD i 0 = (withoutEmulation source m).getD i 0 := by
  rw [List.getD_eq_getElem _ _ hn, List.getD_eq_getElem _ _ hm]
  exact kept_getElem hn hm

theorem Inv.right (h : Inv source c s base p) {n : Fin 33} (hn : c.position + n ≤ c.limit)
    {value : BitVec 32} (hvalue : value.toNat = numeral (fun i => byteBit s.memory (p + i)) n)
    (signed : Bool) :
    Right source ⟨c.position, n, signed⟩ (if signed then BitStream.signed n value else value) := by
  intro length hlength
  have hlength : c.position + n ≤ 8 * (withoutEmulation source length).length := hlength
  have hposition := h.position
  have hlimit := h.limit
  have hheld := h.holds.length
  have hbits : ∀ i, i < n.val → byteBit s.memory (p + i)
      = ((bitsOf (withoutEmulation source length)).bits.drop c.position).getD i false := by
    intro i hi
    rw [bitsOf_drop _ (by omega)]
    unfold byteBit
    rw [h.holds.bytes _ (by omega), show base + (p + i) / 8 = (c.position + i) / 8 by omega,
      show (p + i) % 8 = (c.position + i) % 8 by omega,
      withoutEmulation_getD (m := length) (by omega) (by omega)]
  have hsame : value = (BitList.get n
      ⟨(bitsOf (withoutEmulation source length)).bits.drop c.position⟩).1 := by
    apply BitVec.eq_of_toNat_eq
    show _ = (BitVec.ofNat 32 (BitList.value n _)).toNat
    rw [hvalue, numeral_congr hbits, ← value_eq_numeral, BitVec.toNat_ofNat, Nat.mod_eq_of_lt]
    rw [value_eq_numeral]
    exact Nat.lt_of_lt_of_le (numeral_lt _ _) (Nat.pow_le_pow_right (by decide) (by omega))
  unfold Caller.Read.of
  rw [hsame]

theorem Inv.stream (h : Inv source c s base p) {d : Caller} {bits : BitStream} {q : Nat}
    (hat : bits.At s.memory q) (hposition : d.position = 8 * base + q) (hlimit : d.limit = c.limit)
    (hshown : d.shown ≤ bits.bitsAvailable) (hwithin : d.position + d.shown ≤ d.limit) :
    Inv source d { s with bits := bits } base q where
  holds := ⟨h.holds.length, h.holds.bytes⟩
  clean := h.clean
  room := h.room
  bits := hat
  position := hposition
  limit := by rw [hlimit]; exact h.limit
  shown := hshown
  within := hwithin

/-! ## Runs -/

/-- A request fits; reads always do. -/
def Reader.Fits (source : Nat → BitVec 8) (r : Reader) : Operation → Prop
  | .check size => AntiEmulation.Fits source r.buffer size
  | _ => True

/-- What a call does for the invariant, and what it reads. -/
def Advances (source : Nat → BitVec 8) (c : Caller) (r : Reader) (op : Operation) (t : Reader) :
    Prop :=
  (∃ base p, Inv source (c.step op) t.buffer base p) ∧
    ∃ values, t.values = r.values ++ values ∧ List.Forall₂ (Right source) (c.reads op) values

theorem Inv.step {r : Reader} (h : Inv source c r.buffer base p) {op : Operation} (hok : c.Ok op) :
    ((∃ t, r.step source op = some t) ↔ r.Fits source op) ∧
      ∀ t, r.step source op = some t → Advances source c r op t := by
  have hposition := h.position
  have hshown := h.shown
  have hwithin := h.within
  -- a call that returns, and what is left to show of it
  have hreturns : ∀ {u : Reader}, r.step source op = some u → r.Fits source op →
      Advances source c r op u →
      ((∃ t, r.step source op = some t) ↔ r.Fits source op) ∧
        ∀ t, r.step source op = some t → Advances source c r op t := by
    intro u hu hfits hadvances
    refine ⟨iff_of_true ⟨u, hu⟩ hfits, fun t ht => ?_⟩
    obtain rfl := Option.some.inj (hu.symm.trans ht)
    exact hadvances
  have hget : ∀ n : Fin 33, c.position + n ≤ c.limit → ∃ base p, Inv source (c.move n)
      { r.buffer with bits := (r.buffer.bits.get r.buffer.memory n).2 } base p := by
    intro n hn
    obtain ⟨-, hat, hmore⟩ := h.bits.get (n := n) (by omega)
    exact ⟨base, p + n, h.stream hat (by show c.position + n = _; omega) rfl
      (by show c.shown - n ≤ _; omega) (by show c.position + n + (c.shown - n) ≤ c.limit; omega)⟩
  have hlook : ∀ n : Fin 33, c.position + n ≤ c.limit → ∃ base p, Inv source (c.look n)
      { r.buffer with bits := (r.buffer.bits.showBits r.buffer.memory n).2 } base p := by
    intro n hn
    obtain ⟨-, hat, henough, hmore⟩ := h.bits.showBits (n := n) (by omega)
    exact ⟨base, p, h.stream hat hposition rfl (by show max c.shown n ≤ _; omega)
      (by show c.position + max c.shown n ≤ c.limit; omega)⟩
  cases op with
  | check size =>
    obtain ⟨hiff, hinv⟩ := h.check hok
    refine ⟨Iff.trans ?_ hiff, fun t ht => ?_⟩
    · constructor
      · rintro ⟨t, ht⟩
        obtain ⟨u, hu, -⟩ := Option.map_eq_some_iff.mp ht
        exact ⟨u, hu⟩
      · rintro ⟨u, hu⟩
        exact ⟨_, Option.map_eq_some_iff.mpr ⟨u, hu, rfl⟩⟩
    · obtain ⟨u, hu, rfl⟩ := Option.map_eq_some_iff.mp ht
      exact ⟨hinv u hu, [], (List.append_nil _).symm, .nil⟩
  | get n =>
    exact hreturns rfl trivial ⟨hget n hok, _, rfl,
      .cons (h.right hok (h.bits.get (by omega)).1 false) .nil⟩
  | signedGet n =>
    exact hreturns rfl trivial ⟨hget n hok, _, rfl,
      .cons (h.right hok (h.bits.get (by omega)).1 true) .nil⟩
  | showBits n =>
    exact hreturns rfl trivial ⟨hlook n hok, _, rfl,
      .cons (h.right hok (h.bits.showBits (by omega)).1 false) .nil⟩
  | signedShow n =>
    exact hreturns rfl trivial ⟨hlook n hok, _, rfl,
      .cons (h.right hok (h.bits.showBits (by omega)).1 true) .nil⟩
  | flush n =>
    have hn : n ≤ c.shown := hok
    have hat := h.bits.flush (n := n) (by omega)
    refine hreturns rfl trivial ⟨⟨base, p + n, h.stream hat ?_ rfl ?_ ?_⟩, [],
      (List.append_nil _).symm, .nil⟩
    · show c.position + n = _
      omega
    · show c.shown - n ≤ r.buffer.bits.bitsAvailable - n
      omega
    · show c.position + n + (c.shown - n) ≤ c.limit
      omega
  | flushUnseen n =>
    have hn : c.position + n ≤ c.limit := hok
    obtain ⟨hat, hmore⟩ := h.bits.flushUnseen (n := n)
    refine hreturns rfl trivial ⟨⟨base, p + n, h.stream hat ?_ rfl ?_ ?_⟩, [],
      (List.append_nil _).symm, .nil⟩
    · show c.position + n = _
      omega
    · show c.shown - n ≤ _
      omega
    · show c.position + n + (c.shown - n) ≤ c.limit
      omega

theorem Inv.run {ops : List Operation} : ∀ {c : Caller} {r : Reader} {base p : Nat},
    Inv source c r.buffer base p → Along Caller.step Caller.Ok c ops →
      ((∃ t, Lib.run (Reader.step source) r ops = some t) ↔
          Admits (Reader.step source) (Reader.Fits source) r ops) ∧
        ∀ t, Lib.run (Reader.step source) r ops = some t →
          ∃ values, t.values = r.values ++ values ∧
            List.Forall₂ (Right source) (c.readsAll ops) values := by
  induction ops with
  | nil =>
    intro c r base p _ _
    refine ⟨iff_of_true ⟨r, rfl⟩ trivial, fun t ht => ?_⟩
    obtain rfl := Option.some.inj ht
    exact ⟨[], (List.append_nil _).symm, .nil⟩
  | cons op ops ih =>
    intro c r base p h hok
    obtain ⟨hstep, hadvances⟩ := h.step hok.1
    refine ⟨⟨?_, ?_⟩, fun t ht => ?_⟩
    · rintro ⟨t, ht⟩
      obtain ⟨u, hu, hrest⟩ := Option.bind_eq_some_iff.mp ht
      obtain ⟨⟨base', p', hinv⟩, -⟩ := hadvances u hu
      refine ⟨hstep.mp ⟨u, hu⟩, fun v hv => ?_⟩
      obtain rfl := Option.some.inj (hu.symm.trans hv)
      exact (ih hinv hok.2).1.mp ⟨t, hrest⟩
    · rintro ⟨hfits, hall⟩
      obtain ⟨u, hu⟩ := hstep.mpr hfits
      obtain ⟨⟨base', p', hinv⟩, -⟩ := hadvances u hu
      obtain ⟨t, ht⟩ := (ih hinv hok.2).1.mpr (hall u hu)
      exact ⟨t, Option.bind_eq_some_iff.mpr ⟨u, hu, ht⟩⟩
    · obtain ⟨u, hu, hrest⟩ := Option.bind_eq_some_iff.mp ht
      obtain ⟨⟨base', p', hinv⟩, values, hvalues, hright⟩ := hadvances u hu
      obtain ⟨values', hvalues', hright'⟩ := (ih hinv hok.2).2 t hrest
      refine ⟨values ++ values', ?_, List.rel_append hright hright'⟩
      rw [hvalues', hvalues, List.append_assoc]

/-- What is read of a payload, whatever its length and what is in memory behind it
and in the buffer, is the payload without its emulation bytes exactly when all
requests fit. -/
theorem reads_withoutEmulation_iff (source memory : Nat → BitVec 8) {ops : List Operation}
    (hok : Along Caller.step Caller.Ok .start ops) :
    (∃ t, Lib.run (Reader.step source) ⟨loadAntiEmulationBuffer memory, []⟩ ops = some t ∧
        ∀ length, List.Forall₂ (fun read value =>
          read.position + read.count ≤ 8 * (withoutEmulation source length).length →
            value = read.of (withoutEmulation source length))
          (Caller.start.readsAll ops) t.values) ↔
      Admits (Reader.step source) (Reader.Fits source) ⟨loadAntiEmulationBuffer memory, []⟩ ops := by
  obtain ⟨hiff, hright⟩ :=
    Inv.run (r := ⟨loadAntiEmulationBuffer memory, []⟩) (Inv.start source memory) hok
  rw [← hiff]
  constructor
  · rintro ⟨t, ht, -⟩
    exact ⟨t, ht⟩
  · rintro ⟨t, ht⟩
    obtain ⟨values, hvalues, hall⟩ := hright t ht
    refine ⟨t, ht, fun length => ?_⟩
    rw [hvalues]
    exact List.Forall₂.imp (fun _ _ h => h length) hall

instance (source : Nat → BitVec 8) (s : AntiEmulation) (size : Nat) :
    Decidable (AntiEmulation.Fits source s size) :=
  inferInstanceAs (Decidable (s.antiEmulationContent = 0 ∨ s.untouchedBytesInBuffer < size →
    s.keptContent size + (size + 3 - s.untouchedBytesInBuffer)
      + escapes source (size + 3 - s.untouchedBytesInBuffer) s.antiEmulationSource
      ≤ antiEmulationBufferSize))

instance (source : Nat → BitVec 8) (r : Reader) : ∀ op, Decidable (r.Fits source op)
  | .check size => inferInstanceAs (Decidable (AntiEmulation.Fits source r.buffer size))
  | .get _ | .signedGet _ | .showBits _ | .signedShow _ | .flush _ | .flushUnseen _ =>
    inferInstanceAs (Decidable True)

instance (c : Caller) : ∀ op, Decidable (c.Ok op)
  | .check size => inferInstanceAs (Decidable (size ≤ antiEmulationBufferSize - 16))
  | .get n | .signedGet n | .showBits n | .signedShow n | .flushUnseen n =>
    inferInstanceAs (Decidable (c.position + n ≤ c.limit))
  | .flush n => inferInstanceAs (Decidable (n ≤ c.shown))

/-- Zeros as they are coded, a 3 behind every two. -/
def codedZeros (i : Nat) : BitVec 8 := if i % 3 = 2 then 3 else 0

/-- With a partial byte kept, and one 0, 0, 3 across the end of the first request. -/
theorem reads_withoutEmulation_zeros :
    ∃ t, Lib.run (Reader.step codedZeros) ⟨loadAntiEmulationBuffer fun _ => 0, []⟩
        [.check 2, .get 12, .check 4, .showBits 20, .flush 20] = some t ∧
      ∀ length, List.Forall₂ (fun read value =>
        read.position + read.count ≤ 8 * (withoutEmulation codedZeros length).length →
          value = read.of (withoutEmulation codedZeros length))
        (Caller.start.readsAll [.check 2, .get 12, .check 4, .showBits 20, .flush 20]) t.values :=
  (reads_withoutEmulation_iff codedZeros (fun _ => 0) (by decide)).mpr (by decide +kernel)

theorem escapes_codedZeros (passes : Nat) : ∀ k, escapes codedZeros passes (3 * k) = passes := by
  induction passes with
  | zero => intro k; rfl
  | succ passes ih =>
    intro k
    have hescape : escape codedZeros (3 * k) = true := by
      unfold escape codedZeros
      rw [if_neg (by omega), if_neg (by omega), if_pos (by omega)]
      rfl
    unfold escapes
    rw [if_pos hescape, ← Nat.mul_succ, ih]

/-- The largest request that is supportable is too much for coded zeros. -/
theorem reads_withoutEmulation_overrun :
    ¬ ∀ (source memory : Nat → BitVec 8) (ops : List Operation),
      Along Caller.step Caller.Ok .start ops →
        ∃ t, Lib.run (Reader.step source) ⟨loadAntiEmulationBuffer memory, []⟩ ops = some t ∧
          ∀ length, List.Forall₂ (fun read value =>
            read.position + read.count ≤ 8 * (withoutEmulation source length).length →
              value = read.of (withoutEmulation source length))
            (Caller.start.readsAll ops) t.values := by
  intro h
  have hsize : 1008 ≤ antiEmulationBufferSize - 16 := by
    unfold antiEmulationBufferSize
    omega
  have hok : Along Caller.step Caller.Ok .start [.check 1008] := by
    unfold Along
    exact ⟨hsize, trivial⟩
  obtain ⟨t, ht, -⟩ := h codedZeros (fun _ => 0) [.check 1008] hok
  have hinv := Inv.start codedZeros fun _ => 0
  obtain ⟨hfits, -⟩ :=
    (Inv.run (r := ⟨loadAntiEmulationBuffer fun _ => 0, []⟩) hinv hok).1.mp ⟨t, ht⟩
  have hroom := hfits (.inl rfl)
  have huntouched : (loadAntiEmulationBuffer fun _ => 0).untouchedBytesInBuffer = 0 := rfl
  have hescapes : escapes codedZeros (1008 + 3 - 0)
      (loadAntiEmulationBuffer fun _ => 0).antiEmulationSource = 1011 := escapes_codedZeros 1011 0
  dsimp only at hroom
  rw [huntouched, hescapes, show antiEmulationBufferSize = 1024 from rfl] at hroom
  omega

end Duckbox.FrameParser.AntiEmulation
