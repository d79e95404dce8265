import Mathlib.Data.Nat.Bitwise
import Mathlib.Tactic.IntervalCases

/-!
# Words of four bytes

`word a b c d` is the 32 bit word with these bytes, the first on top. Shifting by
a byte moves them along, a mask of whole bytes clears the others, and a word has
one such reading (`word_inj`). Whether a byte is zero can be seen of all four at once
(`zeroFlags_eq_zero`).

A number that a word is no less than is taken from it as from a number
(`toNat_sub_ofNat`).
-/

namespace Duckbox.Lib

theorem toNat_sub_ofNat {w n : Nat} {x : BitVec w} (h : n ≤ x.toNat) :
    (x - BitVec.ofNat w n).toNat = x.toNat - n := by
  have hx := x.isLt
  have hn : (BitVec.ofNat w n).toNat = n := by
    rw [BitVec.toNat_ofNat, Nat.mod_eq_of_lt (Nat.lt_of_le_of_lt h hx)]
  rw [BitVec.toNat_sub_of_le (by rw [BitVec.le_def, hn]; exact h), hn]

/-- Four bytes in a word. -/
def word (a b c d : BitVec 8) : BitVec 32 :=
  a.setWidth 32 <<< 24 ||| b.setWidth 32 <<< 16 ||| c.setWidth 32 <<< 8 ||| d.setWidth 32

theorem toNat_shiftLeft_or {x : BitVec 32} (d : BitVec 8) (h : x.toNat < 2 ^ 24) :
    (x <<< 8 ||| d.setWidth 32).toNat = x.toNat * 2 ^ 8 + d.toNat := by
  have hd := d.isLt
  rw [BitVec.toNat_or, BitVec.toNat_shiftLeft, BitVec.toNat_setWidth, Nat.shiftLeft_eq,
    Nat.mod_eq_of_lt (by omega), Nat.mod_eq_of_lt (by omega), ← Nat.shiftLeft_eq,
    ← Nat.shiftLeft_add_eq_or_of_lt hd, Nat.shiftLeft_eq]

theorem word_eq (a b c d : BitVec 8) : word a b c d =
    ((a.setWidth 32 <<< 8 ||| b.setWidth 32) <<< 8 ||| c.setWidth 32) <<< 8 ||| d.setWidth 32 := by
  unfold word
  simp only [BitVec.shiftLeft_or_distrib, ← BitVec.shiftLeft_add]

theorem word_toNat (a b c d : BitVec 8) : (word a b c d).toNat
    = a.toNat * 2 ^ 24 + b.toNat * 2 ^ 16 + c.toNat * 2 ^ 8 + d.toNat := by
  have ha := a.isLt
  have hb := b.isLt
  have hc := c.isLt
  have h0 : (a.setWidth 32 : BitVec 32).toNat = a.toNat := by
    rw [BitVec.toNat_setWidth, Nat.mod_eq_of_lt (by omega)]
  have h1 := toNat_shiftLeft_or (x := a.setWidth 32) b (by omega)
  have h2 := toNat_shiftLeft_or c (by rw [h1]; omega)
  have h3 := toNat_shiftLeft_or d (by rw [h2]; omega)
  rw [word_eq, h3, h2, h1, h0]
  omega

theorem exists_word (x : BitVec 32) : ∃ a b c d, x = word a b c d := by
  refine ⟨(x >>> 24).setWidth 8, (x >>> 16).setWidth 8, (x >>> 8).setWidth 8, x.setWidth 8, ?_⟩
  have hx := x.isLt
  apply BitVec.eq_of_toNat_eq
  rw [word_toNat]
  simp only [BitVec.toNat_setWidth, BitVec.toNat_ushiftRight, Nat.shiftRight_eq_div_pow]
  omega

section

variable (p q r s : BitVec 8)

theorem word_shiftLeft : word p q r s <<< 8 = word q r s 0#8 := by
  have hp := p.isLt
  have hq := q.isLt
  have hr := r.isLt
  have hs := s.isLt
  have hz : (0#8).toNat = 0 := rfl
  apply BitVec.eq_of_toNat_eq
  rw [BitVec.toNat_shiftLeft, Nat.shiftLeft_eq, word_toNat, word_toNat]
  omega

theorem word_shiftRight : word p q r s >>> 8 = word 0#8 p q r := by
  have hp := p.isLt
  have hq := q.isLt
  have hr := r.isLt
  have hs := s.isLt
  have hz : (0#8).toNat = 0 := rfl
  apply BitVec.eq_of_toNat_eq
  rw [BitVec.toNat_ushiftRight, Nat.shiftRight_eq_div_pow, word_toNat, word_toNat]
  omega

theorem word_and_second : word p q r s &&& 0xff00#32 = word 0#8 0#8 r 0#8 := by
  unfold word
  ext i hi
  simp only [BitVec.getElem_and, BitVec.getElem_or, BitVec.getElem_shiftLeft,
    BitVec.getElem_setWidth]
  interval_cases i <;> simp

theorem word_and_middle : word p q r s &&& 0xffff00#32 = word 0#8 q r 0#8 := by
  unfold word
  ext i hi
  simp only [BitVec.getElem_and, BitVec.getElem_or, BitVec.getElem_shiftLeft,
    BitVec.getElem_setWidth]
  interval_cases i <;> simp

private theorem setWidth_zero_shiftLeft (n : Nat) : (0#8).setWidth 32 <<< n = 0#32 := by
  rw [BitVec.setWidth_zero, BitVec.zero_shiftLeft]

theorem word_or_second : word p q 0#8 0#8 ||| word 0#8 0#8 r 0#8 = word p q r 0#8 := by
  unfold word
  rw [setWidth_zero_shiftLeft, setWidth_zero_shiftLeft, setWidth_zero_shiftLeft,
    BitVec.setWidth_zero]
  simp only [BitVec.or_zero, BitVec.zero_or]

theorem word_or_middle : word p 0#8 0#8 0#8 ||| word 0#8 q r 0#8 = word p q r 0#8 := by
  unfold word
  rw [setWidth_zero_shiftLeft, setWidth_zero_shiftLeft, setWidth_zero_shiftLeft,
    BitVec.setWidth_zero]
  simp only [BitVec.or_zero, BitVec.zero_or, BitVec.or_assoc]

theorem mask_high (n : Nat) : 0xffffffff#32 <<< (8 * min n 3) =
    word 0xff#8 (if 3 ≤ n then 0#8 else 0xff#8) (if 2 ≤ n then 0#8 else 0xff#8)
      (if 1 ≤ n then 0#8 else 0xff#8) := by
  obtain rfl | rfl | rfl | h : n = 0 ∨ n = 1 ∨ n = 2 ∨ 3 ≤ n := by omega
  · decide
  · decide
  · decide
  · rw [Nat.min_eq_right h, if_pos h, if_pos (by omega), if_pos (by omega)]
    decide

theorem mask_low (n : Nat) : 0xffffffff#32 >>> (8 * min n 3) =
    word (if 1 ≤ n then 0#8 else 0xff#8) (if 2 ≤ n then 0#8 else 0xff#8)
      (if 3 ≤ n then 0#8 else 0xff#8) 0xff#8 := by
  obtain rfl | rfl | rfl | h : n = 0 ∨ n = 1 ∨ n = 2 ∨ 3 ≤ n := by omega
  · decide
  · decide
  · decide
  · rw [Nat.min_eq_right h, if_pos h, if_pos (by omega), if_pos (by omega)]
    decide

theorem word_or_bytes (x y z : BitVec 8) :
    word p q r s ||| x.setWidth 32 <<< 16 ||| y.setWidth 32 <<< 8 ||| z.setWidth 32
      = word p (q ||| x) (r ||| y) (s ||| z) := by
  have hsort : ∀ a b c d e f g : BitVec 32,
      a ||| b ||| c ||| d ||| e ||| f ||| g = a ||| (b ||| e) ||| (c ||| f) ||| (d ||| g) := by
    intro a b c d e f g
    ac_rfl
  unfold word
  rw [hsort, BitVec.setWidth_or, BitVec.setWidth_or, BitVec.setWidth_or,
    BitVec.shiftLeft_or_distrib, BitVec.shiftLeft_or_distrib]

theorem word_or_top (x y z : BitVec 8) :
    word p q r s ||| x.setWidth 32 <<< 24 ||| y.setWidth 32 <<< 16 ||| z.setWidth 32 <<< 8
      = word (p ||| x) (q ||| y) (r ||| z) s := by
  have hsort : ∀ a b c d e f g : BitVec 32,
      a ||| b ||| c ||| d ||| e ||| f ||| g = a ||| e ||| (b ||| f) ||| (c ||| g) ||| d := by
    intro a b c d e f g
    ac_rfl
  unfold word
  rw [hsort, BitVec.setWidth_or, BitVec.setWidth_or, BitVec.setWidth_or,
    BitVec.shiftLeft_or_distrib, BitVec.shiftLeft_or_distrib, BitVec.shiftLeft_or_distrib]

theorem mask_or (there : Prop) [Decidable there] (x y : BitVec 8) (h : there → x = y) :
    (if there then 0#8 else 0xff#8) ||| x = if there then y else 0xff#8 := by
  split
  · next hthere => rw [h hthere, BitVec.zero_or]
  · exact BitVec.allOnes_or

end

theorem word_inj {p q r s p' q' r' s' : BitVec 8} :
    word p q r s = word p' q' r' s' ↔ p = p' ∧ q = q' ∧ r = r' ∧ s = s' := by
  constructor
  · intro h
    have hnat := congrArg BitVec.toNat h
    rw [word_toNat, word_toNat] at hnat
    have hp := p.isLt
    have hq := q.isLt
    have hr := r.isLt
    have hs := s.isLt
    have hp' := p'.isLt
    have hq' := q'.isLt
    have hr' := r'.isLt
    have hs' := s'.isLt
    refine ⟨?_, ?_, ?_, ?_⟩
    all_goals
      apply BitVec.eq_of_toNat_eq
      omega
  · rintro ⟨rfl, rfl, rfl, rfl⟩
    rfl

/-! ## Bit operations on the bytes -/

section

variable (p q r s : BitVec 8)

theorem getLsbD_word (i : Nat) : (word p q r s).getLsbD i =
    if i < 8 then s.getLsbD i
    else if i < 16 then r.getLsbD (i - 8)
    else if i < 24 then q.getLsbD (i - 16)
    else p.getLsbD (i - 24) := by
  have hover : ∀ (x : BitVec 8) {j : Nat}, 8 ≤ j → x.getLsbD j = false :=
    fun x _ h => BitVec.getLsbD_of_ge x _ h
  unfold word
  simp only [BitVec.getLsbD_or, BitVec.getLsbD_shiftLeft, BitVec.getLsbD_setWidth]
  split
  · next h => simp [show i < 32 by omega, show i < 24 by omega, show i < 16 by omega, h]
  · next h8 =>
    rw [hover s (by omega)]
    split
    · next h => simp [show i < 32 by omega, show i < 24 by omega, show i - 8 < 32 by omega, h, h8]
    · next h16 =>
      rw [hover r (by omega)]
      split
      · next h => simp [show i < 32 by omega, show i - 16 < 32 by omega, h, h8, h16]
      · next h24 =>
        rw [hover q (by omega)]
        by_cases hi : i < 32
        · simp [hi, h8, h16, h24, show i - 24 < 32 by omega]
        · simp [hi, hover p (show 8 ≤ i - 24 by omega)]

theorem word_and (p' q' r' s' : BitVec 8) : word p q r s &&& word p' q' r' s'
    = word (p &&& p') (q &&& q') (r &&& r') (s &&& s') := by
  apply BitVec.eq_of_getLsbD_eq
  intro i hi
  simp only [BitVec.getLsbD_and, getLsbD_word]
  split
  · rfl
  · split
    · rfl
    · split
      · rfl
      · rfl

theorem word_not : ~~~word p q r s = word (~~~p) (~~~q) (~~~r) (~~~s) := by
  apply BitVec.eq_of_getLsbD_eq
  intro i hi
  simp only [BitVec.getLsbD_not, getLsbD_word]
  split
  · next h => simp [h, hi]
  · split
    · simp [hi, show i - 8 < 8 by omega]
    · split
      · simp [hi, show i - 16 < 8 by omega]
      · simp [hi, show i - 24 < 8 by omega]

end

/-! ## A byte that is zero -/

/-- The top bit of every byte that is zero, as long as none below it is. -/
def zeroFlags (n : BitVec 32) : BitVec 32 := (n - 0x01010101#32) &&& ~~~n &&& 0x80808080#32

theorem flag_eq_zero : ∀ b : BitVec 8, b ≠ 0 → (b - 1) &&& ~~~b &&& 0x80#8 = 0 := by decide

theorem zeroFlags_word_sub {p q r s p' q' r' s' : BitVec 8}
    (h : word p q r s - 0x01010101#32 = word p' q' r' s') : zeroFlags (word p q r s)
      = word (p' &&& ~~~p &&& 0x80#8) (q' &&& ~~~q &&& 0x80#8) (r' &&& ~~~r &&& 0x80#8)
          (s' &&& ~~~s &&& 0x80#8) := by
  have hmask : 0x80808080#32 = word 0x80#8 0x80#8 0x80#8 0x80#8 := by decide
  unfold zeroFlags
  rw [h, hmask, word_not, word_and, word_and]

/-- **There is a flag just where a byte is zero.** -/
theorem zeroFlags_eq_zero (p q r s : BitVec 8) :
    zeroFlags (word p q r s) = 0#32 ↔ p ≠ 0 ∧ q ≠ 0 ∧ r ≠ 0 ∧ s ≠ 0 := by
  have hzero : 0#32 = word 0#8 0#8 0#8 0#8 := by decide
  obtain ⟨p', q', r', s', hsub⟩ := exists_word (word p q r s - 0x01010101#32)
  -- how the bytes of the difference come about, from below
  have hvalue := congrArg BitVec.toNat hsub
  rw [BitVec.toNat_sub, word_toNat, word_toNat] at hvalue
  have hbytes : s' = s - 1 ∧ (s ≠ 0 → r' = r - 1) ∧ (s ≠ 0 → r ≠ 0 → q' = q - 1) ∧
      (s ≠ 0 → r ≠ 0 → q ≠ 0 → p' = p - 1) := by
    have hp := p.isLt
    have hq := q.isLt
    have hr := r.isLt
    have hs := s.isLt
    have hp' := p'.isLt
    have hq' := q'.isLt
    have hr' := r'.isLt
    have hs' := s'.isLt
    have hn : ∀ {b : BitVec 8}, b ≠ 0 → b.toNat ≠ 0 := fun h h' => h (BitVec.eq_of_toNat_eq h')
    have hpred : ∀ {x y : BitVec 8}, y.toNat = (255 + x.toNat) % 256 → y = x - 1 := by
      intro x y h
      apply BitVec.eq_of_toNat_eq
      rw [h, BitVec.toNat_sub]
      rfl
    have hones : (0x01010101#32).toNat = 0x01010101 := rfl
    rw [hones] at hvalue
    refine ⟨?_, fun hs0 => ?_, fun hs0 hr0 => ?_, fun hs0 hr0 hq0 => ?_⟩
    · exact hpred (by omega)
    · have := hn hs0
      exact hpred (by omega)
    · have := hn hs0
      have := hn hr0
      exact hpred (by omega)
    · have := hn hs0
      have := hn hr0
      have := hn hq0
      exact hpred (by omega)
  obtain ⟨hs', hr', hq', hp'⟩ := hbytes
  have hflag : (0#8 - 1) &&& ~~~0#8 &&& 0x80#8 ≠ 0#8 := by decide
  rw [zeroFlags_word_sub hsub, hzero, word_inj]
  constructor
  · rintro ⟨hfp, hfq, hfr, hfs⟩
    have hs0 : s ≠ 0 := by
      rintro rfl
      exact hflag (hs' ▸ hfs)
    have hr0 : r ≠ 0 := by
      rintro rfl
      exact hflag (hr' hs0 ▸ hfr)
    have hq0 : q ≠ 0 := by
      rintro rfl
      exact hflag (hq' hs0 hr0 ▸ hfq)
    refine ⟨?_, hq0, hr0, hs0⟩
    rintro rfl
    exact hflag (hp' hs0 hr0 hq0 ▸ hfp)
  · rintro ⟨hp0, hq0, hr0, hs0⟩
    rw [hs', hr' hs0, hq' hs0 hr0, hp' hs0 hr0 hq0]
    exact ⟨flag_eq_zero p hp0, flag_eq_zero q hq0, flag_eq_zero r hr0, flag_eq_zero s hs0⟩

end Duckbox.Lib
