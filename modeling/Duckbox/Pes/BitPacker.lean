import Duckbox.Lib.Bits

/-!
# The bit packer

`PutBits` and `FlushBits` of the player's library. A packer has stored whole words
and holds the bits that do not fill one yet, below what is left of the last code.
`Packed` says which fields have been put; one more code adds one field
(`putBits_packed`), and the last bytes take the rest (`flushBits_packed`).
-/

namespace Duckbox.Pes

open Duckbox.Lib

/-- `unsigned int`. -/
abbrev UInt := BitVec 32

/-- `BitPacker_t`, with the bytes stored so far for its pointer. -/
structure BitPacker where
  stored : List (BitVec 8)
  bitBuffer : UInt
  remaining : Nat
deriving DecidableEq, Repr

namespace BitPacker

/-- `BitPacker_t ld = {data, 0, 32}`. -/
def new : BitPacker := ⟨[], 0, 32⟩

/-- The bytes of a word, the top one first. -/
def wordBytes (w : UInt) : List (BitVec 8) :=
  [(w >>> 24).setWidth 8, (w >>> 16).setWidth 8, (w >>> 8).setWidth 8, w.setWidth 8]

/-- `PutBits`. -/
def putBits (ld : BitPacker) (code : UInt) (length : Nat) : BitPacker :=
  if length < ld.remaining then
    -- fits into current buffer
    { ld with
      bitBuffer := ld.bitBuffer <<< length ||| code
      remaining := ld.remaining - length }
  else
    -- doesn't fit; the buffer is set to the code, its stored bits and all
    let bitBuffer := ld.bitBuffer <<< ld.remaining ||| code >>> (length - ld.remaining)
    { stored := ld.stored ++ wordBytes bitBuffer
      bitBuffer := code
      remaining := 32 - (length - ld.remaining) }

/-- The loop of `FlushBits`, so many times around. -/
def flushBytes : Nat → UInt → List (BitVec 8)
  | 0, _ => []
  | n + 1, bitBuffer => (bitBuffer >>> 24).setWidth 8 :: flushBytes n (bitBuffer <<< 8)

/-- `FlushBits`, which stores a byte for every eight bits begun. -/
def flushBits (ld : BitPacker) : List (BitVec 8) :=
  ld.stored ++ flushBytes ((32 - ld.remaining + 7) / 8) (ld.bitBuffer <<< ld.remaining)

/-- Calls of `PutBits`, a code and its length each. -/
def putAll (ld : BitPacker) (codes : List (UInt × Nat)) : BitPacker :=
  codes.foldl (fun ld code => ld.putBits code.1 code.2) ld

/-! ## What has been put -/

/-- The fields put: the words stored, and the low bits of the buffer. -/
structure Packed (ld : BitPacker) (l : List Field) : Prop where
  remaining_pos : 0 < ld.remaining
  remaining_le : ld.remaining ≤ 32
  whole : ld.stored.length % 4 = 0
  width : 8 * ld.stored.length + (32 - ld.remaining) = totalWidth l
  value : bytesValue ld.stored * 2 ^ (32 - ld.remaining)
    + ld.bitBuffer.toNat % 2 ^ (32 - ld.remaining) = totalValue l

/-- The field a code writes. -/
def codeField (code : UInt) (length : Nat) : Field := ⟨length, code.toNat % 2 ^ length⟩

theorem codeField_fits (code : UInt) (length : Nat) : (codeField code length).Fits :=
  Nat.mod_lt _ (Nat.two_pow_pos length)

variable {ld : BitPacker} {l : List Field} {code : UInt} {length : Nat}

theorem new_packed : Packed new [] where
  remaining_pos := by decide
  remaining_le := by decide
  whole := rfl
  width := rfl
  value := rfl

theorem bytesValue_wordBytes (w : UInt) : bytesValue (wordBytes w) = w.toNat := by
  have hw := w.isLt
  unfold wordBytes
  simp only [bytesValue, List.length_cons, List.length_nil, BitVec.toNat_setWidth,
    BitVec.toNat_ushiftRight, Nat.shiftRight_eq_div_pow]
  omega

theorem shift_or_mod {w code : UInt} {n k : Nat} (hcode : code.toNat < 2 ^ n ∨ k = 0)
    (hnk : n + k ≤ 32) :
    (w <<< n ||| code).toNat % 2 ^ (n + k) = w.toNat % 2 ^ k * 2 ^ n + code.toNat % 2 ^ n := by
  have hleft : w.toNat * 2 ^ n % 2 ^ 32 % 2 ^ (n + k) = w.toNat % 2 ^ k * 2 ^ n := by
    rw [Nat.mod_mod_of_dvd _ (Nat.pow_dvd_pow 2 hnk), Nat.add_comm n k, Nat.pow_add,
      Nat.mul_mod_mul_right]
  have hcodes : code.toNat % 2 ^ (n + k) = code.toNat % 2 ^ n := by
    rcases hcode with hcode | rfl
    · have hle : 2 ^ n ≤ 2 ^ (n + k) := Nat.pow_le_pow_right (by decide) (Nat.le_add_right n k)
      rw [Nat.mod_eq_of_lt hcode, Nat.mod_eq_of_lt (Nat.lt_of_lt_of_le hcode hle)]
    · rfl
  rw [BitVec.toNat_or, BitVec.toNat_shiftLeft, Nat.shiftLeft_eq, Nat.or_mod_two_pow, hleft, hcodes,
    ← Nat.shiftLeft_eq, Nat.shiftLeft_add_eq_or_of_lt (Nat.mod_lt _ (Nat.two_pow_pos n))]

theorem putBits_packed (h : Packed ld l) (hlength : length ≤ 32)
    (hcode : code.toNat < 2 ^ length ∨ ld.remaining = 32 ∧ length < 32) :
    Packed (ld.putBits code length) (l ++ [codeField code length]) := by
  have hpos := h.remaining_pos
  have hle := h.remaining_le
  have hwidth := h.width
  have hvalue := h.value
  unfold putBits
  split
  · next hfits =>
    refine ⟨by simp only; omega, by simp only; omega, h.whole, ?_, ?_⟩
    · rw [totalWidth_concat]
      simp only [codeField]
      omega
    · rw [totalValue_concat, ← hvalue]
      simp only [codeField]
      rw [show 32 - (ld.remaining - length) = length + (32 - ld.remaining) by omega,
        shift_or_mod (hcode.imp_right fun h => by omega) (by omega), Nat.pow_add]
      ring
  · next hfull =>
    have hcode : code.toNat < 2 ^ length := hcode.resolve_right fun h => by omega
    -- the code is cut where the word is full
    obtain ⟨n, rfl⟩ := Nat.exists_eq_add_of_le (Nat.le_of_not_lt hfull)
    have hhigh : (code >>> n).toNat < 2 ^ ld.remaining := by
      rw [BitVec.toNat_ushiftRight, Nat.shiftRight_eq_div_pow]
      exact Nat.div_lt_of_lt_mul (by rwa [← Nat.pow_add, Nat.add_comm])
    have hword : (ld.bitBuffer <<< ld.remaining ||| code >>> n).toNat
        = ld.bitBuffer.toNat % 2 ^ (32 - ld.remaining) * 2 ^ ld.remaining + code.toNat / 2 ^ n := by
      have hlow := shift_or_mod (w := ld.bitBuffer) (k := 32 - ld.remaining) (.inl hhigh) (by omega)
      rw [Nat.add_sub_cancel' hle, Nat.mod_eq_of_lt (BitVec.isLt _), Nat.mod_eq_of_lt hhigh] at hlow
      rw [hlow, BitVec.toNat_ushiftRight, Nat.shiftRight_eq_div_pow]
    have hstored : ∀ w, (ld.stored ++ wordBytes w).length = ld.stored.length + 4 := fun w =>
      List.length_append
    have hwhole := h.whole
    simp only [Nat.add_sub_cancel_left]
    refine ⟨by simp only; omega, by simp only; omega, ?_, ?_, ?_⟩
    · rw [hstored]
      omega
    · rw [hstored, totalWidth_concat]
      simp only [codeField]
      omega
    · rw [totalValue_concat, ← hvalue, bytesValue_append, bytesValue_wordBytes, hword]
      simp only [codeField]
      rw [Nat.mod_eq_of_lt hcode, show 32 - (32 - n) = n by omega,
        show 8 * (wordBytes (ld.bitBuffer <<< ld.remaining ||| code >>> n)).length
          = (32 - ld.remaining) + ld.remaining from (Nat.sub_add_cancel hle).symm,
        Nat.pow_add, Nat.pow_add]
      have hcut := Nat.div_add_mod code.toNat (2 ^ n)
      calc _ = (bytesValue ld.stored * 2 ^ (32 - ld.remaining)
              + ld.bitBuffer.toNat % 2 ^ (32 - ld.remaining)) * (2 ^ ld.remaining * 2 ^ n)
            + (2 ^ n * (code.toNat / 2 ^ n) + code.toNat % 2 ^ n) := by ring
        _ = _ := by rw [hcut]

/-- The fields of codes. -/
def codeFields (codes : List (UInt × Nat)) : List Field :=
  codes.map fun code => codeField code.1 code.2

theorem putAll_packed (codes : List (UInt × Nat)) (h : Packed ld l)
    (hcodes : ∀ code ∈ codes, code.2 ≤ 32 ∧ code.1.toNat < 2 ^ code.2) :
    Packed (ld.putAll codes) (l ++ codeFields codes) := by
  induction codes generalizing ld l with
  | nil =>
    rw [show codeFields [] = [] from rfl, List.append_nil]
    exact h
  | cons code codes ih =>
    obtain ⟨hlength, hcode⟩ := hcodes code List.mem_cons_self
    have hnext := ih (putBits_packed h hlength (.inl hcode)) fun c hc =>
      hcodes c (List.mem_cons_of_mem code hc)
    rwa [List.append_assoc] at hnext

theorem bytesValue_flushBytes (n : Nat) (w : UInt) (hn : n ≤ 4) :
    (flushBytes n w).length = n ∧ bytesValue (flushBytes n w) = w.toNat / 2 ^ (32 - 8 * n) := by
  induction n generalizing w with
  | zero =>
    refine ⟨rfl, ?_⟩
    rw [Nat.div_eq_of_lt w.isLt]
    rfl
  | succ n ih =>
    obtain ⟨hlength, hrest⟩ := ih (w <<< 8) (by omega)
    refine ⟨congrArg (· + 1) hlength, ?_⟩
    show ((w >>> 24).setWidth 8 : BitVec 8).toNat * 2 ^ (8 * (flushBytes n (w <<< 8)).length)
      + bytesValue (flushBytes n (w <<< 8)) = _
    have hw := w.isLt
    rw [hlength, hrest, BitVec.toNat_setWidth, BitVec.toNat_ushiftRight, BitVec.toNat_shiftLeft,
      Nat.shiftRight_eq_div_pow, Nat.shiftLeft_eq]
    have hn : n ≤ 3 := Nat.le_of_succ_le_succ hn
    interval_cases n <;> omega

theorem flushBits_packed (h : Packed ld l) :
    ∃ pad, pad < 8 ∧ 8 * ld.flushBits.length = totalWidth (l ++ [⟨pad, 0⟩]) ∧
      bytesValue ld.flushBits = totalValue (l ++ [⟨pad, 0⟩]) := by
  have hpos := h.remaining_pos
  have hle := h.remaining_le
  have hwidth := h.width
  obtain ⟨k, hk⟩ : ∃ k, k = 32 - ld.remaining := ⟨_, rfl⟩
  obtain ⟨count, hcount⟩ : ∃ count, count = (k + 7) / 8 := ⟨_, rfl⟩
  obtain ⟨hlength, hbytes⟩ :=
    bytesValue_flushBytes count (ld.bitBuffer <<< ld.remaining) (by omega)
  have hflush : ld.flushBits = ld.stored ++ flushBytes count (ld.bitBuffer <<< ld.remaining) := by
    rw [hcount, hk]
    rfl
  refine ⟨8 * count - k, by omega, ?_, ?_⟩
  · rw [hflush, List.length_append, hlength, totalWidth_concat]
    simp only
    omega
  · -- what is held is at the top of the buffer, and the rest of it is zero
    have hbuffer : (ld.bitBuffer <<< ld.remaining).toNat
        = ld.bitBuffer.toNat % 2 ^ k * 2 ^ (8 * count - k) * 2 ^ (32 - 8 * count) := by
      rw [BitVec.toNat_shiftLeft, Nat.shiftLeft_eq, Nat.mul_assoc, ← Nat.pow_add,
        show 8 * count - k + (32 - 8 * count) = ld.remaining by omega,
        show 2 ^ 32 = 2 ^ k * 2 ^ ld.remaining by rw [← Nat.pow_add]; congr 1; omega,
        Nat.mul_mod_mul_right]
    have hvalue := h.value
    rw [← hk] at hvalue
    rw [hflush, bytesValue_append, hlength, hbytes, hbuffer,
      Nat.mul_div_cancel _ (Nat.two_pow_pos _), totalValue_concat, ← hvalue,
      show 8 * count = k + (8 * count - k) by omega, Nat.pow_add, Nat.add_sub_cancel_left]
    ring

theorem flushBits_bytes (h : Packed ld l) (hl : totalWidth l % 8 = 0) :
    8 * ld.flushBits.length = totalWidth l ∧ bytesValue ld.flushBits = totalValue l := by
  obtain ⟨pad, hpad, hlength, hvalue⟩ := flushBits_packed h
  rw [totalWidth_concat] at hlength
  obtain rfl : pad = 0 := by
    simp only at hlength
    omega
  rw [totalValue_concat, Nat.pow_zero, Nat.mul_one] at hvalue
  exact ⟨hlength, hvalue⟩

end BitPacker

end Duckbox.Pes

/-!
## The shifts of the bit packer

A shift of an `unsigned int` by 32 positions has no result. `PutBits` shifts its buffer
by what remains of it, which is all of it where a word has just been filled, and then
`FlushBits` does so too. So `checkedPutBits` and `checkedFlushBits` have no result where
one of the counts is 32 or more.

> `putBits_concatenation_iff`: fields put one after the other and flushed are written as
> the concatenation of their bits, exactly if no field of 32 bits begins at a whole word
> and the last word is not a whole one.

What is written where nothing is shifted too far is what `Packed` says; what remains to
be seen is the counts, which follow from how many bits there are in front (`remaining_eq`).
-/

namespace Duckbox.Pes

open Duckbox.Lib

namespace BitPacker

/-! ## Counts -/

/-- The counts of the shifts in `PutBits`, in their order; the last is that of a mask. -/
def shiftCounts (ld : BitPacker) (length : Nat) : List Nat :=
  if length < ld.remaining then [length]
  else [ld.remaining, length - ld.remaining, 24, 16, 8, length - ld.remaining]

/-- Those in `FlushBits`. -/
def flushCounts (ld : BitPacker) : List Nat :=
  ld.remaining :: (List.replicate ((32 - ld.remaining + 7) / 8) [24, 8]).flatten

/-- `PutBits`, as far as its shifts have results. -/
def checkedPutBits (ld : BitPacker) (code : UInt × Nat) : Option BitPacker :=
  if ∀ n ∈ ld.shiftCounts code.2, n < 32 then some (ld.putBits code.1 code.2) else none

/-- `FlushBits`, as far as its shifts have results. -/
def checkedFlushBits (ld : BitPacker) : Option (List (BitVec 8)) :=
  if ∀ n ∈ ld.flushCounts, n < 32 then some ld.flushBits else none

/-- A run of `PutBits` from a new packer, and `FlushBits`. -/
def putAndFlush (codes : List (UInt × Nat)) : Option (List (BitVec 8)) :=
  (codes.foldlM checkedPutBits new).bind checkedFlushBits

/-! ## What is to be written -/

/-- The bytes are the bits of the codes, with zeros behind them. -/
def Concatenates (codes : List (UInt × Nat)) (bytes : List (BitVec 8)) : Prop :=
  ∃ pad, pad < 8 ∧ (bytes.flatMap fun b => bits 8 b.toNat) =
    (codes.flatMap fun code => bits code.2 code.1.toNat) ++ List.replicate pad false

/-- Behind so many bits, no code of 32 bits begins at a whole word, and the end is not at
one. -/
def OffWords : Nat → List (UInt × Nat) → Prop
  | n, [] => n % 32 ≠ 0
  | n, code :: codes => ¬ (code.2 = 32 ∧ n % 32 = 0) ∧ OffWords (n + code.2) codes

instance OffWords.decidable : ∀ (n : Nat) (codes : List (UInt × Nat)), Decidable (OffWords n codes)
  | n, [] => inferInstanceAs (Decidable (n % 32 ≠ 0))
  | n, code :: codes =>
    have := OffWords.decidable (n + code.2) codes
    inferInstanceAs (Decidable (¬ (code.2 = 32 ∧ n % 32 = 0) ∧ _))

/-- A code that `PutBits` is meant for. -/
def Proper (code : UInt × Nat) : Prop := 1 ≤ code.2 ∧ code.2 ≤ 32 ∧ code.1.toNat < 2 ^ code.2

instance (code : UInt × Nat) : Decidable (Proper code) := inferInstanceAs (Decidable (_ ∧ _ ∧ _))

variable {ld : BitPacker} {l : List Field} {code : UInt × Nat} {codes : List (UInt × Nat)}

theorem remaining_eq (h : Packed ld l) : ld.remaining = 32 - totalWidth l % 32 := by
  have hpos := h.remaining_pos
  have hle := h.remaining_le
  have hwhole := h.whole
  have hwidth := h.width
  omega

theorem checkedPutBits_eq (h : Packed ld l) (hcode : Proper code) : ld.checkedPutBits code =
    if code.2 = 32 ∧ totalWidth l % 32 = 0 then none else some (ld.putBits code.1 code.2) := by
  obtain ⟨-, hlength, -⟩ := hcode
  have hpos := h.remaining_pos
  have hle := h.remaining_le
  have hremaining := remaining_eq h
  have hcounts : (∀ n ∈ ld.shiftCounts code.2, n < 32) ↔
      ¬ (code.2 = 32 ∧ totalWidth l % 32 = 0) := by
    unfold shiftCounts
    split
    · simp only [List.forall_mem_cons, List.not_mem_nil, false_imp_iff, implies_true, and_true]
      omega
    · simp only [List.forall_mem_cons, List.not_mem_nil, false_imp_iff, implies_true, and_true]
      omega
  unfold checkedPutBits
  by_cases hword : code.2 = 32 ∧ totalWidth l % 32 = 0
  · rw [if_pos hword, if_neg fun hall => hcounts.mp hall hword]
  · rw [if_neg hword, if_pos (hcounts.mpr hword)]

theorem checkedFlushBits_eq (h : Packed ld l) : ld.checkedFlushBits =
    if totalWidth l % 32 = 0 then none else some ld.flushBits := by
  have hremaining := remaining_eq h
  have hcounts : (∀ n ∈ ld.flushCounts, n < 32) ↔ totalWidth l % 32 ≠ 0 := by
    unfold flushCounts
    rw [List.forall_mem_cons]
    constructor
    · rintro ⟨hlt, -⟩
      omega
    · intro hbegun
      refine ⟨by omega, fun n hn => ?_⟩
      obtain ⟨pair, hpair, hmem⟩ := List.mem_flatten.mp hn
      rw [List.eq_of_mem_replicate hpair] at hmem
      rcases List.mem_cons.mp hmem with rfl | hmem
      · decide
      · rw [List.mem_singleton.mp hmem]
        decide
  unfold checkedFlushBits
  by_cases hword : totalWidth l % 32 = 0
  · rw [if_pos hword, if_neg fun hall => hcounts.mp hall hword]
  · rw [if_neg hword, if_pos (hcounts.mpr hword)]

theorem putAll_flush (hcodes : ∀ code ∈ codes, Proper code) (h : Packed ld l) :
    (OffWords (totalWidth l) codes →
      (codes.foldlM checkedPutBits ld).bind checkedFlushBits = some (ld.putAll codes).flushBits) ∧
    (¬ OffWords (totalWidth l) codes →
      (codes.foldlM checkedPutBits ld).bind checkedFlushBits = none) := by
  induction codes generalizing ld l with
  | nil =>
    show (_ → ld.checkedFlushBits = _) ∧ (_ → ld.checkedFlushBits = none)
    rw [checkedFlushBits_eq h]
    exact ⟨fun hoff => if_neg hoff, fun hon => if_pos (Classical.not_not.mp hon)⟩
  | cons code codes ih =>
    have hcode := hcodes code List.mem_cons_self
    have hput := putBits_packed h hcode.2.1 (.inl hcode.2.2)
    obtain ⟨hoff, hon⟩ := ih (fun c hc => hcodes c (List.mem_cons_of_mem code hc)) hput
    have hwidth : totalWidth (l ++ [codeField code.1 code.2]) = totalWidth l + code.2 :=
      totalWidth_concat l _
    rw [hwidth] at hoff hon
    rw [List.foldlM_cons, checkedPutBits_eq h hcode]
    by_cases hword : code.2 = 32 ∧ totalWidth l % 32 = 0
    · rw [if_pos hword]
      exact ⟨fun h => absurd hword h.1, fun _ => rfl⟩
    · rw [if_neg hword]
      exact ⟨fun h => hoff h.2, fun h => hon fun hrest => h ⟨hword, hrest⟩⟩

theorem flatMap_codeFields (h : ∀ code ∈ codes, code.1.toNat < 2 ^ code.2) :
    ((codeFields codes).flatMap fun x => bits x.width x.value) =
      codes.flatMap fun code => bits code.2 code.1.toNat := by
  unfold codeFields
  rw [List.flatMap_map]
  refine congrArg List.flatten (List.map_congr_left fun code hcode => ?_)
  show bits code.2 (code.1.toNat % 2 ^ code.2) = _
  rw [Nat.mod_eq_of_lt (h code hcode)]

theorem flushBits_concatenates (hcodes : ∀ code ∈ codes, Proper code) :
    Concatenates codes (new.putAll codes).flushBits := by
  have hpacked := putAll_packed codes new_packed fun code hcode =>
    ⟨(hcodes code hcode).2.1, (hcodes code hcode).2.2⟩
  rw [List.nil_append] at hpacked
  obtain ⟨pad, hpad, hlength, hvalue⟩ := flushBits_packed hpacked
  refine ⟨pad, hpad, ?_⟩
  have hfit : ∀ x ∈ codeFields codes ++ [⟨pad, 0⟩], x.Fits := by
    intro x hx
    rcases List.mem_append.mp hx with hx | hx
    · obtain ⟨code, -, rfl⟩ := List.mem_map.mp hx
      exact codeField_fits code.1 code.2
    · rw [List.mem_singleton.mp hx]
      exact Nat.two_pow_pos pad
  rw [flatMap_bits_bytes, hlength, hvalue, ← flatMap_bits hfit, List.flatMap_append,
    flatMap_codeFields fun code hcode => (hcodes code hcode).2.2, List.flatMap_singleton, bits_zero]

/-- Fields are written as the concatenation of their bits, by shifts that have results,
exactly if none of 32 bits begins at a whole word and the last word is not whole. -/
theorem putBits_concatenation_iff (codes : List (UInt × Nat))
    (hcodes : ∀ code ∈ codes, Proper code) :
    (∃ bytes, putAndFlush codes = some bytes ∧ Concatenates codes bytes) ↔ OffWords 0 codes := by
  obtain ⟨hoff, hon⟩ := putAll_flush hcodes new_packed
  constructor
  · rintro ⟨bytes, hbytes, -⟩
    refine Classical.byContradiction fun hword => ?_
    have hnone : putAndFlush codes = none := hon hword
    rw [hnone] at hbytes
    exact nomatch hbytes
  · exact fun h => ⟨_, hoff h, flushBits_concatenates hcodes⟩

/-- A field that is cut by the end of a word. -/
theorem putBits_concatenation_cut :
    ∃ bytes, putAndFlush [(0xab, 8), (0xdeadbeef, 32)] = some bytes ∧
      Concatenates [(0xab, 8), (0xdeadbeef, 32)] bytes :=
  (putBits_concatenation_iff [(0xab, 8), (0xdeadbeef, 32)] (by decide)).mpr (by decide)

/-- Behind a whole word, the buffer is shifted by 32. -/
theorem putBits_whole_word :
    ¬ ∃ bytes, putAndFlush [(0xdeadbeef, 32), (0xab, 8)] = some bytes ∧
      Concatenates [(0xdeadbeef, 32), (0xab, 8)] bytes := by
  rintro ⟨bytes, hbytes, -⟩
  have hnone : putAndFlush [(0xdeadbeef, 32), (0xab, 8)] = none := by decide
  rw [hnone] at hbytes
  exact nomatch hbytes

end BitPacker

end Duckbox.Pes
