import Duckbox.Collator2.PesVideo

/-!
# The count of a start code that spans

In reverse play the data that remains ends where the partition begins. The count that
`ProcessInputBackward` makes of two words is that of the bytes the partition has of a start
code between them, before its code byte is known (`spanningCountBackward_lead`). The byte
looked at to see whether the code is ignored is one of the data, and where the partition is
shorter than the code the count is what the partition has.

A turn where this makes no difference (`Clear`) captures the code that spans, if there is
one, and none that does otherwise (`capture_spec`).
-/

namespace Duckbox.Collator2

open BufferPool (UnsignedInt)
open Collator (Byte Remaining IsCode byteAt byteAt_append_left byteAt_append_right)
open Lib (word word_shiftLeft word_shiftRight word_and_second word_and_middle word_or_second
  word_or_middle word_inj word_or_bytes)

/-! ## The two words -/

/-- A byte of what remains, counted from its end, `ff` when there is none. -/
def lastByte (r : Remaining) (k : Nat) : Byte :=
  if k ≤ r.length.toNat then byteAt r.bytes (r.length.toNat - k) else 0xff#8

/-- A byte of a partition, `ff` when there is none. -/
def firstByte (partition : Nat → Byte) (size : UnsignedInt) (k : Nat) : Byte :=
  if k < size.toNat then partition k else 0xff#8

theorem data_last (r : Remaining) {k : Nat} (hk : 1 ≤ k) (hle : k ≤ r.length.toNat) :
    r.data (r.length - BitVec.ofNat 32 k) = byteAt r.bytes (r.length.toNat - k) := by
  have hlength := r.length.isLt
  have hindex : r.length - BitVec.ofNat 32 k = BitVec.ofNat 32 (r.length.toNat - k) := by
    apply BitVec.eq_of_toNat_eq
    rw [Lib.toNat_sub_ofNat hle, BitVec.toNat_ofNat, Nat.mod_eq_of_lt (by omega)]
  rw [hindex, Reads.byteAt_bytes (by omega)]

theorem startingWordBackward_eq (r : Remaining) :
    startingWordBackward r = word 0xff#8 (lastByte r 3) (lastByte r 2) (lastByte r 1) := by
  have hthree : (if 3 ≤ r.length.toNat then 0#8 else 0xff#8) ||| r.data (r.length - 3)
      = lastByte r 3 := Lib.mask_or _ _ _ (data_last r (k := 3) (by omega))
  have htwo : (if 2 ≤ r.length.toNat then 0#8 else 0xff#8) ||| r.data (r.length - 2)
      = lastByte r 2 := Lib.mask_or _ _ _ (data_last r (k := 2) (by omega))
  have hone : (if 1 ≤ r.length.toNat then 0#8 else 0xff#8) ||| r.data (r.length - 1)
      = lastByte r 1 := Lib.mask_or _ _ _ (data_last r (k := 1) (by omega))
  unfold startingWordBackward
  rw [Lib.mask_high, word_or_bytes, hthree, htwo, hone]

theorem spanningWordBackward_eq (partition : Nat → Byte) (size : UnsignedInt) :
    spanningWordBackward partition size =
      word (firstByte partition size 0) (firstByte partition size 1) (firstByte partition size 2)
        0xff#8 := by
  have hfirst := Lib.mask_or (1 ≤ size.toNat) (partition 0) _ fun _ => rfl
  have hsecond := Lib.mask_or (2 ≤ size.toNat) (partition 1) _ fun _ => rfl
  have hthird := Lib.mask_or (3 ≤ size.toNat) (partition 2) _ fun _ => rfl
  unfold spanningWordBackward
  rw [Lib.mask_low, Lib.word_or_top, hfirst, hsecond, hthird]
  rfl

/-- What is at a place looks like a start code, as far as before the code byte. -/
def IsLead (data : List Byte) (i : Nat) : Prop :=
  i + 2 < data.length ∧ byteAt data i = 0 ∧ byteAt data (i + 1) = 0 ∧ byteAt data (i + 2) = 1

instance (data : List Byte) (i : Nat) : Decidable (IsLead data i) :=
  inferInstanceAs (Decidable (_ ∧ _))

instance (ignored : Byte → Bool) (data : List Byte) (i : Nat) : Decidable (IsCode ignored data i) :=
  inferInstanceAs (Decidable (_ ∧ _))

theorem isLead_of_isCode {ignored : Byte → Bool} {data : List Byte} {i : Nat}
    (h : IsCode ignored data i) : IsLead data i :=
  ⟨by have := h.1; omega, h.2.1, h.2.2.1, h.2.2.2.1⟩

section

variable {partition : Nat → Byte} {size : UnsignedInt} {part : List Byte} (r : Remaining)

theorem lastByte_eq {k : Nat} {x : Byte} (hk : 1 ≤ k) (hx : x ≠ 0xff) :
    lastByte r k = x ↔
      k ≤ r.length.toNat ∧ byteAt (r.bytes ++ part) (r.length.toNat - k) = x := by
  unfold lastByte
  by_cases h : k ≤ r.length.toNat
  · rw [if_pos h, byteAt_append_left (by rw [Remaining.length_bytes]; omega)]
    exact (and_iff_right h).symm
  · rw [if_neg h]
    exact iff_of_false (fun he => hx he.symm) fun h' => h h'.1

theorem firstByte_eq (hlength : part.length = size.toNat)
    (hpart : ∀ j < size.toNat, byteAt part j = partition j) {k : Nat} {x : Byte} (hx : x ≠ 0xff) :
    firstByte partition size k = x ↔
      k < part.length ∧ byteAt (r.bytes ++ part) (r.length.toNat + k) = x := by
  have hplace : byteAt (r.bytes ++ part) (r.length.toNat + k) = byteAt part k := by
    rw [← r.length_bytes]
    exact byteAt_append_right k
  unfold firstByte
  rw [hplace, hlength]
  by_cases h : k < size.toNat
  · rw [if_pos h, hpart k h]
    exact (and_iff_right h).symm
  · rw [if_neg h]
    exact iff_of_false (fun he => hx he.symm) fun h' => h h'.1

theorem spanningCountBackward_lead (ignored : Byte → Bool) (hlength : part.length = size.toNat)
    (hpart : ∀ j < size.toNat, byteAt part j = partition j) :
    ∃ raw ≤ 3, (∀ j, 1 ≤ j → j ≤ 3 →
        (raw = j ↔ 4 ≤ r.length.toNat + j ∧ IsLead (r.bytes ++ part) (r.length.toNat + j - 4))) ∧
      spanningCountBackward ignored partition size r =
        if min raw size.toNat ≠ 0 ∧ ignored (r.data (BitVec.ofNat 32 (min raw size.toNat - 1))) then 0
        else min raw size.toNat := by
  have hcode : 0x00000100#32 = word 0#8 0#8 1#8 0#8 := by decide
  have hsum : (r.bytes ++ part).length = r.length.toNat + part.length := by
    rw [List.length_append, Remaining.length_bytes]
  have hlast : ∀ {k x}, 1 ≤ k → x ≠ 0xff → (lastByte r k = x ↔
      k ≤ r.length.toNat ∧ byteAt (r.bytes ++ part) (r.length.toNat - k) = x) :=
    fun hk hx => lastByte_eq r hk hx
  have hfirst : ∀ {k x}, x ≠ 0xff → (firstByte partition size k = x ↔
      k < part.length ∧ byteAt (r.bytes ++ part) (r.length.toNat + k) = x) :=
    fun hx => firstByte_eq r hlength hpart hx
  -- the three tests, byte by byte
  have htests : spanningCountBackward ignored partition size r =
      (let count :=
        if lastByte r 3 = 0 ∧ lastByte r 2 = 0 ∧ lastByte r 1 = 1 then 1
        else if lastByte r 2 = 0 ∧ lastByte r 1 = 0 ∧ firstByte partition size 0 = 1 then 2
        else if lastByte r 1 = 0 ∧ firstByte partition size 0 = 0 ∧ firstByte partition size 1 = 1
          then 3
        else 0
      if min count size.toNat ≠ 0 ∧ ignored (r.data (BitVec.ofNat 32 (min count size.toNat - 1))) then 0
      else min count size.toNat) := by
    unfold spanningCountBackward
    simp only
    rw [startingWordBackward_eq, spanningWordBackward_eq, hcode, show 24 = 8 + 16 from rfl,
      show 16 = 8 + 8 from rfl]
    simp only [BitVec.shiftLeft_add, BitVec.shiftRight_add, word_shiftLeft, word_shiftRight,
      word_and_second, word_and_middle, word_or_second, word_or_middle, word_inj]
    simp only [and_true]
    rfl
  have hzero : (0 : Byte) ≠ 0xff := by decide
  have hone : (1 : Byte) ≠ 0xff := by decide
  have hfirst1 : (lastByte r 3 = 0 ∧ lastByte r 2 = 0 ∧ lastByte r 1 = 1) ↔
      4 ≤ r.length.toNat + 1 ∧ IsLead (r.bytes ++ part) (r.length.toNat + 1 - 4) := by
    rw [hlast (by omega) hzero, hlast (by omega) hzero, hlast (by omega) hone]
    unfold IsLead
    rw [hsum]
    constructor
    · rintro ⟨⟨hle, h3⟩, ⟨-, h2⟩, -, h1⟩
      refine ⟨by omega, by omega, h3, ?_, ?_⟩
      · rw [show r.length.toNat + 1 - 4 + 1 = r.length.toNat - 2 by omega]
        exact h2
      · rw [show r.length.toNat + 1 - 4 + 2 = r.length.toNat - 1 by omega]
        exact h1
    · rintro ⟨hle, -, h3, h2, h1⟩
      rw [show r.length.toNat + 1 - 4 + 1 = r.length.toNat - 2 by omega] at h2
      rw [show r.length.toNat + 1 - 4 + 2 = r.length.toNat - 1 by omega] at h1
      exact ⟨⟨by omega, h3⟩, ⟨by omega, h2⟩, by omega, h1⟩
  have hsecond : (lastByte r 2 = 0 ∧ lastByte r 1 = 0 ∧ firstByte partition size 0 = 1) ↔
      4 ≤ r.length.toNat + 2 ∧ IsLead (r.bytes ++ part) (r.length.toNat + 2 - 4) := by
    rw [hlast (by omega) hzero, hlast (by omega) hzero, hfirst hone]
    unfold IsLead
    rw [hsum]
    constructor
    · rintro ⟨⟨hle, h2⟩, ⟨-, h1⟩, hpos, h0⟩
      refine ⟨by omega, by omega, h2, ?_, ?_⟩
      · rw [show r.length.toNat + 2 - 4 + 1 = r.length.toNat - 1 by omega]
        exact h1
      · rw [show r.length.toNat + 2 - 4 + 2 = r.length.toNat + 0 by omega]
        exact h0
    · rintro ⟨hle, hin, h2, h1, h0⟩
      rw [show r.length.toNat + 2 - 4 + 1 = r.length.toNat - 1 by omega] at h1
      rw [show r.length.toNat + 2 - 4 + 2 = r.length.toNat + 0 by omega] at h0
      exact ⟨⟨by omega, h2⟩, ⟨by omega, h1⟩, by omega, h0⟩
  have hthird : (lastByte r 1 = 0 ∧ firstByte partition size 0 = 0 ∧
      firstByte partition size 1 = 1) ↔
      4 ≤ r.length.toNat + 3 ∧ IsLead (r.bytes ++ part) (r.length.toNat + 3 - 4) := by
    rw [hlast (by omega) hzero, hfirst hzero, hfirst hone]
    unfold IsLead
    rw [hsum]
    constructor
    · rintro ⟨⟨hle, h1⟩, ⟨-, h0⟩, hin, hnext⟩
      refine ⟨by omega, by omega, h1, ?_, ?_⟩
      · rw [show r.length.toNat + 3 - 4 + 1 = r.length.toNat + 0 by omega]
        exact h0
      · rw [show r.length.toNat + 3 - 4 + 2 = r.length.toNat + 1 by omega]
        exact hnext
    · rintro ⟨hle, hin, h1, h0, hnext⟩
      rw [show r.length.toNat + 3 - 4 + 1 = r.length.toNat + 0 by omega] at h0
      rw [show r.length.toNat + 3 - 4 + 2 = r.length.toNat + 1 by omega] at hnext
      exact ⟨⟨by omega, h1⟩, ⟨by omega, h0⟩, by omega, hnext⟩
  -- no two of them hold
  have hone_zero : (1 : Byte) ≠ 0 := by decide
  refine ⟨_, ?_, ?_, htests⟩
  · split
    · omega
    · split
      · omega
      · split <;> omega
  · intro j hlow hhigh
    obtain rfl | rfl | rfl : j = 1 ∨ j = 2 ∨ j = 3 := by omega
    · rw [← hfirst1]
      split
      · next h => exact iff_of_true rfl h
      · next h =>
        refine iff_of_false ?_ h
        split
        · omega
        · split <;> omega
    · rw [← hsecond]
      split
      · next h => exact iff_of_false (by omega) fun h' => hone_zero (h.2.2.symm.trans h'.2.1)
      · split
        · next h => exact iff_of_true rfl h
        · next h =>
          refine iff_of_false ?_ h
          split <;> omega
    · rw [← hthird]
      split
      · next h => exact iff_of_false (by omega) fun h' => hone_zero (h.2.2.symm.trans h'.1)
      · split
        · next h => exact iff_of_false (by omega) fun h' => hone_zero (h.2.2.symm.trans h'.2.1)
        · split
          · next h => exact iff_of_true rfl h
          · next h => exact iff_of_false (by omega) h

end

theorem IsLead.unique {data : List Byte} {i j : Nat} (hi : IsLead data i) (hj : IsLead data j)
    (hnear : i < j + 3) (hnear' : j < i + 3) : i = j := by
  have hone_zero : (1 : Byte) ≠ 0 := by decide
  obtain ⟨-, hi0, hi1, hi2⟩ := hi
  obtain ⟨-, hj0, hj1, hj2⟩ := hj
  obtain rfl | rfl | rfl | rfl | rfl : i = j ∨ i = j + 1 ∨ i = j + 2 ∨ j = i + 1 ∨ j = i + 2 := by omega
  · rfl
  · exact absurd (hj2.symm.trans hi1) hone_zero
  · exact absurd (hj2.symm.trans hi0) hone_zero
  · exact absurd (hi2.symm.trans hj1) hone_zero
  · exact absurd (hi2.symm.trans hj0) hone_zero

/-! ## A turn -/

namespace PesVideo

section

variable (c : VideoConfiguration) (s : PesVideo) (r : Remaining)

/-- The data that remains, and the partition behind it. -/
def joined : List Byte := r.bytes ++ s.partition

/-- A place among the last three bytes of the data. -/
def Straddles (i : Nat) : Prop := i < r.length.toNat ∧ r.length.toNat < i + 4

/-- What a turn asks: that the byte looked at for what seems a code tells as the code byte would,
and that a search for another ends in the data. -/
structure Clear : Prop where
  code : ∀ i < r.length.toNat, r.length.toNat < i + 4 →
    s.base.nextPartition.partitionSize ≠ 0 → IsLead (s.joined r) i →
      (IsCode c.codes.ignored (s.joined r) i ↔
        c.codes.ignored (r.data (BitVec.ofNat 32
          (min (i + 4 - r.length.toNat) s.base.nextPartition.partitionSize.toNat - 1))) = false)
  search : ∀ offset ∈ findPreviousStartCode c.codes.ignored r, offset.toNat + 4 ≤ r.length.toNat

instance : Decidable (s.Clear c r) :=
  have : Decidable (∀ offset ∈ findPreviousStartCode c.codes.ignored r,
      offset.toNat + 4 ≤ r.length.toNat) := Option.decidableForallMem _
  decidable_of_iff
    ((∀ i < r.length.toNat, r.length.toNat < i + 4 →
      s.base.nextPartition.partitionSize ≠ 0 → IsLead (s.joined r) i →
        (IsCode c.codes.ignored (s.joined r) i ↔
          c.codes.ignored (r.data (BitVec.ofNat 32
            (min (i + 4 - r.length.toNat) s.base.nextPartition.partitionSize.toNat - 1))) = false)) ∧
      ∀ offset ∈ findPreviousStartCode c.codes.ignored r, offset.toNat + 4 ≤ r.length.toNat)
    ⟨fun ⟨hcode, hsearch⟩ => ⟨hcode, hsearch⟩, fun h => ⟨h.code, h.search⟩⟩

/-- `AccumulationToCaptureCode`, if there is a code to capture. -/
def capture : Option UnsignedInt :=
  accumulationToCaptureCode c.codes.ignored s.partitionByte s.base.nextPartition.partitionSize r

end

section

variable {c : VideoConfiguration} {s : PesVideo} {r : Remaining}

theorem length_partition (s : PesVideo) :
    s.partition.length = s.base.nextPartition.partitionSize.toNat := by
  simp [partition, readBytes]

theorem byteAt_partition {j : Nat} (hj : j < s.base.nextPartition.partitionSize.toNat) :
    byteAt s.partition j = s.partitionByte j := by
  unfold byteAt
  rw [List.getD_eq_getElem _ _ (by rw [length_partition]; exact hj)]
  simp [partition, readBytes, partitionByte, bytesAt]

theorem length_joined (s : PesVideo) (r : Remaining) : (s.joined r).length =
    r.length.toNat + s.base.nextPartition.partitionSize.toNat := by
  rw [joined, List.length_append, Remaining.length_bytes, length_partition]

theorem capture_spec (h : s.Clear c r) :
    (∃ i, Straddles r i ∧ IsCode c.codes.ignored (s.joined r) i ∧
      s.capture c r = some (BitVec.ofNat 32 (r.length.toNat - i))) ∨
    (∀ i, Straddles r i → ¬ IsCode c.codes.ignored (s.joined r) i) ∧
      ∀ capture ∈ s.capture c r, capture ≤ r.length ∧ 4 ≤ capture.toNat := by
  have hlt := r.length.isLt
  obtain ⟨raw, hraw, hlead, hcount⟩ := spanningCountBackward_lead r c.codes.ignored
    (length_partition s) (fun j hj => byteAt_partition hj)
  -- a code is at the place the count tells
  have hplace : ∀ i, Straddles r i → IsLead (s.joined r) i → 1 ≤ raw ∧ i = r.length.toNat + raw - 4 := by
    rintro i ⟨hin, hnear⟩ hi
    have hj : r.length.toNat + (i + 4 - r.length.toNat) - 4 = i := by omega
    have heq := (hlead (i + 4 - r.length.toNat) (by omega) (by omega)).mpr
      ⟨by omega, by rw [hj]; exact hi⟩
    omega
  -- where none is captured that spans, the search goes on in the data
  have hsearch : spanningCountBackward c.codes.ignored s.partitionByte
      s.base.nextPartition.partitionSize r = 0 →
      ∀ capture ∈ s.capture c r, capture ≤ r.length ∧ 4 ≤ capture.toNat := by
    intro hzero capture hcapture
    unfold PesVideo.capture accumulationToCaptureCode at hcapture
    simp only [hzero] at hcapture
    rw [if_neg (not_not_intro rfl)] at hcapture
    obtain ⟨offset, hfound, rfl⟩ := Option.map_eq_some_iff.mp (Option.mem_def.mp hcapture)
    have hends := h.search offset hfound
    have hle : offset ≤ r.length := BitVec.le_def.mpr (by omega)
    rw [BitVec.le_def, BitVec.toNat_sub_of_le hle]
    omega
  obtain hnone | hsome : raw = 0 ∨ 1 ≤ raw := by omega
  · refine .inr ⟨fun i hi hcode => ?_, hsearch ?_⟩
    · have hone := (hplace i hi (isLead_of_isCode hcode)).1
      omega
    · rw [hcount, hnone, Nat.zero_min, if_neg fun h => h.1 rfl]
  · -- something that looks like a code straddles
    obtain ⟨hfour, hleads⟩ := (hlead raw hsome hraw).mp rfl
    have hwhere : Straddles r (r.length.toNat + raw - 4) := ⟨by omega, by omega⟩
    by_cases hempty : s.base.nextPartition.partitionSize = 0
    · have hzero : s.base.nextPartition.partitionSize.toNat = 0 := by rw [hempty]; rfl
      refine .inr ⟨fun i hi hcode => ?_, hsearch ?_⟩
      · obtain ⟨-, rfl⟩ := hplace i hi (isLead_of_isCode hcode)
        have hin := hcode.1
        rw [length_joined, hzero] at hin
        omega
      · rw [hcount, hzero, Nat.min_zero, if_neg fun h => h.1 rfl]
    · have hcode := h.code _ hwhere.1 hwhere.2 hempty hleads
      rw [show r.length.toNat + raw - 4 + 4 - r.length.toNat = raw by omega] at hcode
      have hpos : s.base.nextPartition.partitionSize.toNat ≠ 0 := fun hzero =>
        hempty (BitVec.eq_of_toNat_eq hzero)
      have hmin : min raw s.base.nextPartition.partitionSize.toNat ≠ 0 := by omega
      by_cases hignored : c.codes.ignored (r.data (BitVec.ofNat 32
          (min raw s.base.nextPartition.partitionSize.toNat - 1))) = true
      · refine .inr ⟨fun i hi hcode' => ?_, hsearch ?_⟩
        · obtain ⟨-, rfl⟩ := hplace i hi (isLead_of_isCode hcode')
          exact Bool.false_ne_true ((hcode.mp hcode').symm.trans hignored)
        · rw [hcount, if_pos ⟨hmin, hignored⟩]
      · have hthere := hcode.mpr (Bool.eq_false_iff.mpr hignored)
        have hin := hthere.1
        rw [length_joined] at hin
        have hraw_le : min raw s.base.nextPartition.partitionSize.toNat = raw :=
          Nat.min_eq_left (by omega)
        rw [if_neg fun h => hignored h.2, hraw_le] at hcount
        refine .inl ⟨_, hwhere, hthere, ?_⟩
        unfold capture accumulationToCaptureCode
        simp only [hcount]
        rw [if_pos (by omega)]
        refine congrArg some (BitVec.eq_of_toNat_eq ?_)
        have hraw' : BitVec.ofNat 32 raw ≤ 4 := by
          rw [BitVec.le_def, BitVec.toNat_ofNat, Nat.mod_eq_of_lt (by omega)]
          show raw ≤ 4
          omega
        rw [BitVec.toNat_sub_of_le hraw', BitVec.toNat_ofNat, BitVec.toNat_ofNat,
          Nat.mod_eq_of_lt (by omega), Nat.mod_eq_of_lt (by omega)]
        show 4 - raw = _
        omega

theorem capture_le (h : s.Clear c r) :
    ∀ capture ∈ s.capture c r, capture ≤ r.length ∧ 1 ≤ capture.toNat := by
  intro capture hcapture
  obtain ⟨i, ⟨hin, hnear⟩, -, hsome⟩ | ⟨-, hnone⟩ := capture_spec h
  · have hlt := r.length.isLt
    obtain rfl : BitVec.ofNat 32 (r.length.toNat - i) = capture :=
      Option.some.inj (hsome.symm.trans hcapture)
    rw [BitVec.le_def, BitVec.toNat_ofNat, Nat.mod_eq_of_lt (by omega)]
    omega
  · obtain ⟨hle, hfour⟩ := hnone capture hcapture
    exact ⟨hle, by omega⟩

end

end PesVideo

end Duckbox.Collator2
