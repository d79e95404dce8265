import Duckbox.Collator.Scan
import Duckbox.Collator.StartCodeReads

/-!
# The scan of a chunk from its end

`Collator2_PesVideo_c::ProcessInputBackward` looks for the start code before what has
been accumulated: first for one that spans the end of the data that remains and the
beginning of the current partition, then for the last one in the data.

`FindPreviousStartCode` comes down from the end in steps of three, in an unsigned index:
where that is two it does not end below, but goes on from the top of the address space.
-/

namespace Duckbox.Collator2

open BufferPool (UnsignedInt)
open Collator (Byte Remaining)

/-- The body of the search around one byte. -/
def codeAroundBackward (ignored : Byte → Bool) (data : UnsignedInt → Byte) (i : UnsignedInt) :
    Option UnsignedInt :=
  if data i ≤ 1 then
    if data (i - 1) = 0 ∧ data (i - 2) = 0 ∧ data i = 1 then
      if ignored (data (i + 1)) then none else some (i - 2)
    else if data (i - 1) = 0 ∧ data (i + 1) = 1 ∧ data i = 0 then
      if ignored (data (i + 2)) then none else some (i - 1)
    else if data (i + 1) = 0 ∧ data (i + 2) = 1 ∧ data i = 0 then
      if ignored (data (i + 3)) then none else some i
    else none
  else none

/-- "Check in body", every third byte from `i` down. -/
def searchBodyBackward (ignored : Byte → Bool) (data : UnsignedInt → Byte) :
    Nat → UnsignedInt → Option UnsignedInt
  | 0, _ => none
  | fuel + 1, i =>
    if 2 ≤ i then
      match codeAroundBackward ignored data i with
      | some offset => some offset
      | none => searchBodyBackward ignored data fuel (i - 3)
    else none

/-- "Check trailing conditions". -/
def searchTrailBackward (ignored : Byte → Bool) (r : Remaining) : Option UnsignedInt :=
  if r.data 1 = 0 then
    if 5 ≤ r.length ∧ r.data 2 = 0 ∧ r.data 3 = 1 then
      if ignored (r.data 4) then none else some 1
    else if r.data 0 = 0 ∧ r.data 2 = 1 then
      if ignored (r.data 3) then none else some 0
    else none
  else none

/-- `FindPreviousStartCode`: the `CodeOffset`. -/
def findPreviousStartCode (ignored : Byte → Bool) (r : Remaining) : Option UnsignedInt :=
  if r.length < 4 then none
  else
    -- the index is below two after less turns than there are addresses
    match searchBodyBackward ignored r.data (2 ^ 32) (r.length - 4) with
    | some offset => some offset
    | none => searchTrailBackward ignored r

/-- `StartingWord`: the last three bytes that remain. -/
def startingWordBackward (r : Remaining) : UnsignedInt :=
  0xffffffff#32 <<< (8 * min r.length.toNat 3) ||| (r.data (r.length - 3)).setWidth 32 <<< 16 |||
    (r.data (r.length - 2)).setWidth 32 <<< 8 ||| (r.data (r.length - 1)).setWidth 32

/-- `SpanningWord`: the first three bytes of a partition. -/
def spanningWordBackward (partition : Nat → Byte) (size : UnsignedInt) : UnsignedInt :=
  0xffffffff#32 >>> (8 * min size.toNat 3) ||| (partition 0).setWidth 32 <<< 24 |||
    (partition 1).setWidth 32 <<< 16 ||| (partition 2).setWidth 32 <<< 8

/-- `SpanningCount`: how many bytes of a code are in the partition, as far as there are
any. The code looked at is in the data. -/
def spanningCountBackward (ignored : Byte → Bool) (partition : Nat → Byte) (size : UnsignedInt)
    (r : Remaining) : Nat :=
  let starting := startingWordBackward r
  let spanning := spanningWordBackward partition size
  let count :=
    if starting <<< 8 = 0x00000100#32 then 1
    else if starting <<< 16 ||| (spanning >>> 16 &&& 0xff00#32) = 0x00000100#32 then 2
    else if starting <<< 24 ||| (spanning >>> 8 &&& 0xffff00#32) = 0x00000100#32 then 3
    else 0
  let count := min count size.toNat
  if count ≠ 0 ∧ ignored (r.data (BitVec.ofNat 32 (count - 1))) then 0 else count

/-- `AccumulationToCaptureCode`, if there is a code to capture. -/
def accumulationToCaptureCode (ignored : Byte → Bool) (partition : Nat → Byte) (size : UnsignedInt)
    (r : Remaining) : Option UnsignedInt :=
  let count := spanningCountBackward ignored partition size r
  if count ≠ 0 then some (4 - BitVec.ofNat 32 count)
  else (findPreviousStartCode ignored r).map (r.length - ·)

end Duckbox.Collator2

/-!
## The bytes that the search backward reads

`FindPreviousStartCode` once more, with a data pointer that can only be read where there
is data. Every turn of the loop looks at three places where a code may begin, and after
one at index two all have been looked at; but the index goes on from the other end.

> `findPreviousStartCode_exact`: the search finds the last code, and reads nothing outside,
> just where the length is not a multiple of three or there is a code.
-/

namespace Duckbox.Collator2

open BufferPool (UnsignedInt)
open Collator (Byte Remaining IsCode byteAt codeAround codeAround_spec readAround readAround_eq
  readAround_place)
open Lib (areValues areValues_two)

namespace Reads

variable (ignored : Byte → Bool) (r : Remaining)

/-- `RemainingData[i]`. -/
def read (i : UnsignedInt) : Option Byte := if i < r.length then some (r.data i) else none

/-- The bytes near an index. -/
def near (i : UnsignedInt) (k : Int) : Option Byte := read r (i + BitVec.ofInt 32 k)

/-- "Check in body", every third byte from `i` down. -/
def searchBodyBackward : Nat → UnsignedInt → Option (Option UnsignedInt)
  | 0, _ => some none
  | fuel + 1, i =>
    if 2 ≤ i then
      (readAround ignored (near r i)).bind fun
        | some k => some (some (i + BitVec.ofInt 32 k))
        | none => searchBodyBackward fuel (i - 3)
    else some none

/-- "Check trailing conditions". -/
def searchTrailBackward : Option (Option UnsignedInt) :=
  (read r 1).bind fun b =>
    if b = 0 then
      (if 5 ≤ r.length then areValues (read r) [(2, 0), (3, 1)] else some false).bind fun second =>
        if second then (read r 4).map fun c => if ignored c then none else some 1
        else
          (areValues (read r) [(0, 0), (2, 1)]).bind fun first =>
            if first then (read r 3).map fun c => if ignored c then none else some 0
            else some none
    else some none

/-- `FindPreviousStartCode`: the `CodeOffset`, or that there is none. -/
def findPreviousStartCode : Option (Option UnsignedInt) :=
  if r.length < 4 then some none
  else
    (searchBodyBackward ignored r (2 ^ 32) (r.length - 4)).bind fun
      | some offset => some (some offset)
      | none => searchTrailBackward ignored r

/-- The last code. -/
def IsLast (k : Nat) : Prop := IsCode ignored r.bytes k ∧ ∀ j, k < j → ¬ IsCode ignored r.bytes j

/-- A search that finds the last code, or that there is none, and reads nothing outside. -/
def FindsLast : Option (Option UnsignedInt) → Prop
  | some (some offset) => IsLast ignored r offset.toNat
  | some none => ∀ k, ¬ IsCode ignored r.bytes k
  | none => False

variable {ignored r}

theorem byteAt_bytes {i : Nat} (hi : i < r.length.toNat) :
    byteAt r.bytes i = r.data (BitVec.ofNat 32 i) := by
  unfold byteAt Remaining.bytes Remaining.read
  rw [List.getD_eq_getElem _ _ (by simpa using hi), List.getElem_map, List.getElem_range]
  exact congrArg r.data (BitVec.zero_add _)

theorem read_eq {i : Nat} (hi : i < r.length.toNat) :
    read r (BitVec.ofNat 32 i) = some (byteAt r.bytes i) := by
  have hlength := r.length.isLt
  have hlt : BitVec.ofNat 32 i < r.length := by
    rw [BitVec.lt_def, BitVec.toNat_ofNat]
    omega
  unfold read
  rw [if_pos hlt, byteAt_bytes hi]

theorem index_add {n m : Nat} {k : Int} (h : (n : Int) + k = m) :
    BitVec.ofNat 32 n + BitVec.ofInt 32 k = BitVec.ofNat 32 m := by
  rw [← BitVec.ofInt_natCast, ← BitVec.ofInt_add, h, BitVec.ofInt_natCast]

theorem near_eq {n m : Nat} {k : Int} (h : (n : Int) + k = m) (hm : m < r.length.toNat) :
    near r (BitVec.ofNat 32 n) k = some (byteAt r.bytes m) := by
  unfold near
  rw [index_add h, read_eq hm]

variable (ignored r) in
theorem readAround_near {n : Nat} (hn : 2 ≤ n) (hlt : n + 3 < r.length.toNat) :
    ∃ found, readAround ignored (near r (BitVec.ofNat 32 n)) = some found ∧
      match found with
      | some k => ∃ m : Nat, (n : Int) + k = m ∧ IsCode ignored r.bytes m ∧ n - 2 ≤ m ∧ m ≤ n
      | none => ∀ k, n - 2 ≤ k → k ≤ n → ¬ IsCode ignored r.bytes k := by
  have hbytes : n + 3 < r.bytes.length := by
    rw [Remaining.length_bytes]
    exact hlt
  have hspec := codeAround_spec ignored hn hbytes
  have hforward := Collator.Reads.readAround_near ignored hn hbytes
  -- both directions read the same bytes here
  have hsame : readAround ignored (near r (BitVec.ofNat 32 n))
      = readAround ignored (Collator.Reads.near r.bytes n) := by
    have hthere : ∀ (k : Int), -2 ≤ k → k ≤ 3 →
        near r (BitVec.ofNat 32 n) k = some (byteAt r.bytes ((n : Int) + k).toNat) :=
      fun k hlow hhigh => near_eq (by omega) (by omega)
    have hother : ∀ (k : Int), -2 ≤ k → k ≤ 3 →
        Collator.Reads.near r.bytes n k = some (byteAt r.bytes ((n : Int) + k).toNat) :=
      fun k hlow hhigh => Collator.Reads.near_eq (by omega) (by omega)
    rw [readAround_eq ignored (hthere (-2) (by omega) (by omega)) (hthere (-1) (by omega) (by omega))
        (hthere 0 (by omega) (by omega)) (hthere 1 (by omega) (by omega))
        (hthere 2 (by omega) (by omega)) (hthere 3 (by omega) (by omega)),
      readAround_eq ignored (hother (-2) (by omega) (by omega)) (hother (-1) (by omega) (by omega))
        (hother 0 (by omega) (by omega)) (hother 1 (by omega) (by omega))
        (hother 2 (by omega) (by omega)) (hother 3 (by omega) (by omega))]
  obtain ⟨found, hfound, heq⟩ := Option.map_eq_some_iff.mp hforward
  refine ⟨found, hsame.trans hfound, ?_⟩
  cases found with
  | none =>
    rw [← heq] at hspec
    exact hspec
  | some k =>
    rw [← heq] at hspec
    obtain ⟨hcode, hlow, hhigh⟩ := hspec
    refine ⟨((n : Int) + k).toNat, ?_, hcode, hlow, hhigh⟩
    have := (readAround_place hfound).1
    omega

variable (ignored r) in
theorem searchBodyBackward_spec (n : Nat) : ∀ fuel : Nat, n + 4 ≤ r.length.toNat → n + 2 < fuel →
    (∀ k, n < k → ¬ IsCode ignored r.bytes k) →
      match searchBodyBackward ignored r fuel (BitVec.ofNat 32 n) with
      | some (some offset) => IsLast ignored r offset.toNat
      | some none => n % 3 ≠ 2 ∧ ∀ k, 2 ≤ k → ¬ IsCode ignored r.bytes k
      | none => n % 3 = 2 ∧ ∀ k, ¬ IsCode ignored r.bytes k := by
  have hlength := r.length.isLt
  induction n using Nat.strongRecOn with
  | _ n ih =>
    intro fuel hn hfuel habove
    obtain ⟨fuel, rfl⟩ : ∃ m, fuel = m + 1 := ⟨fuel - 1, by omega⟩
    have hindex : (2 : UnsignedInt) ≤ BitVec.ofNat 32 n ↔ 2 ≤ n := by
      rw [BitVec.le_def, BitVec.toNat_ofNat, Nat.mod_eq_of_lt (by omega)]
      rfl
    unfold searchBodyBackward
    by_cases h2 : 2 ≤ n
    · rw [if_pos (hindex.mpr h2)]
      obtain ⟨found, hfound, haround⟩ := readAround_near ignored r h2 (by omega)
      rw [hfound, Option.bind_some]
      cases found with
      | some k =>
        obtain ⟨m, hm, hcode, hlow, hhigh⟩ := haround
        have hoffset : (BitVec.ofNat 32 n + BitVec.ofInt 32 k).toNat = m := by
          rw [index_add hm, BitVec.toNat_ofNat]
          omega
        show IsLast ignored r (BitVec.ofNat 32 n + BitVec.ofInt 32 k).toNat
        rw [hoffset]
        refine ⟨hcode, fun j hj hcodej => ?_⟩
        by_cases hnj : n < j
        · exact habove j hnj hcodej
        · -- two codes cannot be that close
          obtain ⟨hnext, hnext2⟩ := hcode.not_next
          obtain rfl | rfl : j = m + 1 ∨ j = m + 2 := by omega
          · exact hnext hcodej
          · exact hnext2 hcodej
      | none =>
        simp only at haround
        have hnone : ∀ k, n - 3 < k → ¬ IsCode ignored r.bytes k := by
          intro k hk
          by_cases hnk : n < k
          · exact habove k hnk
          · exact haround k (by omega) (by omega)
        by_cases h3 : 3 ≤ n
        · have hnext : BitVec.ofNat 32 n - 3 = BitVec.ofNat 32 (n - 3) := by
            rw [show (3 : UnsignedInt) = BitVec.ofNat 32 3 from rfl,
              BitVec.ofNat_sub_ofNat_of_le _ _ (by omega) h3]
          have hrest := ih (n - 3) (by omega) fuel (by omega) (by omega) hnone
          simp only [hnext]
          rw [show (n - 3) % 3 = n % 3 by omega] at hrest
          exact hrest
        · -- the index goes on from the top of the address space
          obtain rfl : n = 2 := by omega
          obtain ⟨fuel, rfl⟩ : ∃ m, fuel = m + 1 := ⟨fuel - 1, by omega⟩
          have htop : BitVec.ofNat 32 2 - 3 = (0xffffffff : UnsignedInt) := by decide
          have hwild : near r 0xffffffff 0 = none := by
            unfold near read
            rw [show (0xffffffff : UnsignedInt) + BitVec.ofInt 32 0 = 0xffffffff from by decide,
              if_neg ?_]
            rw [BitVec.lt_def]
            show ¬ 0xffffffff < r.length.toNat
            omega
          have hout : searchBodyBackward ignored r (fuel + 1) 0xffffffff = none := by
            unfold searchBodyBackward readAround
            rw [if_pos (by decide), hwild]
            rfl
          simp only [htop, hout]
          refine ⟨trivial, fun k => ?_⟩
          by_cases hk : 2 < k
          · exact habove k hk
          · exact haround k (by omega) (by omega)
    · rw [if_neg fun h => h2 (hindex.mp h)]
      exact ⟨by omega, fun k hk => habove k (by omega)⟩

theorem searchTrailBackward_spec (hn : 4 ≤ r.length.toNat)
    (habove : ∀ k, 2 ≤ k → ¬ IsCode ignored r.bytes k) :
    FindsLast ignored r (searchTrailBackward ignored r) := by
  have hlength : r.bytes.length = r.length.toNat := r.length_bytes
  have h0 : read r 0 = some (byteAt r.bytes 0) := read_eq (i := 0) (by omega)
  have h1 : read r 1 = some (byteAt r.bytes 1) := read_eq (i := 1) (by omega)
  have h2 : read r 2 = some (byteAt r.bytes 2) := read_eq (i := 2) (by omega)
  have h3 : read r 3 = some (byteAt r.bytes 3) := read_eq (i := 3) (by omega)
  have hfive : (5 : UnsignedInt) ≤ r.length ↔ 5 ≤ r.length.toNat := BitVec.le_def
  have hwhere : ∀ {j}, IsCode ignored r.bytes j → j = 0 ∨ j = 1 := by
    intro j hj
    by_contra hnot
    exact habove j (by omega) hj
  have hlast : ∀ {k : UnsignedInt}, IsCode ignored r.bytes k.toNat → IsLast ignored r k.toNat := by
    intro k hk
    refine ⟨hk, fun j hj hcode => ?_⟩
    have hk01 := hwhere hk
    have hj01 := hwhere hcode
    have hnext : j = k.toNat + 1 := by omega
    exact hk.not_next.1 (hnext ▸ hcode)
  -- what the second look finds
  have hfirst : ¬ IsCode ignored r.bytes 1 → FindsLast ignored r
      ((areValues (read r) [(0, 0), (2, 1)]).bind fun first =>
        if first then (read r 3).map fun c => if ignored c then none else some 0
        else some none) ∨ byteAt r.bytes 1 ≠ 0 := by
    intro hone
    by_cases hbyte : byteAt r.bytes 1 = 0
    · left
      rw [areValues_two _ h0 h2, h3]
      simp only [Option.bind_some, Option.map_some, decide_eq_true_eq]
      split
      · next hcode =>
        split
        · next hignored =>
          intro j hj
          rcases hwhere hj with rfl | rfl
          · exact absurd (hj.2.2.2.2.symm.trans hignored) (by simp)
          · exact hone hj
        · next hkept =>
          have hzero : IsCode ignored r.bytes (0 : UnsignedInt).toNat :=
            ⟨by rw [hlength]; exact hn, hcode.1, hbyte, hcode.2, Bool.eq_false_iff.mpr hkept⟩
          exact hlast hzero
      · next hcode =>
        intro j hj
        rcases hwhere hj with rfl | rfl
        · exact hcode ⟨hj.2.1, hj.2.2.2.1⟩
        · exact hone hj
    · exact .inr hbyte
  unfold searchTrailBackward
  rw [h1, Option.bind_some]
  split
  · next hbyte =>
    by_cases h5 : 5 ≤ r.length.toNat
    · have h4 : read r 4 = some (byteAt r.bytes 4) := read_eq (i := 4) (by omega)
      rw [if_pos (hfive.mpr h5), areValues_two _ h2 h3, h4]
      simp only [Option.bind_some, Option.map_some, decide_eq_true_eq]
      split
      · next hcode =>
        split
        · next hignored =>
          intro j hj
          rcases hwhere hj with rfl | rfl
          · -- the third byte of a code is not zero
            exact Collator.one_ne_zero_byte (hj.2.2.2.1.symm.trans hcode.1)
          · exact absurd (hj.2.2.2.2.symm.trans hignored) (by simp)
        · next hkept =>
          have hone : IsCode ignored r.bytes (1 : UnsignedInt).toNat :=
            ⟨by rw [hlength]; exact h5, hbyte, hcode.1, hcode.2, Bool.eq_false_iff.mpr hkept⟩
          exact hlast hone
      · next hcode =>
        have hone : ¬ IsCode ignored r.bytes 1 := fun hj => hcode ⟨hj.2.2.1, hj.2.2.2.1⟩
        exact (hfirst hone).resolve_right (not_not.mpr hbyte)
    · rw [if_neg fun h => h5 (hfive.mp h), Option.bind_some]
      have hone : ¬ IsCode ignored r.bytes 1 := fun hj => by
        have := hj.1
        omega
      exact (hfirst hone).resolve_right (not_not.mpr hbyte)
  · next hbyte =>
    intro j hj
    rcases hwhere hj with rfl | rfl
    · exact hbyte hj.2.2.1
    · exact hbyte hj.2.1

/-- **The search backward finds the last code and reads nothing outside, just where the
length is not a multiple of three or there is a code.** -/
theorem findPreviousStartCode_exact (c : Collator.CodeConfiguration) (r : Remaining)
    (hlength : 4 ≤ r.length) :
    FindsLast c.ignored r (findPreviousStartCode c.ignored r) ↔
      r.length.toNat % 3 ≠ 0 ∨ ∃ k, IsCode c.ignored r.bytes k := by
  have hn : 4 ≤ r.length.toNat := BitVec.le_def.mp hlength
  have hlt := r.length.isLt
  have hbytes : r.bytes.length = r.length.toNat := r.length_bytes
  have hstart : r.length - 4 = BitVec.ofNat 32 (r.length.toNat - 4) := by
    apply BitVec.eq_of_toNat_eq
    rw [BitVec.toNat_sub_of_le hlength, BitVec.toNat_ofNat]
    show r.length.toNat - 4 = _
    omega
  have hbody := searchBodyBackward_spec c.ignored r (r.length.toNat - 4)
    (2 ^ 32) (by omega) (by omega) fun k hk hcode => by
      have := hcode.1
      omega
  unfold findPreviousStartCode
  rw [if_neg (by rw [BitVec.lt_def]; exact Nat.not_lt.mpr hn), hstart]
  generalize searchBodyBackward c.ignored r (2 ^ 32) (BitVec.ofNat 32 (r.length.toNat - 4)) = found
    at hbody ⊢
  cases found with
  | none =>
    refine iff_of_false id ?_
    rintro (hmod | ⟨k, hcode⟩)
    · omega
    · exact hbody.2 k hcode
  | some found =>
    cases found with
    | some offset => exact iff_of_true hbody (.inr ⟨_, hbody.1⟩)
    | none => exact iff_of_true (searchTrailBackward_spec hn hbody.2) (.inl (by omega))

def noCodeIgnored : Collator.CodeConfiguration := ⟨0, 0, 0, 1, 0, ⟨0, 0, 0⟩⟩

theorem findPreviousStartCode_exact_of_seven :
    FindsLast noCodeIgnored.ignored ⟨fun _ => 0, 7⟩
        (findPreviousStartCode noCodeIgnored.ignored ⟨fun _ => 0, 7⟩) ↔
      (7 : UnsignedInt).toNat % 3 ≠ 0 ∨
        ∃ k, IsCode noCodeIgnored.ignored (Remaining.bytes ⟨fun _ => 0, 7⟩) k :=
  findPreviousStartCode_exact noCodeIgnored ⟨fun _ => 0, 7⟩ (by decide)

/-- Six bytes without a code: the search reads far outside. -/
theorem previous_code_sought_outside :
    ¬ FindsLast noCodeIgnored.ignored ⟨fun _ => 0xff, 6⟩
      (findPreviousStartCode noCodeIgnored.ignored ⟨fun _ => 0xff, 6⟩) := by
  have hwild : findPreviousStartCode noCodeIgnored.ignored ⟨fun _ => 0xff, 6⟩ = none := by
    decide +kernel
  rw [hwild]
  exact id

end Reads

end Duckbox.Collator2
