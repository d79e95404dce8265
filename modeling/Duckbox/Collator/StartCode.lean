import Duckbox.Lib.Word

/-!
# Start codes

How both collators look for the next start code `00 00 01 c` in the data that
remains of a chunk: `FindNextStartCode`, and before it the check for a code that
spans the data accumulated and the data that remains, in two words of three
bytes each. `IsCode` says where a code is, and the search finds the first one in the
data (`findNextStartCode_spec`). With fewer than three bytes the check reads past the
end, and may count a byte that is not there.
-/

namespace Duckbox.Collator

open Duckbox.Lib

abbrev Byte := BitVec 8

/-- `Data[i]`. -/
def byteAt (data : List Byte) (i : Nat) : Byte := data.getD i 0

/-! ## `FindNextStartCode` -/

/-- The body of the search around one byte: `some none` when it goes on. -/
def codeAround (ignored : Byte → Bool) (data : List Byte) (i : Nat) : Option Nat :=
  if byteAt data i ≤ 1 then
    if byteAt data (i - 1) = 0 ∧ byteAt data (i - 2) = 0 ∧ byteAt data i = 1 then
      if ignored (byteAt data (i + 1)) then none else some (i - 2)
    else if byteAt data (i - 1) = 0 ∧ byteAt data (i + 1) = 1 ∧ byteAt data i = 0 then
      if ignored (byteAt data (i + 2)) then none else some (i - 1)
    else if byteAt data (i + 1) = 0 ∧ byteAt data (i + 2) = 1 ∧ byteAt data i = 0 then
      if ignored (byteAt data (i + 3)) then none else some i
    else none
  else none

/-- "Check in body", every third byte from `i` on. -/
def searchBody (ignored : Byte → Bool) (data : List Byte) : Nat → Nat → Option Nat
  | 0, _ => none
  | fuel + 1, i =>
    if i < data.length - 3 then
      match codeAround ignored data i with
      | some k => some k
      | none => searchBody ignored data fuel (i + 3)
    else none

/-- "Check trailing conditions". -/
def searchTrail (ignored : Byte → Bool) (data : List Byte) : Option Nat :=
  let n := data.length
  if byteAt data (n - 4) = 0 then
    if byteAt data (n - 3) = 0 ∧ byteAt data (n - 2) = 1 then
      if ignored (byteAt data (n - 1)) then none else some (n - 4)
    else if 5 ≤ n ∧ byteAt data (n - 5) = 0 ∧ byteAt data (n - 3) = 1 then
      if ignored (byteAt data (n - 2)) then none else some (n - 5)
    else none
  else none

/-- `FindNextStartCode`: the `CodeOffset`. -/
def findNextStartCode (ignored : Byte → Bool) (data : List Byte) : Option Nat :=
  if data.length < 4 then none
  else
    match searchBody ignored data data.length 2 with
    | some k => some k
    | none => searchTrail ignored data

/-! ## Spanning start codes -/

/-- `SpanningWord`: the last three bytes accumulated; one that is not there falls
on bits already set. -/
def spanningWord (accumulated : List Byte) : BitVec 32 :=
  let n := accumulated.length
  let back := fun k => if k ≤ n then byteAt accumulated (n - k) else 0#8
  0xffffffff#32 <<< (8 * min n 3) ||| (back 3).setWidth 32 <<< 16 |||
    (back 2).setWidth 32 <<< 8 ||| (back 1).setWidth 32

/-- `StartingWord`: the first three bytes that remain, likewise. -/
def startingWord (remaining : List Byte) : BitVec 32 :=
  0x00ffffff#32 >>> (8 * min (remaining.length - 1) 3) |||
    (byteAt remaining 0).setWidth 32 <<< 24 ||| (byteAt remaining 1).setWidth 32 <<< 16 |||
    (byteAt remaining 2).setWidth 32 <<< 8

/-- `SpanningCount` before the code is looked at. -/
def rawSpanningCount (accumulated remaining : List Byte) : Nat :=
  let spanning := spanningWord accumulated
  let starting := startingWord remaining
  if spanning <<< 8 = 0x00000100#32 then 1
  else if spanning <<< 16 ||| (starting >>> 16 &&& 0xff00#32) = 0x00000100#32 then 2
  else if spanning <<< 24 ||| (starting >>> 8 &&& 0xffff00#32) = 0x00000100#32 then 3
  else if starting = 0x00000100#32 then 4
  else 0

/-- `SpanningCount`; `behind` is the byte that follows the chunk in memory. -/
def spanningCount (ignored : Byte → Bool) (behind : Byte) (accumulated remaining : List Byte) :
    Nat :=
  let count := rawSpanningCount accumulated remaining
  if count ≠ 0 ∧ ignored ((remaining ++ [behind]).getD (count - 1) 0) then 0 else count

/-! ## Where the codes are -/

/-- A start code that is not ignored, with all its bytes there. -/
def IsCode (ignored : Byte → Bool) (data : List Byte) (k : Nat) : Prop :=
  k + 3 < data.length ∧ byteAt data k = 0 ∧ byteAt data (k + 1) = 0 ∧ byteAt data (k + 2) = 1 ∧
    ignored (byteAt data (k + 3)) = false

section

variable {ignored : Byte → Bool} {data : List Byte}

theorem one_ne_zero_byte : (1 : Byte) ≠ 0 := by decide

theorem IsCode.not_next {k : Nat} (h : IsCode ignored data k) :
    ¬ IsCode ignored data (k + 1) ∧ ¬ IsCode ignored data (k + 2) := by
  obtain ⟨_, _, _, hone, _⟩ := h
  refine ⟨fun h' => ?_, fun h' => ?_⟩
  · exact one_ne_zero_byte (hone.symm.trans h'.2.2.1)
  · exact one_ne_zero_byte (hone.symm.trans h'.2.1)

theorem byteAt_append_left {a b : List Byte} {i : Nat} (h : i < a.length) :
    byteAt (a ++ b) i = byteAt a i := by
  unfold byteAt
  rw [List.getD_eq_getElem?_getD, List.getD_eq_getElem?_getD, List.getElem?_append_left h]

theorem byteAt_append_right {a b : List Byte} (i : Nat) :
    byteAt (a ++ b) (a.length + i) = byteAt b i := by
  unfold byteAt
  rw [List.getD_eq_getElem?_getD, List.getD_eq_getElem?_getD,
    List.getElem?_append_right (Nat.le_add_right _ _), Nat.add_sub_cancel_left]

theorem isCode_append_right {a b : List Byte} (k : Nat) :
    IsCode ignored (a ++ b) (a.length + k) ↔ IsCode ignored b k := by
  unfold IsCode
  rw [Nat.add_assoc, Nat.add_assoc, Nat.add_assoc, byteAt_append_right, byteAt_append_right,
    byteAt_append_right, byteAt_append_right, List.length_append]
  exact and_congr_left fun _ => by omega

theorem codeAround_spec (ignored : Byte → Bool) {i : Nat} (hi : 2 ≤ i) (hn : i + 3 < data.length) :
    match codeAround ignored data i with
    | some k => IsCode ignored data k ∧ i - 2 ≤ k ∧ k ≤ i
    | none => ∀ k, i - 2 ≤ k → k ≤ i → ¬ IsCode ignored data k := by
  obtain ⟨j, rfl⟩ : ∃ j, i = j + 2 := ⟨i - 2, by omega⟩
  have hplaces : ∀ {P : Nat → Prop}, P j → P (j + 1) → P (j + 2) →
      ∀ k, j + 2 - 2 ≤ k → k ≤ j + 2 → P k := by
    intro P h0 h1 h2 k hlow hhigh
    obtain rfl | rfl | rfl : k = j ∨ k = j + 1 ∨ k = j + 2 := by omega
    · exact h0
    · exact h1
    · exact h2
  have hone : (1 : Byte) ≤ 1 := by decide
  have hzero : (0 : Byte) ≤ 1 := by decide
  unfold codeAround
  simp only [Nat.add_sub_cancel, show j + 2 - 1 = j + 1 by omega, Nat.add_assoc,
    show 2 + 1 = 3 by rfl, show 2 + 2 = 4 by rfl, show 2 + 3 = 5 by rfl]
  split
  · next k hk =>
    split at hk
    · split at hk
      · next h =>
        obtain ⟨hcode, hk⟩ := Option.ite_none_left_eq_some.mp hk
        obtain rfl := Option.some.inj hk
        exact ⟨⟨by omega, h.2.1, h.1, h.2.2, by simpa using hcode⟩, by omega, by omega⟩
      · split at hk
        · next h =>
          obtain ⟨hcode, hk⟩ := Option.ite_none_left_eq_some.mp hk
          obtain rfl := Option.some.inj hk
          exact ⟨⟨by omega, h.1, h.2.2, h.2.1, by simpa using hcode⟩, by omega, by omega⟩
        · split at hk
          · next h =>
            obtain ⟨hcode, hk⟩ := Option.ite_none_left_eq_some.mp hk
            obtain rfl := Option.some.inj hk
            exact ⟨⟨by omega, h.2.2, h.1, h.2.1, by simpa using hcode⟩, by omega, by omega⟩
          · exact absurd hk (by simp)
    · exact absurd hk (by simp)
  · next hk =>
    -- where there is a code, the test for its place finds it
    refine hplaces ?_ ?_ ?_
    · rintro ⟨_, h0, h1, h2, hcode⟩
      simp [h0, h1, h2, hcode] at hk
    · rintro ⟨_, h0, h1, h2, hcode⟩
      simp only [Nat.add_assoc, Nat.reduceAdd] at h0 h1 h2 hcode
      simp [h0, h1, h2, hcode] at hk
    · rintro ⟨_, h0, h1, h2, hcode⟩
      simp only [Nat.add_assoc, Nat.reduceAdd] at h0 h1 h2 hcode
      simp [h0, h1, h2, hcode] at hk

/-- The first code. -/
def IsFirst (ignored : Byte → Bool) (data : List Byte) (k : Nat) : Prop :=
  IsCode ignored data k ∧ ∀ j, j < k → ¬ IsCode ignored data j

theorem searchBody_spec (ignored : Byte → Bool) (fuel : Nat) : ∀ {i : Nat}, 2 ≤ i → data.length ≤ i + fuel →
    (∀ j, j < i - 2 → ¬ IsCode ignored data j) →
    match searchBody ignored data fuel i with
    | some k => IsFirst ignored data k
    | none => ∀ j, j + 5 < data.length → ¬ IsCode ignored data j := by
  induction fuel with
  | zero =>
    intro i hi hfuel hbefore j hj
    exact hbefore j (by omega)
  | succ fuel ih =>
    intro i hi hfuel hbefore
    unfold searchBody
    by_cases hlt : i < data.length - 3
    · rw [if_pos hlt]
      have hspec := codeAround_spec ignored hi (show i + 3 < data.length by omega)
      cases haround : codeAround ignored data i with
      | some k =>
        rw [haround] at hspec
        obtain ⟨hcode, hlow, hhigh⟩ := hspec
        refine ⟨hcode, fun j hj hcodej => ?_⟩
        by_cases hold : j < i - 2
        · exact hbefore j hold hcodej
        · -- two codes cannot be that close
          obtain ⟨hnext, hnext2⟩ := hcodej.not_next
          obtain rfl | rfl : k = j + 1 ∨ k = j + 2 := by omega
          · exact hnext hcode
          · exact hnext2 hcode
      | none =>
        rw [haround] at hspec
        refine ih (by omega) (by omega) fun j hj => ?_
        by_cases hold : j < i - 2
        · exact hbefore j hold
        · exact hspec j (by omega) (by omega)
    · rw [if_neg hlt]
      intro j hj
      exact hbefore j (by omega)

theorem searchTrail_spec (hn : 4 ≤ data.length)
    (hbefore : ∀ j, j + 5 < data.length → ¬ IsCode ignored data j) :
    match searchTrail ignored data with
    | some k => IsFirst ignored data k
    | none => ∀ j, ¬ IsCode ignored data j := by
  obtain ⟨m, hm⟩ : ∃ m, data.length = m + 4 := ⟨data.length - 4, by omega⟩
  -- a code in the last five bytes begins at `m`, or at `m - 1`
  have hwhere : ∀ {j}, IsCode ignored data j → j = m ∨ j + 1 = m := by
    intro j hj
    have hlt := hj.1
    have hlate : ¬ j + 5 < data.length := fun h => hbefore j h hj
    omega
  have hfirst : ∀ {k}, IsCode ignored data k → k = m ∨ k + 1 = m → IsFirst ignored data k := by
    intro k hk hplace
    refine ⟨hk, fun j hj hcode => ?_⟩
    obtain rfl : k = j + 1 := by
      have := hwhere hcode
      omega
    exact hcode.not_next.1 hk
  unfold searchTrail
  simp only [hm, Nat.add_sub_cancel, show m + 4 - 3 = m + 1 by omega,
    show m + 4 - 2 = m + 2 by omega, show m + 4 - 1 = m + 3 by omega,
    show m + 4 - 5 = m - 1 by omega]
  split
  · next k hk =>
    split at hk
    · next h0 =>
      split at hk
      · next h =>
        obtain ⟨hcode, hk⟩ := Option.ite_none_left_eq_some.mp hk
        obtain rfl := Option.some.inj hk
        exact hfirst ⟨by omega, h0, h.1, h.2, by simpa using hcode⟩ (.inl rfl)
      · split at hk
        · next h =>
          obtain ⟨hcode, hk⟩ := Option.ite_none_left_eq_some.mp hk
          obtain rfl := Option.some.inj hk
          obtain ⟨l, rfl⟩ : ∃ l, m = l + 1 := ⟨m - 1, by omega⟩
          exact hfirst ⟨by omega, h.2.1, h0, h.2.2, by simpa using hcode⟩ (.inr (by omega))
        · exact absurd hk (by simp)
    · exact absurd hk (by simp)
  · next hk =>
    intro j hj
    rcases hwhere hj with rfl | rfl
    · obtain ⟨_, h0, h1, h2, hcode⟩ := hj
      simp [h0, h1, h2, hcode] at hk
    · obtain ⟨_, h0, h1, h2, hcode⟩ := hj
      simp only [Nat.add_assoc, Nat.reduceAdd] at hk
      simp [h0, h1, h2, hcode] at hk

/-- **The search** finds the first start code, or there is none. -/
theorem findNextStartCode_spec (ignored : Byte → Bool) (data : List Byte) :
    match findNextStartCode ignored data with
    | some k => IsFirst ignored data k
    | none => ∀ j, ¬ IsCode ignored data j := by
  unfold findNextStartCode
  by_cases hn : data.length < 4
  · rw [if_pos hn]
    intro j hj
    have hlt := hj.1
    omega
  · rw [if_neg hn]
    have hbody := searchBody_spec ignored data.length (Nat.le_refl 2)
      (Nat.le_add_left _ _) (fun j hj => absurd hj (by omega))
    cases hs : searchBody ignored data data.length 2 with
    | some k =>
      rw [hs] at hbody
      exact hbody
    | none =>
      rw [hs] at hbody
      exact searchTrail_spec (by omega) hbody

end

end Duckbox.Collator
