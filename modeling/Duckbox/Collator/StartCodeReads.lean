import Duckbox.Collator.StartCode
import Duckbox.Lib.Reads

/-!
# The bytes that the search for a start code reads

`FindNextStartCode` once more, with a data pointer that can only be read where there is
data: a read before or behind it has no result. In the body both directions of the search
do the same around a byte (`readAround`).

> `Reads.findNextStartCode_eq`: the search forward reads nothing outside, and finds what
> `findNextStartCode` does.
-/

namespace Duckbox.Collator

open Lib (areValues areValues_two areValues_three)

/-- The body around one byte, with the bytes near it; where the code begins that has been
found, seen from there. -/
def readAround (ignored : Byte → Bool) (near : Int → Option Byte) : Option (Option Int) :=
  (near 0).bind fun b =>
    if b ≤ 1 then
      (areValues near [(-1, 0), (-2, 0), (0, 1)]).bind fun first =>
        if first then (near 1).map fun c => if ignored c then none else some (-2)
        else
          (areValues near [(-1, 0), (1, 1), (0, 0)]).bind fun second =>
            if second then (near 2).map fun c => if ignored c then none else some (-1)
            else
              (areValues near [(1, 0), (2, 1), (0, 0)]).bind fun third =>
                if third then (near 3).map fun c => if ignored c then none else some 0
                else some none
    else some none

theorem readAround_eq {near : Int → Option Byte} {a b c d e f : Byte} (ignored : Byte → Bool)
    (ha : near (-2) = some a) (hb : near (-1) = some b) (hc : near 0 = some c)
    (hd : near 1 = some d) (he : near 2 = some e) (hf : near 3 = some f) :
    readAround ignored near = some (
      if c ≤ 1 then
        if b = 0 ∧ a = 0 ∧ c = 1 then if ignored d then none else some (-2)
        else if b = 0 ∧ d = 1 ∧ c = 0 then if ignored e then none else some (-1)
        else if d = 0 ∧ e = 1 ∧ c = 0 then if ignored f then none else some 0
        else none
      else none) := by
  unfold readAround
  rw [areValues_three hb ha hc, areValues_three hb hd hc, areValues_three hd he hc, hc, hd, he, hf]
  simp only [Option.bind_some, Option.map_some, decide_eq_true_eq]
  split
  · split
    · rfl
    · split
      · rfl
      · split
        · rfl
        · rfl
  · rfl

theorem readAround_place {near : Int → Option Byte} {ignored : Byte → Bool} {k : Int}
    (h : readAround ignored near = some (some k)) : -2 ≤ k ∧ k ≤ 0 := by
  have hkept : ∀ {i place : Int}, ((near i).map fun c => if ignored c then none else some place)
      = some (some k) → k = place := by
    intro i place hmap
    obtain ⟨c, -, hc⟩ := Option.map_eq_some_iff.mp hmap
    split at hc
    · cases hc
    · exact (Option.some.inj hc).symm
  unfold readAround at h
  obtain ⟨b, -, h⟩ := Option.bind_eq_some_iff.mp h
  split at h
  · obtain ⟨first, -, h⟩ := Option.bind_eq_some_iff.mp h
    split at h
    · have := hkept h
      omega
    · obtain ⟨second, -, h⟩ := Option.bind_eq_some_iff.mp h
      split at h
      · have := hkept h
        omega
      · obtain ⟨third, -, h⟩ := Option.bind_eq_some_iff.mp h
        split at h
        · have := hkept h
          omega
        · cases Option.some.inj h
  · cases Option.some.inj h

namespace Reads

variable (ignored : Byte → Bool) (data : List Byte)

/-- The bytes near an index. -/
def near (i : Nat) (k : Int) : Option Byte := if 0 ≤ (i : Int) + k then data[(i + k).toNat]? else none

/-- "Check in body", every third byte from `i` on. -/
def searchBody : Nat → Nat → Option (Option Nat)
  | 0, _ => some none
  | fuel + 1, i =>
    if i < data.length - 3 then
      (readAround ignored (near data i)).bind fun
        | some k => some (some (i + k).toNat)
        | none => searchBody fuel (i + 3)
    else some none

/-- "Check trailing conditions". -/
def searchTrail : Option (Option Nat) :=
  let n := data.length
  data[n - 4]?.bind fun b =>
    if b = 0 then
      (areValues (data[·]?) [(n - 3, 0), (n - 2, 1)]).bind fun last =>
        if last then data[n - 1]?.map fun c => if ignored c then none else some (n - 4)
        else if 5 ≤ n then
          (areValues (data[·]?) [(n - 5, 0), (n - 3, 1)]).bind fun before =>
            if before then data[n - 2]?.map fun c => if ignored c then none else some (n - 5)
            else some none
        else some none
    else some none

/-- `FindNextStartCode`: the `CodeOffset`, or that there is none. -/
def findNextStartCode : Option (Option Nat) :=
  if data.length < 4 then some none
  else
    (searchBody ignored data data.length 2).bind fun
      | some k => some (some k)
      | none => searchTrail ignored data

variable {ignored data}

theorem near_eq {i : Nat} {k : Int} (hlow : 0 ≤ (i : Int) + k) (hhigh : (i : Int) + k < data.length) :
    near data i k = some (byteAt data (i + k).toNat) := by
  unfold near byteAt
  rw [if_pos hlow, List.getD_eq_getElem _ _ (by omega), List.getElem?_eq_getElem]

variable (ignored) in
theorem readAround_near {i : Nat} (hi : 2 ≤ i) (hn : i + 3 < data.length) :
    (readAround ignored (near data i)).map (·.map fun k : Int => (i + k).toNat)
      = some (codeAround ignored data i) := by
  obtain ⟨j, rfl⟩ : ∃ j, i = j + 2 := ⟨i - 2, by omega⟩
  rw [readAround_eq ignored (near_eq (by omega) (by omega)) (near_eq (by omega) (by omega))
    (near_eq (by omega) (by omega)) (near_eq (by omega) (by omega)) (near_eq (by omega) (by omega))
    (near_eq (by omega) (by omega))]
  have hplace : ∀ (n : Nat) (k : Int), (j : Int) + 2 + k = n → ((j + 2 : Nat) + k).toNat = n := by
    intro n k h
    omega
  unfold codeAround
  rw [hplace j (-2) (by omega), hplace (j + 1) (-1) (by omega), hplace (j + 2) 0 (by omega),
    hplace (j + 3) 1 (by omega), hplace (j + 4) 2 (by omega), hplace (j + 5) 3 (by omega)]
  simp only [Nat.add_sub_cancel, show j + 2 - 1 = j + 1 by omega, Nat.add_assoc, Nat.reduceAdd]
  split
  · split
    · split
      · rfl
      · simp only [Option.map_some]
        exact congrArg (some ∘ some) (hplace j (-2) (by omega))
    · split
      · split
        · rfl
        · simp only [Option.map_some]
          exact congrArg (some ∘ some) (hplace (j + 1) (-1) (by omega))
      · split
        · split
          · rfl
          · simp only [Option.map_some]
            exact congrArg (some ∘ some) (hplace (j + 2) 0 (by omega))
        · rfl
  · rfl

theorem searchBody_eq (fuel : Nat) : ∀ {i : Nat}, 2 ≤ i →
    searchBody ignored data fuel i = some (Collator.searchBody ignored data fuel i) := by
  induction fuel with
  | zero => intro i _; rfl
  | succ fuel ih =>
    intro i hi
    unfold searchBody Collator.searchBody
    split
    · next hlt =>
      have haround := readAround_near ignored hi (show i + 3 < data.length by omega)
      obtain ⟨found, hread, hfound⟩ := Option.map_eq_some_iff.mp haround
      rw [hread, ← hfound, Option.bind_some]
      cases found with
      | some k => rfl
      | none => exact ih (by omega)
    · rfl

theorem searchTrail_eq (hn : 4 ≤ data.length) :
    searchTrail ignored data = some (Collator.searchTrail ignored data) := by
  have hread : ∀ {i : Nat}, i < data.length → data[i]? = some (byteAt data i) := by
    intro i hi
    unfold byteAt
    rw [List.getD_eq_getElem _ _ hi, List.getElem?_eq_getElem hi]
  unfold searchTrail Collator.searchTrail
  simp only [areValues_two (data[·]?) (hread (show data.length - 3 < data.length by omega))
      (hread (show data.length - 2 < data.length by omega)),
    areValues_two (data[·]?) (hread (show data.length - 5 < data.length by omega))
      (hread (show data.length - 3 < data.length by omega)),
    hread (show data.length - 4 < data.length by omega),
    hread (show data.length - 2 < data.length by omega),
    hread (show data.length - 1 < data.length by omega), Option.bind_some, Option.map_some,
    decide_eq_true_eq]
  split
  · split
    · rfl
    · by_cases h5 : 5 ≤ data.length
      · simp only [h5, if_true, true_and]
        split
        · rfl
        · rfl
      · simp only [h5, if_false, false_and]
  · rfl

/-- **The search forward reads nothing outside.** -/
theorem findNextStartCode_eq :
    findNextStartCode ignored data = some (Collator.findNextStartCode ignored data) := by
  unfold findNextStartCode Collator.findNextStartCode
  split
  · rfl
  · next hn =>
    rw [searchBody_eq _ (Nat.le_refl 2), Option.bind_some]
    cases Collator.searchBody ignored data data.length 2 with
    | some k => rfl
    | none => exact searchTrail_eq (Nat.le_of_not_lt hn)

end Reads

end Duckbox.Collator
