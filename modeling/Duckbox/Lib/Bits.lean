import Duckbox.Lib.Word
import Mathlib.Data.List.Induction
import Mathlib.Tactic.Ring

/-!
# Numbers written in bits

`numeral f n` is the number that the first `n` of the bits `f` write, the first on
top. What some bits write is the remainder of what all up to them do
(`numeral_mod`), which is how a word that has been shifted along a stream holds
the last of it. `byteBit` are the bits of a sequence of bytes.
-/

namespace Duckbox.Lib

/-- What the first bits write. -/
def numeral (f : Nat → Bool) : Nat → Nat
  | 0 => 0
  | n + 1 => 2 * numeral f n + (f n).toNat

variable {f g : Nat → Bool}

theorem numeral_lt (f : Nat → Bool) (n : Nat) : numeral f n < 2 ^ n := by
  induction n with
  | zero => exact Nat.one_pos
  | succ n ih =>
    have hbit : (f n).toNat ≤ 1 := Bool.toNat_le (f n)
    show 2 * numeral f n + (f n).toNat < 2 ^ (n + 1)
    rw [Nat.pow_succ]
    omega

theorem numeral_congr {n : Nat} (h : ∀ i, i < n → f i = g i) : numeral f n = numeral g n := by
  induction n with
  | zero => rfl
  | succ n ih =>
    show 2 * numeral f n + (f n).toNat = 2 * numeral g n + (g n).toNat
    rw [ih fun i hi => h i (Nat.lt_succ_of_lt hi), h n (Nat.lt_succ_self n)]

theorem numeral_add (f : Nat → Bool) (p n : Nat) :
    numeral f (p + n) = numeral f p * 2 ^ n + numeral (fun i => f (p + i)) n := by
  induction n with
  | zero => rw [Nat.pow_zero, Nat.mul_one]; rfl
  | succ n ih =>
    show 2 * numeral f (p + n) + (f (p + n)).toNat
      = numeral f p * 2 ^ (n + 1) + (2 * numeral (fun i => f (p + i)) n + (f (p + n)).toNat)
    rw [ih, Nat.pow_succ]
    ring

/-- The last bits. -/
theorem numeral_mod (f : Nat → Bool) (p n : Nat) :
    numeral f (p + n) % 2 ^ n = numeral (fun i => f (p + i)) n := by
  rw [numeral_add, Nat.mul_add_mod_self_right, Nat.mod_eq_of_lt (numeral_lt _ n)]

theorem numeral_div (f : Nat → Bool) (p n : Nat) : numeral f (p + n) / 2 ^ n = numeral f p := by
  rw [numeral_add, Nat.add_comm, Nat.add_mul_div_right _ _ (Nat.two_pow_pos n),
    Nat.div_eq_of_lt (numeral_lt _ n), Nat.zero_add]

/-! ## Bytes -/

/-- The bits of bytes, the top one of each first. -/
def byteBit (m : Nat → BitVec 8) (i : Nat) : Bool := (m (i / 8)).getLsbD (7 - i % 8)

variable {m m' : Nat → BitVec 8}

theorem numeral_testBit (n : Nat) : ∀ x : Nat,
    numeral (fun i => x.testBit (n - 1 - i)) n = x % 2 ^ n := by
  induction n with
  | zero => intro x; rw [Nat.pow_zero, Nat.mod_one]; rfl
  | succ n ih =>
    intro x
    have hhigh : numeral (fun i => x.testBit (n - i)) n = x / 2 % 2 ^ n := by
      rw [← ih (x / 2)]
      apply numeral_congr
      intro i hi
      rw [Nat.testBit_div_two, show n - 1 - i + 1 = n - i by omega]
    have hlow : (x.testBit (n - n)).toNat = x % 2 := by
      rw [Nat.sub_self, Nat.testBit_zero]
      rcases Nat.mod_two_eq_zero_or_one x with h | h <;> rw [h] <;> rfl
    show 2 * numeral (fun i => x.testBit (n - i)) n + (x.testBit (n - n)).toNat = _
    rw [hhigh, hlow, Nat.pow_succ, Nat.mul_comm (2 ^ n), Nat.mod_mul]
    omega

theorem numeral_byte (b : BitVec 8) : numeral (fun i => b.getLsbD (7 - i)) 8 = b.toNat :=
  (numeral_testBit 8 b.toNat).trans (Nat.mod_eq_of_lt b.isLt)

theorem numeral_byteBit_succ (m : Nat → BitVec 8) (k : Nat) :
    numeral (byteBit m) (8 * (k + 1)) = numeral (byteBit m) (8 * k) * 2 ^ 8 + (m k).toNat := by
  rw [Nat.mul_add, Nat.mul_one, numeral_add, ← numeral_byte (m k)]
  congr 1
  apply numeral_congr
  intro i hi
  unfold byteBit
  rw [Nat.mul_add_div (by decide), Nat.div_eq_of_lt hi, Nat.mul_add_mod, Nat.mod_eq_of_lt hi,
    Nat.add_zero]

theorem numeral_byteBit_word (m : Nat → BitVec 8) (k : Nat) :
    numeral (byteBit m) (32 * (k + 1)) = numeral (byteBit m) (32 * k) * 2 ^ 32
      + (word (m (4 * k)) (m (4 * k + 1)) (m (4 * k + 2)) (m (4 * k + 3))).toNat := by
  have hbytes : ∀ j, numeral (byteBit m) (8 * (4 * k + j + 1))
      = numeral (byteBit m) (8 * (4 * k + j)) * 2 ^ 8 + (m (4 * k + j)).toNat :=
    fun j => numeral_byteBit_succ m (4 * k + j)
  have h0 := numeral_byteBit_succ m (4 * k)
  have h1 := hbytes 1
  have h2 := hbytes 2
  have h3 := hbytes 3
  rw [show 32 * (k + 1) = 8 * (4 * k + 3 + 1) by omega, h3, h2, h1, h0, word_toNat,
    show 8 * (4 * k) = 32 * k by omega]
  omega

end Duckbox.Lib

/-!
## Fields of bits

A field is a number in so many bits; fields one after another write one number
(`totalValue`) in the bits of all of them (`totalWidth`). `Writes` says that a
string of bits has fields from a place on: then it has each of them where it is
(`Writes.head`, `Writes.append`), and a byte of memory is what the fields in it
write (`Writes.byte`).
-/

namespace Duckbox.Lib

/-- A number, and how many bits it is written in. -/
structure Field where
  width : Nat
  value : Nat

/-- The number can be written in the bits. -/
def Field.Fits (x : Field) : Prop := x.value < 2 ^ x.width

/-- The bits of fields. -/
def totalWidth : List Field → Nat
  | [] => 0
  | x :: l => x.width + totalWidth l

/-- The number fields write. -/
def totalValue : List Field → Nat
  | [] => 0
  | x :: l => x.value * 2 ^ totalWidth l + totalValue l

variable {a b l : List Field} {x : Field} {f : Nat → Bool} {p : Nat}

@[simp] theorem totalWidth_append (a b : List Field) :
    totalWidth (a ++ b) = totalWidth a + totalWidth b := by
  induction a with
  | nil => exact (Nat.zero_add _).symm
  | cons x a ih =>
    show x.width + totalWidth (a ++ b) = x.width + totalWidth a + totalWidth b
    rw [ih, Nat.add_assoc]

@[simp] theorem totalValue_append (a b : List Field) :
    totalValue (a ++ b) = totalValue a * 2 ^ totalWidth b + totalValue b := by
  induction a with
  | nil => simp [totalValue]
  | cons x a ih =>
    show x.value * 2 ^ totalWidth (a ++ b) + totalValue (a ++ b)
      = (x.value * 2 ^ totalWidth a + totalValue a) * 2 ^ totalWidth b + totalValue b
    rw [ih, totalWidth_append, Nat.pow_add]
    ring

theorem totalValue_concat (l : List Field) (x : Field) :
    totalValue (l ++ [x]) = totalValue l * 2 ^ x.width + x.value := by
  simp [totalValue, totalWidth]

theorem totalWidth_concat (l : List Field) (x : Field) :
    totalWidth (l ++ [x]) = totalWidth l + x.width := by
  simp [totalWidth]

theorem totalValue_lt (h : ∀ x ∈ l, x.Fits) : totalValue l < 2 ^ totalWidth l := by
  induction l with
  | nil => exact Nat.one_pos
  | cons x l ih =>
    have hhead : x.value < 2 ^ x.width := h x List.mem_cons_self
    have hrest := ih fun y hy => h y (List.mem_cons_of_mem x hy)
    show x.value * 2 ^ totalWidth l + totalValue l < 2 ^ (x.width + totalWidth l)
    calc x.value * 2 ^ totalWidth l + totalValue l
        < x.value * 2 ^ totalWidth l + 2 ^ totalWidth l := Nat.add_lt_add_left hrest _
      _ = (x.value + 1) * 2 ^ totalWidth l := by rw [Nat.succ_mul]
      _ ≤ 2 ^ x.width * 2 ^ totalWidth l := Nat.mul_le_mul_right _ hhead
      _ = 2 ^ (x.width + totalWidth l) := (Nat.pow_add ..).symm

/-! ## A string of bits that has them -/

/-- The bits from a place on are those of the fields. -/
def Writes (f : Nat → Bool) (p : Nat) (l : List Field) : Prop :=
  numeral (fun i => f (p + i)) (totalWidth l) = totalValue l

theorem eq_of_mul_add_eq {x y r s d : Nat} (hr : r < d) (hs : s < d)
    (h : x * d + r = y * d + s) : x = y ∧ r = s := by
  have hpos : 0 < d := Nat.lt_of_le_of_lt (Nat.zero_le r) hr
  have hdiv := congrArg (· / d) h
  have hmod := congrArg (· % d) h
  simp only [Nat.mul_add_mod_self_right, Nat.mod_eq_of_lt hr, Nat.mod_eq_of_lt hs] at hmod
  rw [hmod] at h
  exact ⟨Nat.eq_of_mul_eq_mul_right hpos (Nat.add_right_cancel h), hmod⟩

theorem Writes.append (hb : ∀ x ∈ b, x.Fits) (h : Writes f p (a ++ b)) :
    Writes f p a ∧ Writes f (p + totalWidth a) b := by
  unfold Writes at h ⊢
  rw [totalWidth_append, numeral_add, totalValue_append] at h
  obtain ⟨ha, hb⟩ := eq_of_mul_add_eq (numeral_lt _ _) (totalValue_lt hb) h
  simp only [← Nat.add_assoc] at hb
  exact ⟨ha, hb⟩

/-- The first field is where they begin, and the others are behind it. -/
theorem Writes.head (hl : ∀ y ∈ l, y.Fits) (h : Writes f p (x :: l)) :
    numeral (fun i => f (p + i)) x.width = x.value ∧ Writes f (p + x.width) l := by
  obtain ⟨hx, hl⟩ := Writes.append (a := [x]) hl h
  unfold Writes at hx
  simp only [totalWidth, totalValue, Nat.pow_zero, Nat.mul_one, Nat.add_zero] at hx
  exact ⟨hx, hl⟩

/-- A byte of memory is what the fields in it write. -/
theorem Writes.byte {m : Nat → BitVec 8} {k : Nat} (hl : totalWidth l = 8)
    (h : Writes (byteBit m) (8 * k) l) : (m k).toNat = totalValue l := by
  unfold Writes at h
  rw [hl] at h
  rw [← numeral_byte (m k), ← h]
  refine numeral_congr fun i hi => ?_
  unfold byteBit
  rw [Nat.mul_add_div (by decide), Nat.div_eq_of_lt hi, Nat.mul_add_mod, Nat.mod_eq_of_lt hi,
    Nat.add_zero]

/-! ## Bytes in memory -/

/-- The number that bytes write. -/
def bytesValue : List (BitVec 8) → Nat
  | [] => 0
  | b :: l => b.toNat * 2 ^ (8 * l.length) + bytesValue l

theorem bytesValue_append (a b : List (BitVec 8)) :
    bytesValue (a ++ b) = bytesValue a * 2 ^ (8 * b.length) + bytesValue b := by
  induction a with
  | nil => simp [bytesValue]
  | cons c a ih =>
    show c.toNat * 2 ^ (8 * (a ++ b).length) + bytesValue (a ++ b)
      = (c.toNat * 2 ^ (8 * a.length) + bytesValue a) * 2 ^ (8 * b.length) + bytesValue b
    rw [ih, List.length_append, Nat.mul_add, Nat.pow_add]
    ring

theorem bytesValue_concat (l : List (BitVec 8)) (b : BitVec 8) :
    bytesValue (l ++ [b]) = bytesValue l * 2 ^ 8 + b.toNat := by
  rw [bytesValue_append]
  simp [bytesValue]

theorem byteBit_add (m : Nat → BitVec 8) (pos i : Nat) :
    byteBit m (8 * pos + i) = byteBit (fun j => m (pos + j)) i := by
  unfold byteBit
  rw [Nat.mul_add_div (by decide), Nat.mul_add_mod]

theorem numeral_bytes {m : Nat → BitVec 8} {pos : Nat} {l : List (BitVec 8)}
    (h : ∀ i (hi : i < l.length), m (pos + i) = l[i]) :
    numeral (fun i => byteBit m (8 * pos + i)) (8 * l.length) = bytesValue l := by
  simp only [byteBit_add]
  induction l using List.reverseRecOn with
  | nil => rfl
  | append_singleton l b ih =>
    have hlast := h l.length (by simp)
    rw [List.getElem_concat_length rfl] at hlast
    have hbefore := ih fun i hi => by
      rw [h i (by rw [List.length_append]; omega), List.getElem_append_left hi]
    rw [List.length_append, List.length_singleton, numeral_byteBit_succ, hbefore, hlast,
      bytesValue_concat]

/-! ## Bit by bit -/

/-- The bits of a number, the top one first. -/
def bits (width value : Nat) : List Bool :=
  (List.range width).map fun i => value.testBit (width - 1 - i)

@[simp] theorem length_bits (width value : Nat) : (bits width value).length = width := by
  simp [bits]

theorem bits_inj {width x y : Nat} (hx : x < 2 ^ width) (hy : y < 2 ^ width)
    (h : bits width x = bits width y) : x = y := by
  refine Nat.eq_of_testBit_eq fun i => ?_
  by_cases hi : i < width
  · have hbit := congrArg (·[width - 1 - i]?) h
    simp only [bits, List.getElem?_map, List.getElem?_range (show width - 1 - i < width by omega),
      Option.map_some, Option.some_inj] at hbit
    rwa [show width - 1 - (width - 1 - i) = i by omega] at hbit
  · have hpow : 2 ^ width ≤ 2 ^ i := Nat.pow_le_pow_right (by decide) (Nat.le_of_not_lt hi)
    rw [Nat.testBit_lt_two_pow (Nat.lt_of_lt_of_le hx hpow),
      Nat.testBit_lt_two_pow (Nat.lt_of_lt_of_le hy hpow)]

theorem bits_zero (width : Nat) : bits width 0 = List.replicate width false := by
  refine List.eq_replicate_iff.mpr ⟨length_bits width 0, fun b hb => ?_⟩
  obtain ⟨i, -, rfl⟩ := List.mem_map.mp hb
  exact Nat.zero_testBit _

theorem bits_append {w v x y : Nat} (hy : y < 2 ^ v) :
    bits (w + v) (x * 2 ^ v + y) = bits w x ++ bits v y := by
  apply List.ext_getElem
  · rw [List.length_append, length_bits, length_bits, length_bits]
  · intro i hi hi'
    rw [length_bits] at hi
    have hbit := Nat.testBit_two_pow_mul_add x hy (w + v - 1 - i)
    rw [Nat.mul_comm] at hbit
    by_cases hleft : i < w
    · rw [List.getElem_append_left (by rwa [length_bits])]
      simp only [bits, List.getElem_map, List.getElem_range]
      rw [hbit, if_neg (by omega), show w + v - 1 - i - v = w - 1 - i by omega]
    · rw [List.getElem_append_right (by rw [length_bits]; omega)]
      simp only [bits, List.getElem_map, List.getElem_range, List.length_map, List.length_range]
      rw [hbit, if_pos (by omega), show w + v - 1 - i = v - 1 - (i - w) by omega]

theorem flatMap_bits (h : ∀ x ∈ l, x.Fits) :
    (l.flatMap fun x => bits x.width x.value) = bits (totalWidth l) (totalValue l) := by
  induction l with
  | nil => rfl
  | cons x l ih =>
    have hrest : ∀ y ∈ l, y.Fits := fun y hy => h y (List.mem_cons_of_mem x hy)
    rw [List.flatMap_cons, ih hrest]
    exact (bits_append (totalValue_lt hrest)).symm

theorem bytesValue_lt (l : List (BitVec 8)) : bytesValue l < 2 ^ (8 * l.length) := by
  induction l with
  | nil => exact Nat.one_pos
  | cons c l ih =>
    have hc := c.isLt
    show c.toNat * 2 ^ (8 * l.length) + bytesValue l < 2 ^ (8 * (l.length + 1))
    calc c.toNat * 2 ^ (8 * l.length) + bytesValue l
        < (c.toNat + 1) * 2 ^ (8 * l.length) := by
          rw [Nat.add_mul, Nat.one_mul]; exact Nat.add_lt_add_left ih _
      _ ≤ 2 ^ 8 * 2 ^ (8 * l.length) := Nat.mul_le_mul_right _ hc
      _ = 2 ^ (8 * (l.length + 1)) := by rw [← Nat.pow_add]; congr 1; omega

theorem flatMap_bits_bytes (l : List (BitVec 8)) :
    (l.flatMap fun b => bits 8 b.toNat) = bits (8 * l.length) (bytesValue l) := by
  induction l with
  | nil => rfl
  | cons b l ih =>
    rw [List.flatMap_cons, ih, ← bits_append (bytesValue_lt l), List.length_cons,
      show 8 + 8 * l.length = 8 * (l.length + 1) by omega]
    rfl

theorem length_flatMap_bits (l : List (BitVec 8)) :
    (l.flatMap fun b => bits 8 b.toNat).length = 8 * l.length := by
  rw [flatMap_bits_bytes, length_bits]

theorem eq_of_flatMap_bits {a b : List (BitVec 8)}
    (h : (a.flatMap fun b => bits 8 b.toNat) = b.flatMap fun b => bits 8 b.toNat) : a = b := by
  have hlength := congrArg List.length h
  rw [length_flatMap_bits, length_flatMap_bits] at hlength
  induction a generalizing b with
  | nil => exact (List.length_eq_zero_iff.mp (by simpa using hlength.symm)).symm
  | cons x a ih =>
    cases b with
    | nil => simp at hlength
    | cons y b =>
      obtain ⟨hhead, hrest⟩ := List.append_inj h (by rw [length_bits, length_bits])
      rw [BitVec.eq_of_toNat_eq (bits_inj x.isLt y.isLt hhead),
        ih hrest (by simpa using hlength)]

end Duckbox.Lib
