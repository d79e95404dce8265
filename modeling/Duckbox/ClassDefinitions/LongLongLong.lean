import Duckbox.ClassDefinitions.Abs
import Duckbox.Lib.TopBit
import Mathlib.Tactic.Linarith

/-!
# 96-bit integers

`LongLongLong_c`: a sign beside an upper 64 and a lower 32 bits, each kept in an
`unsigned long long`. In normal form the lower limb is below `2 ^ 32`; the
constructor builds it and every operator restores it.
-/

namespace Duckbox.ClassDefinitions

open Lib

/-- `LongLongLong_c`. -/
structure LongLongLong where
  negative : Bool
  upper64 : BitVec 64
  lower32 : BitVec 64
deriving DecidableEq, Repr

namespace LongLongLong

/-! ## The operators -/

/-- `LongLongLong_c( Value )`, and the assignment of a `long long`. -/
def ofLongLong (value : BitVec 64) : LongLongLong where
  negative := value.slt 0
  upper64 := (abs value).sshiftRight 32
  lower32 := abs value &&& 0xffffffff

/-- `+` where the signs are the same. -/
def addSame (a f : LongLongLong) : LongLongLong :=
  let lower32 := a.lower32 + f.lower32
  { negative := a.negative
    upper64 := a.upper64 + f.upper64 + lower32 >>> 32
    lower32 := lower32 &&& 0xffffffff }

/-- A borrow from the upper limb where the lower one went below 0. -/
def borrow (r : LongLongLong) : LongLongLong :=
  if r.lower32 > 0xffffffff then
    { r with lower32 := r.lower32 + 0x100000000, upper64 := r.upper64 - 1 }
  else r

/-- `-` where the signs are the same. -/
def subSame (a f : LongLongLong) : LongLongLong :=
  if a.upper64 > f.upper64 ∨ a.upper64 = f.upper64 ∧ a.lower32 > f.lower32 then
    borrow ⟨a.negative, a.upper64 - f.upper64, a.lower32 - f.lower32⟩
  else borrow ⟨!a.negative, f.upper64 - a.upper64, f.lower32 - a.lower32⟩

/-- `+`. With different signs it is `-` of the operand with the sign changed, and
that one finds them the same. -/
def add (a f : LongLongLong) : LongLongLong :=
  if a.negative ≠ f.negative then subSame a { f with negative := a.negative } else addSame a f

/-- `-`. -/
def sub (a f : LongLongLong) : LongLongLong :=
  if a.negative ≠ f.negative then addSame a { f with negative := a.negative } else subSame a f

/-- `*`. -/
def mul (a f : LongLongLong) : LongLongLong :=
  let lower32 := a.lower32 * f.lower32
  let upper64 := a.lower32 * f.upper64 + a.upper64 * f.lower32 + (a.upper64 * f.upper64) <<< 32
  { negative := a.negative ^^ f.negative
    upper64 := upper64 + lower32 >>> 32
    lower32 := lower32 &&& 0xffffffff }

/-! With a `long long` on the right, and on the left. -/

def addLongLong (a : LongLongLong) (i : BitVec 64) : LongLongLong := a.add (ofLongLong i)

def subLongLong (a : LongLongLong) (i : BitVec 64) : LongLongLong := a.sub (ofLongLong i)

def mulLongLong (a : LongLongLong) (v : BitVec 64) : LongLongLong := a.mul (ofLongLong v)

def longLongAdd (i : BitVec 64) (f : LongLongLong) : LongLongLong := (ofLongLong i).add f

def longLongSub (i : BitVec 64) (f : LongLongLong) : LongLongLong := (ofLongLong i).sub f

def longLongMul (v : BitVec 64) (f : LongLongLong) : LongLongLong := (ofLongLong v).mul f

/-! ## Extraction -/

/-- How many bits of the upper limb are in use. -/
def upperBits (upper64 : BitVec 64) : Nat :=
  if upper64 ≠ 0 then
    let bits := if upper64 &&& 0xffffffff00000000 ≠ 0 then 32 else 0
    let bits := bits + if upper64 >>> bits &&& 0xffff0000 ≠ 0 then 16 else 0
    let bits := bits + if upper64 >>> bits &&& 0x0000ff00 ≠ 0 then 8 else 0
    let bits := bits + if upper64 >>> bits &&& 0x000000f0 ≠ 0 then 4 else 0
    let bits := bits + if upper64 >>> bits &&& 0x0000000c ≠ 0 then 2 else 0
    let bits := bits + if upper64 >>> bits &&& 0x00000002 ≠ 0 then 1 else 0
    bits + 1
  else 0

/-- `Get`: a `long long` and how far it was shifted down. -/
def get (a : LongLongLong) : BitVec 64 × Nat :=
  let upperBits := upperBits a.upper64
  let shift := if upperBits > 31 then upperBits - 31 else 0
  let val := (if shift > 31 then a.upper64 >>> (shift - 32) else a.upper64 <<< (32 - shift)) |||
    a.lower32 >>> shift
  (if a.negative then -val else val, shift)

/-! ## The number -/

/-- The lower limb is below `2 ^ 32`. -/
def Normal (a : LongLongLong) : Prop := a.lower32.toNat < 2 ^ 32

def magnitude (a : LongLongLong) : Nat := a.upper64.toNat * 2 ^ 32 + a.lower32.toNat

/-- The number that the limbs stand for. -/
def value (a : LongLongLong) : Int := signed a.negative a.magnitude

instance (a : LongLongLong) : Decidable a.Normal := inferInstanceAs (Decidable (_ < _))

theorem natAbs_value (a : LongLongLong) : a.value.natAbs = a.magnitude := natAbs_signed _ _

end LongLongLong

end Duckbox.ClassDefinitions

/-!
## Exact 96-bit arithmetic

Each operator keeps the normal form, and computes the number it should where
that is below `2 ^ 96` in magnitude (`operators_exact`). `Get` shifts by no more
than it has to (`get_spec`).
-/

namespace Duckbox.ClassDefinitions

open Lib

namespace LongLongLong

/-! ## Limbs -/

section Limbs

variable {a f : LongLongLong} {x : BitVec 64}

theorem low_toNat (x : BitVec 64) : (x &&& 0xffffffff).toNat = x.toNat % 2 ^ 32 := by
  rw [BitVec.toNat_and]
  exact Nat.and_two_pow_sub_one_eq_mod x.toNat 32

theorem high_toNat (x : BitVec 64) : (x >>> 32).toNat = x.toNat / 2 ^ 32 := by
  rw [BitVec.toNat_ushiftRight, Nat.shiftRight_eq_div_pow]

theorem low_lt (x : BitVec 64) : (x &&& 0xffffffff).toNat < 2 ^ 32 := by
  rw [low_toNat]
  exact Nat.mod_lt _ (by decide)

theorem carried {negative : Bool} {upper lower : BitVec 64}
    (h : upper.toNat + lower.toNat / 2 ^ 32 < 2 ^ 64) :
    magnitude ⟨negative, upper + lower >>> 32, lower &&& 0xffffffff⟩ =
      upper.toNat * 2 ^ 32 + lower.toNat := by
  unfold magnitude
  dsimp only
  rw [BitVec.toNat_add, high_toNat, low_toNat, Nat.mod_eq_of_lt h]
  omega

theorem borrowed (negative : Bool) {upper upper' lower lower' : BitVec 64}
    (hlower : lower.toNat < 2 ^ 32) (hlower' : lower'.toNat < 2 ^ 32)
    (h : upper'.toNat * 2 ^ 32 + lower'.toNat ≤ upper.toNat * 2 ^ 32 + lower.toNat) :
    (borrow ⟨negative, upper - upper', lower - lower'⟩).Normal ∧
      magnitude (borrow ⟨negative, upper - upper', lower - lower'⟩) =
        upper.toNat * 2 ^ 32 + lower.toNat - (upper'.toNat * 2 ^ 32 + lower'.toNat) ∧
      (borrow ⟨negative, upper - upper', lower - lower'⟩).negative = negative := by
  have hu := upper.isLt
  have hle : upper'.toNat ≤ upper.toNat := by omega
  have hupper : (upper - upper').toNat = upper.toNat - upper'.toNat :=
    BitVec.toNat_sub_of_le (BitVec.le_def.mpr hle)
  have hmask : (0xffffffff : BitVec 64).toNat = 2 ^ 32 - 1 := rfl
  have hadd : (0x100000000 : BitVec 64).toNat = 2 ^ 32 := rfl
  have hone : (1 : BitVec 64).toNat = 1 := rfl
  unfold borrow magnitude Normal
  dsimp only
  by_cases hlow : lower'.toNat ≤ lower.toNat
  · have hsub : (lower - lower').toNat = lower.toNat - lower'.toNat :=
      BitVec.toNat_sub_of_le (BitVec.le_def.mpr hlow)
    rw [if_neg (by rw [gt_iff_lt, BitVec.lt_def]; omega)]
    dsimp only
    rw [hsub, hupper]
    exact ⟨by omega, by omega, rfl⟩
  · have hsub : (lower - lower').toNat = 2 ^ 64 - lower'.toNat + lower.toNat := by
      rw [BitVec.toNat_sub, Nat.mod_eq_of_lt (by omega)]
    rw [if_pos (by rw [gt_iff_lt, BitVec.lt_def]; omega)]
    have hlower : (lower - lower' + 0x100000000).toNat = 2 ^ 32 + lower.toNat - lower'.toNat := by
      rw [BitVec.toNat_add, hsub, hadd]
      omega
    have hless : (upper - upper' - 1).toNat = upper.toNat - upper'.toNat - 1 := by
      rw [BitVec.toNat_sub_of_le (BitVec.le_def.mpr (by omega)), hupper, hone]
    dsimp only
    rw [hlower, hless]
    exact ⟨by omega, by omega, rfl⟩

end Limbs

/-! ## Addition and subtraction -/

section AddSub

variable {a f : LongLongLong}

theorem value_mk {r : LongLongLong} {p : Bool} {m : Nat} (hp : r.negative = p)
    (hm : r.magnitude = m) : r.value = signed p m := by
  unfold value
  rw [hp, hm]

theorem normal_addSame : (a.addSame f).Normal := low_lt _

theorem value_addSame (ha : a.Normal) (hf : f.Normal) (h : a.magnitude + f.magnitude < 2 ^ 96) :
    (a.addSame f).value = signed a.negative a.magnitude + signed a.negative f.magnitude := by
  unfold Normal at ha hf
  unfold magnitude at h
  have hlower : (a.lower32 + f.lower32).toNat = a.lower32.toNat + f.lower32.toNat := by
    rw [BitVec.toNat_add, Nat.mod_eq_of_lt (by omega)]
  have hupper : (a.upper64 + f.upper64).toNat = a.upper64.toNat + f.upper64.toNat := by
    rw [BitVec.toNat_add, Nat.mod_eq_of_lt (by omega)]
  rw [← signed_add]
  apply value_mk rfl
  unfold addSame
  dsimp only
  rw [carried (by rw [hlower, hupper]; omega), hlower, hupper]
  unfold magnitude
  omega

theorem greater_iff (ha : a.Normal) (hf : f.Normal) :
    (a.upper64 > f.upper64 ∨ a.upper64 = f.upper64 ∧ a.lower32 > f.lower32) ↔
      f.magnitude < a.magnitude := by
  unfold Normal at ha hf
  unfold magnitude
  rw [gt_iff_lt, gt_iff_lt, BitVec.lt_def, BitVec.lt_def, ← BitVec.toNat_inj]
  omega

theorem value_subSame (ha : a.Normal) (hf : f.Normal) :
    (a.subSame f).Normal ∧
      (a.subSame f).value = signed a.negative a.magnitude - signed a.negative f.magnitude := by
  have hiff := greater_iff ha hf
  unfold subSame
  split
  · next hgt =>
    have hle := Nat.le_of_lt (hiff.mp hgt)
    obtain ⟨hnormal, hmag, hneg⟩ := borrowed a.negative ha hf hle
    refine ⟨hnormal, ?_⟩
    rw [← signed_sub _ hle]
    exact value_mk hneg hmag
  · next hng =>
    have hle := Nat.le_of_not_lt fun hlt => hng (hiff.mpr hlt)
    obtain ⟨hnormal, hmag, hneg⟩ := borrowed (!a.negative) hf ha hle
    refine ⟨hnormal, ?_⟩
    rw [← signed_not_sub _ hle]
    exact value_mk hneg hmag

theorem normal_add (ha : a.Normal) (hf : f.Normal) : (a.add f).Normal := by
  unfold add
  split
  · exact (value_subSame ha (f := { f with negative := a.negative }) hf).1
  · exact normal_addSame

theorem normal_sub (ha : a.Normal) (hf : f.Normal) : (a.sub f).Normal := by
  unfold sub
  split
  · exact normal_addSame
  · exact (value_subSame ha hf).1

theorem value_add (ha : a.Normal) (hf : f.Normal) (h : (a.value + f.value).natAbs < 2 ^ 96) :
    (a.add f).value = a.value + f.value := by
  unfold add
  split
  · next hne =>
    rw [(value_subSame ha (f := { f with negative := a.negative }) hf).2]
    show _ - signed a.negative f.magnitude = a.value + signed f.negative f.magnitude
    rw [signed_of_ne hne, ← sub_eq_add_neg]
    rfl
  · next heq =>
    have hsame : f.negative = a.negative := (Decidable.not_not.mp heq).symm
    have hf' : f.value = signed a.negative f.magnitude := value_mk hsame rfl
    rw [hf'] at h ⊢
    unfold value at h ⊢
    rw [← signed_add, natAbs_signed] at h
    exact value_addSame ha hf h

theorem value_sub (ha : a.Normal) (hf : f.Normal) (h : (a.value - f.value).natAbs < 2 ^ 96) :
    (a.sub f).value = a.value - f.value := by
  unfold sub
  split
  · next hne =>
    have hf' : f.value = -signed a.negative f.magnitude := signed_of_ne hne _
    rw [hf', sub_neg_eq_add] at h ⊢
    unfold value at h ⊢
    rw [← signed_add, natAbs_signed] at h
    exact value_addSame ha (f := { f with negative := a.negative }) hf h
  · next heq =>
    have hsame : f.negative = a.negative := (Decidable.not_not.mp heq).symm
    have hf' : f.value = signed a.negative f.magnitude := value_mk hsame rfl
    rw [hf']
    exact (value_subSame ha hf).2

end AddSub

/-! ## Multiplication -/

section Mul

variable {a f : LongLongLong}

theorem normal_mul : (a.mul f).Normal := low_lt _

theorem magnitude_mul_eq : a.magnitude * f.magnitude =
    (a.lower32.toNat * f.upper64.toNat + a.upper64.toNat * f.lower32.toNat +
      a.upper64.toNat * f.upper64.toNat * 2 ^ 32) * 2 ^ 32 + a.lower32.toNat * f.lower32.toNat := by
  unfold magnitude
  ring

theorem value_mul (ha : a.Normal) (hf : f.Normal) (h : (a.value * f.value).natAbs < 2 ^ 96) :
    (a.mul f).value = a.value * f.value := by
  rw [Int.natAbs_mul, natAbs_value, natAbs_value] at h
  unfold value
  rw [← signed_xor]
  apply value_mk rfl
  have hlow : a.lower32.toNat * f.lower32.toNat < 2 ^ 64 :=
    calc a.lower32.toNat * f.lower32.toNat < 2 ^ 32 * 2 ^ 32 := Nat.mul_lt_mul_of_lt_of_lt ha hf
      _ = 2 ^ 64 := by decide
  have hmul := @magnitude_mul_eq a f
  have htoNat {x y : BitVec 64} (hxy : x.toNat * y.toNat < 2 ^ 64) :
      (x * y).toNat = x.toNat * y.toNat := by
    rw [BitVec.toNat_mul, Nat.mod_eq_of_lt hxy]
  generalize hP : a.lower32.toNat * f.lower32.toNat = P at *
  generalize hQ : a.lower32.toNat * f.upper64.toNat = Q at *
  generalize hR : a.upper64.toNat * f.lower32.toNat = R at *
  generalize hS : a.upper64.toNat * f.upper64.toNat = S at *
  have hlower : (a.lower32 * f.lower32).toNat = P := by rw [htoNat (by omega), hP]
  have hcross : (a.lower32 * f.upper64).toNat = Q := by rw [htoNat (by omega), hQ]
  have hcross' : (a.upper64 * f.lower32).toNat = R := by rw [htoNat (by omega), hR]
  have htop : (a.upper64 * f.upper64).toNat = S := by rw [htoNat (by omega), hS]
  have hupper : (a.lower32 * f.upper64 + a.upper64 * f.lower32 +
      (a.upper64 * f.upper64) <<< 32).toNat = Q + R + S * 2 ^ 32 := by
    rw [BitVec.toNat_add, BitVec.toNat_add, BitVec.toNat_shiftLeft, hcross, hcross', htop,
      Nat.shiftLeft_eq]
    omega
  unfold mul
  dsimp only
  rw [carried (by rw [hlower, hupper]; omega), hlower, hupper]
  exact hmul.symm

end Mul

/-! ## Construction -/

theorem normal_ofLongLong (v : BitVec 64) : (ofLongLong v).Normal := low_lt _

theorem value_ofLongLong {v : BitVec 64} (h : v ≠ BitVec.intMin 64) :
    (ofLongLong v).value = v.toInt := by
  have habs := toNat_abs h
  have hlo := v.le_toInt
  have hhi := v.toInt_lt
  have hmin : v.toInt ≠ -2 ^ 63 := fun hv => h (BitVec.eq_of_toInt_eq (by rw [hv]; rfl))
  have hmsb : (abs v).msb = false := by
    rw [BitVec.msb_eq_decide, decide_eq_false_iff_not, habs]
    omega
  rw [← signed_toInt]
  apply value_mk rfl
  unfold ofLongLong magnitude
  dsimp only
  rw [BitVec.sshiftRight_eq_of_msb_false hmsb, high_toNat, low_toNat, habs]
  omega

/-! ## Extraction -/

theorem upperBits_eq (u : BitVec 64) : upperBits u = Nat.size u.toNat := by
  unfold upperBits
  split
  · next hne =>
    have hpos : 0 < u.toNat := Nat.pos_of_ne_zero fun hz => hne (BitVec.eq_of_toNat_eq hz)
    have h64 : TopBitAt u.toNat 0 (2 * 32) := ⟨hpos, u.isLt⟩
    have h32 := topBit_step (m := 0xffffffff00000000) (by decide) h64
    have h16 := topBit_step (k := 16) (m := 0xffff0000) (by decide) h32
    have h8 := topBit_step (k := 8) (m := 0x0000ff00) (by decide) h16
    have h4 := topBit_step (k := 4) (m := 0x000000f0) (by decide) h8
    have h2 := topBit_step (k := 2) (m := 0x0000000c) (by decide) h4
    have h1 := topBit_step (k := 1) (m := 0x00000002) (by decide) h2
    rw [BitVec.ushiftRight_zero, Nat.zero_add] at h1
    exact (topBitAt_size h1).symm
  · next heq =>
    obtain rfl := Decidable.not_not.mp heq
    exact Nat.size_zero.symm

section Get

variable {a : LongLongLong}

theorem get_shift : a.get.2 = Nat.size a.upper64.toNat - 31 := by
  unfold get
  dsimp only
  rw [upperBits_eq]
  split <;> omega

/-- What `Get` shifts the limbs to. -/
def shifted (a : LongLongLong) (shift : Nat) : BitVec 64 :=
  (if shift > 31 then a.upper64 >>> (shift - 32) else a.upper64 <<< (32 - shift)) |||
    a.lower32 >>> shift

theorem get_value : a.get.1 = if a.negative then -a.shifted a.get.2 else a.shifted a.get.2 := rfl

theorem shifted_toNat {shift : Nat} (ha : a.Normal) (h : a.upper64.toNat < 2 ^ (shift + 31)) :
    (a.shifted shift).toNat = a.magnitude / 2 ^ shift ∧ a.magnitude / 2 ^ shift < 2 ^ 63 := by
  unfold Normal at ha
  have hbound : a.magnitude < 2 ^ (shift + 31) * 2 ^ 32 := by
    unfold magnitude
    omega
  refine ⟨?_, ?_⟩
  · unfold shifted
    split
    · next hlarge =>
      obtain ⟨k, rfl⟩ : ∃ k, shift = 32 + k := ⟨shift - 32, by omega⟩
      have hlow : a.lower32.toNat >>> (32 + k) = 0 := by
        rw [Nat.shiftRight_eq_div_pow]
        refine Nat.div_eq_of_lt (Nat.lt_of_lt_of_le ha ?_)
        exact Nat.pow_le_pow_right (by decide) (by omega)
      rw [BitVec.toNat_or, BitVec.toNat_ushiftRight, BitVec.toNat_ushiftRight, hlow, Nat.or_zero,
        Nat.shiftRight_eq_div_pow, Nat.add_sub_cancel_left, Nat.pow_add, ← Nat.div_div_eq_div_mul]
      congr 1
      unfold magnitude
      omega
    · next hsmall =>
      have hpow : 2 ^ (shift + 31) * 2 ^ (32 - shift) = 2 ^ 63 := by
        rw [← Nat.pow_add]
        congr 1
        omega
      have hfit : a.upper64.toNat * 2 ^ (32 - shift) < 2 ^ 64 := by
        have := Nat.mul_lt_mul_of_pos_right h (Nat.two_pow_pos (32 - shift))
        omega
      have hsplit : 2 ^ 32 = 2 ^ (32 - shift) * 2 ^ shift := by
        rw [← Nat.pow_add]
        congr 1
        omega
      have hlow : a.lower32.toNat / 2 ^ shift < 2 ^ (32 - shift) :=
        (Nat.div_lt_iff_lt_mul (Nat.two_pow_pos shift)).mpr (hsplit ▸ ha)
      rw [BitVec.toNat_or, BitVec.toNat_shiftLeft, BitVec.toNat_ushiftRight, Nat.shiftLeft_eq,
        Nat.shiftRight_eq_div_pow, Nat.mod_eq_of_lt hfit, ← Nat.shiftLeft_eq,
        ← Nat.shiftLeft_add_eq_or_of_lt hlow, Nat.shiftLeft_eq]
      unfold magnitude
      rw [hsplit, ← Nat.mul_assoc, Nat.add_comm (_ * 2 ^ shift),
        Nat.add_mul_div_right _ _ (Nat.two_pow_pos shift), Nat.add_comm]
  · rw [Nat.div_lt_iff_lt_mul (Nat.two_pow_pos shift)]
    calc a.magnitude < 2 ^ (shift + 31) * 2 ^ 32 := hbound
      _ = 2 ^ 63 * 2 ^ shift := by
        rw [← Nat.pow_add, ← Nat.pow_add]
        congr 1
        omega

theorem toInt_signed {x : BitVec 64} (p : Bool) (h : x.toNat < 2 ^ 63) :
    (if p then -x else x).toInt = signed p x.toNat := by
  have hx : x.toInt = x.toNat := BitVec.toInt_eq_toNat_of_lt (by omega)
  cases p with
  | false => exact hx
  | true =>
    rw [if_pos rfl, signed_true, BitVec.toInt_neg_of_ne_intMin, hx]
    intro hmin
    rw [hmin] at h
    exact absurd h (by decide)

/-- `Get` gives the number divided by a power of two, truncated towards zero, and the
power is the least for which it fits. -/
structure Extracts (a : LongLongLong) : Prop where
  fits : a.get.1.toInt.natAbs < 2 ^ 63
  value : a.get.1.toInt = a.value.tdiv (2 ^ a.get.2)
  least : ∀ shift, a.magnitude / 2 ^ shift < 2 ^ 63 → a.get.2 ≤ shift

theorem get_spec (ha : a.Normal) : a.Extracts := by
  have hsize : a.upper64.toNat < 2 ^ (a.get.2 + 31) := by
    rw [get_shift]
    exact Nat.lt_of_lt_of_le (Nat.lt_size_self _) (Nat.pow_le_pow_right (by decide) (by omega))
  obtain ⟨htoNat, hlt⟩ := shifted_toNat ha hsize
  have htoInt : a.get.1.toInt = signed a.negative (a.magnitude / 2 ^ a.get.2) := by
    rw [get_value, toInt_signed _ (htoNat ▸ hlt), htoNat]
  constructor
  · rw [htoInt, natAbs_signed]
    exact hlt
  · rw [htoInt, signed_div]
    unfold LongLongLong.value
    push_cast
    rfl
  · intro shift hshift
    by_contra hless
    have hshiftEq := @get_shift a
    -- the top bit of the upper limb is then past the 63
    have htop : 2 ^ (a.get.2 + 30) ≤ a.upper64.toNat := by
      apply Nat.lt_size.mp
      omega
    rw [Nat.div_lt_iff_lt_mul (Nat.two_pow_pos shift), ← Nat.pow_add] at hshift
    have hmag : 2 ^ (a.get.2 + 30) * 2 ^ 32 ≤ a.magnitude := by
      unfold magnitude
      omega
    rw [← Nat.pow_add] at hmag
    have hpow : 2 ^ (63 + shift) ≤ 2 ^ (a.get.2 + 30 + 32) :=
      Nat.pow_le_pow_right (by decide) (by omega)
    omega

end Get

/-! ## Every value that can be built -/

/-- What the constructor and the operators build out of `long long`s. -/
inductive Built : LongLongLong → Prop
  | ofLongLong {v : BitVec 64} (h : v ≠ BitVec.intMin 64) : Built (ofLongLong v)
  | add {a f : LongLongLong} (ha : Built a) (hf : Built f) : Built (a.add f)
  | sub {a f : LongLongLong} (ha : Built a) (hf : Built f) : Built (a.sub f)
  | mul {a f : LongLongLong} (ha : Built a) (hf : Built f) : Built (a.mul f)

theorem Built.normal {a : LongLongLong} (h : Built a) : a.Normal := by
  induction h with
  | ofLongLong _ => exact normal_ofLongLong _
  | add _ _ iha ihf => exact normal_add iha ihf
  | sub _ _ iha ihf => exact normal_sub iha ihf
  | mul _ _ _ _ => exact normal_mul

/-- A result in normal form that is exact where the number is below `2 ^ 96`. -/
def ExactTo (r : LongLongLong) (x : Int) : Prop := r.Normal ∧ (x.natAbs < 2 ^ 96 → r.value = x)

/-- What the operators make of two values and a `long long`. -/
structure OperatorsExact (a f : LongLongLong) (v : BitVec 64) : Prop where
  ofLongLong : (ofLongLong v).Normal ∧ (ofLongLong v).value = v.toInt
  add : ExactTo (a.add f) (a.value + f.value)
  sub : ExactTo (a.sub f) (a.value - f.value)
  mul : ExactTo (a.mul f) (a.value * f.value)
  addLongLong : ExactTo (a.addLongLong v) (a.value + v.toInt)
  subLongLong : ExactTo (a.subLongLong v) (a.value - v.toInt)
  mulLongLong : ExactTo (a.mulLongLong v) (a.value * v.toInt)
  longLongAdd : ExactTo (longLongAdd v a) (v.toInt + a.value)
  longLongSub : ExactTo (longLongSub v a) (v.toInt - a.value)
  longLongMul : ExactTo (longLongMul v a) (v.toInt * a.value)
  get : a.Extracts

section Operators

variable {a f : LongLongLong}

theorem add_exactTo (ha : a.Normal) (hf : f.Normal) : ExactTo (a.add f) (a.value + f.value) :=
  ⟨normal_add ha hf, value_add ha hf⟩

theorem sub_exactTo (ha : a.Normal) (hf : f.Normal) : ExactTo (a.sub f) (a.value - f.value) :=
  ⟨normal_sub ha hf, value_sub ha hf⟩

theorem mul_exactTo (ha : a.Normal) (hf : f.Normal) : ExactTo (a.mul f) (a.value * f.value) :=
  ⟨normal_mul, value_mul ha hf⟩

end Operators

/-- The operators compute with integers up to 96 bits. -/
theorem operators_exact {a f : LongLongLong} {v : BitVec 64} (ha : Built a) (hf : Built f)
    (hv : v ≠ BitVec.intMin 64) : OperatorsExact a f v := by
  have hlong := normal_ofLongLong v
  have hvalue := value_ofLongLong hv
  constructor
  · exact ⟨hlong, hvalue⟩
  · exact add_exactTo ha.normal hf.normal
  · exact sub_exactTo ha.normal hf.normal
  · exact mul_exactTo ha.normal hf.normal
  · exact hvalue ▸ add_exactTo ha.normal hlong
  · exact hvalue ▸ sub_exactTo ha.normal hlong
  · exact hvalue ▸ mul_exactTo ha.normal hlong
  · exact hvalue ▸ add_exactTo hlong ha.normal
  · exact hvalue ▸ sub_exactTo hlong ha.normal
  · exact hvalue ▸ mul_exactTo hlong ha.normal
  · exact get_spec ha.normal

/-- A product of 95 bits, less one. -/
theorem operators_exact_product :
    (((ofLongLong 0x7fffffffffffffff).mul (ofLongLong (-0x80000000))).subLongLong 1).value =
      (2 ^ 63 - 1) * -2 ^ 31 - 1 := by
  have hleft : (0x7fffffffffffffff : BitVec 64) ≠ BitVec.intMin 64 := by decide
  have hright : (-0x80000000 : BitVec 64) ≠ BitVec.intMin 64 := by decide
  have hone : (1 : BitVec 64) ≠ BitVec.intMin 64 := by decide
  have hmul := (operators_exact (.ofLongLong hleft) (.ofLongLong hright) hone).mul.2
  have hsub := (operators_exact (.mul (.ofLongLong hleft) (.ofLongLong hright))
    (.ofLongLong hright) hone).subLongLong.2
  rw [value_ofLongLong hleft, value_ofLongLong hright] at hmul
  rw [hmul (by decide)] at hsub
  exact hsub (by decide)

end LongLongLong

end Duckbox.ClassDefinitions
