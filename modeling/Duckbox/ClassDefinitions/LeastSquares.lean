import Duckbox.ClassDefinitions.LongLongLong
import Duckbox.ClassDefinitions.RationalRounding
import Duckbox.Lib.LineFit

/-!
# The least squares fit

`LeastSquares_c` accumulates a line fit: `Add` moves a point by a difference and
adds its coordinates and their products to 96-bit sums, `Gradient` and
`Intercept` are quotients of differences of products of these. The differences
have the opposite sign to the textbook's in both the numerator and the
denominator.
-/

namespace Duckbox.ClassDefinitions

open Lib

/-- `LeastSquares_c`. -/
structure LeastSquares where
  count : BitVec 32
  cumulativeX : BitVec 64
  cumulativeY : BitVec 64
  sigmaXSquared : LongLongLong
  sigmaX : LongLongLong
  sigmaY : LongLongLong
  sigmaYX : LongLongLong
deriving DecidableEq, Repr

namespace LeastSquares

open LongLongLong (ofLongLong longLongMul)

/-- `Reset`. -/
def reset : LeastSquares where
  count := 0
  cumulativeX := 0
  cumulativeY := 0
  sigmaXSquared := ofLongLong 0
  sigmaX := ofLongLong 0
  sigmaY := ofLongLong 0
  sigmaYX := ofLongLong 0

/-- `Add`. -/
def add (s : LeastSquares) (deltaY deltaX : BitVec 64) : LeastSquares :=
  let cumulativeY := s.cumulativeY + deltaY
  let cumulativeX := s.cumulativeX + deltaX
  { count := s.count + 1
    cumulativeX := cumulativeX
    cumulativeY := cumulativeY
    sigmaY := s.sigmaY.addLongLong cumulativeY
    sigmaYX := s.sigmaYX.addLongLong (cumulativeY * cumulativeX)
    sigmaXSquared := s.sigmaXSquared.addLongLong (cumulativeX * cumulativeX)
    sigmaX := s.sigmaX.addLongLong cumulativeX }

/-- The quotient of two 96-bit integers, brought to one shift where `Get` gives two. -/
def quotient (top bottom : LongLongLong) : Rational :=
  let topShift := top.get.2
  let bottomShift := bottom.get.2
  if topShift > bottomShift then
    .ofLongLongs top.get.1 (bottom.get.1.sdiv (extend (1#32 <<< (topShift - bottomShift))))
  else if topShift < bottomShift then
    .ofLongLongs (top.get.1.sdiv (extend (1#32 <<< (bottomShift - topShift)))) bottom.get.1
  else .ofLongLongs top.get.1 bottom.get.1

/-- The `Count` as the `long long` that is multiplied. -/
def countLong (s : LeastSquares) : BitVec 64 := s.count.setWidth 64

/-- The denominator of both. -/
def bottom (s : LeastSquares) : LongLongLong :=
  (s.sigmaX.mul s.sigmaX).sub (longLongMul s.countLong s.sigmaXSquared)

/-- `Gradient`. -/
def gradient (s : LeastSquares) : Rational :=
  if s.count < 2 then .ofLongLong 0
  else quotient ((s.sigmaY.mul s.sigmaX).sub (longLongMul s.countLong s.sigmaYX)) s.bottom

/-- `Intercept`. -/
def intercept (s : LeastSquares) : Rational :=
  if s.count < 2 then .ofLongLong 0
  else quotient ((s.sigmaX.mul s.sigmaYX).sub (s.sigmaY.mul s.sigmaXSquared)) s.bottom

/-! ## Runs -/

/-- The fit after a list of `Add`s, each of a difference in `Y` and one in `X`. -/
def fit (deltas : List (BitVec 64 × BitVec 64)) : LeastSquares :=
  deltas.foldl (fun s d => s.add d.1 d.2) reset

/-- The points that the differences lead to from `(x, y)`. -/
def pointsFrom (x y : Int) : List (BitVec 64 × BitVec 64) → List (Int × Int)
  | [] => []
  | d :: deltas =>
    (x + d.2.toInt, y + d.1.toInt) :: pointsFrom (x + d.2.toInt) (y + d.1.toInt) deltas

/-- The accumulated points, each as `(X, Y)`. -/
def points (deltas : List (BitVec 64 × BitVec 64)) : List (Int × Int) := pointsFrom 0 0 deltas

theorem length_pointsFrom (x y : Int) (deltas : List (BitVec 64 × BitVec 64)) :
    (pointsFrom x y deltas).length = deltas.length := by
  induction deltas generalizing x y with
  | nil => rfl
  | cons d deltas ih => exact congrArg (· + 1) (ih _ _)

end LeastSquares

end Duckbox.ClassDefinitions

/-!
## The fit is the least squares line

While the coordinates and their products stay below 63 bits the 96-bit sums are
the sums over the points (`accumulates_run`). Where the products of the sums
stay below 96 bits and their differences below 63, nothing is shifted, and the
two quotients are the slope and the intercept of the line of least squares
(`fit_least`).
-/

namespace Duckbox.ClassDefinitions

open Lib LineFit

namespace LeastSquares

open LongLongLong (ofLongLong longLongMul Normal)

/-! ## Accumulation -/

/-- The coordinates and their products are below 63 bits. -/
structure PointFits (p : Int × Int) : Prop where
  x : p.1.natAbs < 2 ^ 63
  y : p.2.natAbs < 2 ^ 63
  xx : (p.1 * p.1).natAbs < 2 ^ 63
  xy : (p.1 * p.2).natAbs < 2 ^ 63

instance (p : Int × Int) : Decidable (PointFits p) :=
  decidable_of_iff (p.1.natAbs < 2 ^ 63 ∧ p.2.natAbs < 2 ^ 63 ∧ (p.1 * p.1).natAbs < 2 ^ 63 ∧
      (p.1 * p.2).natAbs < 2 ^ 63)
    ⟨fun ⟨x, y, xx, xy⟩ => ⟨x, y, xx, xy⟩, fun ⟨x, y, xx, xy⟩ => ⟨x, y, xx, xy⟩⟩

/-- A 96-bit sum of `n` numbers of 63 bits. -/
structure Sums (a : LongLongLong) (v : Int) (n : Nat) : Prop where
  normal : a.Normal
  value : a.value = v
  bound : v.natAbs ≤ n * 2 ^ 63

/-- What the state holds once it is at `(x, y)` and has the points `ps` behind it. -/
structure Accumulates (s : LeastSquares) (x y : Int) (ps : List (Int × Int)) : Prop where
  count : s.count.toNat = ps.length
  x : s.cumulativeX.toInt = x
  y : s.cumulativeY.toInt = y
  sigmaX : Sums s.sigmaX (sumX ps) ps.length
  sigmaY : Sums s.sigmaY (sumY ps) ps.length
  sigmaXSquared : Sums s.sigmaXSquared (sumXX ps) ps.length
  sigmaYX : Sums s.sigmaYX (sumXY ps) ps.length

theorem toInt_of_natAbs {v : Int} (h : v.natAbs < 2 ^ 63) : v.bmod (2 ^ 64) = v :=
  Int.bmod_eq_of_le (by omega) (by omega)

theorem toInt_add {a b : BitVec 64} {x y : Int} (ha : a.toInt = x) (hb : b.toInt = y)
    (h : (x + y).natAbs < 2 ^ 63) : (a + b).toInt = x + y := by
  rw [BitVec.toInt_add, ha, hb, toInt_of_natAbs h]

theorem toInt_mul {a b : BitVec 64} {x y : Int} (ha : a.toInt = x) (hb : b.toInt = y)
    (h : (x * y).natAbs < 2 ^ 63) : (a * b).toInt = x * y := by
  rw [BitVec.toInt_mul, ha, hb, toInt_of_natAbs h]

theorem ne_intMin {t : BitVec 64} {v : Int} (ht : t.toInt = v) (h : v.natAbs < 2 ^ 63) :
    t ≠ BitVec.intMin 64 := by
  intro hmin
  rw [hmin] at ht
  rw [← ht] at h
  exact absurd h (by decide)

theorem sums_addLongLong {a : LongLongLong} {v w : Int} {n : Nat} {t : BitVec 64} (h : Sums a v n)
    (ht : t.toInt = w) (hw : w.natAbs < 2 ^ 63) (hn : n + 1 < 2 ^ 32) :
    Sums (a.addLongLong t) (v + w) (n + 1) := by
  have hbound := h.bound
  have hsum := LongLongLong.add_exactTo h.normal (LongLongLong.normal_ofLongLong t)
  rw [LongLongLong.value_ofLongLong (ne_intMin ht hw), h.value, ht] at hsum
  exact ⟨hsum.1, hsum.2 (by omega), by omega⟩

theorem sums_zero : Sums (ofLongLong 0) 0 0 := by
  refine ⟨LongLongLong.normal_ofLongLong 0, ?_, Nat.le_refl _⟩
  exact LongLongLong.value_ofLongLong (by decide)

theorem accumulates_reset : Accumulates reset 0 0 [] :=
  ⟨rfl, rfl, rfl, sums_zero, sums_zero, sums_zero, sums_zero⟩

variable {ps : List (Int × Int)}

theorem accumulates_add {s : LeastSquares} {x y : Int} (h : Accumulates s x y ps)
    (dy dx : BitVec 64)
    (hp : PointFits (x + dx.toInt, y + dy.toInt)) (hn : ps.length + 1 < 2 ^ 32) :
    Accumulates (s.add dy dx) (x + dx.toInt) (y + dy.toInt)
      (ps ++ [(x + dx.toInt, y + dy.toInt)]) := by
  have hx := toInt_add h.x rfl hp.x
  have hy := toInt_add h.y rfl hp.y
  have hyx := toInt_mul hy hx (by rw [Int.mul_comm]; exact hp.xy)
  rw [Int.mul_comm] at hyx
  have hlength : (ps ++ [(x + dx.toInt, y + dy.toInt)]).length = ps.length + 1 := List.length_append
  constructor
  · show (s.count + 1).toNat = _
    rw [hlength, BitVec.toNat_add, h.count]
    exact Nat.mod_eq_of_lt hn
  · exact hx
  · exact hy
  · rw [hlength, sumX, total_concat]
    exact sums_addLongLong h.sigmaX hx hp.x hn
  · rw [hlength, sumY, total_concat]
    exact sums_addLongLong h.sigmaY hy hp.y hn
  · rw [hlength, sumXX, total_concat]
    exact sums_addLongLong h.sigmaXSquared (toInt_mul hx hx hp.xx) hp.xx hn
  · rw [hlength, sumXY, total_concat]
    exact sums_addLongLong h.sigmaYX hyx hp.xy hn

theorem accumulates_run {s : LeastSquares} {x y : Int} (deltas : List (BitVec 64 × BitVec 64))
    (h : Accumulates s x y ps) (hfits : ∀ p ∈ pointsFrom x y deltas, PointFits p)
    (hn : ps.length + deltas.length < 2 ^ 32) :
    ∃ x' y', Accumulates (deltas.foldl (fun s d => s.add d.1 d.2) s) x' y'
      (ps ++ pointsFrom x y deltas) := by
  induction deltas generalizing s x y ps with
  | nil =>
    refine ⟨x, y, ?_⟩
    rw [pointsFrom, List.append_nil]
    exact h
  | cons d deltas ih =>
    rw [List.length_cons] at hn
    have hadd := accumulates_add h d.1 d.2 (hfits _ List.mem_cons_self) (by omega)
    have hrest := ih hadd (fun p hp => hfits p (List.mem_cons_of_mem _ hp))
      (by rw [List.length_append, List.length_singleton]; omega)
    rw [List.append_assoc] at hrest
    exact hrest

theorem accumulates_fit (deltas : List (BitVec 64 × BitVec 64))
    (hfits : ∀ p ∈ points deltas, PointFits p) (hn : deltas.length < 2 ^ 32) :
    ∃ x y, Accumulates (fit deltas) x y (points deltas) :=
  accumulates_run deltas accumulates_reset hfits (by rw [List.length_nil, Nat.zero_add]; exact hn)

/-! ## The quotients -/

theorem get_unshifted {a : LongLongLong} {v : Int} (ha : a.Normal) (hv : a.value = v)
    (h : v.natAbs < 2 ^ 63) : a.get.2 = 0 ∧ a.get.1.toInt = v := by
  have hspec := LongLongLong.get_spec ha
  rw [← hv, LongLongLong.natAbs_value] at h
  have hzero : a.get.2 = 0 := Nat.le_zero.mp (hspec.least 0 (by rw [Nat.pow_zero, Nat.div_one]; exact h))
  refine ⟨hzero, ?_⟩
  rw [hspec.value, hzero, Int.pow_zero, Int.tdiv_one, hv]

theorem value_ofLongLongs {t b : BitVec 64} {x y : Int} (ht : t.toInt = x) (hb : b.toInt = y)
    (hx : x.natAbs < 2 ^ 63) (hy : y.natAbs < 2 ^ 63) (hne : y ≠ 0) :
    (Rational.ofLongLongs t b).Represents (x / y : ℚ) := by
  have htop := toNat_abs (ne_intMin ht hx)
  have hbot := toNat_abs (ne_intMin hb hy)
  have hxs : x = signed (t.slt 0) (abs t).toNat := by rw [htop, signed_toInt, ht]
  have hys : y = signed (b.slt 0) (abs b).toNat := by rw [hbot, signed_toInt, hb]
  have hne' : (abs b).toNat ≠ 0 := by
    rw [hbot, hb]
    exact Int.natAbs_ne_zero.mpr hne
  refine ⟨fun hz => hne' (congrArg BitVec.toNat hz), ?_⟩
  rw [Rational.value_eq, hxs, hys]
  show (signed (t.slt 0 ^^ b.slt 0) (abs t).toNat : ℚ) / (abs b).toNat = _
  cases t.slt 0 <;> cases b.slt 0 <;> simp [div_neg, neg_div]

theorem quotient_represents {top bottom : LongLongLong} {x y : Int} (ht : top.Normal)
    (hb : bottom.Normal) (htv : top.value = x) (hbv : bottom.value = y)
    (hx : x.natAbs < 2 ^ 63) (hy : y.natAbs < 2 ^ 63) (hne : y ≠ 0) :
    (quotient top bottom).Represents (x / y : ℚ) := by
  obtain ⟨htop, htoInt⟩ := get_unshifted ht htv hx
  obtain ⟨hbot, hboInt⟩ := get_unshifted hb hbv hy
  unfold quotient
  rw [htop, hbot]
  exact value_ofLongLongs htoInt hboInt hx hy hne

theorem difference {a b c d : LongLongLong} (ha : a.Normal) (hb : b.Normal) (hc : c.Normal)
    (hd : d.Normal) (hab : (a.value * b.value).natAbs < 2 ^ 96)
    (hcd : (c.value * d.value).natAbs < 2 ^ 96)
    (h : (a.value * b.value - c.value * d.value).natAbs < 2 ^ 63) :
    ((a.mul b).sub (c.mul d)).Normal ∧
      ((a.mul b).sub (c.mul d)).value = a.value * b.value - c.value * d.value := by
  obtain ⟨hleft, hvalue⟩ := LongLongLong.mul_exactTo ha hb
  obtain ⟨hright, hvalue'⟩ := LongLongLong.mul_exactTo hc hd
  obtain ⟨hnormal, hexact⟩ := LongLongLong.sub_exactTo hleft hright
  rw [hvalue hab, hvalue' hcd] at hexact
  exact ⟨hnormal, hexact (by omega)⟩

/-- The products of the sums are below 96 bits and their differences below 63. -/
structure SumsFit (ps : List (Int × Int)) : Prop where
  yx : (sumY ps * sumX ps).natAbs < 2 ^ 96
  countYX : (ps.length * sumXY ps).natAbs < 2 ^ 96
  xx : (sumX ps * sumX ps).natAbs < 2 ^ 96
  countXX : (ps.length * sumXX ps).natAbs < 2 ^ 96
  xyx : (sumX ps * sumXY ps).natAbs < 2 ^ 96
  yxx : (sumY ps * sumXX ps).natAbs < 2 ^ 96
  gradient : (sumY ps * sumX ps - ps.length * sumXY ps).natAbs < 2 ^ 63
  intercept : (sumX ps * sumXY ps - sumY ps * sumXX ps).natAbs < 2 ^ 63
  bottom : (sumX ps * sumX ps - ps.length * sumXX ps).natAbs < 2 ^ 63

/-- The points as rationals. -/
def rationals (ps : List (Int × Int)) : List (ℚ × ℚ) :=
  ps.map (Prod.map (Int.castRingHom ℚ) (Int.castRingHom ℚ))

section Rationals

variable (ps : List (Int × Int))

theorem length_rationals : (rationals ps).length = ps.length := List.length_map _

theorem sumX_rationals : sumX (rationals ps) = ((sumX ps : Int) : ℚ) :=
  total_map (Int.castRingHom ℚ) (fun _ => rfl) ps

theorem sumY_rationals : sumY (rationals ps) = ((sumY ps : Int) : ℚ) :=
  total_map (Int.castRingHom ℚ) (fun _ => rfl) ps

theorem sumXX_rationals : sumXX (rationals ps) = ((sumXX ps : Int) : ℚ) :=
  total_map (Int.castRingHom ℚ) (fun p => (map_mul (Int.castRingHom ℚ) p.1 p.1).symm) ps

theorem sumXY_rationals : sumXY (rationals ps) = ((sumXY ps : Int) : ℚ) :=
  total_map (Int.castRingHom ℚ) (fun p => (map_mul (Int.castRingHom ℚ) p.1 p.2).symm) ps

theorem spread_rationals :
    spread (rationals ps) = -((sumX ps * sumX ps - ps.length * sumXX ps : Int) : ℚ) := by
  unfold spread
  rw [length_rationals, sumX_rationals, sumXX_rationals]
  push_cast
  ring

theorem slope_rationals : LineFit.slope (rationals ps) =
    ((sumY ps * sumX ps - ps.length * sumXY ps : Int) : ℚ) /
      ((sumX ps * sumX ps - ps.length * sumXX ps : Int) : ℚ) := by
  unfold LineFit.slope
  rw [spread_rationals, length_rationals, sumX_rationals, sumY_rationals, sumXY_rationals,
    ← neg_div_neg_eq, neg_neg]
  congr 1
  push_cast
  ring

theorem intercept_rationals : LineFit.intercept (rationals ps) =
    ((sumX ps * sumXY ps - sumY ps * sumXX ps : Int) : ℚ) /
      ((sumX ps * sumX ps - ps.length * sumXX ps : Int) : ℚ) := by
  unfold LineFit.intercept
  rw [spread_rationals, sumX_rationals, sumY_rationals, sumXX_rationals, sumXY_rationals,
    ← neg_div_neg_eq, neg_neg]
  congr 1
  push_cast
  ring

end Rationals

section Quotients

variable {s : LeastSquares} {x y : Int} {ps : List (Int × Int)}

theorem countLong_toInt (h : Accumulates s x y ps) (hn : ps.length < 2 ^ 32) :
    s.countLong.toInt = ps.length := by
  have htoNat : s.countLong.toNat = ps.length := by
    unfold countLong
    rw [BitVec.toNat_setWidth, h.count, Nat.mod_eq_of_lt (by omega)]
  rw [BitVec.toInt_eq_toNat_of_lt (by omega), htoNat]

theorem countLong_value (h : Accumulates s x y ps) (hn : ps.length < 2 ^ 32) :
    (ofLongLong s.countLong).Normal ∧ (ofLongLong s.countLong).value = ps.length := by
  have htoInt := countLong_toInt h hn
  refine ⟨LongLongLong.normal_ofLongLong _, ?_⟩
  rw [LongLongLong.value_ofLongLong (ne_intMin htoInt (by omega)), htoInt]

variable (h : Accumulates s x y ps) (hn : ps.length < 2 ^ 32) (hfits : SumsFit ps)

include h hn hfits

theorem bottom_value : s.bottom.Normal ∧
    s.bottom.value = sumX ps * sumX ps - ps.length * sumXX ps := by
  obtain ⟨hcount, hcountValue⟩ := countLong_value h hn
  have hdiff := difference h.sigmaX.normal h.sigmaX.normal hcount h.sigmaXSquared.normal
  rw [h.sigmaX.value, hcountValue, h.sigmaXSquared.value] at hdiff
  exact hdiff hfits.xx hfits.countXX hfits.bottom

theorem gradient_value (h2 : 2 ≤ ps.length)
    (hne : sumX ps * sumX ps - ps.length * sumXX ps ≠ 0) :
    s.gradient.Represents (LineFit.slope (rationals ps)) := by
  obtain ⟨hcount, hcountValue⟩ := countLong_value h hn
  obtain ⟨hbottom, hbottomValue⟩ := bottom_value h hn hfits
  have hdiff := difference h.sigmaY.normal h.sigmaX.normal hcount h.sigmaYX.normal
  rw [h.sigmaY.value, h.sigmaX.value, hcountValue, h.sigmaYX.value] at hdiff
  obtain ⟨htop, htopValue⟩ := hdiff hfits.yx hfits.countYX hfits.gradient
  have hcountGe : ¬s.count < 2 := by
    rw [BitVec.lt_def, h.count]
    exact Nat.not_lt.mpr h2
  unfold gradient
  rw [if_neg hcountGe, slope_rationals]
  exact quotient_represents htop hbottom htopValue hbottomValue hfits.gradient hfits.bottom hne

theorem intercept_value (h2 : 2 ≤ ps.length)
    (hne : sumX ps * sumX ps - ps.length * sumXX ps ≠ 0) :
    s.intercept.Represents (LineFit.intercept (rationals ps)) := by
  obtain ⟨hbottom, hbottomValue⟩ := bottom_value h hn hfits
  have hdiff := difference h.sigmaX.normal h.sigmaYX.normal h.sigmaY.normal h.sigmaXSquared.normal
  rw [h.sigmaX.value, h.sigmaYX.value, h.sigmaY.value, h.sigmaXSquared.value] at hdiff
  obtain ⟨htop, htopValue⟩ := hdiff hfits.xyx hfits.yxx hfits.intercept
  have hcountGe : ¬s.count < 2 := by
    rw [BitVec.lt_def, h.count]
    exact Nat.not_lt.mpr h2
  unfold LeastSquares.intercept
  rw [if_neg hcountGe, intercept_rationals]
  exact quotient_represents htop hbottom htopValue hbottomValue hfits.intercept hfits.bottom hne

end Quotients

/-! ## The line -/

/-- The fit reads out the slope and the intercept, which are those of the one line
with the least squared error, and of the line that the points are on if there is one. -/
structure FitsLine (s : LeastSquares) (ps : List (ℚ × ℚ)) : Prop where
  gradient : s.gradient.Represents (LineFit.slope ps)
  intercept : s.intercept.Represents (LineFit.intercept ps)
  least : ∀ a b, Least a b ps ↔ a = s.gradient.value ∧ b = s.intercept.value
  collinear : ∀ a b, (∀ p ∈ ps, p.2 = a * p.1 + b) →
    s.gradient.value = a ∧ s.intercept.value = b

/-- Not all points are at the same `x`. -/
def Apart (ps : List (Int × Int)) : Prop := ∃ p ∈ ps, ∃ q ∈ ps, p.1 ≠ q.1

theorem Apart.two_le (h : Apart ps) : 2 ≤ ps.length := by
  obtain ⟨p, hp, q, hq, hne⟩ := h
  cases ps with
  | nil => exact absurd hp List.not_mem_nil
  | cons r rs =>
    cases rs with
    | nil =>
      rw [List.mem_singleton.mp hp, List.mem_singleton.mp hq] at hne
      exact absurd rfl hne
    | cons t ts => exact Nat.le_add_left 2 _

theorem Apart.rationals (h : Apart ps) : ∃ p ∈ rationals ps, ∃ q ∈ rationals ps, p.1 ≠ q.1 := by
  obtain ⟨p, hp, q, hq, hne⟩ := h
  refine ⟨_, List.mem_map_of_mem hp, _, List.mem_map_of_mem hq, ?_⟩
  exact fun heq => hne (Int.cast_injective (α := ℚ) heq)

/-- The fit after any number of `Add`s that `Count` can count. -/
theorem fit_least (deltas : List (BitVec 64 × BitVec 64)) (hn : deltas.length < 2 ^ 32)
    (hpoints : ∀ p ∈ points deltas, PointFits p) (hsums : SumsFit (points deltas))
    (hapart : Apart (points deltas)) : FitsLine (fit deltas) (rationals (points deltas)) := by
  obtain ⟨x, y, hacc⟩ := accumulates_fit deltas hpoints hn
  have hn' : (points deltas).length < 2 ^ 32 := by
    rw [points, length_pointsFrom]
    exact hn
  have hspread := (spread_pos hapart.rationals).ne'
  have hne : sumX (points deltas) * sumX (points deltas) -
      (points deltas).length * sumXX (points deltas) ≠ 0 := by
    intro hzero
    rw [spread_rationals, hzero, Int.cast_zero, neg_zero] at hspread
    exact hspread rfl
  have hgradient := gradient_value hacc hn' hsums hapart.two_le hne
  have hintercept := intercept_value hacc hn' hsums hapart.two_le hne
  refine ⟨hgradient, hintercept, ?_, ?_⟩
  · intro a b
    rw [hgradient.2, hintercept.2]
    exact least_iff hapart.rationals
  · intro a b hline
    rw [hgradient.2, hintercept.2]
    have hunique := (normal_of_collinear hline).unique hspread
    exact ⟨hunique.1.symm, hunique.2.symm⟩

/-- The points (0, 1), (1, 3) and (3, 7). -/
theorem fit_least_three :
    (fit [(1, 0), (2, 1), (4, 2)]).gradient.value = 2 ∧
      (fit [(1, 0), (2, 1), (4, 2)]).intercept.value = 1 := by
  have hpoints : points [(1, 0), (2, 1), (4, 2)] = [(0, 1), (1, 3), (3, 7)] := by decide
  have hsums : SumsFit [(0, 1), (1, 3), (3, 7)] :=
    ⟨by decide, by decide, by decide, by decide, by decide, by decide, by decide, by decide,
      by decide⟩
  have happart : Apart [(0, 1), (1, 3), (3, 7)] :=
    ⟨(0, 1), List.mem_cons_self, (1, 3), List.mem_cons_of_mem _ List.mem_cons_self, by decide⟩
  have hline := fit_least [(1, 0), (2, 1), (4, 2)] (by decide) (by rw [hpoints]; decide)
    (by rw [hpoints]; exact hsums) (by rw [hpoints]; exact happart)
  rw [hpoints] at hline
  apply hline.collinear
  intro p hp
  simp only [rationals, List.map_cons, List.map_nil, List.mem_cons, List.not_mem_nil, or_false] at hp
  rcases hp with rfl | rfl | rfl <;> norm_num

/-! ## When `Count` wraps -/

theorem count_run (s : LeastSquares) (deltas : List (BitVec 64 × BitVec 64)) :
    (deltas.foldl (fun s d => s.add d.1 d.2) s).count =
      s.count + BitVec.ofNat 32 deltas.length := by
  induction deltas generalizing s with
  | nil => exact (BitVec.add_zero _).symm
  | cons d deltas ih =>
    rw [List.foldl_cons, ih, List.length_cons, BitVec.ofNat_add, BitVec.add_comm (BitVec.ofNat _ _),
      ← BitVec.add_assoc]
    rfl

theorem gradient_wrapped {deltas : List (BitVec 64 × BitVec 64)} (h : deltas.length = 2 ^ 32) :
    (fit deltas).gradient = .ofLongLong 0 := by
  have hcount : (fit deltas).count = 0 := by
    unfold fit
    rw [count_run, h]
    rfl
  unfold gradient
  rw [hcount]
  exact if_pos (by decide)

theorem pointsFrom_zeros (n : Nat) :
    pointsFrom 0 0 (List.replicate n (0, 0)) = List.replicate n (0, 0) := by
  induction n with
  | zero => rfl
  | succ n ih => exact congrArg (List.cons (0, 0)) ih

theorem total_zeros {f : Int × Int → Int} (h : f (0, 0) = 0) (n : Nat) :
    total f (List.replicate n (0, 0)) = 0 := by
  induction n with
  | zero => rfl
  | succ n ih => rw [List.replicate_succ, total_cons, h, ih, add_zero]

/-- To (1, 1), back to the origin, and there `n` times more. -/
def staying (n : Nat) : List (BitVec 64 × BitVec 64) :=
  (1, 1) :: (-1, -1) :: List.replicate n (0, 0)

section Staying

variable (n : Nat)

theorem points_staying : points (staying n) = (1, 1) :: List.replicate (n + 1) (0, 0) :=
  congrArg (fun ps => (1, 1) :: (0, 0) :: ps) (pointsFrom_zeros n)

theorem length_points_staying : (points (staying n)).length = n + 2 := by
  rw [points_staying, List.length_cons, List.length_replicate]

theorem sumX_staying : sumX (points (staying n)) = 1 := by
  rw [points_staying, sumX, total_cons, total_zeros rfl, add_zero]

theorem sumY_staying : sumY (points (staying n)) = 1 := by
  rw [points_staying, sumY, total_cons, total_zeros rfl, add_zero]

theorem sumXX_staying : sumXX (points (staying n)) = 1 := by
  rw [points_staying, sumXX, total_cons, total_zeros rfl, add_zero]
  rfl

theorem sumXY_staying : sumXY (points (staying n)) = 1 := by
  rw [points_staying, sumXY, total_cons, total_zeros rfl, add_zero]
  rfl

theorem pointFits_staying : ∀ p ∈ points (staying n), PointFits p := by
  intro p hp
  rw [points_staying] at hp
  rcases List.mem_cons.mp hp with rfl | hp
  · decide
  · rw [List.eq_of_mem_replicate hp]
    decide

theorem sumsFit_staying (hn : n ≤ 2 ^ 32) : SumsFit (points (staying n)) := by
  constructor <;>
    simp only [sumX_staying, sumY_staying, sumXX_staying, sumXY_staying, length_points_staying] <;>
    omega

theorem apart_staying : Apart (points (staying n)) := by
  rw [points_staying]
  exact ⟨(1, 1), List.mem_cons_self, (0, 0),
    List.mem_cons_of_mem _ (List.mem_replicate.mpr ⟨Nat.succ_ne_zero n, rfl⟩), by decide⟩

theorem slope_staying : LineFit.slope (rationals (points (staying n))) = 1 := by
  have hspread := (spread_pos (apart_staying n).rationals).ne'
  have hline : ∀ p ∈ rationals (points (staying n)), p.2 = 1 * p.1 + 0 := by
    intro p hp
    rw [points_staying] at hp
    obtain ⟨q, hq, rfl⟩ := List.mem_map.mp hp
    rcases List.mem_cons.mp hq with rfl | hq
    · norm_num
    · rw [List.eq_of_mem_replicate hq]
      norm_num
  exact ((normal_of_collinear hline).unique hspread).1.symm

end Staying

/-- `2 ^ 32` `Add`s of small numbers: the points are on a line of slope 1 and the
gradient read out is 0. -/
theorem fit_wraps :
    (∀ p ∈ points (staying (2 ^ 32 - 2)), PointFits p) ∧
      SumsFit (points (staying (2 ^ 32 - 2))) ∧ Apart (points (staying (2 ^ 32 - 2))) ∧
      LineFit.slope (rationals (points (staying (2 ^ 32 - 2)))) = 1 ∧
      (fit (staying (2 ^ 32 - 2))).gradient.value = 0 := by
  have hlength : (staying (2 ^ 32 - 2)).length = 2 ^ 32 := by
    rw [staying, List.length_cons, List.length_cons, List.length_replicate]
    omega
  refine ⟨pointFits_staying _, sumsFit_staying _ (by omega), apart_staying _, slope_staying _, ?_⟩
  rw [gradient_wrapped hlength]
  exact Rational.value_ofInt 0

end LeastSquares

end Duckbox.ClassDefinitions

/-!
## What can be read out

Where `Get` shifts, a quotient is that of the two numbers without their last bits
(`quotient_parts`). It has a denominator where the bottom is not 0 and the top not
too large for it, and its divisors are no powers of two that an `int` has not got
where the two are not too far apart.
-/

namespace Duckbox.ClassDefinitions.LeastSquares

open Lib

/-- What `quotient` divides by. -/
def quotientDivisors (top bottom : LongLongLong) : List (BitVec 64) :=
  let topShift := top.get.2
  let bottomShift := bottom.get.2
  if topShift > bottomShift then [extend (1#32 <<< (topShift - bottomShift))]
  else if topShift < bottomShift then [extend (1#32 <<< (bottomShift - topShift))]
  else []

/-- The numbers are no more than 31 bits apart, where they are above 63. -/
def Near (top bottom : LongLongLong) : Prop :=
  top.value.natAbs < 2 ^ 31 * max bottom.value.natAbs (2 ^ 63) ∧
    bottom.value.natAbs < 2 ^ 31 * max top.value.natAbs (2 ^ 63)

instance (top bottom : LongLongLong) : Decidable (Near top bottom) :=
  inferInstanceAs (Decidable (_ ∧ _))

/-- The numerator of `Gradient`. -/
def gradientTop (s : LeastSquares) : LongLongLong :=
  (s.sigmaY.mul s.sigmaX).sub (LongLongLong.longLongMul s.countLong s.sigmaYX)

/-- The numerator of `Intercept`. -/
def interceptTop (s : LeastSquares) : LongLongLong :=
  (s.sigmaX.mul s.sigmaYX).sub (s.sigmaY.mul s.sigmaXSquared)

/-- There is a quotient. -/
structure Divides (top bottom : LongLongLong) : Prop where
  nonzero : bottom.value ≠ 0
  bounded : top.value.natAbs ≤ 2 ^ 62 * bottom.value.natAbs
  near : Near top bottom

instance (top bottom : LongLongLong) : Decidable (Divides top bottom) :=
  decidable_of_iff (_ ∧ _ ∧ _) ⟨fun ⟨nonzero, bounded, near⟩ => ⟨nonzero, bounded, near⟩,
    fun ⟨nonzero, bounded, near⟩ => ⟨nonzero, bounded, near⟩⟩

section Parts

variable {a top bottom : LongLongLong}

theorem get_bounds (ha : a.Normal) :
    a.get.1.toInt.natAbs = a.value.natAbs / 2 ^ a.get.2 ∧
      a.value.natAbs < 2 ^ (63 + a.get.2) ∧ (0 < a.get.2 → 2 ^ (62 + a.get.2) ≤ a.value.natAbs) := by
  have hspec := LongLongLong.get_spec ha
  have hvalue : a.get.1.toInt.natAbs = a.value.natAbs / 2 ^ a.get.2 := by
    rw [hspec.value, Int.natAbs_tdiv, Int.natAbs_pow]
    rfl
  refine ⟨hvalue, ?_, fun hpos => ?_⟩
  · have hfits := hspec.fits
    rw [hvalue, Nat.div_lt_iff_lt_mul (Nat.two_pow_pos _), ← Nat.pow_add] at hfits
    exact hfits
  · by_contra hlt
    have hleast := hspec.least (a.get.2 - 1)
    rw [← LongLongLong.natAbs_value, Nat.div_lt_iff_lt_mul (Nat.two_pow_pos _), ← Nat.pow_add,
      show 63 + (a.get.2 - 1) = 62 + a.get.2 by omega] at hleast
    have := hleast (Nat.lt_of_not_le hlt)
    omega

theorem sdiv_shift {x : BitVec 64} {k : Nat} (hx : x.toInt.natAbs < 2 ^ 63) (hk : k < 32) :
    (x.sdiv (extend (1#32 <<< k))).toInt.natAbs = x.toInt.natAbs / 2 ^ k := by
  have hall : ∀ k < 32, (extend (1#32 <<< k)).toInt.natAbs = 2 ^ k := by decide
  have hle : (x.toInt.tdiv (extend (1#32 <<< k)).toInt).natAbs ≤ x.toInt.natAbs := by
    rw [Int.natAbs_tdiv]
    exact Nat.div_le_self _ _
  rw [BitVec.toInt_sdiv, toInt_of_natAbs (Nat.lt_of_le_of_lt hle hx), Int.natAbs_tdiv, hall k hk]
  rfl

theorem shifts_near (ht : top.Normal) (hb : bottom.Normal) (h : Near top bottom) :
    top.get.2 < bottom.get.2 + 32 ∧ bottom.get.2 < top.get.2 + 32 := by
  obtain ⟨-, hthigh, htlow⟩ := get_bounds ht
  obtain ⟨-, hbhigh, hblow⟩ := get_bounds hb
  have hfar {x y i j : Nat} (hx : 0 < i → 2 ^ (62 + i) ≤ x) (hy : y < 2 ^ (63 + j))
      (hxy : x < 2 ^ 31 * max y (2 ^ 63)) : i < j + 32 := by
    by_contra hge
    have hmax : max y (2 ^ 63) ≤ 2 ^ (63 + j) :=
      max_le hy.le (Nat.pow_le_pow_right (by decide) (by omega))
    have hchain : 2 ^ (62 + i) < 2 ^ 31 * 2 ^ (63 + j) :=
      Nat.lt_of_lt_of_le (Nat.lt_of_le_of_lt (hx (by omega)) hxy) (Nat.mul_le_mul_left _ hmax)
    rw [← Nat.pow_add] at hchain
    have := (Nat.pow_lt_pow_iff_right (by decide : 1 < 2)).mp hchain
    omega
  exact ⟨hfar htlow hbhigh h.1, hfar hblow hthigh h.2⟩

theorem abs_parts {x : BitVec 64} {m : Nat} (h : x.toInt.natAbs = m) (hm : m < 2 ^ 63) :
    (abs x).toNat = m := by
  rw [toNat_abs (ne_intMin rfl (h ▸ hm)), h]

theorem quotient_parts (ht : top.Normal) (hb : bottom.Normal) (h : Near top bottom) :
    (quotient top bottom).numerator.toNat = top.value.natAbs / 2 ^ max top.get.2 bottom.get.2 ∧
      (quotient top bottom).denominator.toNat =
        bottom.value.natAbs / 2 ^ max top.get.2 bottom.get.2 ∧
      (quotient top bottom).numerator.toNat < 2 ^ 63 ∧
      (quotient top bottom).denominator.toNat < 2 ^ 63 := by
  obtain ⟨htnear, hbnear⟩ := shifts_near ht hb h
  obtain ⟨htop, -, -⟩ := get_bounds ht
  obtain ⟨hbot, -, -⟩ := get_bounds hb
  have htfits := (LongLongLong.get_spec ht).fits
  have hbfits := (LongLongLong.get_spec hb).fits
  have hless {x k : Nat} (hx : x < 2 ^ 63) : x / 2 ^ k < 2 ^ 63 :=
    Nat.lt_of_le_of_lt (Nat.div_le_self _ _) hx
  have hdown {x i j : Nat} (hij : i < j) : x / 2 ^ i / 2 ^ (j - i) = x / 2 ^ j := by
    rw [Nat.div_div_eq_div_mul, ← Nat.pow_add, Nat.add_sub_cancel' hij.le]
  unfold quotient Rational.ofLongLongs
  dsimp only
  split
  · next hgt =>
    have hshift := sdiv_shift hbfits (by omega : top.get.2 - bottom.get.2 < 32)
    have hbelow := hless (k := top.get.2 - bottom.get.2) hbfits
    rw [max_eq_left (by omega)]
    dsimp only
    rw [abs_parts rfl htfits, abs_parts hshift hbelow]
    refine ⟨htop, ?_, htfits, hbelow⟩
    rw [hbot, hdown hgt]
  · split
    · next hlt =>
      have hshift := sdiv_shift htfits (by omega : bottom.get.2 - top.get.2 < 32)
      have hbelow := hless (k := bottom.get.2 - top.get.2) htfits
      rw [max_eq_right (by omega)]
      dsimp only
      rw [abs_parts hshift hbelow, abs_parts rfl hbfits]
      refine ⟨?_, hbot, hbelow, hbfits⟩
      rw [htop, hdown hlt]
    · next hnlt =>
      have hsame : top.get.2 = bottom.get.2 := by omega
      dsimp only
      rw [abs_parts rfl htfits, abs_parts rfl hbfits]
      refine ⟨?_, ?_, htfits, hbfits⟩
      · rw [htop, max_eq_left (by omega)]
      · rw [hbot, max_eq_right (by omega)]

theorem quotientDivisors_ne_zero (ht : top.Normal) (hb : bottom.Normal) (h : Near top bottom) :
    0 ∉ quotientDivisors top bottom := by
  have hall : ∀ k < 32, extend (1#32 <<< k) ≠ 0 := by decide
  obtain ⟨htnear, hbnear⟩ := shifts_near ht hb h
  unfold quotientDivisors
  dsimp only
  split
  · next hgt =>
    rw [List.mem_singleton]
    exact (hall _ (by omega)).symm
  · split
    · next hlt =>
      rw [List.mem_singleton]
      exact (hall _ (by omega)).symm
    · exact List.not_mem_nil

theorem quotient_denominator (ht : top.Normal) (hb : bottom.Normal) (h : Divides top bottom) :
    0 < (quotient top bottom).denominator.toNat := by
  obtain ⟨-, hden, -, -⟩ := quotient_parts ht hb h.near
  obtain ⟨-, -, htlow⟩ := get_bounds ht
  obtain ⟨-, -, hblow⟩ := get_bounds hb
  have hbottom : 0 < bottom.value.natAbs := Int.natAbs_pos.mpr h.nonzero
  have hbounded := h.bounded
  rw [hden]
  refine Nat.div_pos ?_ (Nat.two_pow_pos _)
  rcases Nat.le_total top.get.2 bottom.get.2 with hle | hle
  · rw [max_eq_right hle]
    rcases Nat.eq_zero_or_pos bottom.get.2 with hz | hpos
    · rw [hz]
      exact hbottom
    · exact (Nat.pow_le_pow_right (by decide) (by omega)).trans (hblow hpos)
  · rw [max_eq_left hle]
    rcases Nat.eq_zero_or_pos top.get.2 with hz | hpos
    · rw [hz]
      exact hbottom
    · have hchain := (htlow hpos).trans hbounded
      rw [Nat.pow_add] at hchain
      exact Nat.le_of_mul_le_mul_left hchain (by decide : 0 < 2 ^ 62)

theorem quotient_leaves (ht : top.Normal) (hb : bottom.Normal) (h : Divides top bottom)
    (hsmall : top.value.natAbs ≤ 2 ^ 30 * bottom.value.natAbs) :
    Rational.AssignsTo (quotient top bottom) (quotient top bottom).assign := by
  obtain ⟨hnum, hden, hn63, hd63⟩ := quotient_parts ht hb h.near
  have hpos := quotient_denominator ht hb h
  have hratio : (quotient top bottom).numerator.toNat <
      2 ^ 30 * ((quotient top bottom).denominator.toNat + 1) := by
    rw [hnum, hden, Nat.div_lt_iff_lt_mul (Nat.two_pow_pos _), Nat.mul_assoc]
    refine Nat.lt_of_le_of_lt hsmall (Nat.mul_lt_mul_of_pos_left ?_ (by decide))
    rw [Nat.mul_comm]
    exact Nat.lt_mul_div_succ _ (Nat.two_pow_pos _)
  refine Rational.assign_within ?_ (Rational.leftOver_pos hpos (by omega))
  have hsize := Nat.size_le.mpr (max_lt hn63 hd63)
  unfold Rational.excess
  omega

end Parts

/-- A line can be read out: slope and intercept are quotients, and the slope is at
most `2 ^ 30`. -/
structure Readable (s : LeastSquares) : Prop where
  gradient : Divides s.gradientTop s.bottom
  slope : s.gradientTop.value.natAbs ≤ 2 ^ 30 * s.bottom.value.natAbs
  intercept : Divides s.interceptTop s.bottom

instance (s : LeastSquares) : Decidable s.Readable :=
  decidable_of_iff (_ ∧ _ ∧ _) ⟨fun ⟨gradient, slope, intercept⟩ => ⟨gradient, slope, intercept⟩,
    fun ⟨gradient, slope, intercept⟩ => ⟨gradient, slope, intercept⟩⟩

/-- What both quotients divide by. -/
def readOutDivisors (s : LeastSquares) : List (BitVec 64) :=
  if s.count < 2 then []
  else quotientDivisors s.gradientTop s.bottom ++ quotientDivisors s.interceptTop s.bottom

section Readable

variable (s : LeastSquares)

theorem normal_gradientTop : s.gradientTop.Normal :=
  LongLongLong.normal_sub LongLongLong.normal_mul LongLongLong.normal_mul

theorem normal_interceptTop : s.interceptTop.Normal :=
  LongLongLong.normal_sub LongLongLong.normal_mul LongLongLong.normal_mul

theorem normal_bottom : s.bottom.Normal :=
  LongLongLong.normal_sub LongLongLong.normal_mul LongLongLong.normal_mul

variable {s}

theorem Readable.gradient_assigns (h : s.Readable) :
    Rational.AssignsTo s.gradient s.gradient.assign := by
  unfold LeastSquares.gradient
  split
  · exact Rational.assign_within (by decide) (by decide)
  · exact quotient_leaves s.normal_gradientTop s.normal_bottom h.gradient h.slope

theorem Readable.gradient_defined (h : s.Readable) : s.gradient.denominator ≠ 0 := by
  unfold LeastSquares.gradient
  split
  · decide
  · have hpos := quotient_denominator s.normal_gradientTop s.normal_bottom h.gradient
    exact Rational.ne_zero_iff.mpr hpos.ne'

theorem Readable.intercept_defined (h : s.Readable) : s.intercept.denominator ≠ 0 := by
  unfold LeastSquares.intercept
  split
  · decide
  · have hpos := quotient_denominator s.normal_interceptTop s.normal_bottom h.intercept
    exact Rational.ne_zero_iff.mpr hpos.ne'

theorem Readable.divisors_ne_zero (h : s.Readable) : 0 ∉ s.readOutDivisors := by
  unfold readOutDivisors
  split
  · exact List.not_mem_nil
  · rw [List.mem_append, not_or]
    exact ⟨quotientDivisors_ne_zero s.normal_gradientTop s.normal_bottom h.gradient.near,
      quotientDivisors_ne_zero s.normal_interceptTop s.normal_bottom h.intercept.near⟩

end Readable

end Duckbox.ClassDefinitions.LeastSquares
